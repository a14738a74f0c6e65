/-! # Spans of time

A span is a number of nanoseconds, and so is a moment: the span since the clock was started. Timers look
at the clock once in every millisecond, so a wait is over at a whole millisecond, the first one that is
not too early. It is never longer than `longestWait`, but for the part of a millisecond up to there.
-/

namespace Interchange

/-- A length of time in nanoseconds. -/
abbrev Span := Nat

namespace Span

/-- So many milliseconds. -/
def ofMillis (ms : Nat) : Span := ms * 1000000

/-- So many seconds. -/
def ofSeconds (s : Nat) : Span := s * 1000000000

/-- The whole milliseconds in a span. -/
def millis (s : Span) : Nat := s / 1000000

/-- No wait lasts longer than this: thirty years of 365 days. -/
def longestWait : Span := ofSeconds 946080000

/-- The first whole millisecond that is not before a moment. -/
def tick (t : Span) : Span := ofMillis ((t + 999999) / 1000000)

/-- A moment at which timers look at the clock. -/
def Whole (t : Span) : Prop := t % 1000000 = 0

instance (t : Span) : Decidable t.Whole := inferInstanceAs (Decidable (_ = _))

/-- The moment at which a wait for a span is over that begins now. -/
def wake (now s : Span) : Span := tick (now + min s longestWait)

/-- How long a wait for a span takes that begins at a whole millisecond. -/
def pause (s : Span) : Span := wake 0 s

/-- A part of a unit behind its point, without the zeros at its end. -/
def fractionText (part places : Nat) : String :=
  let digits := (Nat.toDigits 10 part).leftpad places '0'
  let kept := (digits.reverse.dropWhile (· == '0')).reverse
  if kept.isEmpty then "" else "." ++ String.ofList kept

/-- A span in the largest unit that it fills. -/
def describe (s : Span) : String :=
  if 1000000000 ≤ s then
    s!"{s / 1000000000}{fractionText (s % 1000000000) 9}s"
  else if 1000000 ≤ s then s!"{s / 1000000}{fractionText (s % 1000000) 6}ms"
  else if 1000 ≤ s then s!"{s / 1000}{fractionText (s % 1000) 3}µs"
  else s!"{s}ns"

@[simp] theorem millis_ofMillis (ms : Nat) : millis (ofMillis ms) = ms := by
  simp [millis, ofMillis]

theorem le_tick (t : Span) : t ≤ t.tick := by
  have h (n : Nat) : n ≤ (n + 999999) / 1000000 * 1000000 := by omega
  exact h t

/-- Less than a millisecond is waited for in vain. -/
theorem tick_le (t : Span) : t.tick ≤ t + 999999 := by
  have h (n : Nat) : (n + 999999) / 1000000 * 1000000 ≤ n + 999999 := by omega
  exact h t

/-- No whole millisecond lies between a moment and its tick. -/
theorem tick_le_of_whole {t u : Span} (h : t ≤ u) (hu : u.Whole) : t.tick ≤ u := by
  have hround (n m : Nat) (hle : n ≤ m) (hm : m % 1000000 = 0) :
      (n + 999999) / 1000000 * 1000000 ≤ m := by omega
  exact hround t u h hu

theorem whole_ofMillis (ms : Nat) : (ofMillis ms).Whole := Nat.mul_mod_left ..

theorem whole_tick (t : Span) : t.tick.Whole := whole_ofMillis _

theorem whole_wake (now s : Span) : (wake now s).Whole := whole_tick _

theorem Whole.tick_eq {t : Span} (h : t.Whole) : t.tick = t :=
  Nat.le_antisymm (tick_le_of_whole (Nat.le_refl t) h) (le_tick t)

theorem Whole.add {s t : Span} (hs : s.Whole) (ht : t.Whole) : (s + t).Whole := by
  rw [Whole, Nat.add_mod, hs, ht]

theorem Whole.min {s t : Span} (hs : s.Whole) (ht : t.Whole) : Whole (min s t) := by
  rcases Nat.le_total s t with h | h
  · rwa [Nat.min_eq_left h]
  · rwa [Nat.min_eq_right h]

/-- Nothing is waited for too short. -/
theorem add_le_wake (now s : Span) : now + min s longestWait ≤ wake now s := le_tick _

theorem le_wake (now s : Span) : now ≤ wake now s :=
  Nat.le_trans (Nat.le_add_right ..) (add_le_wake now s)

theorem wake_le (now s : Span) : wake now s ≤ now + min s longestWait + 999999 := tick_le _

/-- A wait for whole milliseconds is exact if it begins at one. -/
theorem wake_of_whole {now s : Span} (hnow : now.Whole) (hs : s.Whole) :
    wake now s = now + min s longestWait :=
  Whole.tick_eq (hnow.add (hs.min (by decide)))

end Span

end Interchange
