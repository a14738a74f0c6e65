import Interchange.Attempt.Breaker
import Mathlib.Data.List.Induction

/-!
# Histories of a breaker

Whoever shares a breaker acts on it in one of five ways: a call asks for
admission, the outcome of a call is recorded as a success or a failure, somebody
looks at the state or the statistics, somebody resets it.  A history lists such
operations with the moments at which they take place, and replaying it gives the
breaker that they leave behind.  Nothing is assumed about who acts or why: the
order of a history is the order in which a lock lets the callers in.

The second half of the file is about a breaker that has been open since a known
moment.  Until its timeout is over an operation can only be noted in the totals
(`OpenSince.perform_of_lt`), and so can any number of them
(`OpenSince.replay_eq`); the first look afterwards finds the breaker half-open
(`OpenSince.refresh_of_le`).
-/

namespace Interchange

/-- What is done to a breaker. -/
inductive Operation where
  /-- Ask for the admission of a call. -/
  | enter
  /-- Record the outcome of a call. -/
  | record (success : Bool)
  /-- Look at the state or the statistics. -/
  | look
  /-- Close the breaker by force. -/
  | reset
deriving DecidableEq, Repr

/-- Operations in the order in which they take place, with their moments. -/
abbrev History := List (Span × Operation)

namespace Breaker

/-- The breaker that an operation leaves behind. -/
def perform (b : Breaker) (now : Span) : Operation → Breaker
  | .enter => (b.enter now).1
  | .record true => b.succeed
  | .record false => b.fail now
  | .look => b.refresh now
  | .reset => b.reset

/-- The breaker that a history leaves behind. -/
def replay (b : Breaker) : History → Breaker
  | [] => b
  | (now, o) :: h => (b.perform now o).replay h

@[simp] theorem replay_nil (b : Breaker) : b.replay [] = b := rfl

@[simp] theorem replay_cons (b : Breaker) (x : Span × Operation) (h : History) :
    b.replay (x :: h) = (b.perform x.1 x.2).replay h := rfl

@[simp] theorem replay_append (b : Breaker) (h h' : History) :
    b.replay (h ++ h') = (b.replay h).replay h' := by
  induction h generalizing b with
  | nil => rfl
  | cons x h ih => exact ih _

/-! ## One operation in each state

Every proof about a history cites these equations, so that none of them has to
open the operations again. -/

theorem enter_fst (b : Breaker) (now : Span) :
    (b.enter now).1 =
      if (b.refresh now).circuit = .opened then
        { b.refresh now with totalRejections := (b.refresh now).totalRejections + 1 }
      else b.refresh now := by
  simp only [enter]
  split <;> rfl

/-- A call is let in unless it leaves the breaker open. -/
theorem enter_eq_ok_iff (b : Breaker) (now : Span) :
    (b.enter now).2 = .ok () ↔ (b.perform now .enter).circuit ≠ .opened := by
  rw [perform]
  by_cases h : (b.refresh now).circuit = .opened <;> simp [enter, h]

/-- Whoever is turned away is told so by name. -/
theorem eq_rejection_of_enter {b : Breaker} {now : Span} {f : Failure}
    (h : (b.enter now).2 = .error f) : f = b.rejection := by
  simp only [enter] at h
  split at h
  · have : (b.refresh now).rejection = f := by simpa using h
    rw [← this, rejection, rejection, name_refresh]
  · cases h

theorem succeed_of_closed {b : Breaker} (h : b.circuit = .closed) :
    b.succeed = { b with totalSuccesses := b.totalSuccesses + 1, failures := 0 } := by
  simp [succeed, h]

theorem succeed_of_halfOpen {b : Breaker} (h : b.circuit = .halfOpen) :
    b.succeed =
      if b.thresholds.successes ≤ b.successes + 1 then
        reset { b with totalSuccesses := b.totalSuccesses + 1 }
      else { b with totalSuccesses := b.totalSuccesses + 1, successes := b.successes + 1 } := by
  simp [succeed, h, reset]

theorem succeed_of_opened {b : Breaker} (h : b.circuit = .opened) :
    b.succeed = { b with totalSuccesses := b.totalSuccesses + 1 } := by
  simp [succeed, h]

theorem fail_of_closed {b : Breaker} (h : b.circuit = .closed) (now : Span) :
    b.fail now =
      if b.thresholds.failures ≤ b.failures + 1 then
        trip { b with totalFailures := b.totalFailures + 1, failures := b.failures + 1 } now
      else { b with totalFailures := b.totalFailures + 1, failures := b.failures + 1 } := by
  simp [fail, h]

theorem fail_of_halfOpen {b : Breaker} (h : b.circuit = .halfOpen) (now : Span) :
    b.fail now =
      trip { b with totalFailures := b.totalFailures + 1, failures := b.failures + 1 } now := by
  simp [fail, h]

theorem fail_of_opened {b : Breaker} (h : b.circuit = .opened) (now : Span) :
    b.fail now = { b with totalFailures := b.totalFailures + 1 } := by
  simp [fail, h]

/-! ## What no operation changes -/

/-- The name and the thresholds are fixed when a breaker is made. -/
theorem perform_fixed (b : Breaker) (now : Span) (o : Operation) :
    (b.perform now o).name = b.name ∧ (b.perform now o).thresholds = b.thresholds := by
  rcases o with - | (- | -) | - | -
  · rw [perform, enter_fst]
    split <;> simp
  · cases h : b.circuit with
    | closed => rw [perform, fail_of_closed h]; split <;> simp [trip]
    | opened => rw [perform, fail_of_opened h]; simp
    | halfOpen => rw [perform, fail_of_halfOpen h]; simp [trip]
  · cases h : b.circuit with
    | closed => rw [perform, succeed_of_closed h]; simp
    | opened => rw [perform, succeed_of_opened h]; simp
    | halfOpen => rw [perform, succeed_of_halfOpen h]; split <;> simp [reset]
  · exact ⟨name_refresh b now, thresholds_refresh b now⟩
  · exact ⟨rfl, rfl⟩

@[simp] theorem name_perform (b : Breaker) (now : Span) (o : Operation) :
    (b.perform now o).name = b.name := (b.perform_fixed now o).1

@[simp] theorem thresholds_perform (b : Breaker) (now : Span) (o : Operation) :
    (b.perform now o).thresholds = b.thresholds := (b.perform_fixed now o).2

/-- Each total counts what it is named for. An admission that is asked for is refused if and only if
it leaves the breaker open. -/
theorem totals_perform (b : Breaker) (now : Span) (o : Operation) :
    (b.perform now o).totalSuccesses =
        b.totalSuccesses + (if o = .record true then 1 else 0) ∧
      (b.perform now o).totalFailures =
        b.totalFailures + (if o = .record false then 1 else 0) ∧
      (b.perform now o).totalRejections =
        b.totalRejections + (if o = .enter ∧ (b.perform now o).circuit = .opened then 1 else 0) := by
  have hrefresh : (b.refresh now).totalSuccesses = b.totalSuccesses ∧
      (b.refresh now).totalFailures = b.totalFailures ∧
      (b.refresh now).totalRejections = b.totalRejections := by
    unfold refresh
    split <;> exact ⟨rfl, rfl, rfl⟩
  rcases o with - | (- | -) | - | -
  · rw [perform, enter_fst]
    split
    · next h => simp [hrefresh, h]
    · next h => simp [hrefresh, h]
  · cases h : b.circuit with
    | closed => rw [perform, fail_of_closed h]; split <;> simp [trip]
    | opened => rw [perform, fail_of_opened h]; simp
    | halfOpen => rw [perform, fail_of_halfOpen h]; simp [trip]
  · cases h : b.circuit with
    | closed => rw [perform, succeed_of_closed h]; simp
    | opened => rw [perform, succeed_of_opened h]; simp
    | halfOpen => rw [perform, succeed_of_halfOpen h]; split <;> simp [reset]
  · simpa [perform] using hrefresh
  · simp [perform, reset]

@[simp] theorem name_replay (b : Breaker) (h : History) : (b.replay h).name = b.name := by
  induction h generalizing b with
  | nil => rfl
  | cons x h ih => rw [replay_cons, ih, name_perform]

@[simp] theorem thresholds_replay (b : Breaker) (h : History) :
    (b.replay h).thresholds = b.thresholds := by
  induction h generalizing b with
  | nil => rfl
  | cons x h ih => rw [replay_cons, ih, thresholds_perform]

theorem rejection_replay (b : Breaker) (h : History) : (b.replay h).rejection = b.rejection := by
  rw [rejection, name_replay, rejection]

/-! ## While a breaker is open -/

/-- The breaker is open, and has been so since this moment. -/
structure OpenSince (b : Breaker) (t : Span) : Prop where
  circuit : b.circuit = .opened
  openedAt : b.openedAt = some t

/-- Only a failure opens a breaker, and it does so at its own moment. -/
theorem openSince_of_opens {b : Breaker} {now : Span} {o : Operation} (hb : b.circuit ≠ .opened)
    (h : (b.perform now o).circuit = .opened) :
    o = .record false ∧ (b.perform now o).OpenSince now := by
  have hr : b.refresh now = b := refresh_of_ne_opened hb now
  rcases o with - | (- | -) | - | -
  · rw [perform, enter_fst, hr, if_neg hb] at h
    exact absurd h hb
  · refine ⟨rfl, h, ?_⟩
    cases hc : b.circuit with
    | closed =>
      rw [perform, fail_of_closed hc] at h ⊢
      split
      · rfl
      · next hn => simp [hn, hc] at h
    | opened => exact absurd hc hb
    | halfOpen => rw [perform, fail_of_halfOpen hc]; rfl
  · cases hc : b.circuit with
    | closed => simp [perform, succeed_of_closed hc, hc] at h
    | opened => exact absurd hc hb
    | halfOpen =>
      rw [perform, succeed_of_halfOpen hc] at h
      split at h
      · simp [reset] at h
      · simp [hc] at h
  · rw [perform, hr] at h
    exact absurd h hb
  · simp [perform, reset] at h

/-- Note an operation in the totals, and nowhere else. -/
def tally (b : Breaker) : Operation → Breaker
  | .enter => { b with totalRejections := b.totalRejections + 1 }
  | .record true => { b with totalSuccesses := b.totalSuccesses + 1 }
  | .record false => { b with totalFailures := b.totalFailures + 1 }
  | .look | .reset => b

namespace OpenSince

variable {b : Breaker} {t now : Span}

theorem tally (h : b.OpenSince t) (o : Operation) : (b.tally o).OpenSince t := by
  rcases o with - | (- | -) | - | - <;> exact ⟨h.circuit, h.openedAt⟩

theorem refresh_of_lt (h : b.OpenSince t) (ht : t ≤ now) (hn : now < t + b.thresholds.timeout) :
    b.refresh now = b := by
  have : ¬ b.thresholds.timeout ≤ now - t := Nat.not_le.mpr (Nat.sub_lt_left_of_lt_add ht hn)
  simp [refresh, elapsed, h.openedAt, this]

theorem refresh_of_le (h : b.OpenSince t) (hn : t + b.thresholds.timeout ≤ now) :
    b.refresh now = { b with circuit := .halfOpen, successes := 0 } := by
  have : b.thresholds.timeout ≤ now - t := Nat.le_sub_of_add_le' hn
  simp [refresh, elapsed, h.circuit, h.openedAt, this]

/-- Until the timeout is over every call is rejected. -/
theorem enter_of_lt (h : b.OpenSince t) (ht : t ≤ now) (hn : now < t + b.thresholds.timeout) :
    b.enter now = (b.tally .enter, .error b.rejection) := by
  simp [enter, h.refresh_of_lt ht hn, h.circuit, Breaker.tally]

/-- When the timeout is over the next call is let in, on trial. -/
theorem enter_of_le (h : b.OpenSince t) (hn : t + b.thresholds.timeout ≤ now) :
    b.enter now = ({ b with circuit := .halfOpen, successes := 0 }, .ok ()) := by
  rw [enter_of_ne_opened (by simp [h.refresh_of_le hn]), h.refresh_of_le hn]

/-- An outcome that is recorded while the breaker is open counts in the totals only, however late
it comes. -/
theorem perform_record (h : b.OpenSince t) (now : Span) (success : Bool) :
    b.perform now (.record success) = b.tally (.record success) := by
  cases success with
  | false => exact fail_of_opened h.circuit now
  | true => exact succeed_of_opened h.circuit

/-- Until the timeout is over nothing but a reset does more than count. -/
theorem perform_of_lt (h : b.OpenSince t) (ht : t ≤ now) (hn : now < t + b.thresholds.timeout)
    {o : Operation} (ho : o ≠ .reset) : b.perform now o = b.tally o := by
  rcases o with - | success | - | -
  · rw [perform, h.enter_of_lt ht hn]
  · exact h.perform_record now success
  · exact h.refresh_of_lt ht hn
  · exact absurd rfl ho

end OpenSince

/-- Note a whole history in the totals, and nowhere else. -/
def noted (b : Breaker) (h : History) : Breaker :=
  { b with
    totalSuccesses := b.totalSuccesses + (h.map Prod.snd).count (.record true)
    totalFailures := b.totalFailures + (h.map Prod.snd).count (.record false)
    totalRejections := b.totalRejections + (h.map Prod.snd).count .enter }

@[simp] theorem thresholds_noted (b : Breaker) (h : History) :
    (b.noted h).thresholds = b.thresholds := rfl

theorem noted_tally (b : Breaker) (x : Span × Operation) (h : History) :
    (b.tally x.2).noted h = b.noted (x :: h) := by
  obtain ⟨now, - | (- | -) | - | -⟩ := x <;>
    simp [noted, tally, Nat.add_assoc, Nat.add_comm 1]

/-- As long as an open breaker is neither reset nor looked at after its timeout, its history shows
in the totals only. -/
theorem OpenSince.replay_eq {b : Breaker} {t : Span} (h : b.OpenSince t) {l : History}
    (hl : ∀ x ∈ l, t ≤ x.1 ∧ x.2 ≠ .reset ∧
      (x.1 < t + b.thresholds.timeout ∨ ∃ success, x.2 = .record success)) :
    b.replay l = b.noted l := by
  induction l generalizing b with
  | nil => simp [noted]
  | cons x l ih =>
    obtain ⟨ht, hreset, hx⟩ := hl x List.mem_cons_self
    have hp : b.perform x.1 x.2 = b.tally x.2 := by
      rcases hx with hn | ⟨success, hs⟩
      · exact h.perform_of_lt ht hn hreset
      · rw [hs, h.perform_record]
    have hthresholds : (b.tally x.2).thresholds = b.thresholds := by
      rw [← hp, thresholds_perform]
    rw [replay_cons, hp, ih (h.tally x.2), noted_tally]
    intro y hy
    rw [hthresholds]
    exact hl y (List.mem_cons_of_mem _ hy)

theorem OpenSince.noted {b : Breaker} {t : Span} (h : b.OpenSince t) (l : History) :
    (b.noted l).OpenSince t := ⟨h.circuit, h.openedAt⟩

end Breaker

end Interchange
