import Interchange.Proofs.Attempt.Course
import Interchange.Proofs.Attempt.Schedule
import Mathlib.Algebra.Order.BigOperators.Group.Finset

/-!
# When an invocation does what it does

An invocation measures no time itself.  It waits until an attempt is done or has
used up its limit, and between two attempts it waits for a delay.  Limits and
delays are waited for with timers, so they are over at whole milliseconds
(`Span.wake`).  If the invocation is resumed at the very moment for which it waits,
as it is whenever it is scheduled (`Crowd.Serves`), the moments of all its deeds
follow from what its attempts come to and how long they take.

`Plan` holds what has to be known for that, and `Plan.deeds` is the timetable that
comes of it.  `Plan.OnTime` says of each stage of an invocation that the timetable
has been kept so far.  It is kept by every step (`Plan.OnTime.wake`) and hence by
every run of the crowd (`Crowd.KeepsTime.run`), whatever the others do to the
breaker, as long as the invocation is never turned away.

Where all spans are whole milliseconds a timetable adds them up
(`Plan.begins_eq_sum`).  Otherwise each timer that is set costs less than a
millisecond more (`Plan.ends_mem_Icc_sum`).
-/

namespace Interchange

variable {α : Type}

/-! ## Timetables -/

/-- What decides the moments of an invocation: its terms, what each attempt would come to if there were
no limit, and the moment at which it begins. -/
structure Plan (α : Type) where
  terms : Terms
  efforts : Nat → Effort α
  start : Span

namespace Plan

variable (x : Plan α)

/-- The moment at which an attempt begins: the first one does at once, and every other one when the
delay behind the attempt before it has been waited for. -/
def begins : Nat → Span
  | 0 => x.start
  | n + 1 =>
    let now := begins n
    Span.wake (now + ((x.efforts n).bounded now x.terms.limit).after) (x.terms.delay n)

/-- What an attempt comes to within its limit. -/
def effort (n : Nat) : Effort α := (x.efforts n).bounded (x.begins n) x.terms.limit

/-- The moment at which an attempt ends. -/
def ends (n : Nat) : Span := x.begins n + (x.effort n).after

/-- What an attempt takes, but for the rest of a millisecond for which a timer may keep it. -/
def spent (n : Nat) : Span :=
  match x.terms.limit with
  | some limit => min (x.efforts n).after (min limit Span.longestWait)
  | none => (x.efforts n).after

/-- What is waited for after an attempt, but for the rest of a millisecond. -/
def gap (n : Nat) : Span := min (x.terms.delay n) Span.longestWait

/-- An attempt is let in and begins. -/
def opening (n : Nat) : List (Span × Deed α) :=
  [(x.begins n, .enter (.ok ())), (x.begins n, .call n (x.effort n).outcome)]

/-- The outcome of an attempt is recorded. -/
def closing (n : Nat) : List (Span × Deed α) := [(x.ends n, .record (x.effort n).outcome.isOk)]

/-- The deeds of the first attempts, with their moments. -/
def deeds (n : Nat) : List (Span × Deed α) :=
  (List.range n).flatMap fun m ↦ x.opening m ++ x.closing m

/-- All attempts before this one are followed by another one. -/
structure Reaches (n : Nat) : Prop where
  lt : n < x.terms.attempts
  repeated : ∀ m < n, x.terms.Repeats (x.effort m).outcome

/-- An attempt is the last one. -/
structure Last (n : Nat) : Prop extends x.Reaches n where
  stops : n + 1 = x.terms.attempts ∨ ¬ x.terms.Repeats (x.effort n).outcome

variable {x} {m n : Nat}

@[simp] theorem begins_zero : x.begins 0 = x.start := rfl

theorem begins_succ : x.begins (n + 1) = Span.wake (x.ends n) (x.terms.delay n) := rfl

theorem begins_le_ends : x.begins n ≤ x.ends n := Nat.le_add_right ..

theorem begins_mono : Monotone x.begins :=
  monotone_nat_of_le_succ fun n ↦ by
    rw [begins_succ]
    exact Nat.le_trans begins_le_ends (Span.le_wake ..)

theorem ends_le_begins (h : m < n) : x.ends m ≤ x.begins n :=
  calc
    x.ends m ≤ x.begins (m + 1) := begins_succ ▸ Span.le_wake ..
    _ ≤ x.begins n := begins_mono h

theorem ends_mono : Monotone x.ends := fun m n h ↦ by
  rcases Nat.lt_or_eq_of_le h with hlt | rfl
  · exact Nat.le_trans (ends_le_begins hlt) begins_le_ends
  · exact Nat.le_refl _

theorem deeds_succ : x.deeds (n + 1) = x.deeds n ++ x.opening n ++ x.closing n := by
  simp [deeds, List.range_succ]

/-- The deeds of the first attempts begin with those of fewer, and the others come later. -/
theorem exists_deeds_eq_append (h : m ≤ n) :
    ∃ rest, x.deeds n = x.deeds m ++ rest ∧ ∀ y ∈ rest, x.begins m ≤ y.1 := by
  induction h with
  | refl => exact ⟨[], by simp, by simp⟩
  | @step n h ih =>
    obtain ⟨rest, hrest, hlate⟩ := ih
    refine ⟨rest ++ (x.opening n ++ x.closing n), by simp [deeds_succ, hrest], fun y hy ↦ ?_⟩
    have hbegins : x.begins m ≤ x.begins n := begins_mono h
    have hends : x.begins m ≤ x.ends n := Nat.le_trans hbegins begins_le_ends
    rcases List.mem_append.mp hy with hy | hy
    · exact hlate y hy
    · simp only [opening, closing, List.cons_append, List.nil_append, List.mem_cons, List.not_mem_nil,
        or_false] at hy
      rcases hy with rfl | rfl | rfl
      · exact hbegins
      · exact hbegins
      · exact hends

/-- The attempts that are begun in a timetable. -/
theorem calls_deeds (n : Nat) :
    (x.deeds n).filterMap (fun y ↦ y.2.attempt?.map (·, y.1)) =
      (List.range n).map fun m ↦ (m, x.begins m) := by
  induction n with
  | zero => rfl
  | succ n ih =>
    rw [deeds_succ, List.append_assoc, List.filterMap_append, ih, List.range_succ, List.map_append]
    rfl

/-- There is a last attempt, since only so many are allowed. -/
theorem exists_last (h : 0 < x.terms.attempts) : ∃ n, x.Last n := by
  classical
  have hex : ∃ n, n + 1 = x.terms.attempts ∨ ¬ x.terms.Repeats (x.effort n).outcome :=
    ⟨x.terms.attempts - 1, .inl (Nat.sub_add_cancel h)⟩
  have hle : Nat.find hex ≤ x.terms.attempts - 1 := Nat.find_min' hex (.inl (Nat.sub_add_cancel h))
  refine ⟨Nat.find hex, ⟨by omega, fun m hm ↦ ?_⟩, Nat.find_spec hex⟩
  exact not_not.mp (not_or.mp (Nat.find_min hex hm)).2

/-- No attempt comes after the last one. -/
theorem Last.le (h : x.Last n) (hm : x.Reaches m) : m ≤ n := by
  by_contra hlt
  rcases h.stops with hattempts | hrepeats
  · have := hm.lt
    omega
  · exact hrepeats (hm.repeated n (by omega))

theorem Last.unique (h : x.Last n) (hm : x.Last m) : m = n :=
  Nat.le_antisymm (h.le hm.toReaches) (hm.le h.toReaches)

/-- An attempt that fails as one that may be repeated is the last one only if no more are allowed. -/
theorem Last.lt_iff (h : x.Last n) (hm : m ≤ n) {f : Failure} (hf : (x.effort m).outcome = .error f) :
    m < n ↔ m + 1 < x.terms.attempts ∧ x.terms.retries f.code = true := by
  constructor
  · intro hlt
    obtain ⟨g, hg, hretries⟩ := h.repeated m hlt
    cases hf.symm.trans hg
    exact ⟨Nat.lt_of_le_of_lt hlt h.lt, hretries⟩
  · rintro ⟨hmore, hretries⟩
    refine Nat.lt_of_le_of_ne hm fun heq ↦ ?_
    subst heq
    rcases h.stops with hattempts | hrepeats
    · omega
    · exact hrepeats ⟨f, hf, hretries⟩

/-- An invocation has come as far as this stage by the timetable. -/
def OnTime (x : Plan α) (ds : List (Span × Deed α)) : Stage α → Prop
  | .pending n t => x.Reaches n ∧ t = x.begins n ∧ ds = x.deeds n
  | .calling n t o =>
    x.Reaches n ∧ t = x.ends n ∧ o = (x.effort n).outcome ∧ ds = x.deeds n ++ x.opening n
  | .finished t r => ∃ n, x.Last n ∧ t = x.ends n ∧ r = (x.effort n).outcome ∧ ds = x.deeds (n + 1)

end Plan

/-! ## Moments -/

namespace Effort

variable {e : Effort α} {now limit : Span}

/-- Who is done when the limit has been waited for is in time. -/
theorem bounded_of_le (h : now + e.after ≤ Span.wake now limit) :
    e.bounded now (some limit) = e := if_neg (Nat.not_lt.mpr h)

theorem bounded_of_lt (h : Span.wake now limit < now + e.after) :
    e.bounded now (some limit) = ⟨Span.wake now limit - now, .error (overdue limit)⟩ := if_pos h

/-- An attempt ends when it is done or when its limit has been waited for, whichever comes first. -/
theorem add_after_bounded (e : Effort α) (now limit : Span) :
    now + (e.bounded now (some limit)).after = min (now + e.after) (Span.wake now limit) := by
  rcases Nat.lt_or_ge (Span.wake now limit) (now + e.after) with h | h
  · rw [bounded_of_lt h, Nat.min_eq_right (Nat.le_of_lt h)]
    exact Nat.add_sub_cancel' (Span.le_wake ..)
  · rw [bounded_of_le h, Nat.min_eq_left h]

end Effort

namespace Plan

variable {x : Plan α} {n : Nat}

theorem ends_of_some {limit : Span} (h : x.terms.limit = some limit) :
    x.ends n = min (x.begins n + (x.efforts n).after) (Span.wake (x.begins n) limit) := by
  rw [ends, effort, h, Effort.add_after_bounded]

theorem ends_of_none (h : x.terms.limit = none) : x.ends n = x.begins n + (x.efforts n).after := by
  rw [ends, effort, h, Effort.bounded]

theorem spent_of_some {limit : Span} (h : x.terms.limit = some limit) :
    x.spent n = min (x.efforts n).after (min limit Span.longestWait) := by rw [spent, h]

theorem spent_of_none (h : x.terms.limit = none) : x.spent n = (x.efforts n).after := by rw [spent, h]

/-- An attempt takes what it spends, and less than a millisecond more. -/
theorem ends_mem_Icc (x : Plan α) (n : Nat) :
    x.ends n ∈ Set.Icc (x.begins n + x.spent n) (x.begins n + x.spent n + 999999) := by
  cases hlimit : x.terms.limit with
  | none =>
    rw [ends_of_none hlimit, spent_of_none hlimit]
    exact ⟨Nat.le_refl _, Nat.le_add_right ..⟩
  | some limit =>
    rw [ends_of_some hlimit, spent_of_some hlimit, ← Nat.add_min_add_left]
    have hlow := Span.add_le_wake (x.begins n) limit
    have hhigh := Span.wake_le (x.begins n) limit
    refine ⟨min_le_min_left _ hlow, ?_⟩
    rw [← Nat.add_min_add_right]
    exact min_le_min (Nat.le_add_right ..) hhigh

/-- A delay takes what is waited for, and less than a millisecond more. -/
theorem begins_succ_mem_Icc (x : Plan α) (n : Nat) :
    x.begins (n + 1) ∈ Set.Icc (x.ends n + x.gap n) (x.ends n + x.gap n + 999999) :=
  ⟨Span.add_le_wake .., Span.wake_le ..⟩

/-- An attempt does not begin before those that come before it are over, each with the delay behind
it, and later only by the timers that are set until then. -/
theorem begins_mem_Icc (x : Plan α) (n : Nat) :
    x.begins n ∈ Set.Icc (x.start + ∑ j ∈ Finset.range n, (x.spent j + x.gap j))
      (x.start + ∑ j ∈ Finset.range n, (x.spent j + x.gap j) + 2 * n * 999999) := by
  induction n with
  | zero => simp
  | succ n ih =>
    obtain ⟨hlow, hhigh⟩ := ih
    obtain ⟨helow, hehigh⟩ := x.ends_mem_Icc n
    obtain ⟨hblow, hbhigh⟩ := x.begins_succ_mem_Icc n
    rw [Finset.sum_range_succ]
    constructor <;> grind

theorem ends_mem_Icc_sum (x : Plan α) (n : Nat) :
    x.ends n ∈ Set.Icc
      (x.start + ∑ j ∈ Finset.range (n + 1), x.spent j + ∑ j ∈ Finset.range n, x.gap j)
      (x.start + ∑ j ∈ Finset.range (n + 1), x.spent j + ∑ j ∈ Finset.range n, x.gap j +
        (2 * n + 1) * 999999) := by
  obtain ⟨hlow, hhigh⟩ := x.begins_mem_Icc n
  obtain ⟨helow, hehigh⟩ := x.ends_mem_Icc n
  rw [Finset.sum_add_distrib] at hlow hhigh
  rw [Finset.sum_range_succ]
  constructor <;> grind

/-- Attempts under a limit take no longer than all their limits together. -/
theorem sum_spent_le {limit : Span} (h : x.terms.limit = some limit) (n : Nat) :
    ∑ j ∈ Finset.range n, x.spent j ≤ n * min limit Span.longestWait :=
  calc
    ∑ j ∈ Finset.range n, x.spent j ≤ ∑ _j ∈ Finset.range n, min limit Span.longestWait :=
      Finset.sum_le_sum fun j _ ↦ spent_of_some h ▸ Nat.min_le_right ..
    _ = n * min limit Span.longestWait := by
      rw [Finset.sum_const, Finset.card_range, Nat.nsmul_eq_mul]

/-- An attempt under a limit of whole milliseconds that begins at one takes exactly what it spends. -/
theorem ends_of_whole (hbegins : (x.begins n).Whole) (hlimit : ∀ limit ∈ x.terms.limit, limit.Whole) :
    x.ends n = x.begins n + x.spent n := by
  cases h : x.terms.limit with
  | none => rw [ends_of_none h, spent_of_none h]
  | some limit =>
    rw [ends_of_some h, spent_of_some h, Span.wake_of_whole hbegins (hlimit limit h),
      Nat.add_min_add_left]

theorem whole_spent (hafter : (x.efforts n).after.Whole)
    (hlimit : ∀ limit ∈ x.terms.limit, limit.Whole) : (x.spent n).Whole := by
  cases h : x.terms.limit with
  | none => rwa [spent_of_none h]
  | some limit =>
    rw [spent_of_some h]
    exact hafter.min ((hlimit limit h).min (by decide))

/-- Where everything takes whole milliseconds nothing is added to it. -/
theorem begins_eq_sum (hstart : x.start.Whole) (hlimit : ∀ limit ∈ x.terms.limit, limit.Whole)
    (hafter : ∀ j < n, (x.efforts j).after.Whole) (hdelay : ∀ j < n, (x.terms.delay j).Whole) :
    x.begins n = x.start + ∑ j ∈ Finset.range n, (x.spent j + x.gap j) ∧ (x.begins n).Whole := by
  induction n with
  | zero => exact ⟨by simp, hstart⟩
  | succ n ih =>
    obtain ⟨hbegins, hwhole⟩ := ih (fun j hj ↦ hafter j (Nat.lt_succ_of_lt hj))
      fun j hj ↦ hdelay j (Nat.lt_succ_of_lt hj)
    have hends : (x.begins n + x.spent n).Whole :=
      hwhole.add (whole_spent (hafter n n.lt_succ_self) hlimit)
    refine ⟨?_, Span.whole_wake ..⟩
    rw [begins_succ, ends_of_whole hwhole hlimit,
      Span.wake_of_whole hends (hdelay n n.lt_succ_self), hbegins, Finset.sum_range_succ, gap]
    ac_rfl

end Plan

/-! ## One step -/

namespace Invocation.Wakes

variable {e : Effort α} {now : Span} {i j : Invocation α} {b b' : Breaker} {ds : List (Deed α)}

/-- What an invocation waits for after a step is not over yet. -/
theorem le_next (h : Wakes e now i b ds j b') (hnext : i.next = some now) {t : Span}
    (ht : j.next = some t) : now ≤ t := by
  cases h with
  | idle => exact Nat.le_of_eq (Option.some.inj (hnext.symm.trans ht))
  | revoked =>
    have hnone : (i.abandon now).next = none := by
      cases hs : i.stage <;> simp [abandon, next, hs]
    rw [hnone] at ht
    cases ht
  | admitted =>
    cases ht
    exact Nat.le_add_right ..
  | retried =>
    cases ht
    exact Span.le_wake ..
  | rejected | succeeded | failed | stopped => cases ht

end Invocation.Wakes

/-- Every step at the moment for which an invocation waits keeps it on time, unless the breaker turns
it away. -/
theorem Plan.OnTime.wake {x : Plan α} {e : Effort α} {now : Span} {i j : Invocation α} {b b' : Breaker}
    {l : List (Span × Deed α)} {ds : List (Deed α)} (h : x.OnTime l i.stage)
    (hw : Invocation.Wakes e now i b ds j b') (hterms : i.terms = x.terms)
    (hi : i.revoked now = false) (hnext : i.next = some now)
    (he : ∀ n t, i.stage = .pending n t → e = x.efforts n)
    (hadmits : ∀ d ∈ ds, d.rejects = false ∧ d ≠ .look .opened) :
    x.OnTime (l ++ (acts ds).map (now, ·)) j.stage := by
  cases hw with
  | idle _ hready => simp [Invocation.ready, hnext] at hready
  | revoked hrevoked => rw [hi] at hrevoked; cases hrevoked
  | rejected => simp [Deed.rejects] at hadmits
  | stopped => simp at hadmits
  | @admitted n t _ hstage =>
    have he := he _ _ hstage
    rw [hstage] at h
    obtain ⟨hreaches, ht, rfl⟩ := h
    have hnow : x.begins n = now := by simpa [Invocation.next, hstage, ht] using hnext
    rw [hterms, he, ← hnow]
    exact ⟨hreaches, rfl, rfl, rfl⟩
  | @succeeded n t _ _ hstage =>
    rw [hstage] at h
    obtain ⟨hreaches, ht, ho, rfl⟩ := h
    have hnow : x.ends n = now := by simpa [Invocation.next, hstage, ht] using hnext
    refine ⟨_, ⟨hreaches, .inr ?_⟩, hnow.symm, ho, ?_⟩
    · rw [← ho]
      rintro ⟨f, hf, -⟩
      cases hf
    · rw [Plan.deeds_succ, Plan.closing, ← ho, hnow]
      rfl
  | @failed n t _ _ hstage hlast =>
    rw [hstage] at h
    obtain ⟨hreaches, ht, ho, rfl⟩ := h
    have hnow : x.ends n = now := by simpa [Invocation.next, hstage, ht] using hnext
    refine ⟨_, ⟨hreaches, ?_⟩, hnow.symm, ho, ?_⟩
    · rw [hterms] at hlast
      rcases hlast with hretries | hle
      · refine .inr ?_
        rw [← ho]
        rintro ⟨f, hf, hrepeats⟩
        cases hf
        rw [hretries] at hrepeats
        cases hrepeats
      · exact .inl (Nat.le_antisymm hreaches.lt hle)
    · rw [Plan.deeds_succ, Plan.closing, ← ho, hnow]
      rfl
  | @retried n t f _ hstage hretries hlt =>
    rw [hstage] at h
    obtain ⟨hreaches, ht, ho, rfl⟩ := h
    have hnow : x.ends n = now := by simpa [Invocation.next, hstage, ht] using hnext
    rw [hterms] at hretries hlt
    refine ⟨⟨hlt, fun m hm ↦ ?_⟩, ?_, ?_⟩
    · rcases Nat.lt_succ_iff_lt_or_eq.mp hm with hm | rfl
      · exact hreaches.repeated m hm
      · exact ⟨f, ho.symm, hretries⟩
    · rw [Plan.begins_succ, hnow, hterms]
    · rw [Plan.deeds_succ, Plan.closing, ← ho, hnow]
      rfl

/-! ## Along a run -/

/-- The deeds of a member with their moments, but for its looks. -/
def timedOf (k : Nat) (l : List (Entry α)) : List (Span × Deed α) :=
  l.filterMap fun y ↦
    if y.author = some k ∧ y.deed.looks = false then some (y.moment, y.deed) else none

@[simp] theorem timedOf_append (k : Nat) (l l' : List (Entry α)) :
    timedOf k (l ++ l') = timedOf k l ++ timedOf k l' := List.filterMap_append

theorem timedOf_eq_map {k : Nat} {now : Span} {l : List (Entry α)} (h : ∀ y ∈ l, y.moment = now) :
    timedOf k l = (acts (deedsOf k l)).map (now, ·) := by
  induction l with
  | nil => rfl
  | cons y l ih =>
    obtain ⟨hy, hl⟩ := List.forall_mem_cons.mp h
    have ih := ih hl
    simp only [timedOf, deedsOf] at ih ⊢
    rw [List.filterMap_cons, List.filterMap_cons, ih]
    by_cases hk : y.author = some k
    · cases hlooks : y.deed.looks <;> simp [hk, hlooks, hy, acts]
    · simp [hk]

/-- The attempts that a member has begun can be told from its deeds. -/
theorem calls_timedOf (k : Nat) (l : List (Entry α)) :
    l.filterMap (Entry.callOf? k) = (timedOf k l).filterMap fun y ↦ y.2.attempt?.map (·, y.1) := by
  rw [timedOf, List.filterMap_filterMap]
  refine congrArg (List.filterMap · l) (funext fun y ↦ ?_)
  obtain ⟨moment, author, d⟩ := y
  by_cases hk : author = some k
  · cases d <;> simp [Entry.callOf?, hk, Deed.attempt?, Deed.looks]
  · simp [Entry.callOf?, hk]

namespace Crowd

/-- A member is on time with these deeds, and nobody has cancelled it. -/
structure KeepsTime (w : Crowd α) (k : Nat) (x : Plan α) (ds : List (Span × Deed α))
    (i : Invocation α) : Prop where
  member : w.members[k]? = some i
  terms : i.terms = x.terms
  cancelAt : i.cancelAt = none
  le_next : ∀ t, i.next = some t → w.now ≤ t
  onTime : x.OnTime ds i.stage

theorem KeepsTime.step {w : Crowd α} {k : Nat} {x : Plan α} {ds : List (Span × Deed α)}
    {i : Invocation α} (h : w.KeepsTime k x ds i) {y : Event α} (hy : w.Serving k x.efforts y)
    (hadmits : ∀ d ∈ deedsOf k (w.entries y), d.rejects = false ∧ d ≠ .look .opened) :
    ∃ j, (w.step y).KeepsTime k x (ds ++ timedOf k (w.entries y)) j := by
  have hk : k ≠ w.members.length := Nat.ne_of_lt (List.getElem?_eq_some_iff.mp h.member).1
  have hmember := w.members_step y k
  rw [timedOf_eq_map fun z hz ↦ moment_of_mem_entries hz]
  rw [deedsOf_entries] at hadmits ⊢
  -- What an event does not do to the member leaves it on time, up to the clock.
  have hidle (hsame : (w.step y).members[k]? = w.members[k]?)
      (hnow : ∀ t, i.next = some t → (w.step y).now ≤ t) :
      (w.step y).KeepsTime k x (ds ++ (acts []).map (w.now, ·)) i :=
    ⟨hsame.trans h.member, h.terms, h.cancelAt, hnow, by simpa [acts] using h.onTime⟩
  cases y with
  | pass span => exact ⟨i, hidle hmember (hy i h.member)⟩
  | direct => exact ⟨i, hidle hmember h.le_next⟩
  | start => exact ⟨i, hidle (by simpa [hk] using hmember) h.le_next⟩
  | cancel m =>
    have hm : m ≠ k := hy
    exact ⟨i, hidle (by simpa [hm] using hmember) h.le_next⟩
  | resume m e =>
    have hclock : (w.step (.resume m e)).now = w.now := by
      simp only [Crowd.step]
      split <;> rfl
    by_cases hm : m = k
    · have hrevoked : i.revoked w.now = false := by simp [Invocation.revoked, h.cancelAt]
      simp only [hm, if_true, h.member, Option.map_some, Option.getD_some] at hmember hadmits ⊢
      cases hready : i.ready w.now with
      | false =>
        -- Resumed before its time it does nothing.
        have hwake : (i.wake e w.now w.breaker).1 = i := by
          simp [Invocation.wake, hrevoked, hready]
        have hdeeds : i.deeds e w.now w.breaker = [] := by
          simp [Invocation.deeds, hrevoked, hready]
        rw [hdeeds]
        refine ⟨i, hm ▸ hidle ?_ (hclock ▸ h.le_next)⟩
        rw [hm, hmember, hwake, h.member]
      | true =>
        obtain ⟨t, hnext, hle⟩ := (Option.any_eq_true ..).mp hready
        have hnow : i.next = some w.now := by
          rw [hnext, Nat.le_antisymm (of_decide_eq_true hle) (h.le_next t hnext)]
        have hwakes := i.wakes e w.now w.breaker
        refine ⟨_, hmember, hwakes.fixed.1.trans h.terms, hwakes.fixed.2.trans h.cancelAt,
          fun t ht ↦ ?_, ?_⟩
        · rw [← hm, hclock]
          exact hwakes.le_next hnow ht
        · exact h.onTime.wake hwakes h.terms hrevoked hnow (hy hm i h.member) hadmits
    · simp only [hm, if_false]
      exact ⟨i, hidle (by simpa [hm] using hmember) (hclock ▸ h.le_next)⟩

theorem KeepsTime.run {w : Crowd α} {k : Nat} {x : Plan α} {ds : List (Span × Deed α)}
    {i : Invocation α} (h : w.KeepsTime k x ds i) {es : List (Event α)}
    (hes : w.Serves k x.efforts es)
    (hadmits : ∀ d ∈ deedsOf k (w.log es), d.rejects = false ∧ d ≠ .look .opened) :
    ∃ j, (w.run es).KeepsTime k x (ds ++ timedOf k (w.log es)) j := by
  induction es generalizing w ds i with
  | nil => exact ⟨i, by simpa [timedOf] using h⟩
  | cons y es ih =>
    simp only [log_cons, deedsOf_append, List.forall_mem_append] at hadmits
    obtain ⟨j, hj⟩ := h.step hes.1 hadmits.1
    obtain ⟨j', hj'⟩ := ih hj hes.2 hadmits.2
    exact ⟨j', by simpa using hj'⟩

/-- An invocation is on time from its beginning on. -/
theorem keepsTime_start (w : Crowd α) {t : Terms} (ht : 0 < t.attempts) {efforts : Nat → Effort α}
    {es : List (Event α)} (hes : w.Serves w.members.length efforts (.start t false :: es))
    (hadmits : ∀ d ∈ deedsOf w.members.length (w.log (.start t false :: es)),
      d.rejects = false ∧ d ≠ .look .opened) :
    ∃ i, (w.run (.start t false :: es)).KeepsTime w.members.length ⟨t, efforts, w.now⟩
      (timedOf w.members.length (w.log (.start t false :: es))) i := by
  have h : (w.step (.start t false)).KeepsTime w.members.length ⟨t, efforts, w.now⟩ []
      (.start t .never w.now) := by
    refine ⟨by simp [members_step], rfl, rfl, fun s hs ↦ ?_, ⟨ht, by simp⟩, by simp, rfl⟩
    exact Nat.le_of_eq (Option.some.inj hs)
  simpa [entries] using h.run hes.2 (by simpa [entries] using hadmits)

end Crowd

/-! ## What comes of a timetable -/

namespace Plan.OnTime

variable {x : Plan α} {ds : List (Span × Deed α)} {i : Invocation α} {now : Span} {last : Nat}

/-- Nothing of the timetable is missed: what has not been done lies ahead. -/
theorem exists_rest (h : x.OnTime ds i.stage) (hlast : x.Last last)
    (hnow : ∀ t, i.next = some t → now ≤ t) :
    ∃ rest, x.deeds (last + 1) = ds ++ rest ∧ ∀ y ∈ rest, now ≤ y.1 := by
  cases hs : i.stage with
  | pending n t =>
    rw [hs] at h
    obtain ⟨hreaches, rfl, rfl⟩ := h
    have hle : now ≤ x.begins n := hnow _ (by simp [Invocation.next, hs])
    obtain ⟨rest, hrest, hlate⟩ := exists_deeds_eq_append (x := x) (Nat.le_succ_of_le (hlast.le hreaches))
    exact ⟨rest, hrest, fun y hy ↦ Nat.le_trans hle (hlate y hy)⟩
  | calling n t o =>
    rw [hs] at h
    obtain ⟨hreaches, rfl, -, rfl⟩ := h
    have hle : now ≤ x.ends n := hnow _ (by simp [Invocation.next, hs])
    obtain ⟨rest, hrest, hlate⟩ := exists_deeds_eq_append (x := x) (Nat.succ_le_succ (hlast.le hreaches))
    refine ⟨x.closing n ++ rest, by simp [hrest, deeds_succ], fun y hy ↦ ?_⟩
    rcases List.mem_append.mp hy with hy | hy
    · rw [List.mem_singleton.mp hy]
      exact hle
    · exact Nat.le_trans hle (Nat.le_trans (ends_le_begins n.lt_succ_self) (hlate y hy))
  | finished t r =>
    rw [hs] at h
    obtain ⟨n, hn, -, -, rfl⟩ := h
    exact ⟨[], by rw [hlast.unique hn, List.append_nil], by simp⟩

/-- An invocation ends with its last attempt. -/
theorem of_result (h : x.OnTime ds i.stage) (hlast : x.Last last) {stop : Span} {r : Except Failure α}
    (hr : i.result? = some (stop, r)) :
    stop = x.ends last ∧ r = (x.effort last).outcome ∧ ds = x.deeds (last + 1) := by
  cases hs : i.stage with
  | pending | calling => simp [Invocation.result?, hs] at hr
  | finished t r' =>
    simp only [Invocation.result?, hs, Option.some.injEq, Prod.mk.injEq] at hr
    obtain ⟨rfl, rfl⟩ := hr
    rw [hs] at h
    obtain ⟨n, hn, ht, hr, hds⟩ := h
    rw [← hlast.unique hn]
    exact ⟨ht, hr, hds⟩

/-- Until it has ended, an invocation waits for a moment which is not later than the end of its last
attempt. -/
theorem exists_next (h : x.OnTime ds i.stage) (hlast : x.Last last) (hr : i.result? = none) :
    ∃ t, i.next = some t ∧ t ≤ x.ends last := by
  cases hs : i.stage with
  | pending n t =>
    rw [hs] at h
    obtain ⟨hreaches, rfl, -⟩ := h
    exact ⟨x.begins n, by simp [Invocation.next, hs],
      Nat.le_trans begins_le_ends (ends_mono (hlast.le hreaches))⟩
  | calling n t o =>
    rw [hs] at h
    obtain ⟨hreaches, rfl, -⟩ := h
    exact ⟨x.ends n, by simp [Invocation.next, hs], ends_mono (hlast.le hreaches)⟩
  | finished t r => simp [Invocation.result?, hs] at hr

end Plan.OnTime

/-- Without their moments, the deeds of a timetable are rounds. -/
theorem Plan.map_snd_deeds (x : Plan α) (n : Nat) :
    (x.deeds n).map Prod.snd = rounds ((List.range n).map fun m ↦ (x.effort m).outcome) := by
  induction n with
  | zero => rfl
  | succ n ih =>
    rw [List.range_succ, List.map_append, List.map_singleton, rounds_append_singleton, ← ih,
      List.length_map, List.length_range, deeds_succ, List.append_assoc, List.map_append]
    rfl

theorem map_snd_timedOf (k : Nat) (l : List (Entry α)) :
    (timedOf k l).map Prod.snd = acts (deedsOf k l) := by
  rw [timedOf, deedsOf, acts, List.map_filterMap, List.filter_filterMap]
  refine congrArg (List.filterMap · l) (funext fun y ↦ ?_)
  by_cases hk : y.author = some k
  · cases hlooks : y.deed.looks <;> simp [hk, hlooks, Option.filter]
  · simp [hk]

/-- What an invocation on this plan has done, as a log tells of it that begins with the invocation,
and what is still to come.  This attempt is its last one.  The breaker was found like this and is left
like that. -/
structure Timing (x : Plan α) (last : Nat) (k : Nat) (l : List (Entry α)) (found left : Breaker)
    (now : Span) (i : Invocation α) : Prop where
  lt : last < x.terms.attempts
  repeated : ∀ n < last, ∃ f, (x.effort n).outcome = .error f ∧ x.terms.retries f.code = true
  stops : last + 1 = x.terms.attempts ∨
    ∀ f, (x.effort last).outcome = .error f → x.terms.retries f.code = false
  /-- The first attempt begins at once, and every other one as soon as the delay behind the one before
  it has been waited for. -/
  begins_zero : x.begins 0 = x.start
  begins_succ : ∀ n, x.begins (n + 1) = Span.wake (x.ends n) (x.terms.delay n)
  unlimited : x.terms.limit = none → ∀ n, x.effort n = x.efforts n
  /-- An attempt that is done by the time its limit has been waited for ends by itself and in its own
  time. -/
  in_time : ∀ limit, x.terms.limit = some limit → ∀ n,
    x.begins n + (x.efforts n).after ≤ Span.wake (x.begins n) limit → x.effort n = x.efforts n
  /-- Any other attempt ends just then, as a timeout, and is followed by another one if and only if one
  is allowed and timeouts are retried. -/
  overdue : ∀ limit, x.terms.limit = some limit → ∀ n,
    Span.wake (x.begins n) limit < x.begins n + (x.efforts n).after →
      x.ends n = Span.wake (x.begins n) limit ∧
      (x.effort n).outcome = .error (Effort.overdue limit) ∧
      (n ≤ last → (n < last ↔ n + 1 < x.terms.attempts ∧ x.terms.retries .timeout = true))
  /-- Where everything takes whole milliseconds the moments are sums. -/
  begins_eq : x.start.Whole → (∀ limit ∈ x.terms.limit, limit.Whole) → ∀ n,
    (∀ j < n, (x.efforts j).after.Whole ∧ (x.terms.delay j).Whole) →
      x.begins n = x.start + ∑ j ∈ Finset.range n, (x.spent j + x.gap j) ∧
      x.ends n = x.start + ∑ j ∈ Finset.range (n + 1), x.spent j + ∑ j ∈ Finset.range n, x.gap j
  /-- Otherwise they are later by less than a millisecond for each of the timers. -/
  begins_mem : ∀ n, x.begins n ∈ Set.Icc (x.start + ∑ j ∈ Finset.range n, (x.spent j + x.gap j))
    (x.start + ∑ j ∈ Finset.range n, (x.spent j + x.gap j) + 2 * n * 999999)
  ends_mem : ∀ n, x.ends n ∈ Set.Icc
    (x.start + ∑ j ∈ Finset.range (n + 1), x.spent j + ∑ j ∈ Finset.range n, x.gap j)
    (x.start + ∑ j ∈ Finset.range (n + 1), x.spent j + ∑ j ∈ Finset.range n, x.gap j +
      (2 * n + 1) * 999999)
  sum_spent_le : ∀ limit, x.terms.limit = some limit →
    ∑ j ∈ Finset.range (last + 1), x.spent j ≤ (last + 1) * min limit Span.longestWait
  /-- Every attempt is let in at the moment at which it begins, and its outcome is recorded once, at the
  moment at which it ends: what has been done so far is the first part of this timetable, and the rest
  of it lies ahead. -/
  timetable : ∃ rest, x.deeds (last + 1) = timedOf k l ++ rest ∧ ∀ y ∈ rest, now ≤ y.1
  /-- The invocation ends when its last attempt does, and with its outcome. -/
  result_eq : ∀ y ∈ i.result?, y = (x.ends last, (x.effort last).outcome)
  /-- Then it has made these attempts and no others. -/
  complete : i.result?.isSome → timedOf k l = x.deeds (last + 1)
  calls_eq : i.result?.isSome → i.calls = (List.range (last + 1)).map fun n ↦ (n, x.begins n)
  /-- Each of those that failed counts as one failure on the breaker. -/
  totalFailures_eq : i.result?.isSome → left.totalFailures =
    found.totalFailures + (deedsBeside k l).countP Deed.fails +
      (List.range (last + 1)).countP fun n ↦ !(x.effort n).outcome.isOk
  /-- Until it has ended, it waits for a moment that is not over, and not later than the end of its last
  attempt: nothing holds it up any longer. -/
  waits : i.result? = none → ∃ t, i.next = some t ∧ now ≤ t ∧ t ≤ x.ends last

/-- When an invocation does what it does, if it is resumed at the moments for which it waits, its caller
does not cancel it, and the breaker never turns it away.  The others may do to the breaker what they
like. -/
theorem timing_of_served (w : Crowd α) (p : Backoff) (draws : Nat → Float) (limit : Option Span)
    (efforts : Nat → Effort α) (es : List (Crowd.Event α))
    (hes : w.Serves w.members.length efforts (.start (p.terms draws limit) false :: es))
    (hadmits : ∀ d ∈ deedsOf w.members.length (w.log (.start (p.terms draws limit) false :: es)),
      d.rejects = false ∧ d ≠ .look .opened) :
    let w' := w.run (.start (p.terms draws limit) false :: es)
    ∃ i last, w'.members[w.members.length]? = some i ∧
      Timing ⟨p.terms draws limit, efforts, w.now⟩ last w.members.length
        (w.log (.start (p.terms draws limit) false :: es)) w.breaker w'.breaker w'.now i := by
  intro w'
  let x : Plan α := ⟨p.terms draws limit, efforts, w.now⟩
  obtain ⟨i, hi⟩ := w.keepsTime_start p.attempts_pos hes hadmits
  obtain ⟨last, hlast⟩ := Plan.exists_last (x := x) p.attempts_pos
  have hcomplete (h : i.result?.isSome) :
      timedOf w.members.length (w.log (.start (p.terms draws limit) false :: es)) =
        x.deeds (last + 1) := by
    obtain ⟨⟨stop, r⟩, hr⟩ := Option.isSome_iff_exists.mp h
    exact (hi.onTime.of_result hlast hr).2.2
  refine ⟨i, last, hi.member,
    { lt := hlast.lt
      repeated := hlast.repeated
      stops := hlast.stops.imp_right fun hrepeats f hf ↦
        Bool.eq_false_of_not_eq_true fun hretries ↦ hrepeats ⟨f, hf, hretries⟩
      begins_zero := Plan.begins_zero
      begins_succ := fun n ↦ Plan.begins_succ
      unlimited := fun hlimit n ↦ by rw [Plan.effort, hlimit, Effort.bounded]
      in_time := fun limit hlimit n hle ↦ by rw [Plan.effort, hlimit, Effort.bounded_of_le hle]
      overdue := fun limit hlimit n hlt ↦ ?_
      begins_eq := fun hstart hlimit n hwhole ↦ ?_
      begins_mem := x.begins_mem_Icc
      ends_mem := x.ends_mem_Icc_sum
      sum_spent_le := fun limit hlimit ↦ Plan.sum_spent_le hlimit (last + 1)
      timetable := hi.onTime.exists_rest hlast hi.le_next
      result_eq := fun y hy ↦ ?_
      complete := hcomplete
      calls_eq := fun h ↦ ?_
      totalFailures_eq := fun h ↦ ?_
      waits := fun hnone ↦ ?_ }⟩
  · have hfails : (x.effort n).outcome = .error (Effort.overdue limit) := by
      rw [Plan.effort, hlimit, Effort.bounded_of_lt hlt]
    refine ⟨?_, hfails, fun hn ↦ hlast.lt_iff hn hfails⟩
    rw [Plan.ends_of_some hlimit, Nat.min_eq_right (Nat.le_of_lt hlt)]
  · obtain ⟨hbegins, hwhole⟩ := Plan.begins_eq_sum (x := x) hstart hlimit
      (fun j hj ↦ (hwhole j hj).1) fun j hj ↦ (hwhole j hj).2
    refine ⟨hbegins, ?_⟩
    rw [Plan.ends_of_whole hwhole hlimit, hbegins, Finset.sum_add_distrib, Finset.sum_range_succ]
    ac_rfl
  · obtain ⟨hstop, houtcome, -⟩ := hi.onTime.of_result hlast hy
    exact Prod.ext hstop houtcome
  · rw [Crowd.calls_of_new hi.member, calls_timedOf, hcomplete h, Plan.calls_deeds]
  · have hacts : acts (deedsOf w.members.length
          (w.log (.start (p.terms draws limit) false :: es))) =
        rounds ((List.range (last + 1)).map fun n ↦ (x.effort n).outcome) ++ [] := by
      rw [← map_snd_timedOf, hcomplete h, Plan.map_snd_deeds, List.append_nil]
    have hfailures := (Crowd.totals_of_acts hacts rfl rfl).2.1
    rw [hfailures, List.countP_map]
    rfl
  · obtain ⟨t, hnext, hle⟩ := hi.onTime.exists_next hlast hnone
    exact ⟨t, hnext, hi.le_next t hnext, hle⟩

theorem Backoff.plainSeconds_zero (p : Backoff) :
    p.plainSeconds 0 = lesser (p.initialDelay.seconds * 1.0) p.maxDelay.seconds := by
  have hpower : timesPower 1.0 p.multiplier (min 0 maxExponent) = 1.0 := by
    rw [timesPower]
    rfl
  rw [plainSeconds, hpower]

/-- An attempt takes longer than its limit.  After the delay a second one is done just when its limit has
been waited for, and a little later the clock has passed that moment. -/
def belated (late quick first gap : Span) : List (Crowd.Event Unit) :=
  let slow : Effort Unit := { after := late, outcome := .ok () }
  let exact : Effort Unit := { after := quick, outcome := .ok () }
  [.resume 0 slow, .pass first, .resume 0 slow, .pass gap, .resume 0 exact, .pass quick,
    .resume 0 exact, .pass 1]

theorem serves_belated (t : Terms) {limit : Span} (late quick first gap : Span)
    (hattempts : t.attempts = 3) (hretries : t.retries .timeout = true)
    (hlimit : t.limit = some limit) (hfirst : Span.wake 0 limit = first) (hlate : first < late)
    (hgap : Span.wake first (t.delay 0) = first + gap)
    (hquick : Span.wake (first + gap) limit = first + gap + quick) :
    let w : Crowd Unit := { breaker := { name := "b" } }
    let es := belated late quick first gap
    w.Serves 0 (fun n ↦ { after := if n = 0 then late else quick, outcome := .ok () })
        (.start t false :: es) ∧
      (∀ d ∈ deedsOf 0 (w.log (.start t false :: es)), d.rejects = false ∧ d ≠ .look .opened) ∧
      (w.run (.start t false :: es)).now = first + gap + quick + 1 := by
  intro w es
  simp [w, es, belated, hattempts, hretries, hlimit, hlate, hfirst, hgap, hquick, deedsOf,
    Crowd.Serves, Crowd.Serving, Crowd.step, Crowd.entries, Invocation.start, Invocation.wake,
    Invocation.revoked, Invocation.ready, Invocation.next, Invocation.resume, Invocation.step,
    Invocation.deeds, Site.lone, Effort.bounded, Effort.overdue, Terms.settle, Breaker.enter,
    Breaker.refresh, Breaker.elapsed, Breaker.fail, Deed.rejects]

/-- With a limit of half a millisecond, a first attempt that takes two is ended after one.  After five
more, a second attempt is given a whole one. -/
theorem timing_of_belated :
    let w : Crowd Unit := { breaker := { name := "b" } }
    let p : Backoff := { maxAttempts := 3, initialDelay := 5000000, retried := [.timeout] }
    let t := p.terms (fun _ ↦ 1) (some 500000)
    let efforts (n : Nat) : Effort Unit :=
      { after := if n = 0 then 2000000 else 1000000, outcome := .ok () }
    let es := belated 2000000 1000000 1000000 5000000
    w.Serves 0 efforts (.start t false :: es) ∧
      (∀ d ∈ deedsOf 0 (w.log (.start t false :: es)), d.rejects = false ∧ d ≠ .look .opened) ∧
      ∃ i, (w.run (.start t false :: es)).members[0]? = some i ∧
        i.result? = some (7000000, .ok ()) ∧ i.calls = [(0, 0), (1, 6000000)] := by
  intro w p t efforts es
  have hdelay : t.delay 0 = 5000000 := by
    show p.delay 1 0 = 5000000
    rw [Backoff.delay, Backoff.plainSeconds_zero]
    decide +kernel
  have hfirst : Span.wake w.now 500000 = 1000000 := by decide
  have hgap : Span.wake 1000000 (t.delay 0) = 6000000 := by
    rw [hdelay]
    decide
  obtain ⟨hes, hadmits, hnow⟩ := serves_belated t 2000000 1000000 1000000 5000000 rfl rfl rfl
    hfirst (by decide) hgap (by decide)
  obtain ⟨i, last, hi, htiming⟩ :=
    timing_of_served w p (fun _ ↦ 1) (some 500000) efforts es hes hadmits
  -- The first attempt is repeated, and the second one is not.
  obtain ⟨hends, -, hrepeated⟩ := htiming.overdue 500000 rfl 0 (by decide)
  have hbegins : Plan.begins ⟨t, efforts, w.now⟩ 1 = 6000000 := by
    rw [htiming.begins_succ, hends, htiming.begins_zero, hfirst]
    exact hgap
  have hexact : Plan.effort ⟨t, efforts, w.now⟩ 1 = efforts 1 := by
    refine htiming.in_time 500000 rfl 1 ?_
    rw [hbegins]
    decide
  obtain rfl : last = 1 := by
    have hfirst : 0 < last := (hrepeated (Nat.zero_le _)).mpr ⟨by decide, rfl⟩
    refine Nat.le_antisymm (Nat.le_of_not_lt fun hlt ↦ ?_) hfirst
    obtain ⟨f, hf, -⟩ := htiming.repeated 1 hlt
    rw [hexact] at hf
    cases hf
  have hlast : Plan.ends ⟨t, efforts, w.now⟩ 1 = 7000000 := by
    rw [Plan.ends, hbegins, hexact]
    decide
  -- The clock has passed the end of the second attempt.
  have hended : i.result? ≠ none := fun hnone ↦ by
    obtain ⟨s, -, hahead, hle⟩ := htiming.waits hnone
    rw [hnow] at hahead
    rw [hlast] at hle
    exact absurd (Nat.le_trans hahead hle) (by decide)
  obtain ⟨y, hy⟩ := Option.ne_none_iff_exists'.mp hended
  refine ⟨hes, hadmits, i, hi, ?_, ?_⟩
  · rw [hy, htiming.result_eq y hy, hlast, hexact]
  · rw [htiming.calls_eq (by simp [hy]), List.range_succ, List.range_one, List.map_append,
      List.map_singleton, List.map_singleton, hbegins, htiming.begins_zero]
    rfl

/-- An attempt fails early, and a second one takes longer than its limit. -/
theorem run_of_late (t : Terms) {limit : Span} (late quick gap stop : Span)
    (hattempts : 1 < t.attempts) (hretries : t.retries .connection = true)
    (hrefuses : t.retries .timeout = false) (hlimit : t.limit = some limit)
    (hquick : quick ≤ Span.wake 0 limit)
    (hgap : Span.wake quick (t.delay 0) = quick + gap)
    (hstop : Span.wake (quick + gap) limit = quick + gap + stop) (hlate : stop < late) :
    let w : Crowd Unit := { breaker := { name := "b" } }
    let first : Effort Unit :=
      { after := quick, outcome := .error { code := .connection, message := "refused" } }
    let second : Effort Unit := { after := late, outcome := .ok () }
    let es : List (Crowd.Event Unit) :=
      [.start t false, .resume 0 first, .pass quick, .resume 0 first, .pass gap, .resume 0 second,
        .pass stop, .resume 0 second]
    w.Serves 0 (fun n ↦ if n = 0 then first else second) es ∧
      (∀ d ∈ deedsOf 0 (w.log es), d.rejects = false ∧ d ≠ .look .opened) ∧
      ∃ i, (w.run es).members[0]? = some i ∧ i.calls = [(0, 0), (1, quick + gap)] ∧
        i.result? = some (quick + gap + stop, .error (Effort.overdue limit)) := by
  intro w first second es
  have hnot : ¬ t.attempts ≤ 1 := Nat.not_le.mpr hattempts
  have hbounded : ¬ Span.wake 0 limit < quick := Nat.not_lt.mpr hquick
  simp [w, es, first, second, hnot, hretries, hrefuses, hlimit, hbounded, hgap, hstop, hlate, deedsOf,
    Crowd.Serves, Crowd.Serving, Crowd.step, Crowd.entries, Invocation.start, Invocation.wake,
    Invocation.revoked, Invocation.ready, Invocation.next, Invocation.resume, Invocation.step,
    Invocation.deeds, Invocation.result?, Site.lone, Effort.bounded, Effort.overdue, Terms.settle,
    Breaker.enter, Breaker.refresh, Breaker.elapsed, Breaker.fail, Deed.rejects]

/-- After an attempt of a quarter of a millisecond, a delay of more than thirty years is not waited for to
its end, but neither do those thirty years end at the quarter: the second attempt begins at a whole
millisecond, and with a limit of half of one it ends after a whole one. -/
theorem begins_before_delay :
    let w : Crowd Unit := { breaker := { name := "b" } }
    let delay := Span.ofMillis 1000000000000
    let limit : Span := 500000
    let p : Backoff := { initialDelay := delay, maxDelay := delay, retried := [.connection] }
    let t := p.terms (fun _ ↦ 1) (some limit)
    let first : Effort Unit :=
      { after := 250000, outcome := .error { code := .connection, message := "refused" } }
    let second : Effort Unit := { after := 5000000, outcome := .ok () }
    let es : List (Crowd.Event Unit) :=
      [.start t false, .resume 0 first, .pass 250000, .resume 0 first,
        .pass (Span.longestWait + 750000), .resume 0 second, .pass 1000000, .resume 0 second]
    let again : Span := Span.longestWait + 1000000
    w.Serves 0 (fun n ↦ if n = 0 then first else second) es ∧
      (∀ d ∈ deedsOf 0 (w.log es), d.rejects = false ∧ d ≠ .look .opened) ∧
      (∃ i, (w.run es).members[0]? = some i ∧ i.calls = [(0, 0), (1, again)] ∧
        i.result? = some (again + 1000000, .error (Effort.overdue limit))) ∧
      again < first.after + p.delay 1 0 ∧
      first.after + min (p.delay 1 0) Span.longestWait < again ∧
      again + limit < again + 1000000 := by
  intro w delay limit p t first second es again
  have hdelay : p.delay 1 0 = delay := by
    rw [Backoff.delay, Backoff.plainSeconds_zero]
    decide +kernel
  have hgap : Span.wake 250000 (t.delay 0) = 250000 + (Span.longestWait + 750000) := by
    show Span.wake 250000 (p.delay 1 0) = _
    rw [hdelay]
    decide
  obtain ⟨hes, hadmits, hrun⟩ :=
    run_of_late t 5000000 250000 (Span.longestWait + 750000) 1000000 (by decide) rfl rfl rfl
      (by decide) hgap (by decide) (by decide)
  refine ⟨hes, hadmits, hrun, ?_, ?_, by decide⟩
  · rw [hdelay]
    decide
  · rw [hdelay]
    decide

end Interchange
