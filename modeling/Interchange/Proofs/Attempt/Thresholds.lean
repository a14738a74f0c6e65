import Interchange.Proofs.Attempt.History

/-!
# When a breaker opens and closes

A breaker stores two counts and no history.  This file says what the counts mean
in terms of the history that it has lived through: the failures in a row while it
is closed, the successes on trial while it is half-open, and the three totals.
From this it follows at which operation it opens and closes
(`turns_at_thresholds`).

What an observer sees of a history is a *trail*: each operation with the state
that it meets and the state that it leaves.  The counts of the specification,
`failuresInRow` and `successesOnTrial`, are read off the trail, from its end back
to the last passage at which counting began anew; they never look at the counts
that the breaker keeps.  A threshold of zero acts like a threshold of one, since
a count is compared with it only after it has grown.

The breaker counts in natural numbers, so nothing is assumed about the length of
a history.  Neither count exceeds the number of outcomes recorded.
-/

namespace Interchange

/-- An operation with the state that it meets and the state that it leaves. -/
structure Passage where
  source : Circuit
  operation : Operation
  target : Circuit
deriving DecidableEq, Repr

namespace Passage

/-- Failures in a row are counted anew: after a reset, after closing, and after a success while
closed. -/
def clears (p : Passage) : Bool :=
  p.operation = .reset || (p.source = .halfOpen && p.target = .closed) ||
    (p.source = .closed && p.operation = .record true)

/-- The breaker turns half-open, where successes are counted anew. -/
def probes (p : Passage) : Bool := p.source = .opened && p.target = .halfOpen

/-- A success is recorded. -/
def succeeds (p : Passage) : Bool := p.operation = .record true

/-- A failure is recorded. -/
def fails (p : Passage) : Bool := p.operation = .record false

/-- An admission is asked for and refused. -/
def rejects (p : Passage) : Bool := p.operation = .enter && p.target = .opened

end Passage

/-- How many passages of a kind lie behind the last one that is marked. -/
def countSince (marked counted : Passage → Bool) (l : List Passage) : Nat :=
  (l.reverse.takeWhile fun p ↦ !marked p).countP counted

/-- The failures since the latest of the beginning, a reset, a closing and a success while closed. -/
def failuresInRow : List Passage → Nat := countSince Passage.clears Passage.fails

/-- The successes since the breaker turned half-open. -/
def successesOnTrial : List Passage → Nat := countSince Passage.probes Passage.succeeds

theorem countSince_append_singleton (marked counted : Passage → Bool) (l : List Passage)
    (p : Passage) :
    countSince marked counted (l ++ [p]) =
      if marked p then 0 else countSince marked counted l + (if counted p then 1 else 0) := by
  cases h : marked p <;> simp [countSince, h, List.countP_cons]

theorem countSince_le (marked counted : Passage → Bool) (l : List Passage) :
    countSince marked counted l ≤ l.countP counted := by
  rw [← List.countP_reverse (l := l)]
  exact (List.takeWhile_sublist _).countP_le

namespace Breaker

/-- What a history looks like from outside. -/
def trail (b : Breaker) : History → List Passage
  | [] => []
  | (now, o) :: h => ⟨b.circuit, o, (b.perform now o).circuit⟩ :: (b.perform now o).trail h

/-- The totals are what an observer counts. -/
theorem totals_replay (b : Breaker) (h : History) :
    (b.replay h).totalSuccesses = b.totalSuccesses + (b.trail h).countP Passage.succeeds ∧
      (b.replay h).totalFailures = b.totalFailures + (b.trail h).countP Passage.fails ∧
      (b.replay h).totalRejections = b.totalRejections + (b.trail h).countP Passage.rejects := by
  induction h generalizing b with
  | nil => exact ⟨rfl, rfl, rfl⟩
  | cons x h ih =>
    obtain ⟨now, o⟩ := x
    obtain ⟨hs, hf, hr⟩ := b.totals_perform now o
    obtain ⟨ihs, ihf, ihr⟩ := ih (b.perform now o)
    rw [replay_cons, ihs, ihf, ihr, hs, hf, hr]
    simp only [trail, List.countP_cons, Passage.succeeds, Passage.fails, Passage.rejects,
      Bool.and_eq_true, decide_eq_true_eq]
    omega

/-- The state of a breaker agrees with what an observer has counted. -/
structure Tracks (b : Breaker) (l : List Passage) : Prop where
  failures : b.circuit = .closed →
    b.failures = failuresInRow l ∧ b.failures < max 1 b.thresholds.failures
  successes : b.circuit = .halfOpen →
    b.successes = successesOnTrial l ∧ b.successes < max 1 b.thresholds.successes
  successes_eq_zero : b.circuit ≠ .halfOpen → b.successes = 0
  openedAt : b.openedAt.isSome ↔ b.circuit ≠ .closed
  failures_le : b.failures ≤ l.countP Passage.fails

namespace Tracks

variable {b : Breaker} {l : List Passage}

/-- A new breaker has counted nothing. -/
theorem new (name : String) (thresholds : Thresholds) : Tracks { name, thresholds } [] where
  failures _ := ⟨rfl, Nat.lt_of_lt_of_le Nat.zero_lt_one (Nat.le_max_left ..)⟩
  successes h := by cases h
  successes_eq_zero _ := rfl
  openedAt := by simp
  failures_le := Nat.le_refl 0

/-- An operation that shows nowhere but in the totals, and does not count either. -/
theorem idle {b' : Breaker} {p : Passage} (h : Tracks b l) (hc : b'.circuit = b.circuit)
    (hf : b'.failures = b.failures) (hs : b'.successes = b.successes)
    (ho : b'.openedAt = b.openedAt) (ht : b'.thresholds = b.thresholds)
    (hclears : b.circuit = .closed → p.clears = false ∧ p.fails = false)
    (hprobes : b.circuit = .halfOpen → p.probes = false ∧ p.succeeds = false) :
    Tracks b' (l ++ [p]) where
  failures h' := by
    rw [hc] at h'
    obtain ⟨h₁, h₂⟩ := hclears h'
    simpa [failuresInRow, countSince_append_singleton, h₁, h₂, hf, ht] using h.failures h'
  successes h' := by
    rw [hc] at h'
    obtain ⟨h₁, h₂⟩ := hprobes h'
    simpa [successesOnTrial, countSince_append_singleton, h₁, h₂, hs, ht] using h.successes h'
  successes_eq_zero h' := by
    rw [hc] at h'
    rw [hs, h.successes_eq_zero h']
  openedAt := by rw [ho, hc]; exact h.openedAt
  failures_le := by
    rw [hf, List.countP_append]
    exact Nat.le_add_right_of_le h.failures_le

/-- A breaker that opens. -/
theorem trip {c : Breaker} {p : Passage} {now : Span} (hc : c.failures ≤ (l ++ [p]).countP Passage.fails) :
    Tracks (c.trip now) (l ++ [p]) where
  failures h' := by cases h'
  successes h' := by cases h'
  successes_eq_zero _ := rfl
  openedAt := by simp [Breaker.trip]
  failures_le := hc

/-- A breaker that closes, or is closed already and forgets. -/
theorem reset {c : Breaker} {p : Passage} (hp : p.clears = true) : Tracks c.reset (l ++ [p]) where
  failures _ := by
    refine ⟨?_, Nat.lt_of_lt_of_le Nat.zero_lt_one (Nat.le_max_left ..)⟩
    simp [failuresInRow, countSince_append_singleton, hp, Breaker.reset]
  successes h' := by cases h'
  successes_eq_zero _ := rfl
  openedAt := by simp [Breaker.reset]
  failures_le := Nat.zero_le _

/-- Whoever looks at a breaker leaves it as it is, or finds it half-open. -/
theorem refresh {b' : Breaker} {o : Operation} (h : Tracks b l) (now : Span)
    (ho : o = .enter ∨ o = .look) (hc : b'.circuit = (b.refresh now).circuit)
    (hf : b'.failures = (b.refresh now).failures) (hs : b'.successes = (b.refresh now).successes)
    (hopened : b'.openedAt = (b.refresh now).openedAt) (ht : b'.thresholds = b.thresholds) :
    Tracks b' (l ++ [⟨b.circuit, o, b'.circuit⟩]) := by
  have hsilent (c c' : Circuit) : (⟨c, o, c'⟩ : Passage).fails = false ∧
      (⟨c, o, c'⟩ : Passage).succeeds = false := by
    rcases ho with rfl | rfl <;> exact ⟨rfl, rfl⟩
  by_cases hb : b.circuit = .opened ∧ b.thresholds.timeout ≤ b.elapsed now
  · have hr : b.refresh now = { b with circuit := .halfOpen, successes := 0 } := by
      simp [Breaker.refresh, hb]
    rw [hr] at hc hf hs hopened
    refine ⟨fun h' ↦ ?_, fun _ ↦ ?_, fun h' ↦ absurd hc h', ?_, ?_⟩
    · rw [hc] at h'
      cases h'
    · refine ⟨?_, hs ▸ Nat.lt_of_lt_of_le Nat.zero_lt_one (Nat.le_max_left ..)⟩
      simp [successesOnTrial, countSince_append_singleton, Passage.probes, hb, hc, hs]
    · rw [hc, hopened, h.openedAt, hb.1]
      simp
    · rw [hf, List.countP_append]
      exact Nat.le_add_right_of_le h.failures_le
  · have hr : b.refresh now = b := by simp [Breaker.refresh, hb]
    rw [hr] at hc hf hs hopened
    refine h.idle hc hf hs hopened ht (fun h' ↦ ⟨?_, (hsilent ..).1⟩) (fun h' ↦ ⟨?_, (hsilent ..).2⟩)
    · rcases ho with rfl | rfl <;> simp [Passage.clears, h']
    · simp [Passage.probes, h']

/-- A failure counts in a row while closed, and opens a half-open breaker. -/
theorem fail (h : Tracks b l) (now : Span) :
    Tracks (b.fail now) (l ++ [⟨b.circuit, .record false, (b.fail now).circuit⟩]) := by
  have hcount (c c' : Circuit) :
      b.failures + 1 ≤ (l ++ [(⟨c, .record false, c'⟩ : Passage)]).countP Passage.fails := by
    simpa [List.countP_append, Passage.fails] using h.failures_le
  cases hc : b.circuit with
  | closed =>
    rw [fail_of_closed hc]
    split
    · exact trip (hcount ..)
    · next hn =>
      refine ⟨fun _ ↦ ⟨?_, ?_⟩, fun h' ↦ ?_, fun _ ↦ ?_, h.openedAt, hcount ..⟩
      · simp [failuresInRow, countSince_append_singleton, Passage.clears, Passage.fails, hc,
          (h.failures hc).1]
      · exact Nat.lt_of_lt_of_le (Nat.lt_of_not_le hn) (Nat.le_max_right ..)
      · exact absurd (hc.symm.trans h') (by decide)
      · exact h.successes_eq_zero (by simp [hc])
  | opened =>
    rw [fail_of_opened hc]
    refine h.idle rfl rfl rfl rfl rfl (fun h' ↦ ?_) (fun h' ↦ ?_) <;>
      exact absurd (hc.symm.trans h') (by decide)
  | halfOpen =>
    rw [fail_of_halfOpen hc]
    exact trip (hcount ..)

/-- A success ends a row of failures while closed, and counts on trial while half-open. -/
theorem succeed (h : Tracks b l) :
    Tracks b.succeed (l ++ [⟨b.circuit, .record true, b.succeed.circuit⟩]) := by
  cases hc : b.circuit with
  | closed =>
    have hopened : b.openedAt = none := by simpa [hc] using h.openedAt
    have hreset : b.succeed = Breaker.reset { b with totalSuccesses := b.totalSuccesses + 1 } := by
      rw [succeed_of_closed hc]
      simp [Breaker.reset, hc, hopened, h.successes_eq_zero]
    rw [hreset]
    exact reset rfl
  | opened =>
    rw [succeed_of_opened hc]
    refine h.idle rfl rfl rfl rfl rfl (fun h' ↦ ?_) (fun h' ↦ ?_) <;>
      exact absurd (hc.symm.trans h') (by decide)
  | halfOpen =>
    rw [succeed_of_halfOpen hc]
    split
    · exact reset rfl
    · next hn =>
      refine ⟨fun h' ↦ ?_, fun _ ↦ ⟨?_, ?_⟩, fun h' ↦ absurd hc h', h.openedAt, ?_⟩
      · exact absurd (hc.symm.trans h') (by decide)
      · simp [successesOnTrial, countSince_append_singleton, Passage.probes, Passage.succeeds,
          (h.successes hc).1]
      · exact Nat.lt_of_lt_of_le (Nat.lt_of_not_le hn) (Nat.le_max_right ..)
      · rw [List.countP_append]
        exact Nat.le_add_right_of_le h.failures_le

/-- Agreement lasts. -/
theorem perform (h : Tracks b l) (now : Span) (o : Operation) :
    Tracks (b.perform now o) (l ++ [⟨b.circuit, o, (b.perform now o).circuit⟩]) := by
  rcases o with - | (- | -) | - | -
  · refine h.refresh now (.inl rfl) ?_ ?_ ?_ ?_ (thresholds_perform ..) <;>
      rw [Breaker.perform, enter_fst] <;> split <;> simp_all
  · exact h.fail now
  · exact h.succeed
  · exact h.refresh now (.inr rfl) rfl rfl rfl rfl (thresholds_refresh b now)
  · exact reset rfl

/-- Agreement lasts over a whole history. -/
theorem replay (h : Tracks b l) (h' : History) : Tracks (b.replay h') (l ++ b.trail h') := by
  induction h' generalizing b l with
  | nil => simpa [trail] using h
  | cons x h' ih =>
    have := ih (h.perform x.1 x.2)
    rwa [List.append_assoc] at this

end Tracks

/-! ## The turning points -/

theorem circuit_perform_of_closed {b : Breaker} (hc : b.circuit = .closed) (now : Span)
    (o : Operation) :
    (b.perform now o).circuit =
      if o = .record false ∧ b.thresholds.failures ≤ b.failures + 1 then .opened else .closed := by
  have hr : b.refresh now = b := refresh_of_ne_opened (by simp [hc]) now
  rcases o with - | (- | -) | - | -
  · simp [perform, enter_fst, hr, hc]
  · rw [perform, fail_of_closed hc]
    split <;> simp_all [trip]
  · simp [perform, succeed_of_closed hc, hc]
  · simp [perform, hr, hc]
  · simp [perform, reset]

theorem circuit_perform_of_halfOpen {b : Breaker} (hc : b.circuit = .halfOpen) (now : Span)
    (o : Operation) :
    (b.perform now o).circuit =
      if o = .record false then .opened
      else if o = .reset ∨ (o = .record true ∧ b.thresholds.successes ≤ b.successes + 1) then .closed
      else .halfOpen := by
  have hr : b.refresh now = b := refresh_of_ne_opened (by simp [hc]) now
  rcases o with - | (- | -) | - | -
  · simp [perform, enter_fst, hr, hc]
  · simp [perform, fail_of_halfOpen hc, trip]
  · rw [perform, succeed_of_halfOpen hc]
    split <;> simp_all [reset]
  · simp [perform, hr, hc]
  · simp [perform, reset]

/-- A count below a threshold, zero counting as one, reaches it when one more makes up for it. -/
theorem reaches_iff {n k : Nat} (h : n < max 1 k) : k ≤ n + 1 ↔ n + 1 = max 1 k := by
  omega

/-- What the counts of a breaker say, and when it turns, after any history of a new breaker.

* While it is closed it counts the failures in a row; the failure that makes them as many as the
  threshold opens it, and nothing else does.
* While it is half-open it counts the successes on trial; the success that makes them as many as the
  threshold closes it, and so does a reset.  Any failure opens it.
* Successes on trial are counted at no other time, and the moment of opening is known at no time
  while it is closed.
* The totals count successes, failures and refused admissions.

Neither count ever exceeds the number of outcomes of its kind, so both fit into 32 bits as long as
fewer than `2 ^ 32` outcomes are recorded. -/
theorem turns_at_thresholds (name : String) (t : Thresholds) (h : History) :
    let b := replay { name, thresholds := t } h
    let l := trail { name, thresholds := t } h
    (b.circuit = .closed → b.failures = failuresInRow l ∧ b.failures < max 1 t.failures) ∧
      (b.circuit = .halfOpen →
        b.successes = successesOnTrial l ∧ b.successes < max 1 t.successes) ∧
      (b.circuit ≠ .halfOpen → b.successes = 0) ∧
      (b.openedAt.isSome ↔ b.circuit ≠ .closed) ∧
      b.totalSuccesses = l.countP Passage.succeeds ∧
      b.totalFailures = l.countP Passage.fails ∧
      b.totalRejections = l.countP Passage.rejects ∧
      b.failures ≤ l.countP Passage.fails ∧
      b.successes ≤ l.countP Passage.succeeds ∧
      ∀ now o,
        (b.circuit = .closed →
          ((b.perform now o).circuit = .opened ↔
            o = .record false ∧ failuresInRow l + 1 = max 1 t.failures) ∧
          (b.perform now o).circuit ≠ .halfOpen) ∧
        (b.circuit = .halfOpen →
          ((b.perform now o).circuit = .closed ↔
            o = .reset ∨ o = .record true ∧ successesOnTrial l + 1 = max 1 t.successes) ∧
          ((b.perform now o).circuit = .opened ↔ o = .record false)) ∧
        ((b.enter now).2 = .ok () ↔ (b.perform now .enter).circuit ≠ .opened) := by
  intro b l
  have hb : b.Tracks l := (Tracks.new name t).replay h
  have ht : b.thresholds = t := thresholds_replay ..
  obtain ⟨hsucceeds, hfails, hrejects⟩ := totals_replay { name, thresholds := t } h
  have hfailures := ht ▸ hb.failures
  have hsuccesses := ht ▸ hb.successes
  refine ⟨hfailures, hsuccesses, hb.successes_eq_zero, hb.openedAt,
    hsucceeds.trans (Nat.zero_add _), hfails.trans (Nat.zero_add _),
    hrejects.trans (Nat.zero_add _), hb.failures_le, ?_, fun now o ↦ ⟨fun hc ↦ ?_, fun hc ↦ ?_,
    enter_eq_ok_iff b now⟩⟩
  · by_cases hc : b.circuit = .halfOpen
    · rw [(hsuccesses hc).1]
      exact countSince_le ..
    · rw [hb.successes_eq_zero hc]
      exact Nat.zero_le _
  · obtain ⟨heq, hlt⟩ := hfailures hc
    rw [circuit_perform_of_closed hc, ← heq, ← reaches_iff hlt, ht]
    constructor
    · simp
    · split <;> simp
  · obtain ⟨heq, hlt⟩ := hsuccesses hc
    rw [circuit_perform_of_halfOpen hc, ← heq, ← reaches_iff hlt, ht]
    constructor
    · rcases o with - | (- | -) | - | - <;> simp
    · split
      · next h => simp [h]
      · next h =>
        rw [iff_false_right h]
        split <;> simp

end Breaker

end Interchange
