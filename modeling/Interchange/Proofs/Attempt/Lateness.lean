import Interchange.Proofs.Attempt.History

/-!
# Outcomes that come late

A call that was let in may take its time, and a breaker may open meanwhile.  The
breaker is not told to which call an outcome belongs, so it cannot tell a late
outcome from a fresh one; all it has to go by is its own state.

A *ledger* is a history that tells what the breaker is not told: each outcome is
the outcome of a call, which is known by the place in the ledger at which it asked
for admission.  In an orderly ledger a call that was let in has at most one
outcome, and nobody else has one.

What can be said of a late outcome is said in `late_outcome`.  While the breaker
is open every outcome is late, since it lets nobody in, and no outcome does more
than count in the totals.  A late outcome that comes within the timeout finds the
breaker still open.  One that comes after the breaker has turned half-open counts
like any other, and may close it or open it once more (`late_outcome_counts`).
-/

namespace Interchange

/-- What the users of a breaker do. A call is known by the place at which it asks for admission. -/
inductive Move where
  /-- A call asks for admission. -/
  | enter
  /-- A call ends, and its outcome is recorded. -/
  | finish (call : Nat) (success : Bool)
  /-- Somebody looks at the state or the statistics. -/
  | look
deriving DecidableEq, Repr

namespace Move

/-- What a move is to the breaker. -/
def operation : Move → Operation
  | .enter => .enter
  | .finish _ success => .record success
  | .look => .look

/-- The call that ends. -/
def finished? : Move → Option Nat
  | .finish call _ => some call
  | .enter | .look => none

theorem operation_ne_reset (m : Move) : m.operation ≠ .reset := by
  cases m <;> simp [operation]

end Move

/-- Moves in the order in which they take place, with their moments. -/
abbrev Ledger := List (Span × Move)

/-- What the breaker gets to see of a ledger. -/
def Ledger.history (l : Ledger) : History := l.map fun x ↦ (x.1, x.2.operation)

namespace Breaker

/-- The breaker that a ledger leaves behind. -/
def after (b : Breaker) (l : Ledger) : Breaker := b.replay l.history

/-- Whether the move at a place lets a call in. -/
def admits (b : Breaker) (l : Ledger) (k : Nat) : Bool :=
  match l[k]? with
  | some (now, .enter) => ((b.after (l.take k)).enter now).2 = .ok ()
  | some (_, .finish ..) | some (_, .look) | none => false

/-- Whether a call has been let in and has not ended yet. -/
def outstanding (b : Breaker) (l : Ledger) (k : Nat) : Bool :=
  b.admits l k && l.all fun x ↦ x.2.finished? ≠ some k

/-- The clock does not go back, and every outcome is that of a call which has been let in and has
not ended yet. -/
structure Orderly (b : Breaker) (l : Ledger) : Prop where
  sorted : l.Pairwise (·.1 ≤ ·.1)
  finish : ∀ n, ∀ h : n < l.length, ∀ k ∈ l[n].2.finished?, b.outstanding (l.take n) k = true

/-- The breaker opens at a place. -/
def OpensAt (b : Breaker) (l : Ledger) (j : Nat) : Prop :=
  j < l.length ∧ (b.after (l.take j)).circuit ≠ .opened ∧
    (b.after (l.take (j + 1))).circuit = .opened

/-- The breaker has opened since a call asked for admission. -/
def Stale (b : Breaker) (l : Ledger) (k : Nat) : Prop := ∃ j, k < j ∧ b.OpensAt l j

variable {b : Breaker} {l : Ledger}

@[simp] theorem after_nil (b : Breaker) : b.after [] = b := rfl

@[simp] theorem after_append (b : Breaker) (l l' : Ledger) :
    b.after (l ++ l') = (b.after l).after l' := by
  simp [after, Ledger.history]

@[simp] theorem thresholds_after (b : Breaker) (l : Ledger) :
    (b.after l).thresholds = b.thresholds := thresholds_replay ..

theorem after_take_succ {k : Nat} (h : k < l.length) :
    b.after (l.take (k + 1)) = (b.after (l.take k)).perform l[k].1 l[k].2.operation := by
  rw [List.take_succ_eq_append_getElem h, after_append]
  rfl

/-- A breaker that is not open at one place and open at a later one has opened in between. -/
theorem exists_opensAt {k n : Nat} (hkn : k ≤ n) (hn : n ≤ l.length)
    (hk : (b.after (l.take k)).circuit ≠ .opened) (hopen : (b.after (l.take n)).circuit = .opened) :
    ∃ j, k ≤ j ∧ j < n ∧ b.OpensAt l j := by
  induction hkn with
  | refl => exact absurd hopen hk
  | @step n hkn ih =>
    by_cases hprev : (b.after (l.take n)).circuit = .opened
    · obtain ⟨j, hkj, hjn, hj⟩ := ih (Nat.le_of_succ_le hn) hprev
      exact ⟨j, hkj, Nat.lt_succ_of_lt hjn, hj⟩
    · exact ⟨n, hkn, Nat.lt_succ_self n, hn, hprev, hopen⟩

/-- A call that was let in has found the breaker closed or half-open. -/
theorem exists_of_admits {k : Nat} (h : b.admits l k = true) :
    ∃ hk : k < l.length, l[k].2 = .enter ∧ (b.after (l.take (k + 1))).circuit ≠ .opened := by
  unfold admits at h
  split at h
  · next now hnow =>
    obtain ⟨hk, hget⟩ := List.getElem?_eq_some_iff.mp hnow
    refine ⟨hk, by rw [hget], ?_⟩
    rw [after_take_succ hk, hget]
    exact (enter_eq_ok_iff _ now).mp (of_decide_eq_true h)
  · cases h
  · cases h
  · cases h

/-- Whoever ends while the breaker is open was let in before it opened. -/
theorem stale_of_opened {k : Nat} (hk : b.outstanding l k = true)
    (hopen : (b.after l).circuit = .opened) : b.Stale l k := by
  obtain ⟨hadmits, -⟩ := Bool.and_eq_true_iff.mp hk
  obtain ⟨hlt, -, hentered⟩ := exists_of_admits hadmits
  rw [← l.take_length] at hopen
  obtain ⟨j, hkj, -, hj⟩ := exists_opensAt hlt (Nat.le_refl _) hentered hopen
  exact ⟨j, hkj, hj⟩

/-- A breaker that has opened stays open until its timeout is over. -/
theorem opened_of_opensAt {j : Nat} {now : Span} (hsorted : l.Pairwise (·.1 ≤ ·.1))
    (hj : b.OpensAt l j) (hlast : ∀ x ∈ l, x.1 ≤ now)
    (hnow : ∀ h : j < l.length, now < l[j].1 + b.thresholds.timeout) :
    (b.after l).circuit = .opened := by
  obtain ⟨hlt, hprev, hopen⟩ := hj
  rw [after_take_succ hlt] at hopen
  obtain ⟨-, hsince⟩ := openSince_of_opens hprev hopen
  rw [← after_take_succ hlt] at hsince
  -- From there on nothing happens that does more than count.
  have hrest : (b.after l) = (b.after (l.take (j + 1))).replay (Ledger.history (l.drop (j + 1))) := by
    conv_lhs => rw [← l.take_append_drop (j + 1), after_append]
    rfl
  rw [hrest, hsince.replay_eq, (hsince.noted _).circuit]
  intro x hx
  obtain ⟨y, hy, rfl⟩ := List.mem_map.mp hx
  refine ⟨?_, y.2.operation_ne_reset, .inl ?_⟩
  · rw [← l.take_append_drop (j + 1)] at hsorted
    have hmem : l[j] ∈ l.take (j + 1) := List.mem_take_iff_getElem.mpr ⟨j, by omega, rfl⟩
    exact (List.pairwise_append.mp hsorted).2.2 _ hmem y hy
  · rw [thresholds_after]
    exact Nat.lt_of_le_of_lt (hlast y (List.mem_of_mem_drop hy)) (hnow hlt)

/-- A call that has not ended yet had not ended before. -/
theorem outstanding_take {k n : Nat} (hkn : k < n) (h : b.outstanding l k = true) :
    b.outstanding (l.take n) k = true := by
  obtain ⟨hadmits, hall⟩ := Bool.and_eq_true_iff.mp h
  apply Bool.and_eq_true_iff.mpr
  constructor
  · unfold admits at hadmits ⊢
    rw [List.getElem?_take_of_lt hkn, List.take_take, Nat.min_eq_left (Nat.le_of_lt hkn)]
    exact hadmits
  · rw [List.all_eq_true] at hall ⊢
    intro x hx
    exact hall x (List.mem_of_mem_take hx)

/-- Breakers that differ at most in their totals. -/
structure SameStanding (x y : Breaker) : Prop where
  circuit : y.circuit = x.circuit
  failures : y.failures = x.failures
  successes : y.successes = x.successes
  openedAt : y.openedAt = x.openedAt

/-- An outcome does no more than count in the totals if the breaker is open, or if it is a success and
there are no failures for it to clear. -/
theorem sameStanding_record_iff (b : Breaker) (now : Span) (success : Bool) :
    SameStanding b (b.perform now (.record success)) ↔
      b.circuit = .opened ∨ b.circuit = .closed ∧ success = true ∧ b.failures = 0 := by
  cases hc : b.circuit with
  | opened =>
    have hsame : SameStanding b (b.perform now (.record success)) := by
      cases success with
      | true => rw [perform, succeed_of_opened hc]; exact ⟨rfl, rfl, rfl, rfl⟩
      | false => rw [perform, fail_of_opened hc]; exact ⟨rfl, rfl, rfl, rfl⟩
    simp [hsame]
  | closed =>
    cases success with
    | true =>
      rw [perform, succeed_of_closed hc]
      constructor
      · intro hsame
        exact .inr ⟨rfl, rfl, hsame.failures.symm⟩
      · rintro (hopen | ⟨-, -, hnone⟩)
        · cases hopen
        · exact ⟨rfl, hnone.symm, rfl, rfl⟩
    | false =>
      have hcount : (b.perform now (.record false)).failures = b.failures + 1 := by
        rw [perform, fail_of_closed hc]
        split <;> rfl
      constructor
      · intro hsame
        have := hsame.failures
        omega
      · simp
  | halfOpen =>
    constructor
    · intro hsame
      have hcircuit := hsame.circuit
      have hsuccesses := hsame.successes
      cases success with
      | true =>
        rw [perform, succeed_of_halfOpen hc] at hcircuit hsuccesses
        split at hcircuit
        · simp [reset, hc] at hcircuit
        · next hmore => simp [hmore] at hsuccesses
      | false =>
        rw [perform, fail_of_halfOpen hc] at hcircuit
        simp [trip, hc] at hcircuit
    · simp

/-- What can be said of the outcome of a call that is recorded now.

* It does no more than count in the totals if and only if the breaker is still open, or it is a success
  and finds the breaker closed without a failure.
* While the breaker is open, every outcome is that of a call which was let in before it opened.
* If the breaker has opened since the call was let in, it is still open until the timeout is over, and
  so it is if the call has taken less than the timeout.
* If at some place after the breaker opened no call was outstanding that had been let in before, this
  call was let in after it opened.

And nothing but an outcome closes a half-open breaker or opens it once more. -/
theorem late_outcome (name : String) (t : Thresholds) {l : Ledger} {now : Span} {m : Move}
    (hl : Orderly { name, thresholds := t } (l ++ [(now, m)])) :
    let b : Breaker := { name, thresholds := t }
    let x := b.after l
    let y := b.after (l ++ [(now, m)])
    (∀ k success, m = .finish k success →
      (x.SameStanding y ↔
        x.circuit = .opened ∨ x.circuit = .closed ∧ success = true ∧ x.failures = 0) ∧
      (x.circuit = .opened → b.Stale l k) ∧
      (∀ j, ∀ h : j < l.length, k < j → b.OpensAt l j → now < l[j].1 + t.timeout →
        x.circuit = .opened) ∧
      (b.Stale l k → (∀ entered ∈ l[k]?, now < entered.1 + t.timeout) → x.circuit = .opened) ∧
      ∀ n, (∀ j, b.OpensAt l j → j < n) → (∀ i, b.outstanding (l.take n) i = true → ¬ b.Stale l i) →
        ¬ b.Stale l k) ∧
    (x.circuit = .halfOpen → y.circuit ≠ .halfOpen → ∃ k success, m = .finish k success) := by
  intro b x y
  have hy : y = x.perform now m.operation := after_append b l [(now, m)]
  obtain ⟨hinit, -, hlast⟩ := List.pairwise_append.mp hl.sorted
  have hnow : ∀ z ∈ l, z.1 ≤ now := fun z hz ↦ hlast z hz (now, m) (List.mem_singleton_self _)
  constructor
  · rintro k success rfl
    have hk : b.outstanding l k = true := by
      simpa [Move.finished?] using hl.finish l.length (by simp)
    have hopened (j : Nat) (hj : b.OpensAt l j) (hlt : ∀ h : j < l.length, now < l[j].1 + t.timeout) :
        x.circuit = .opened := opened_of_opensAt hinit hj hnow hlt
    refine ⟨?_, stale_of_opened hk, ?_, ?_, ?_⟩
    · rw [hy]
      exact x.sameStanding_record_iff now success
    · intro j h _ hj hlt
      exact hopened j hj fun _ ↦ hlt
    · rintro ⟨j, hkj, hj⟩ hbrief
      apply hopened j hj
      intro h
      have hkl : k < l.length := Nat.lt_trans hkj h
      have hentered : l[k].1 ≤ l[j].1 := List.pairwise_iff_getElem.mp hinit k j hkl h hkj
      exact Nat.lt_of_lt_of_le (hbrief l[k] (List.getElem?_eq_getElem hkl))
        (Nat.add_le_add_right hentered _)
    · rintro n hn hdone ⟨j, hkj, hj⟩
      have hkn : k < n := Nat.lt_trans hkj (hn j hj)
      exact hdone k (outstanding_take hkn hk) ⟨j, hkj, hj⟩
  · intro hx hleft
    rw [hy] at hleft
    have hrefresh : x.refresh now = x := refresh_of_ne_opened (by simp [hx]) now
    cases m with
    | finish k success => exact ⟨k, success, rfl⟩
    | enter =>
      have : (x.perform now .enter).circuit = .halfOpen := by
        rw [perform, enter_fst, hrefresh, if_neg (by simp [hx]), hx]
      exact absurd this hleft
    | look =>
      have : (x.perform now .look).circuit = .halfOpen := by
        rw [perform, hrefresh, hx]
      exact absurd this hleft

/-- Of two calls that were let in one fails, and the other one fails while the breaker is open. -/
theorem late_outcome_ignored :
    let b : Breaker :=
      { name := "cb", thresholds := { failures := 1, successes := 2, timeout := .ofSeconds 1 } }
    let l : Ledger := [(0, .enter), (0, .enter), (0, .finish 0 false)]
    b.Orderly (l ++ [(5, .finish 1 false)]) ∧ b.Stale l 1 ∧
      (b.after l).SameStanding (b.after (l ++ [(5, .finish 1 false)])) := by
  intro b l
  have hl : b.Orderly (l ++ [(5, .finish 1 false)]) := ⟨by decide, by decide⟩
  have hopen : (b.after l).circuit = .opened := by decide
  obtain ⟨hsame, hstale, -⟩ := (late_outcome "cb" b.thresholds hl).1 1 false rfl
  exact ⟨hl, hstale hopen, hsame.mpr (.inl hopen)⟩

/-- Of two calls that were let in one fails, which opens the breaker.  When it has turned half-open,
the call that it lets in succeeds, and so does the other one.  This late success is counted, and closes
the breaker; had it been a failure, it would have opened the breaker once more. -/
theorem late_outcome_counts :
    let b : Breaker :=
      { name := "cb", thresholds := { failures := 1, successes := 2, timeout := .ofSeconds 1 } }
    let l : Ledger :=
      [(0, .enter), (0, .enter), (0, .finish 0 false), (.ofSeconds 1, .enter),
        (.ofSeconds 1, .finish 3 true)]
    b.Orderly (l ++ [(.ofSeconds 1, .finish 1 true)]) ∧
      b.Orderly (l ++ [(.ofSeconds 1, .finish 1 false)]) ∧ b.Stale l 1 ∧
      (b.after l).circuit = .halfOpen ∧
      (b.after (l ++ [(.ofSeconds 1, .finish 1 true)])).circuit = .closed ∧
      (b.after (l ++ [(.ofSeconds 1, .finish 1 false)])).circuit = .opened := by
  intro b l
  have hopens : b.OpensAt l 2 := ⟨by decide, by decide, by decide⟩
  exact ⟨⟨by decide, by decide⟩, ⟨by decide, by decide⟩, ⟨2, by decide, hopens⟩, by decide,
    by decide, by decide⟩

end Breaker

end Interchange
