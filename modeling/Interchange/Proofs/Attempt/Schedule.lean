import Interchange.Proofs.Attempt.Crowd
import Mathlib.Data.List.Forall2

/-!
# What is performed together is a run of a crowd

Performances that share a breaker are scheduled by `Process.run`: the one that is
due soonest acts next.  A crowd knows no schedule, but it can follow one.  Time
passes up to the moment at which a performance is due, its caller cancels it if
that is what is due, and it is resumed.

`Crowd.Follows` says that a crowd is where a list of performances is, but for the
cancellations to come, and that none of them is due in the past.  One act of the
schedule is at most three events of the crowd (`Crowd.Follows.act`), so whatever
comes of the performances comes of some run (`Performance.run_of_runAll`), and
all that holds of every run holds of them.

A schedule is more than any run: nobody has to wait longer than it asks for.  This
is `Crowd.Serves`, and every performance that is not cancelled is served until it
has ended (`Performance.served_of_runAll`).
-/

namespace Interchange

variable {σ τ α : Type}

namespace Process

theorem due_of_soonest_none {p : Process σ τ} {xs : List τ} (h : p.soonest xs = none) :
    ∀ x ∈ xs, p.due x = none := by
  induction xs with
  | nil => simp
  | cons x xs ih =>
    rw [soonest] at h
    split at h
    · next hx hxs => simpa [hx] using ih hxs
    · cases h
    · cases h
    · split at h <;> cases h

/-- Nothing is due before the process that is chosen. -/
theorem due_le_of_soonest {p : Process σ τ} {xs before behind : List τ} {y : τ} {d : Span}
    (h : p.soonest xs = some (before, y, behind)) (hy : p.due y = some d) :
    ∀ x ∈ xs, ∀ d', p.due x = some d' → d ≤ d' := by
  induction xs generalizing before behind y d with
  | nil => simp [soonest] at h
  | cons x xs ih =>
    have hself {d₀ : Span} (hd₀ : p.due x = some d₀) (hle : d ≤ d₀) :
        ∀ d', p.due x = some d' → d ≤ d' := by
      intro d' hd'
      cases hd₀.symm.trans hd'
      exact hle
    rw [soonest] at h
    split at h
    · cases h
    · next hx hxs =>
      cases h
      exact List.forall_mem_cons.mpr ⟨by simp [hx], ih hxs hy⟩
    · next hx hxs =>
      cases h
      refine List.forall_mem_cons.mpr ⟨hself hy (Nat.le_refl _), fun z hz d' hd' ↦ ?_⟩
      simp [due_of_soonest_none hxs z hz] at hd'
    · next d₀ _ y' _ hx hxs =>
      obtain ⟨d', hd'⟩ := Option.isSome_iff_exists.mp (soonest_eq_some hxs).2
      split at h
      · next hlt =>
        cases h
        rw [hy, Option.any_some, decide_eq_true_eq] at hlt
        exact List.forall_mem_cons.mpr ⟨hself hx (Nat.le_of_lt hlt), ih hxs hy⟩
      · next hle =>
        cases h
        cases hx.symm.trans hy
        rw [hd', Option.any_some, decide_eq_true_eq] at hle
        refine List.forall_mem_cons.mpr ⟨hself hy (Nat.le_refl _), fun z hz e he ↦ ?_⟩
        exact Nat.le_trans (Nat.le_of_not_lt hle) (ih hxs hd' z hz e he)

theorem run_of_soonest_none {p : Process σ τ} {xs : List τ} (h : p.soonest xs = none) (s : σ) :
    p.run xs s = (xs, s) := by
  rw [run]
  split
  · rfl
  · next h' => cases h.symm.trans h'

theorem run_of_soonest_some {p : Process σ τ} {xs before behind : List τ} {y : τ}
    (h : p.soonest xs = some (before, y, behind)) (s : σ) :
    p.run xs s = p.run (before ++ (p.act y s).1 :: behind) (p.act y s).2 := by
  rw [run]
  split
  · next h' => cases h.symm.trans h'
  · next h' =>
    cases h.symm.trans h'
    rfl

/-- At the end of a run nothing is due. -/
theorem due_of_mem_run (p : Process σ τ) (xs : List τ) (s : σ) :
    ∀ x ∈ (p.run xs s).1, p.due x = none := by
  induction xs, s using Process.run.induct p with
  | case1 xs s hs =>
    rw [run_of_soonest_none hs]
    exact due_of_soonest_none hs
  | case2 xs s before x behind hs ih =>
    rw [run_of_soonest_some hs]
    exact ih

/-- What every act preserves of a process a whole run preserves. -/
theorem forall₂_run {p : Process σ τ} {γ : Type} {R : γ → τ → Prop}
    (hact : ∀ c x s, (p.due x).isSome → R c x → R c (p.act x s).1) {cs : List γ} {xs : List τ}
    (h : List.Forall₂ R cs xs) (s : σ) : List.Forall₂ R cs (p.run xs s).1 := by
  induction xs, s using Process.run.induct p with
  | case1 xs s hs => rwa [run_of_soonest_none hs]
  | case2 xs s before x behind hs ih =>
    rw [run_of_soonest_some hs]
    obtain ⟨rfl, hx⟩ := soonest_eq_some hs
    have hbefore := List.forall₂_take_append cs before (x :: behind) h
    have hbehind := List.forall₂_drop_append cs before (x :: behind) h
    obtain ⟨c, cs', hc, hrest, hdrop⟩ := List.forall₂_cons_right_iff.mp hbehind
    rw [← List.take_append_drop before.length cs, hdrop] at ih ⊢
    exact ih (List.rel_append hbefore (.cons (hact c x s hx hc) hrest))

end Process

/-! ## One act -/

namespace Invocation

variable {site : Site σ α} {i : Invocation α} {s : σ} {d : Span}

/-- What an invocation does at the moment at which it is due. -/
theorem act_cases (site : Site σ α) (s : σ) (hd : i.due = some d) :
    (i.cancelAt = some d ∧ i.result? = none ∧ i.act site s = (i.abandon d, s)) ∨
      (i.next = some d ∧ (∀ c, i.cancelAt = some c → d ≤ c) ∧
        i.act site s = i.step site d s) := by
  obtain ⟨t, ht, rfl⟩ := Option.map_eq_some_iff.mp hd
  cases hc : i.cancelledBefore t with
  | some c =>
    refine .inl ⟨(Option.filter_eq_some_iff.mp hc).1, isSome_next.mp (by simp [ht]), ?_⟩
    simp [act, ht, hc, resume]
  | none =>
    refine .inr ⟨ht, fun c hcancel ↦ ?_, by simp [act, ht, hc, resume]⟩
    rw [cancelledBefore, hcancel] at hc
    simpa using hc

/-- A step is the same whenever the caller is going to cancel. -/
theorem step_cancelAt (site : Site σ α) (now : Span) (i : Invocation α) (c : Option Span) (s : σ) :
    ({ i with cancelAt := c } : Invocation α).step site now s =
      ({ (i.step site now s).1 with cancelAt := c }, (i.step site now s).2) := by
  obtain ⟨terms, cancelAt, calls, stage⟩ := i
  cases stage with
  | finished | calling => rfl
  | pending n t =>
    simp only [step]
    split <;> rfl

theorem abandon_cancelAt (now : Span) (i : Invocation α) (c : Option Span) :
    ({ i with cancelAt := c } : Invocation α).abandon now =
      { i.abandon now with cancelAt := c } := by
  obtain ⟨terms, cancelAt, calls, stage⟩ := i
  cases stage <;> rfl

theorem cancelAt_step (site : Site σ α) (now : Span) (i : Invocation α) (s : σ) :
    (i.step site now s).1.cancelAt = i.cancelAt := by
  unfold step
  split
  · rfl
  · split <;> rfl
  · rfl

/-- What comes after a step does not come before it. -/
theorem le_next_step {t : Span} (h : (i.step site d s).1.next = some t) : d ≤ t := by
  cases hs : i.stage with
  | finished => simp [step, next, hs] at h
  | pending n _ =>
    simp only [step, hs] at h
    split at h
    · simp [next] at h
    · simp only [next, Option.some.injEq] at h
      exact h ▸ Nat.le_add_right ..
  | calling n _ o =>
    cases o with
    | ok x => simp [step, next, hs, Terms.settle] at h
    | error f =>
      simp only [step, hs, Terms.settle] at h
      split at h
      · simp [next] at h
      · split at h
        · simp [next] at h
        · simp only [next, Option.some.injEq] at h
          exact h ▸ Span.le_wake ..

/-- Whether and when the caller cancels is not up to the invocation. -/
theorem cancelAt_act (hd : i.due.isSome) : (i.act site s).1.cancelAt = i.cancelAt := by
  obtain ⟨d, hd⟩ := Option.isSome_iff_exists.mp hd
  rcases act_cases site s hd with ⟨-, -, hact⟩ | ⟨-, -, hact⟩
  · rw [hact]
    cases hs : i.stage <;> simp [abandon, hs]
  · rw [hact, cancelAt_step]

theorem le_due_act (hd : i.due = some d) {d' : Span} (hd' : (i.act site s).1.due = some d') :
    d ≤ d' := by
  rcases act_cases site s hd with ⟨-, hresult, hact⟩ | ⟨-, hcancel, hact⟩
  · have hnone : (i.abandon d).next = none := by
      cases hs : i.stage <;> simp [abandon, next, result?, hs] at hresult ⊢
    simp [hact, due, hnone] at hd'
  · rw [hact] at hd'
    obtain ⟨t, ht, rfl⟩ := Option.map_eq_some_iff.mp hd'
    rw [cancelledBefore, cancelAt_step]
    cases hc : i.cancelAt.filter (· < t) with
    | none => exact le_next_step ht
    | some c => exact hcancel c (Option.filter_eq_some_iff.mp hc).1

/-- Nothing happens to an invocation before it begins. -/
theorem le_due_start {terms : Terms} {c : Cancellation} {now : Span}
    (hd : (start terms c now : Invocation α).due = some d) : now ≤ d := by
  cases c with
  | never =>
    cases hd
    exact Nat.le_refl _
  | beforehand => cases hd
  | after span =>
    have hafter : ¬ now + span < now := Nat.not_lt.mpr (Nat.le_add_right ..)
    simp only [start, due, next, cancelledBefore, Option.filter, decide_eq_true_eq, hafter, if_false,
      Option.map_some, Option.getD_none] at hd
    cases hd
    exact Nat.le_refl _

/-- Resumed when it is due, an invocation that nobody cancels takes its step. -/
theorem wake_of_next (hnext : i.next = some d) (e : Effort α) (b : Breaker) :
    ({ i with cancelAt := none } : Invocation α).wake e d b =
      ({ (i.step (.lone e) d b).1 with cancelAt := none }, (i.step (.lone e) d b).2) := by
  have hready : ({ i with cancelAt := none } : Invocation α).ready d = true := by
    show i.next.any (· ≤ d) = true
    rw [hnext]
    exact decide_eq_true (Nat.le_refl _)
  rw [← step_cancelAt, wake, if_neg (by simp [revoked]), if_pos hready]
  rfl

/-- Resumed when its caller has cancelled it, an invocation ends. -/
theorem wake_of_revoke (hresult : i.result? = none) (e : Effort α) (b : Breaker) :
    (({ i with cancelAt := none } : Invocation α).revoke d).wake e d b =
      ({ i.abandon d with cancelAt := some d }, b) := by
  have hrevoke : ({ i with cancelAt := none } : Invocation α).revoke d =
      { i with cancelAt := some d } := if_pos (isSome_next.mpr hresult)
  have hrevoked : ({ i with cancelAt := some d } : Invocation α).revoked d = true :=
    decide_eq_true (Nat.le_refl _)
  rw [hrevoke, wake_of_revoked hrevoked, abandon_cancelAt]

end Invocation

namespace Performance

/-- What the next attempt comes to, if one is to begin. -/
def coming (p : Performance α) : Effort α :=
  match p.invocation.stage with
  | .pending n _ => p.script.effort p.silence n
  | .calling .. | .finished .. => { outcome := .ok p.silence }

theorem step_eq (p : Performance α) (now : Span) (b : Breaker) :
    p.invocation.step p.site now b = p.invocation.step (.lone p.coming) now b := by
  cases hs : p.invocation.stage with
  | finished | calling => simp [Invocation.step, hs, site, Site.lone]
  | pending n t =>
    simp only [Invocation.step, hs, site, Site.lone, coming]

end Performance

/-! ## Following a schedule -/

namespace Crowd

/-- A crowd is where these performances are, but for the cancellations to come. -/
structure Follows (w : Crowd α) (ps : List (Performance α)) : Prop where
  length_eq : w.members.length = ps.length
  same (k : Nat) (p : Performance α) : ps[k]? = some p →
    ∃ c, w.members[k]? = some { p.invocation with cancelAt := c } ∧
      (p.invocation.result? = none → c = none)
  le_due (p : Performance α) : p ∈ ps → ∀ d, p.invocation.due = some d → w.now ≤ d

/-- Resume a member at a moment to come. -/
theorem run_resume {w : Crowd α} {k : Nat} {i : Invocation α} (h : w.members[k]? = some i)
    {d : Span} (hd : w.now ≤ d) (e : Effort α) :
    w.run [.pass (d - w.now), .resume k e] =
      { now := d, breaker := (i.wake e d w.breaker).2,
        members := w.members.set k (i.wake e d w.breaker).1 } := by
  have hnow : w.now + (d - w.now) = d := Nat.add_sub_of_le hd
  simp [step, h, hnow]

/-- Cancel a member at a moment to come, and resume it. -/
theorem run_cancel {w : Crowd α} {k : Nat} {i : Invocation α} (h : w.members[k]? = some i)
    {d : Span} (hd : w.now ≤ d) (e : Effort α) :
    w.run [.pass (d - w.now), .cancel k, .resume k e] =
      { now := d, breaker := ((i.revoke d).wake e d w.breaker).2,
        members := w.members.set k ((i.revoke d).wake e d w.breaker).1 } := by
  have hnow : w.now + (d - w.now) = d := Nat.add_sub_of_le hd
  have hset (j : Invocation α) : (w.members.modify k (·.revoke d)).set k j = w.members.set k j := by
    refine List.ext_getElem? fun m ↦ ?_
    by_cases hm : k = m
    · simp [List.getElem?_set, hm]
    · simp [hm]
  simp [step, h, hnow, hset]

/-- What an event must be like for a member to be served by it.  The clock does not pass the moment for
which the member waits, its caller does not cancel it, and an attempt that it begins takes the effort that
is laid down for it. -/
def Serving (w : Crowd α) (k : Nat) (efforts : Nat → Effort α) : Event α → Prop
  | .pass span => ∀ i, w.members[k]? = some i → ∀ t, i.next = some t → w.now + span ≤ t
  | .direct _ | .start .. => True
  | .cancel m => m ≠ k
  | .resume m e =>
    m = k → ∀ i, w.members[k]? = some i → ∀ n t, i.stage = .pending n t → e = efforts n

/-- A member is served by all of these events. -/
def Serves (w : Crowd α) (k : Nat) (efforts : Nat → Effort α) : List (Event α) → Prop
  | [] => True
  | x :: es => w.Serving k efforts x ∧ (w.step x).Serves k efforts es

theorem serves_append {w : Crowd α} {k : Nat} {efforts : Nat → Effort α} {es fs : List (Event α)} :
    w.Serves k efforts (es ++ fs) ↔ w.Serves k efforts es ∧ (w.run es).Serves k efforts fs := by
  induction es generalizing w with
  | nil => exact (and_iff_right trivial).symm
  | cons x es ih => simp only [List.cons_append, Serves, ih, run_cons, and_assoc]

/-- What a performance does when it is due, a member that follows it can do.  That serves every member
which waits for nothing earlier, be it another one or this one, if it is not to be cancelled. -/
theorem run_of_act {w : Crowd α} {k : Nat} {p : Performance α} {c : Option Span} {d : Span}
    (h : w.members[k]? = some { p.invocation with cancelAt := c })
    (hc : p.invocation.result? = none → c = none) (hd : p.invocation.due = some d)
    (hle : w.now ≤ d) :
    ∃ es c', w.run es =
        { now := d, breaker := (p.invocation.act p.site w.breaker).2,
          members := w.members.set k
            { (p.invocation.act p.site w.breaker).1 with cancelAt := c' } } ∧
      ((p.invocation.act p.site w.breaker).1.result? = none → c' = none) ∧
      ∀ m efforts, (∀ i, w.members[m]? = some i → ∀ t, i.next = some t → d ≤ t) →
        (k = m → p.invocation.cancelAt = none ∧ p.script.effort p.silence = efforts) →
        w.Serves m efforts es := by
  have hpass (m : Nat) (efforts : Nat → Effort α)
      (hwait : ∀ i, w.members[m]? = some i → ∀ t, i.next = some t → d ≤ t) :
      w.Serving m efforts (.pass (d - w.now)) := fun i hi t ht ↦ by
    rw [Nat.add_sub_of_le hle]
    exact hwait i hi t ht
  rcases Invocation.act_cases p.site w.breaker hd with ⟨hcancel, hresult, hact⟩ | ⟨hnext, -, hact⟩
  · cases hc hresult
    refine ⟨_, some d, (w.run_cancel h hle p.coming).trans ?_, ?_, fun m efforts hwait hself ↦ ?_⟩
    · rw [hact, Invocation.wake_of_revoke hresult]
    · rw [hact, Invocation.result?_abandon hresult]
      intro hnone
      cases hnone
    · have hother : k ≠ m := fun hk ↦ by
        cases hcancel.symm.trans (hself hk).1
      exact ⟨hpass m efforts hwait, hother, fun hk ↦ absurd hk hother, trivial⟩
  · cases hc (Invocation.isSome_next.mp (by simp [hnext]))
    refine ⟨_, none, (w.run_resume h hle p.coming).trans ?_, fun _ ↦ rfl, fun m efforts hwait hself ↦ ?_⟩
    · rw [hact, p.step_eq, Invocation.wake_of_next hnext]
    · refine ⟨hpass m efforts hwait, fun hk i hi n t hstage ↦ ?_, trivial⟩
      subst hk
      cases h.symm.trans hi
      have hstage : p.invocation.stage = .pending n t := hstage
      rw [← (hself rfl).2]
      simp [Performance.coming, hstage]

/-- One act of the schedule is followed, and serves all whom nobody cancels. -/
theorem Follows.act {w : Crowd α} {ps before behind : List (Performance α)} {p : Performance α}
    (h : w.Follows ps) (hs : Performance.process.soonest ps = some (before, p, behind)) :
    ∃ es, (w.run es).Follows (before ++ (Performance.process.act p w.breaker).1 :: behind) ∧
      (w.run es).breaker = (Performance.process.act p w.breaker).2 ∧
      ∀ m q, ps[m]? = some q → q.invocation.cancelAt = none →
        w.Serves m (q.script.effort q.silence) es := by
  obtain ⟨hps, hdue⟩ := Process.soonest_eq_some hs
  obtain ⟨d, hd⟩ := Option.isSome_iff_exists.mp hdue
  have hp : p ∈ ps := by simp [hps]
  have hplace : ps[before.length]? = some p := by simp [hps]
  obtain ⟨c, hmember, hc⟩ := h.same before.length p hplace
  obtain ⟨es, c', hrun, hc', hserves⟩ := run_of_act hmember hc hd (h.le_due p hp d hd)
  have hset (q : Performance α) : before ++ q :: behind = ps.set before.length q := by simp [hps]
  refine ⟨es, ?_, by rw [hrun]; rfl, fun m q hq hcancel ↦ hserves m _ (fun i hi t ht ↦ ?_) fun hm ↦ ?_⟩
  · rw [hset, hrun]
    refine ⟨by simpa using h.length_eq, fun m q hq ↦ ?_, fun q hq d' hd' ↦ ?_⟩
    · by_cases hm : before.length = m
      · subst hm
        have hlt : before.length < ps.length := by simp [hps]
        rw [List.getElem?_set_self hlt] at hq
        cases hq
        exact ⟨c', List.getElem?_set_self (h.length_eq ▸ hlt), hc'⟩
      · rw [List.getElem?_set_ne hm] at hq ⊢
        exact h.same m q hq
    · rcases List.mem_or_eq_of_mem_set hq with hq | rfl
      · exact Process.due_le_of_soonest hs hd q hq d' hd'
      · exact Invocation.le_due_act hd hd'
  · obtain ⟨c, hc, -⟩ := h.same m q hq
    cases hc.symm.trans hi
    have ht : q.invocation.next = some t := ht
    refine Process.due_le_of_soonest hs hd q (List.mem_of_getElem? hq) t ?_
    show q.invocation.due = some t
    simp [Invocation.due, Invocation.cancelledBefore, ht, hcancel]
  · subst hm
    cases hplace.symm.trans hq
    exact ⟨hcancel, rfl⟩

/-- The whole schedule is followed, and serves all whom nobody cancels. -/
theorem Follows.run {ps : List (Performance α)} {b : Breaker} {w : Crowd α} (h : w.Follows ps)
    (hb : w.breaker = b) :
    ∃ es, (w.run es).Follows (Performance.process.run ps b).1 ∧
      (w.run es).breaker = (Performance.process.run ps b).2 ∧
      ∀ m q, ps[m]? = some q → q.invocation.cancelAt = none →
        w.Serves m (q.script.effort q.silence) es := by
  induction ps, b using Process.run.induct Performance.process generalizing w with
  | case1 ps b hs =>
    rw [Process.run_of_soonest_none hs]
    exact ⟨[], h, hb, fun _ _ _ _ ↦ trivial⟩
  | case2 ps b before p behind hs ih =>
    subst hb
    obtain ⟨es, hes, hbreaker, hserves⟩ := h.act hs
    obtain ⟨fs, hfs, hbreaker', hserves'⟩ := ih hes hbreaker
    rw [Process.run_of_soonest_some hs]
    refine ⟨es ++ fs, by rwa [run_append], by rwa [run_append], fun m q hq hcancel ↦ ?_⟩
    refine serves_append.mpr ⟨hserves m q hq hcancel, ?_⟩
    obtain ⟨hps, hdue⟩ := Process.soonest_eq_some hs
    have hset (q : Performance α) : before ++ q :: behind = ps.set before.length q := by simp [hps]
    by_cases hm : before.length = m
    · subst hm
      obtain rfl : q = p := by simpa [hps] using hq.symm
      refine hserves' _ (Performance.process.act q w.breaker).1 (by simp) ?_
      exact (Invocation.cancelAt_act hdue).trans hcancel
    · refine hserves' m q ?_ hcancel
      rw [hset, List.getElem?_set_ne hm, hq]

/-- The event with which a performance begins. -/
def opening (p : Performance α) : Event α := .start p.invocation.terms p.invocation.result?.isSome

/-- The invocation of a performance that nobody has cancelled yet. -/
def opened (p : Performance α) : Invocation α := { p.invocation with cancelAt := none }

theorem run_openings (w : Crowd α) (ps : List (Performance α))
    (hps : ∀ p ∈ ps, ∃ terms c, p.invocation = .start terms c w.now) :
    w.run (ps.map opening) = { w with members := w.members ++ ps.map opened } := by
  induction ps generalizing w with
  | nil => simp
  | cons p ps ih =>
    obtain ⟨terms, c, hp⟩ := hps p List.mem_cons_self
    have hstep : w.step (opening p) = { w with members := w.members ++ [opened p] } := by
      rw [opening, opened, hp]
      cases c <;> rfl
    have hrest : ∀ q ∈ ps, ∃ terms c, q.invocation = .start terms c (w.step (opening p)).now :=
      fun q hq ↦ by simpa [hstep] using hps q (List.mem_cons_of_mem _ hq)
    rw [List.map_cons, run_cons, ih _ hrest, hstep]
    simp

/-- Nothing is due before it begins. -/
theorem follows_openings {w : Crowd α} {ps : List (Performance α)} (hw : w.members = ps.map opened)
    (hps : ∀ p ∈ ps, ∃ terms c, p.invocation = .start terms c w.now) : w.Follows ps := by
  refine ⟨by simp [hw], fun k p hp ↦ ⟨none, by simp [hw, hp, opened], fun _ ↦ rfl⟩,
    fun p hp d hd ↦ ?_⟩
  obtain ⟨terms, c, hstart⟩ := hps p hp
  exact Invocation.le_due_start (hstart ▸ hd)

theorem Follows.map_eq {β : Type} {w : Crowd α} {ps : List (Performance α)} (h : w.Follows ps)
    {f : Invocation α → β} (hf : ∀ i c, f { i with cancelAt := c } = f i) :
    w.members.map f = ps.map fun p ↦ f p.invocation := by
  refine List.ext_getElem? fun k ↦ ?_
  rw [List.getElem?_map, List.getElem?_map]
  cases hp : ps[k]? with
  | none =>
    rw [List.getElem?_eq_none (h.length_eq ▸ List.getElem?_eq_none_iff.mp hp)]
    rfl
  | some p =>
    obtain ⟨c, hc, -⟩ := h.same k p hp
    rw [hc]
    exact congrArg some (hf ..)

end Crowd

/-- Whatever comes of performances that begin together comes of a run of a crowd, by which all whom
nobody cancels are served. -/
theorem Performance.run_of_runAll {now : Span} (ps : List (Performance α)) (b : Breaker)
    (hps : ∀ p ∈ ps, ∃ terms c, p.invocation = .start terms c now) :
    ∃ es : List (Crowd.Event α),
      let w := Crowd.run { now, breaker := b } (ps.map Crowd.opening ++ es)
      w.breaker = (runAll ps b).2 ∧
        w.members.map Invocation.calls = (runAll ps b).1.map Invocation.calls ∧
        w.members.map Invocation.result? = (runAll ps b).1.map Invocation.result? ∧
        ∀ k p, ps[k]? = some p → p.invocation.cancelAt = none →
          (Crowd.run { now, breaker := b } (ps.map Crowd.opening)).Serves k
            (p.script.effort p.silence) es := by
  have hopenings := Crowd.run_openings { now, breaker := b } ps hps
  obtain ⟨es, hes, hbreaker, hserves⟩ :=
    (Crowd.follows_openings (congrArg Crowd.members hopenings) (by rwa [hopenings])).run rfl
  refine ⟨es, ?_⟩
  rw [hopenings] at hes hbreaker
  rw [Crowd.run_append, hopenings]
  refine ⟨hbreaker, ?_, ?_, ?_⟩
  · rw [hes.map_eq fun _ _ ↦ rfl, runAll, List.map_map]
    rfl
  · rw [hes.map_eq fun _ _ ↦ rfl, runAll, List.map_map]
    rfl
  · exact hopenings ▸ hserves

/-- Whatever is performed comes to an end. -/
theorem Performance.isSome_result_of_runAll (ps : List (Performance α)) (b : Breaker) :
    (runAll ps b).1.length = ps.length ∧ ∀ i ∈ (runAll ps b).1, i.result?.isSome := by
  constructor
  · have hps : List.Forall₂ (fun p q : Performance α ↦ q.script = p.script) ps ps :=
      List.forall₂_same.mpr fun _ _ ↦ rfl
    have hsame := Process.forall₂_run (p := process) (fun _ _ _ _ hpq ↦ hpq) hps b
    rw [runAll, List.length_map, ← hsame.length_eq]
  · intro i hi
    obtain ⟨p, hp, rfl⟩ := List.mem_map.mp hi
    have hdue : p.invocation.due = none := Process.due_of_mem_run process ps b p hp
    have hnext : p.invocation.next = none := by simpa [Invocation.due] using hdue
    refine Option.isSome_iff_ne_none.mpr fun hresult ↦ ?_
    rw [← Invocation.isSome_next, hnext] at hresult
    cases hresult

/-- An invocation that begins together with others and is not cancelled is served by a run of a crowd
with the same results, and has ended when this run is over. -/
theorem Performance.served_of_runAll {now : Span} (before behind : List (Performance α))
    {p : Performance α} (b : Breaker)
    (hps : ∀ q ∈ before ++ p :: behind, ∃ terms c, q.invocation = .start terms c now) {t : Terms}
    (hp : p.invocation = .start t .never now) :
    ∃ es : List (Crowd.Event α),
      let w := Crowd.run { now, breaker := b } (before.map Crowd.opening)
      let is := (runAll (before ++ p :: behind) b).1
      w.now = now ∧ w.members.length = before.length ∧
        w.Serves before.length (p.script.effort p.silence) (.start t false :: es) ∧
        (w.run (.start t false :: es)).members.map Invocation.calls = is.map Invocation.calls ∧
        (w.run (.start t false :: es)).members.map Invocation.result? = is.map Invocation.result? ∧
        ∃ i, is[before.length]? = some i ∧ i.result?.isSome := by
  obtain ⟨es, -, hcalls, hresults, hserves⟩ := run_of_runAll (before ++ p :: behind) b hps
  obtain ⟨hlength, hended⟩ := isSome_result_of_runAll (before ++ p :: behind) b
  have hopening : Crowd.opening p = .start t false := by rw [Crowd.opening, hp]; rfl
  have hbefore := Crowd.run_openings { now, breaker := b } before fun q hq ↦
    hps q (List.mem_append_left _ hq)
  have hmap : (before ++ p :: behind).map Crowd.opening =
      before.map Crowd.opening ++ .start t false :: behind.map Crowd.opening := by
    rw [List.map_append, List.map_cons, hopening]
  have hopenings (w : Crowd α) (qs : List (Performance α)) (k : Nat) (efforts : Nat → Effort α) :
      w.Serves k efforts (qs.map Crowd.opening) := by
    induction qs generalizing w with
    | nil => trivial
    | cons q qs ih => exact ⟨trivial, ih _⟩
  rw [hmap] at hcalls hresults hserves
  refine ⟨behind.map Crowd.opening ++ es, by rw [hbefore], by rw [hbefore]; simp, ⟨trivial, ?_⟩, ?_, ?_, ?_⟩
  · refine Crowd.serves_append.mpr ⟨hopenings .., ?_⟩
    have hself := hserves before.length p (by simp) (by rw [hp]; rfl)
    rwa [Crowd.run_append] at hself
  · rwa [List.append_assoc, List.cons_append, Crowd.run_append] at hcalls
  · rwa [List.append_assoc, List.cons_append, Crowd.run_append] at hresults
  · have hlt : before.length < (runAll (before ++ p :: behind) b).1.length := by
      rw [hlength]
      simp
    exact ⟨_, List.getElem?_eq_getElem hlt, hended _ (List.getElem_mem hlt)⟩

end Interchange
