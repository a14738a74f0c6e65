import Interchange.Proofs.Routing.Run
import Mathlib.Data.List.Induction

/-!
# Which rule is asked first

A new rule is put before the first one of lower priority, hence behind all that
came before it with its own, and unregistering takes rules out without moving the
others.  So the list of rules is at any time the stable sort, by descending
priority, of the rules that stand (`standing`, `rules_run`).

How a sort goes about it is of no concern.  A list in descending order is known as
soon as it is known which rules it has of each priority, and in which order
(`Arranged.unique`); to keep the list arranged is therefore all that an event has to
do (`Arranged.place`, `Arranged.filter`).  The first rule of an arrangement that
applies to a call is, among the standing ones that do, the first of the highest
priority (`foremost_of_find?`).
-/

namespace Interchange

/-- Holds of two rules of which the first may be asked before the second. -/
def Rule.mayPrecede (a b : Rule) : Bool := b.priority ≤ a.priority

namespace Router

/-- The rule that an event registers. -/
def Event.registered? : Event → Option Rule
  | .change _ (.registerRule rule) => some rule
  | _ => none

/-- Holds of an event that unregisters the rules of a name. -/
def Event.unregisters (name : String) : Event → Bool
  | .change _ (.unregisterRule n) => n = name
  | _ => false

/-- The rules that a run registers and does not unregister later on, in the order of registration. -/
def standing : List Event → List Rule
  | [] => []
  | x :: xs =>
    (x.registered?.filter fun rule ↦ !xs.any (·.unregisters rule.name)).toList ++ standing xs

/-- Of the rules that apply to a call, the first of the highest priority. -/
def Foremost (rules : List Rule) (c : Call) (rule : Rule) : Prop :=
  rule.applies c = true ∧ ∃ before after, rules = before ++ rule :: after ∧
    (∀ x ∈ before, x.applies c = true → x.priority < rule.priority) ∧
    ∀ x ∈ after, x.applies c = true → x.priority ≤ rule.priority

/-- A list of rules in descending order that has the same rules of each priority as another, in the same
order. -/
structure Arranged (rules sorted : List Rule) : Prop where
  descends : sorted.Pairwise fun a b ↦ b.priority ≤ a.priority
  stable (p : Int) : sorted.filter (·.priority = p) = rules.filter (·.priority = p)

variable {r : Router} {rules sorted : List Rule} {rule x : Rule} {xs : List Event} {c : Call}

/-! ## Arrangements -/

theorem mem_of_filter_eq {a b : List Rule}
    (h : ∀ p : Int, a.filter (·.priority = p) = b.filter (·.priority = p)) (hx : x ∈ a) : x ∈ b := by
  have hmem : x ∈ a.filter (·.priority = x.priority) := by simpa using hx
  rw [h x.priority] at hmem
  exact List.mem_of_mem_filter hmem

theorem eq_of_descends {a b : List Rule} (ha : a.Pairwise fun x y ↦ y.priority ≤ x.priority)
    (hb : b.Pairwise fun x y ↦ y.priority ≤ x.priority)
    (h : ∀ p : Int, a.filter (·.priority = p) = b.filter (·.priority = p)) : a = b := by
  induction a generalizing b with
  | nil =>
    refine (List.eq_nil_iff_forall_not_mem.mpr fun x hx ↦ ?_).symm
    exact List.not_mem_nil (mem_of_filter_eq (fun p ↦ (h p).symm) hx)
  | cons x a ih =>
    cases b with
    | nil => exact absurd (mem_of_filter_eq h List.mem_cons_self) List.not_mem_nil
    | cons y b =>
      obtain ⟨hx, ha⟩ := List.pairwise_cons.mp ha
      obtain ⟨hy, hb'⟩ := List.pairwise_cons.mp hb
      -- Neither first rule is of a lower priority than the other, since each is also in the other list.
      have hle : x.priority ≤ y.priority := by
        rcases List.mem_cons.mp (mem_of_filter_eq h List.mem_cons_self) with rfl | hmem
        · exact Int.le_refl _
        · exact hy x hmem
      have hge : y.priority ≤ x.priority := by
        rcases List.mem_cons.mp (mem_of_filter_eq (fun p ↦ (h p).symm) List.mem_cons_self) with rfl | hmem
        · exact Int.le_refl _
        · exact hx y hmem
      have heq : y.priority = x.priority := Int.le_antisymm hge hle
      have hfirst := h x.priority
      rw [List.filter_cons_of_pos (by simp), List.filter_cons_of_pos (by simpa using heq)] at hfirst
      obtain ⟨rfl, -⟩ := List.cons.inj hfirst
      refine congrArg (x :: ·) (ih ha hb' fun p ↦ ?_)
      have hp := h p
      by_cases hpx : x.priority = p
      · rw [List.filter_cons_of_pos (by simpa using hpx), List.filter_cons_of_pos (by simpa using hpx)] at hp
        exact (List.cons.inj hp).2
      · rwa [List.filter_cons_of_neg (by simpa using hpx), List.filter_cons_of_neg (by simpa using hpx)] at hp

namespace Arranged

theorem unique {sorted' : List Rule} (h : Arranged rules sorted) (h' : Arranged rules sorted') :
    sorted = sorted' :=
  eq_of_descends h.descends h'.descends fun p ↦ (h.stable p).trans (h'.stable p).symm

theorem mem_iff (h : Arranged rules sorted) : x ∈ sorted ↔ x ∈ rules :=
  ⟨mem_of_filter_eq h.stable, mem_of_filter_eq fun p ↦ (h.stable p).symm⟩

/-- To leave rules out leaves the others arranged. -/
theorem filter (h : Arranged rules sorted) (keep : Rule → Bool) :
    Arranged (rules.filter keep) (sorted.filter keep) := by
  refine ⟨h.descends.filter keep, fun p ↦ ?_⟩
  rw [List.filter_comm, h.stable p, List.filter_comm]

end Arranged

/-- Sorting stably arranges. -/
theorem arranged_mergeSort (rules : List Rule) : Arranged rules (rules.mergeSort Rule.mayPrecede) := by
  have htrans (a b c : Rule) (hab : a.mayPrecede b = true) (hbc : b.mayPrecede c = true) :
      a.mayPrecede c = true := by
    simp only [Rule.mayPrecede, decide_eq_true_eq] at *
    exact Int.le_trans hbc hab
  have htotal (a b : Rule) : (a.mayPrecede b || b.mayPrecede a) = true := by
    simp only [Rule.mayPrecede, Bool.or_eq_true, decide_eq_true_eq]
    exact Int.le_total b.priority a.priority
  refine ⟨?_, fun p ↦ ?_⟩
  · refine (List.pairwise_mergeSort htrans htotal rules).imp fun h ↦ ?_
    simpa [Rule.mayPrecede] using h
  -- The rules of one priority are in order already, so the sort keeps them in theirs.
  · have hlevel : (rules.filter (·.priority = p)).Pairwise fun a b ↦ a.mayPrecede b = true := by
      refine List.pairwise_of_forall_mem_list fun a ha b hb ↦ ?_
      have ha : a.priority = p := by simpa using (List.mem_filter.mp ha).2
      have hb : b.priority = p := by simpa using (List.mem_filter.mp hb).2
      simp [Rule.mayPrecede, ha, hb]
    have hsub := (List.sublist_mergeSort htrans htotal hlevel List.filter_sublist).filter (·.priority = p)
    rw [List.filter_filter] at hsub
    simp only [Bool.and_self] at hsub
    exact (hsub.eq_of_length ((List.mergeSort_perm rules _).filter _).length_eq.symm).symm

/-- A rule is put behind those of at least its priority, and before those of lower. -/
theorem exists_placeRule_eq (rule : Rule) (h : sorted.Pairwise fun a b ↦ b.priority ≤ a.priority) :
    ∃ front back, sorted = front ++ back ∧ placeRule rule sorted = front ++ rule :: back ∧
      (∀ x ∈ front, rule.priority ≤ x.priority) ∧ ∀ x ∈ back, x.priority < rule.priority := by
  induction sorted with
  | nil => exact ⟨[], [], rfl, rfl, nofun, nofun⟩
  | cons y sorted ih =>
    obtain ⟨hy, h⟩ := List.pairwise_cons.mp h
    rw [placeRule]
    split
    · next hlower =>
      refine ⟨[], y :: sorted, rfl, rfl, nofun, List.forall_mem_cons.mpr ⟨hlower, fun x hx ↦ ?_⟩⟩
      exact Int.lt_of_le_of_lt (hy x hx) hlower
    · next hnot =>
      obtain ⟨front, back, rfl, hplace, hfront, hback⟩ := ih h
      refine ⟨y :: front, back, rfl, ?_, List.forall_mem_cons.mpr ⟨Int.not_lt.mp hnot, hfront⟩, hback⟩
      rw [hplace, List.cons_append]

/-- To put a rule in its place arranges it as the last one registered. -/
theorem Arranged.place (h : Arranged rules sorted) (rule : Rule) :
    Arranged (rules ++ [rule]) (placeRule rule sorted) := by
  obtain ⟨front, back, rfl, hplace, hfront, hback⟩ := exists_placeRule_eq rule h.descends
  obtain ⟨hdescends, hdescends', hacross⟩ := List.pairwise_append.mp h.descends
  rw [hplace]
  refine ⟨?_, fun p ↦ ?_⟩
  · have hcons : (rule :: back).Pairwise fun a b ↦ b.priority ≤ a.priority :=
      List.pairwise_cons.mpr ⟨fun x hx ↦ Int.le_of_lt (hback x hx), hdescends'⟩
    refine List.pairwise_append.mpr ⟨hdescends, hcons, fun a ha ↦ ?_⟩
    exact List.forall_mem_cons.mpr ⟨hfront a ha, hacross a ha⟩
  · have hlevel := h.stable p
    rw [List.filter_append] at hlevel
    rw [List.filter_append, List.filter_append, ← hlevel]
    by_cases hp : rule.priority = p
    -- Of its own priority no rule stands behind it.
    · have hnone : back.filter (·.priority = p) = [] := by
        refine List.filter_eq_nil_iff.mpr fun x hx ↦ ?_
        have hlt := hback x hx
        simp only [decide_eq_true_eq]
        omega
      simp [hp, hnone]
    · simp [hp]

/-! ## Foremost rules -/

theorem Foremost.mem (h : Foremost rules c rule) : rule ∈ rules := by
  obtain ⟨-, before, after, rfl, -, -⟩ := h
  simp

/-- There is no more than one foremost rule: neither of two can stand before the other. -/
theorem Foremost.unique (h : Foremost rules c rule) (h' : Foremost rules c x) : rule = x := by
  obtain ⟨happlies, before, after, hrules, hbefore, hafter⟩ := h
  obtain ⟨happlies', before', after', hrules', hbefore', hafter'⟩ := h'
  rcases append_cons_cases (hrules.symm.trans hrules') with heq | ⟨hrule, hx⟩ | ⟨hx, hrule⟩
  · exact heq
  · have hlt := hbefore' rule hrule happlies
    have hle := hafter x hx happlies'
    omega
  · have hlt := hbefore x hx happlies'
    have hle := hafter' rule hrule happlies
    omega

/-- The first rule of an arrangement that applies is the foremost one. -/
theorem Arranged.foremost_of_find? (h : Arranged rules sorted)
    (hfind : sorted.find? (·.applies c) = some rule) : Foremost rules c rule := by
  obtain ⟨happlies, passed, left, heq, hpassed⟩ := List.find?_eq_some_iff_append.mp hfind
  have hpassed (x : Rule) (hx : x ∈ passed) : x.applies c = false := by simpa using hpassed x hx
  have hhighest (x : Rule) (hx : x ∈ rules) (hxc : x.applies c = true) : x.priority ≤ rule.priority := by
    have hdescends := h.descends
    rw [heq] at hdescends
    rcases List.mem_append.mp (heq ▸ h.mem_iff.mpr hx) with hmem | hmem
    · rw [hpassed x hmem] at hxc
      cases hxc
    · rcases List.mem_cons.mp hmem with rfl | hmem
      · exact Int.le_refl _
      · exact (List.pairwise_cons.mp (List.pairwise_append.mp hdescends).2.1).1 x hmem
  -- Of its priority it is the first that applies, in the arrangement and hence in the order of registration.
  have hlevel : (rules.filter (·.priority = rule.priority)).filter (·.applies c) =
      rule :: (left.filter (·.priority = rule.priority)).filter (·.applies c) := by
    have hnone : passed.filter (·.applies c) = [] :=
      List.filter_eq_nil_iff.mpr fun x hx ↦ by simp [hpassed x hx]
    rw [← h.stable, heq, List.filter_comm, List.filter_append, hnone, List.nil_append,
      List.filter_cons_of_pos (by exact happlies), List.filter_cons_of_pos (by simp), List.filter_comm]
  rw [List.filter_filter] at hlevel
  obtain ⟨before, after, hrules, hbefore, -, -⟩ := List.filter_eq_cons_iff.mp hlevel
  refine ⟨happlies, before, after, hrules, fun x hx hxc ↦ ?_, fun x hx hxc ↦ ?_⟩
  · have hle := hhighest x (by simp [hrules, hx]) hxc
    have hne : x.priority ≠ rule.priority := by simpa [hxc] using hbefore x hx
    omega
  · exact hhighest x (by simp [hrules, hx]) hxc

theorem Arranged.foremost_iff (h : Arranged rules sorted) :
    Foremost rules c rule ↔ sorted.find? (·.applies c) = some rule := by
  refine ⟨fun hforemost ↦ ?_, h.foremost_of_find?⟩
  cases hfind : sorted.find? (·.applies c) with
  | none =>
    have hnone := List.find?_eq_none.mp hfind rule (h.mem_iff.mpr hforemost.mem)
    exact absurd hforemost.1 hnone
  | some x => rw [hforemost.unique (h.foremost_of_find? hfind)]

/-! ## The rules of a run -/

theorem rules_step (r : Router) (x : Event) :
    (r.step x).rules =
      x.registered?.elim id placeRule (r.rules.filter fun rule ↦ !x.unregisters rule.name) := by
  have hkept : r.rules.filter (fun _ ↦ true) = r.rules := List.filter_true r.rules
  cases r.step_cases x with
  | refused _ hstep =>
    rw [hstep]
    exact hkept.symm
  | routed _ _ _ _ _ hstep =>
    rw [hstep]
    exact hkept.symm
  | changed cs c _ hstep =>
    rw [hstep]
    cases c with
    | add | update | sync => exact hkept.symm
    | remove service id => exact (r.rules_remove service id).trans hkept.symm
    | registerRule rule => exact congrArg (placeRule rule) hkept.symm
    | unregisterRule name =>
      refine List.filter_congr fun rule _ ↦ ?_
      simp [Event.unregisters, eq_comm]

theorem standing_concat (xs : List Event) (x : Event) :
    standing (xs ++ [x]) =
      (standing xs).filter (fun rule ↦ !x.unregisters rule.name) ++ x.registered?.toList := by
  induction xs with
  | nil => cases hx : x.registered? <;> simp [standing, hx]
  | cons y xs ih =>
    rw [List.cons_append, standing, standing, ih, List.filter_append, List.append_assoc]
    congr 1
    cases y.registered? with
    | none => rfl
    | some rule =>
      simp only [Option.filter, List.any_append, List.any_cons, List.any_nil, Bool.or_false]
      by_cases hlater : xs.any (·.unregisters rule.name) = true
      · simp [hlater]
      · by_cases hnow : x.unregisters rule.name = true <;> simp [hlater, hnow]

/-- Every event keeps the rules arranged as they stand after it. -/
theorem Arranged.step (h : Arranged rules r.rules) (x : Event) :
    Arranged (rules.filter (fun rule ↦ !x.unregisters rule.name) ++ x.registered?.toList)
      (r.step x).rules := by
  rw [rules_step]
  have hleft := h.filter fun rule ↦ !x.unregisters rule.name
  cases x.registered? with
  | none =>
    rw [Option.toList_none, List.append_nil]
    exact hleft
  | some rule => exact hleft.place rule

theorem arranged_run (h : r.rules = []) (xs : List Event) : Arranged (standing xs) (r.run xs).rules := by
  induction xs using List.reverseRecOn with
  | nil =>
    rw [run_nil, h]
    exact ⟨.nil, fun _ ↦ rfl⟩
  | append_singleton xs x ih =>
    rw [standing_concat, run_append]
    exact ih.step x

/-- The rules of a new router after any run, whatever else it does:

* they are those registered and not unregistered since, sorted stably by descending priority;
* to unregister a name takes out all rules of that name, tells whether there were any, and leaves the
  others in their order;
* a call goes to the target of the foremost of the standing rules that apply to it, of which there is
  never more than one; where none applies, and only there, it goes to its own service for want of a rule;
  so if no rule that applies sends it to its own service, then it goes there if and only if none applies. -/
theorem rules_in_order (balancer : Balancer) (xs : List Event) :
    let r := ({ balancer } : Router).run xs
    r.rules = (standing xs).mergeSort Rule.mayPrecede ∧
    (∀ name,
      (r.unregisterRule name).1.rules = r.rules.filter (·.name ≠ name) ∧
      ((r.unregisterRule name).2 = true ↔ ∃ rule ∈ standing xs, rule.name = name)) ∧
    ∀ c,
      (∀ rule, Foremost (standing xs) c rule → r.resolve c = rule.target c) ∧
      ((∀ rule ∈ standing xs, rule.applies c = false) → r.resolve c = c.service) ∧
      ((∃! rule, Foremost (standing xs) c rule) ↔ ∃ rule ∈ standing xs, rule.applies c = true) ∧
      ((∀ rule ∈ standing xs, rule.applies c = true → rule.target c ≠ c.service) →
        (r.resolve c = c.service ↔ ∀ rule ∈ standing xs, rule.applies c = false)) := by
  intro r
  have harranged : Arranged (standing xs) r.rules := arranged_run rfl xs
  have hforemost (c : Call) (rule : Rule) (h : Foremost (standing xs) c rule) :
      r.resolve c = rule.target c := by
    rw [resolve, harranged.foremost_iff.mp h]
  have hnone (c : Call) (h : ∀ rule ∈ standing xs, rule.applies c = false) : r.resolve c = c.service := by
    have hfind : r.rules.find? (·.applies c) = none :=
      List.find?_eq_none.mpr fun rule hrule ↦ by simp [h rule (harranged.mem_iff.mp hrule)]
    rw [resolve, hfind]
  have hexists (c : Call) (rule : Rule) (hmem : rule ∈ standing xs) (happlies : rule.applies c = true) :
      ∃ rule, Foremost (standing xs) c rule := by
    cases hfind : r.rules.find? (·.applies c) with
    | none => exact absurd happlies (List.find?_eq_none.mp hfind rule (harranged.mem_iff.mpr hmem))
    | some x => exact ⟨x, harranged.foremost_of_find? hfind⟩
  refine ⟨harranged.unique (arranged_mergeSort _), fun name ↦ ⟨rfl, ?_⟩, fun c ↦
    ⟨hforemost c, hnone c, ⟨?_, ?_⟩, fun htargets ↦ ⟨fun hown rule hmem ↦ ?_, hnone c⟩⟩⟩
  · have hlen : (r.rules.filter (·.name ≠ name)).length = r.rules.length ↔
        ∀ rule ∈ r.rules, rule.name ≠ name := by
      rw [List.length_filter_eq_length_iff]
      simp
    simp only [unregisterRule, ne_eq, decide_eq_true_eq, ← harranged.mem_iff]
    simp only [ne_eq] at hlen
    rw [hlen]
    simp
  · rintro ⟨rule, h, -⟩
    exact ⟨rule, h.mem, h.1⟩
  · rintro ⟨rule, hmem, happlies⟩
    obtain ⟨x, hx⟩ := hexists c rule hmem happlies
    exact ⟨x, hx, fun y hy ↦ hy.unique hx⟩
  · by_contra happlies
    rw [Bool.not_eq_false] at happlies
    obtain ⟨x, hx⟩ := hexists c rule hmem happlies
    exact htargets x hx.mem hx.1 ((hforemost c x hx).symm.trans hown)

/-- Two rules of the same priority apply to a call, and one of a higher priority is gone. -/
theorem rules_in_order_of_three :
    let rule (name : String) (priority : Int) : Rule :=
      { name, priority, applies := fun c ↦ c.method = "m", target := fun _ ↦ name }
    let register (rule : Rule) : Event := .change {} (.registerRule rule)
    let call (method : String) : Call :=
      { service := "s", method, payload := [], traceId := ⟨"t", by decide⟩ }
    let xs := [register (rule "a" (-1)), register (rule "b" 5), register (rule "c" 9),
      register (rule "d" 5), .change {} (.unregisterRule "c")]
    let r := ({ balancer := { strategy := .random } } : Router).run xs
    standing xs = [rule "a" (-1), rule "b" 5, rule "d" 5] ∧
      (standing xs).mergeSort Rule.mayPrecede = [rule "b" 5, rule "d" 5, rule "a" (-1)] ∧
      (r.unregisterRule "d").2 = true ∧
      (Foremost (standing xs) (call "m") (rule "b" 5) ∧ r.resolve (call "m") = "b") ∧
      ((∀ x ∈ standing xs, x.applies (call "n") = false) ∧ r.resolve (call "n") = "s") ∧
      ((∀ x ∈ standing xs, x.applies (call "m") = true → x.target (call "m") ≠ "s") ∧
        r.resolve (call "m") ≠ "s") := by
  intro rule register call xs r
  obtain ⟨hsorted, hunregister, hcalls⟩ := rules_in_order { strategy := .random } xs
  have hstanding : standing xs = [rule "a" (-1), rule "b" 5, rule "d" 5] := rfl
  have hforemost : Foremost (standing xs) (call "m") (rule "b" 5) := by
    refine ⟨rfl, [rule "a" (-1)], [rule "d" 5], rfl, ?_, ?_⟩
    · simp [rule]
    · simp [rule]
  have hnone : ∀ x ∈ standing xs, x.applies (call "n") = false := by simp [hstanding, rule, call]
  have htargets : ∀ x ∈ standing xs, x.applies (call "m") = true → x.target (call "m") ≠ "s" := by
    simp [hstanding, rule]
  have hmem : rule "d" 5 ∈ standing xs := by simp [hstanding]
  refine ⟨hstanding, hsorted.symm, (hunregister "d").2.mpr ⟨_, hmem, rfl⟩,
    ⟨hforemost, (hcalls (call "m")).1 _ hforemost⟩, ⟨hnone, (hcalls (call "n")).2.1 hnone⟩,
    htargets, fun hown ↦ ?_⟩
  have happlies := ((hcalls (call "m")).2.2.2 htargets).mp hown _ hmem
  cases happlies

end Router

end Interchange
