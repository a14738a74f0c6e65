import Interchange.Proofs.Routing.Choices
import Mathlib.Data.List.Count
import Mathlib.Data.List.Rotate

/-!
# Weights as slots

A balancer that goes round by weight looks for the owner of a slot without ever
writing the slots down.  Here they are written down: a list in which each endpoint
is repeated as often as it weighs (`slots`).  To scan the weights is to index this
list (`atSlot_eq`), so the balancer goes round `slots es` just as one that goes
round without weights does `es`.

From there on nothing has to be counted modulo anything: as many choices in a row
as there are slots are the slots themselves, begun somewhere in the middle
(`picksFor_eq_rotate`), and to begin elsewhere does not change how often an endpoint
occurs.  Equal endpoints may stand at several positions of a list, so what belongs
to which position is told by a list of its own (`owners`).
-/

namespace Interchange

namespace Balancer

/-- A list with every endpoint repeated as often as it weighs. -/
def slots (es : List Endpoint) : List Endpoint :=
  es.flatMap fun e ↦ List.replicate e.effectiveWeight e

/-- For each slot the position of the endpoint that owns it. -/
def owners : List Endpoint → List Nat
  | [] => []
  | e :: es => List.replicate e.effectiveWeight 0 ++ (owners es).map (· + 1)

/-- Holds of an event that does not forget a service and asks for its endpoints from no other list than
the given one. What it does to other services is open. -/
def Event.Steady (service : String) (es : List Endpoint) : Event → Prop
  | .select _ s es' => s = service → es' = es
  | .forget s => s ≠ service
  | _ => True

variable {b : Balancer} {s : Balancer × Connections} {x : Event} {xs ys : List Event}
  {service : String} {es : List Endpoint} {e : Endpoint} {k : Nat}

/-! ## Slots -/

@[simp] theorem slots_cons (e : Endpoint) (es : List Endpoint) :
    slots (e :: es) = List.replicate e.effectiveWeight e ++ slots es := List.flatMap_cons

@[simp] theorem length_slots (es : List Endpoint) : (slots es).length = totalWeight es := by
  induction es with
  | nil => rfl
  | cons e es ih => simp [ih]

/-- To take off the weights that are passed is to index the slots. -/
theorem atSlot_eq (es : List Endpoint) (slot : Nat) : atSlot es slot = (slots es)[slot]? := by
  induction es generalizing slot with
  | nil => rfl
  | cons e es ih =>
    rw [atSlot, slots_cons]
    split
    · next hlt => simp [List.getElem?_append, hlt]
    · next hge => simp [List.getElem?_append, hge, ih]

theorem map_owners (es : List Endpoint) : (owners es).map (es[·]?) = (slots es).map some := by
  induction es with
  | nil => rfl
  | cons e es ih =>
    rw [owners, List.map_append, List.map_replicate, List.map_map, slots_cons, List.map_append,
      List.map_replicate, ← ih]
    rfl

/-- Every position owns as many slots as its endpoint weighs. -/
theorem count_owners {i : Nat} (h : es[i]? = some e) : (owners es).count i = e.effectiveWeight := by
  induction es generalizing i with
  | nil => cases h
  | cons first es ih =>
    rw [owners, List.count_append]
    cases i with
    | zero =>
      have hrest : ((owners es).map (· + 1)).count 0 = 0 := List.count_eq_zero.mpr (by simp)
      cases h
      rw [hrest, List.count_replicate_self, Nat.add_zero]
    | succ i =>
      have hfirst : (List.replicate first.effectiveWeight 0).count (i + 1) = 0 :=
        List.count_eq_zero.mpr (by simp)
      rw [hfirst, Nat.zero_add, List.count_map_of_injective _ _ Nat.succ_injective]
      exact ih h

/-- Endpoints that weigh nothing to speak of own one slot each. -/
theorem slots_eq_self (h : ∀ e ∈ es, e.weight ≤ 1) : slots es = es := by
  induction es with
  | nil => rfl
  | cons e es ih =>
    obtain ⟨he, hes⟩ := List.forall_mem_cons.mp h
    have hone : e.effectiveWeight = 1 := Nat.max_eq_right he
    rw [slots_cons, hone, ih hes]
    rfl

/-! ## Choosing by weight -/

/-- The slot at the cursor, counted round, is the one whose owner is chosen. -/
theorem getElem?_slots_of_choose {cs : Connections} {draw : Nat}
    (hs : b.strategy = .weightedRoundRobin) (h : b.choose cs draw service es = .ok e) :
    (slots es)[(b.cursor service).toNat % totalWeight es]? = some e := by
  cases es with
  | nil => cases h
  | cons first rest =>
    simp only [choose, hs, atSlot_eq] at h
    split at h
    · next hat =>
      cases h
      exact hat
    · cases h

theorem picksFor_cons (service : String) (s : Balancer × Connections) (x : Event) (xs : List Event) :
    picksFor service s (x :: xs) =
      ((picked s x).toList.filter (·.1 = service)).map Prod.snd ++ picksFor service (step s x) xs := by
  rw [picksFor, picks_cons, List.filter_append, List.map_append]
  rfl

/-- An event that is steady takes the slot at the cursor, or does not concern the service. -/
theorem Event.Steady.cases (h : x.Steady service es) (hx : x.Fits) (hne : es ≠ [])
    (hs : s.1.strategy = .weightedRoundRobin) :
    (x.asks service = true ∧ (step s x).1.cursor service = s.1.cursor service + 1 ∧
      ∃ e, picked s x = some (service, e) ∧
        (slots es)[(s.1.cursor service).toNat % totalWeight es]? = some e) ∨
    (x.asks service = false ∧ (step s x).1.cursor service = s.1.cursor service ∧
      (picked s x).toList.filter (·.1 = service) = []) := by
  have hkept : x.forgets service = false := by
    cases x with
    | forget other => exact decide_eq_false h
    | _ => rfl
  have hcursor := cursor_step (congrArg Strategy.counts hs) hx service
  rw [hkept, if_neg Bool.false_ne_true] at hcursor
  by_cases hasks : x.asks service = true
  · rw [if_pos hasks] at hcursor
    cases x with
    | forget | acquire | release => cases hasks
    | select draw other es' =>
      obtain ⟨rfl, -⟩ : other = service ∧ _ := by simpa [Event.asks] using hasks
      obtain rfl := h rfl
      obtain ⟨e, -, hchoose, -, hpicked, -⟩ := step_select s draw other hne hx
      exact .inl ⟨hasks, hcursor, e, hpicked, getElem?_slots_of_choose hs hchoose⟩
  · rw [if_neg hasks, UInt64.add_zero] at hcursor
    refine .inr ⟨by simpa using hasks, hcursor, List.filter_eq_nil_iff.mpr fun p hp ↦ ?_⟩
    have hother : p.1 ≠ service := by
      rintro rfl
      exact hasks (asks_of_picked (Option.mem_toList.mp hp))
    simpa using hother

/-- The choices from one list take the slots in turn. -/
theorem picksFor_eq_range' (hs : s.1.strategy = .weightedRoundRobin)
    (hcursor : s.1.cursor service = UInt64.ofNat k) (hne : es ≠ []) (hys : ∀ y ∈ ys, y.Fits)
    (hsteady : ∀ y ∈ ys, y.Steady service es)
    (hle : k + ys.countP (·.asks service) ≤ 2 ^ 64) :
    (picksFor service s ys).map some =
      (List.range' k (ys.countP (·.asks service))).map fun i ↦ (slots es)[i % totalWeight es]? := by
  induction ys generalizing s k with
  | nil => rfl
  | cons y ys ih =>
    rw [List.forall_mem_cons] at hys hsteady
    have hs' : (step s y).1.strategy = .weightedRoundRobin := (step_fixed s y).1.trans hs
    rw [List.countP_cons] at hle
    rw [picksFor_cons, List.countP_cons]
    rcases hsteady.1.cases hys.1 hne hs with
      ⟨hasks, hnext, e, hpicked, hslot⟩ | ⟨hasks, hnext, hnone⟩
    · rw [if_pos hasks] at hle ⊢
      have hcursor' : (step s y).1.cursor service = UInt64.ofNat (k + 1) := by
        rw [hnext, hcursor, UInt64.ofNat_add]
        rfl
      rw [hcursor, UInt64.toNat_ofNat_of_lt' (show k < 2 ^ 64 by omega)] at hslot
      rw [List.range'_succ, List.map_cons, hslot, ← ih hs' hcursor' hys.2 hsteady.2 (by omega), hpicked]
      simp
    · rw [hasks, if_neg Bool.false_ne_true, Nat.add_zero] at hle ⊢
      rw [hnone, ← ih hs' (hnext.trans hcursor) hys.2 hsteady.2 hle]
      rfl

/-- As many choices as there are slots are all the slots, from the one at the cursor on. -/
theorem picksFor_eq_rotate (hs : s.1.strategy = .weightedRoundRobin)
    (hcursor : s.1.cursor service = UInt64.ofNat k) (hne : es ≠ []) (hys : ∀ y ∈ ys, y.Fits)
    (hsteady : ∀ y ∈ ys, y.Steady service es)
    (hcount : ys.countP (·.asks service) = totalWeight es) (hle : k + totalWeight es ≤ 2 ^ 64) :
    picksFor service s ys = (slots es).rotate k := by
  have htaken := picksFor_eq_range' hs hcursor hne hys hsteady (hcount ▸ hle)
  rw [hcount] at htaken
  refine List.map_injective_iff.mpr (fun _ _ ↦ Option.some_inj.mp) (htaken.trans ?_)
  refine List.ext_getElem (by simp) fun j hj _ ↦ ?_
  rw [List.length_map, List.length_range'] at hj
  have hlt : (k + j) % totalWeight es < (slots es).length := by
    rw [length_slots]
    exact Nat.mod_lt _ (totalWeight_pos hne)
  simp [List.getElem_rotate, Nat.add_comm j k, List.getElem?_eq_getElem hlt]

/-- A balancer that goes round by weight, after any run:

* the weights of a list add up in 64 bits, to the number of its slots, and the scan finds the owner of
  each slot, without going below zero or past the end;
* the next choice is made in place and does not fail; it is the slot at the turn of the service, counted
  round;
* as many choices from the list as it has slots, whatever other services do in between, are the slots from
  the turn on, so that every position is chosen as often as its endpoint weighs;
* if nothing weighs more than one, the next choice is that of a balancer that goes round without weights and
  has been through the same run. -/
theorem weighted_as_slots (cs₀ : Connections) (hxs : ∀ x ∈ xs, x.Fits) (service : String)
    (hne : es ≠ []) (hfits : Fits es) :
    let s := run ({ strategy := .weightedRoundRobin }, cs₀) xs
    let plain := run ({ strategy := .roundRobin }, cs₀) xs
    let k := turn service xs
    let W := totalWeight es
    (W = (slots es).length ∧ ∃ total, weightSum 0 es = some total ∧ total.toNat = W ∧
      ∀ slot < total, ∃ e, scan slot es = some (.ok e) ∧ (slots es)[slot.toNat]? = some e) ∧
    (∀ draw, ∃ e, s.1.selectInPlace s.2 draw service es =
        some ((s.1.advance service, s.2.acquire e), .ok e) ∧
      (k < 2 ^ 64 → (slots es)[k % W]? = some e)) ∧
    (∀ ys : List Event, (∀ y ∈ ys, y.Fits) → (∀ y ∈ ys, y.Steady service es) →
      ys.countP (·.asks service) = W → k + W ≤ 2 ^ 64 →
      picksFor service s ys = (slots es).rotate k ∧
      (picksFor service s ys).map some = ((owners es).rotate k).map (es[·]?) ∧
      ∀ i e, es[i]? = some e → ((owners es).rotate k).count i = e.effectiveWeight) ∧
    ((∀ e ∈ es, e.weight ≤ 1) → ∀ draw,
      (s.1.selectInPlace s.2 draw service es).map Prod.snd =
        (plain.1.selectInPlace plain.2 draw service es).map Prod.snd) := by
  intro s plain k W
  have hs : s.1.strategy = .weightedRoundRobin := (run_fixed _ xs).1
  have hplain : plain.1.strategy = .roundRobin := (run_fixed _ xs).1
  have hcursor : s.1.cursor service = UInt64.ofNat k := cursor_run rfl rfl hxs service
  have hcursor' : plain.1.cursor service = UInt64.ofNat k := cursor_run rfl rfl hxs service
  refine ⟨⟨(length_slots es).symm, ?_⟩, fun draw ↦ ?_, fun ys hys hsteady hcount hle ↦ ?_,
    fun hlight draw ↦ ?_⟩
  · obtain ⟨total, htotal, heq⟩ := weightSum_eq 0 hfits.weight_lt
      (by simpa using totalWeight_lt hfits.length_lt hfits.weight_lt)
    have heq : total.toNat = W := by simpa using heq
    refine ⟨total, htotal, heq, fun slot hslot ↦ ?_⟩
    have hlt : slot.toNat < W := heq ▸ UInt64.lt_iff_toNat_lt.mp hslot
    obtain ⟨e, hscan, hat⟩ := scan_eq slot hfits.weight_lt hlt
    exact ⟨e, hscan, (atSlot_eq es _).symm.trans hat⟩
  · obtain ⟨e, -, hchoose, hselect, -⟩ := step_select s draw service hne hfits
    refine ⟨e, hselect, fun hlt ↦ ?_⟩
    have hslot := getElem?_slots_of_choose hs hchoose
    rwa [hcursor, UInt64.toNat_ofNat_of_lt' hlt] at hslot
  · have hpicks := picksFor_eq_rotate hs hcursor hne hys hsteady hcount hle
    refine ⟨hpicks, ?_, fun i e he ↦ ?_⟩
    · rw [hpicks, List.map_rotate, List.map_rotate, map_owners]
    · rw [((owners es).rotate_perm k).count_eq]
      exact count_owners he
  · obtain ⟨e, -, hchoose, hselect, -⟩ := step_select s draw service hne hfits
    obtain ⟨e', -, hchoose', hselect', -⟩ := step_select plain draw service hne hfits
    have hslot := getElem?_slots_of_choose hs hchoose
    have hindex := getElem?_of_choose hplain hchoose'
    rw [← length_slots, slots_eq_self hlight, hcursor, ← hcursor', hindex] at hslot
    rw [hselect, hselect', Option.some_inj.mp hslot]
    rfl

/-- A window that begins at the last of three slots. -/
theorem weighted_as_slots_of_two :
    let a : Endpoint :=
      { service := "s", id := "a", address := "h", port := 1, weight := 2, counter := 0 }
    let b : Endpoint :=
      { service := "s", id := "b", address := "h", port := 2, weight := 0, counter := 1 }
    let c : Endpoint := { service := "s", id := "c", address := "h", port := 3, counter := 2 }
    let cs₀ : Connections := ⟨[0, 0, 0]⟩
    let xs : List Event :=
      [.select 0 "s" [a, b], .select 0 "t" [c], .release a, .select 0 "s" [b, c]]
    let ys : List Event :=
      [.select 0 "s" [a, b], .forget "t", .select 0 "s" [a, b], .acquire c, .select 0 "s" [a, b]]
    let s := run ({ strategy := .weightedRoundRobin }, cs₀) xs
    let plain := run ({ strategy := .roundRobin }, cs₀) xs
    ((∀ x ∈ xs, x.Fits) ∧ Fits [a, b] ∧ turn "s" xs = 2 ∧ (∀ y ∈ ys, y.Fits) ∧
      (∀ y ∈ ys, y.Steady "s" [a, b]) ∧ ys.countP (·.asks "s") = totalWeight [a, b] ∧
      picksFor "s" s ys = [b, a, a]) ∧
    (Fits [b, c] ∧ (∀ e ∈ [b, c], e.weight ≤ 1) ∧
      (s.1.selectInPlace s.2 0 "s" [b, c]).map Prod.snd =
        (plain.1.selectInPlace plain.2 0 "s" [b, c]).map Prod.snd) := by
  intro a b c cs₀ xs ys s plain
  have hab : Fits [a, b] := ⟨by decide, by decide⟩
  have hbc : Fits [b, c] := ⟨by decide, by decide⟩
  have hc : Fits [c] := ⟨by decide, by decide⟩
  have hxs : ∀ x ∈ xs, x.Fits := by simp [xs, Event.Fits, hab, hbc, hc]
  have hys : ∀ y ∈ ys, y.Fits := by simp [ys, Event.Fits, hab]
  have hsteady : ∀ y ∈ ys, y.Steady "s" [a, b] := by simp [ys, Event.Steady]
  have hcount : ys.countP (·.asks "s") = totalWeight [a, b] := by decide
  have hturn : turn "s" xs = 2 := by decide
  obtain ⟨-, -, hwindow, -⟩ := weighted_as_slots cs₀ hxs "s" (List.cons_ne_nil a [b]) hab
  obtain ⟨-, -, -, hplain⟩ := weighted_as_slots cs₀ hxs "s" (List.cons_ne_nil b [c]) hbc
  have hpicks := (hwindow ys hys hsteady hcount (by decide)).1
  have hlight : ∀ e ∈ [b, c], e.weight ≤ 1 := by decide
  rw [hturn] at hpicks
  exact ⟨⟨hxs, hab, hturn, hys, hsteady, hcount, hpicks⟩, hbc, hlight, hplain hlight 0⟩

end Balancer

end Interchange
