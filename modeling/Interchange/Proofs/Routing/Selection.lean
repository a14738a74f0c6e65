import Interchange.Proofs.Routing.Table

/-!
# Choosing an endpoint in place

A balancer is defined as if it chose first and noted the choice afterwards, in
numbers of any size.  At work it is less tidy: it moves the cursor on before it
knows what it will choose, it adds up the weights and takes them off again in 64
bits, and a failure on the way would leave behind what was done until then.  This
file describes that course of things (`Balancer.selectInPlace`,
`Router.routeInPlace`), step by step and with the state that it leaves in either
case, and shows that it comes to the same.

Two facts carry this.  The weights of fewer than 2³² endpoints add up to less
than 2⁶⁴, so nothing overflows (`weightSum_eq`), and the scan for the owner of a
slot does not run past the end, nor below zero (`scan_eq`).

`Router.Reached` describes the routers that come about in any way, and
`route_sound` what routing does in any of them.
-/

namespace Interchange

/-- Two members of one list are the same, or stand one before the other. -/
theorem append_cons_cases {α : Type} {before after before' after' : List α} {x y : α}
    (h : before ++ x :: after = before' ++ y :: after') :
    x = y ∨ (x ∈ before' ∧ y ∈ after) ∨ (y ∈ before ∧ x ∈ after') := by
  rcases List.append_eq_append_iff.mp h with ⟨between, rfl, heq⟩ | ⟨between, rfl, heq⟩
  · cases between with
    | nil => exact .inl (List.cons.inj heq).1
    | cons z between =>
      obtain ⟨rfl, rfl⟩ := List.cons.inj heq
      exact .inr (.inl ⟨by simp, by simp⟩)
  · cases between with
    | nil => exact .inl (List.cons.inj heq).1.symm
    | cons z between =>
      obtain ⟨rfl, rfl⟩ := List.cons.inj heq
      exact .inr (.inr ⟨by simp, by simp⟩)

/-- A sum of 64 bits, unless it overflows. -/
def checkedAdd (m n : UInt64) : Option UInt64 :=
  if m.toNat + n.toNat < 2 ^ 64 then some (m + n) else none

/-- A difference, unless it is below zero. -/
def checkedSub (m n : UInt64) : Option UInt64 := if n ≤ m then some (m - n) else none

/-- A remainder, unless the divisor is zero. -/
def checkedMod (m n : UInt64) : Option UInt64 := if n = 0 then none else some (m % n)

namespace Registration

/-- The effective weight in 64 bits. -/
def weight64 (r : Registration) : UInt64 := r.effectiveWeight.toUInt64

theorem effectiveWeight_lt {r : Registration} (h : r.weight < 2 ^ 32) :
    r.effectiveWeight < 2 ^ 32 := Nat.max_lt.mpr ⟨h, by decide⟩

theorem toNat_weight64 {r : Registration} (h : r.weight < 2 ^ 32) :
    r.weight64.toNat = r.effectiveWeight :=
  UInt64.toNat_ofNat_of_lt' (Nat.lt_trans (effectiveWeight_lt h) (by decide))

end Registration

namespace Balancer

/-! ## Choosing -/

/-- Add up the weights. -/
def weightSum (sum : UInt64) : List Endpoint → Option UInt64
  | [] => some sum
  | e :: es => (checkedAdd sum e.weight64).bind (weightSum · es)

/-- Look for the owner of a slot, taking off the weights that are passed. -/
def scan (slot : UInt64) : List Endpoint → Option (Except Failure Endpoint)
  | [] => some (.error { code := .internal, message := "weighted slot out of range" })
  | e :: es =>
    if slot < e.weight64 then some (.ok e) else (checkedSub slot e.weight64).bind (scan · es)

/-- Choose an endpoint from a list and open a connection on it. In either case this tells what is left
of the balancer and the connections. There is nothing to tell if a sum, a remainder or an index is out
of range. -/
def selectInPlace (b : Balancer) (cs : Connections) (draw : Nat) (service : String)
    (es : List Endpoint) : Option ((Balancer × Connections) × Except Failure Endpoint) :=
  match es with
  | [] =>
    some ((b, cs), .error (routingFailure s!"no endpoints available for service '{service}'"))
  | first :: rest =>
    match b.strategy with
    | .roundRobin => do
      let b' := b.advance service
      let index ← checkedMod (b.cursor service) es.length.toUInt64
      let chosen ← es[index.toNat]?
      some ((b', cs.acquire chosen), .ok chosen)
    | .random => do
      let chosen ← es[draw % es.length]?
      some ((b, cs.acquire chosen), .ok chosen)
    | .weightedRoundRobin => do
      let total ← weightSum 0 es
      let b' := b.advance service
      let slot ← checkedMod (b.cursor service) total
      match ← scan slot es with
      | .ok chosen => some ((b', cs.acquire chosen), .ok chosen)
      | .error f => some ((b', cs), .error f)
    | .leastConnections =>
      let chosen := leastBusy cs first rest
      some ((b, cs.acquire chosen), .ok chosen)

/-! ## It comes to the same -/

theorem totalWeight_le {es : List Endpoint} (h : ∀ e ∈ es, e.weight < 2 ^ 32) :
    totalWeight es ≤ es.length * 2 ^ 32 := by
  induction es with
  | nil => exact Nat.le_refl _
  | cons e es ih =>
    have he := Registration.effectiveWeight_lt (h e List.mem_cons_self)
    have hes := ih fun x hx ↦ h x (List.mem_cons_of_mem _ hx)
    rw [totalWeight_cons, List.length_cons]
    omega

/-- The weights of a list that is not too long add up in 64 bits. -/
theorem totalWeight_lt {es : List Endpoint} (hlen : es.length < 2 ^ 32)
    (h : ∀ e ∈ es, e.weight < 2 ^ 32) : totalWeight es < 2 ^ 64 := by
  have := totalWeight_le h
  omega

theorem totalWeight_pos {es : List Endpoint} (h : es ≠ []) : 0 < totalWeight es := by
  obtain ⟨e, rest, rfl⟩ := List.exists_cons_of_ne_nil h
  exact Nat.lt_of_lt_of_le e.effectiveWeight_pos (Nat.le_add_right ..)

theorem weightSum_eq {es : List Endpoint} (sum : UInt64) (h : ∀ e ∈ es, e.weight < 2 ^ 32)
    (hlt : sum.toNat + totalWeight es < 2 ^ 64) :
    ∃ total, weightSum sum es = some total ∧ total.toNat = sum.toNat + totalWeight es := by
  induction es generalizing sum with
  | nil => exact ⟨sum, rfl, rfl⟩
  | cons e es ih =>
    have he := Registration.toNat_weight64 (h e List.mem_cons_self)
    rw [totalWeight_cons] at hlt ⊢
    have hadd : (sum + e.weight64).toNat = sum.toNat + e.effectiveWeight := by
      rw [UInt64.toNat_add, he]
      exact Nat.mod_eq_of_lt (by omega)
    obtain ⟨total, htotal, heq⟩ := ih (sum + e.weight64)
      (fun x hx ↦ h x (List.mem_cons_of_mem _ hx)) (by omega)
    refine ⟨total, ?_, by omega⟩
    rw [weightSum, checkedAdd, if_pos (by omega), Option.bind_some, htotal]

/-- The scan finds the owner of every slot that there is. -/
theorem scan_eq {es : List Endpoint} (slot : UInt64) (h : ∀ e ∈ es, e.weight < 2 ^ 32)
    (hlt : slot.toNat < totalWeight es) :
    ∃ e, scan slot es = some (.ok e) ∧ atSlot es slot.toNat = some e := by
  induction es generalizing slot with
  | nil => exact absurd hlt (Nat.not_lt_zero _)
  | cons e es ih =>
    have he := Registration.toNat_weight64 (h e List.mem_cons_self)
    rw [totalWeight_cons] at hlt
    by_cases hslot : slot.toNat < e.effectiveWeight
    · have : slot < e.weight64 := UInt64.lt_iff_toNat_lt.mpr (he ▸ hslot)
      exact ⟨e, by rw [scan, if_pos this], by rw [atSlot, if_pos hslot]⟩
    · have hle : e.weight64 ≤ slot := UInt64.le_iff_toNat_le.mpr (by omega)
      have hsub : (slot - e.weight64).toNat = slot.toNat - e.effectiveWeight := by
        rw [UInt64.toNat_sub_of_le _ _ hle, he]
      obtain ⟨x, hscan, hat⟩ := ih (slot - e.weight64)
        (fun x hx ↦ h x (List.mem_cons_of_mem _ hx)) (by omega)
      refine ⟨x, ?_, by rw [atSlot, if_neg hslot, ← hsub, hat]⟩
      rw [scan, if_neg (UInt64.not_lt.mpr hle), checkedSub, if_pos hle, Option.bind_some, hscan]

theorem checkedMod_eq {m n : UInt64} (h : n.toNat ≠ 0) :
    ∃ k, checkedMod m n = some k ∧ k.toNat = m.toNat % n.toNat := by
  have : n ≠ 0 := fun hn ↦ h (congrArg UInt64.toNat hn)
  exact ⟨m % n, if_neg this, UInt64.toNat_mod ..⟩

theorem mem_of_leastBusy (cs : Connections) (best : Endpoint) (es : List Endpoint) :
    leastBusy cs best es ∈ best :: es := by
  induction es generalizing best with
  | nil => exact List.mem_cons_self
  | cons e es ih =>
    rw [leastBusy]
    split
    · exact List.mem_cons_of_mem _ (ih e)
    · exact (List.mem_cons.mp (ih best)).elim (fun h ↦ List.mem_cons.mpr (.inl h))
        (fun h ↦ List.mem_cons_of_mem _ (List.mem_cons_of_mem _ h))

theorem mem_of_atSlot {es : List Endpoint} {slot : Nat} {e : Endpoint}
    (h : atSlot es slot = some e) : e ∈ es := by
  induction es generalizing slot with
  | nil => cases h
  | cons x es ih =>
    rw [atSlot] at h
    split at h
    · cases h
      exact List.mem_cons_self
    · exact List.mem_cons_of_mem _ (ih h)

/-- Nothing is chosen but what there is to choose from. -/
theorem mem_of_choose {b : Balancer} {cs : Connections} {draw : Nat} {service : String}
    {es : List Endpoint} {e : Endpoint} (h : b.choose cs draw service es = .ok e) : e ∈ es := by
  cases es with
  | nil => cases h
  | cons first rest =>
    simp only [choose] at h
    split at h
    · cases h
      exact List.get_mem ..
    · cases h
      exact List.get_mem ..
    · split at h
      · next hat =>
        cases h
        exact mem_of_atSlot hat
      · cases h
    · cases h
      exact mem_of_leastBusy ..

/-- What goes round takes the endpoint at the cursor. -/
theorem getElem?_of_choose {b : Balancer} {cs : Connections} {draw : Nat} {service : String}
    {es : List Endpoint} {e : Endpoint} (hs : b.strategy = .roundRobin)
    (h : b.choose cs draw service es = .ok e) :
    es[(b.cursor service).toNat % es.length]? = some e := by
  cases es with
  | nil => cases h
  | cons first rest =>
    simp only [choose, hs, Except.ok.injEq] at h
    rw [← h, List.get_eq_getElem, List.getElem?_eq_getElem]

/-- A choice is possible whenever there is something to choose from, and it is made in place. -/
theorem selectInPlace_eq (b : Balancer) (cs : Connections) (draw : Nat) (service : String)
    {es : List Endpoint} (hne : es ≠ []) (hlen : es.length < 2 ^ 32)
    (h : ∀ e ∈ es, e.weight < 2 ^ 32) :
    ∃ e ∈ es, b.choose cs draw service es = .ok e ∧
      b.selectInPlace cs draw service es = some ((b.advance service, cs.acquire e), .ok e) := by
  have hidle (hs : b.strategy.counts = false) : b.advance service = b := by simp [advance, hs]
  obtain ⟨first, rest, rfl⟩ := List.exists_cons_of_ne_nil hne
  have hlength : 0 < (first :: rest).length := Nat.zero_lt_succ _
  cases hs : b.strategy with
  | roundRobin =>
    have h64 : (first :: rest).length.toUInt64.toNat = (first :: rest).length :=
      UInt64.toNat_ofNat_of_lt' (Nat.lt_trans hlen (by decide))
    obtain ⟨k, hk, hkn⟩ :=
      checkedMod_eq (m := b.cursor service) (n := (first :: rest).length.toUInt64) (by omega)
    rw [h64] at hkn
    have hlt := Nat.mod_lt (b.cursor service).toNat hlength
    refine ⟨(first :: rest)[(b.cursor service).toNat % (first :: rest).length],
      List.getElem_mem hlt, by simp [choose, hs], ?_⟩
    simp only [selectInPlace, hs, hk, hkn, Option.bind_eq_bind, Option.bind_some,
      List.getElem?_eq_getElem hlt]
  | random =>
    have hlt := Nat.mod_lt draw hlength
    refine ⟨(first :: rest)[draw % (first :: rest).length], List.getElem_mem hlt,
      by simp [choose, hs], ?_⟩
    simp only [selectInPlace, hs, Option.bind_eq_bind, Option.bind_some,
      List.getElem?_eq_getElem hlt, hidle (congrArg Strategy.counts hs)]
  | weightedRoundRobin =>
    obtain ⟨total, htotal, htotaln⟩ := weightSum_eq 0 h
      (by simpa using totalWeight_lt hlen h)
    have hpos := totalWeight_pos hne
    simp only [UInt64.toNat_zero, Nat.zero_add] at htotaln
    obtain ⟨slot, hslot, hslotn⟩ := checkedMod_eq (m := b.cursor service) (n := total) (by omega)
    rw [htotaln] at hslotn
    obtain ⟨e, hscan, hat⟩ := scan_eq slot h (hslotn ▸ Nat.mod_lt _ hpos)
    obtain ⟨x, hx, hx'⟩ := exists_atSlot (hslotn ▸ Nat.mod_lt _ hpos)
    rw [hslotn] at hat hx'
    cases hat.symm.trans hx'
    refine ⟨e, hx, by simp only [choose, hs, hat], ?_⟩
    simp only [selectInPlace, hs, htotal, hslot, hscan, Option.bind_eq_bind, Option.bind_some]
  | leastConnections =>
    refine ⟨leastBusy cs first rest, mem_of_leastBusy .., by simp [choose, hs], ?_⟩
    simp only [selectInPlace, hs, hidle (congrArg Strategy.counts hs)]

/-- Whatever a choice comes to, the balancer has at most noted it, and at most one connection has been
opened. -/
theorem selectInPlace_cases {b b' : Balancer} {cs cs' : Connections} {draw : Nat} {service : String}
    {es : List Endpoint} {result : Except Failure Endpoint}
    (h : b.selectInPlace cs draw service es = some ((b', cs'), result)) :
    (b' = b ∨ b' = b.advance service) ∧ (cs' = cs ∨ ∃ e, cs' = cs.acquire e) := by
  cases es with
  | nil =>
    cases h
    exact ⟨.inl rfl, .inl rfl⟩
  | cons first rest =>
    simp only [selectInPlace, Option.bind_eq_bind] at h
    cases hs : b.strategy with
    | roundRobin =>
      rw [hs] at h
      obtain ⟨index, -, h⟩ := Option.bind_eq_some_iff.mp h
      obtain ⟨chosen, -, h⟩ := Option.bind_eq_some_iff.mp h
      cases h
      exact ⟨.inr rfl, .inr ⟨chosen, rfl⟩⟩
    | random =>
      rw [hs] at h
      obtain ⟨chosen, -, h⟩ := Option.bind_eq_some_iff.mp h
      cases h
      exact ⟨.inl rfl, .inr ⟨chosen, rfl⟩⟩
    | weightedRoundRobin =>
      rw [hs] at h
      obtain ⟨total, -, h⟩ := Option.bind_eq_some_iff.mp h
      obtain ⟨slot, -, h⟩ := Option.bind_eq_some_iff.mp h
      obtain ⟨found, -, h⟩ := Option.bind_eq_some_iff.mp h
      cases found with
      | ok chosen =>
        cases h
        exact ⟨.inr rfl, .inr ⟨chosen, rfl⟩⟩
      | error f =>
        cases h
        exact ⟨.inr rfl, .inl rfl⟩
    | leastConnections =>
      rw [hs] at h
      cases h
      exact ⟨.inl rfl, .inr ⟨leastBusy cs first rest, rfl⟩⟩

/-- Choosing makes no endpoints, and takes none away. -/
theorem length_selectInPlace {b b' : Balancer} {cs cs' : Connections} {draw : Nat} {service : String}
    {es : List Endpoint} {result : Except Failure Endpoint}
    (h : b.selectInPlace cs draw service es = some ((b', cs'), result)) :
    cs'.counts.length = cs.counts.length := by
  obtain ⟨-, rfl | ⟨e, rfl⟩⟩ := selectInPlace_cases h
  · rfl
  · exact cs.length_set ..

@[simp] theorem advance_get?_of_ne {service other : String} (h : other ≠ service) (b : Balancer) :
    (b.advance service).cursors.get? other = b.cursors.get? other := by
  unfold advance
  split
  · exact Dictionary.get?_insert_of_ne h ..
  · rfl

end Balancer

/-! ## Routing -/

namespace Router

/-- Choose the endpoint for a call and open a connection on it, and tell in either case what is left of
the router and the connections. There is nothing to tell if the choice breaks off. -/
def routeInPlace (r : Router) (cs : Connections) (draw : Nat) (c : Call) :
    Option ((Router × Connections) × Except Failure Endpoint) :=
  let service := r.resolve c
  if service.isEmpty then
    some ((r, cs), .error (routingFailure "request does not name a service"))
  else
    match (r.table.get? service).filter (!·.isEmpty) with
    | none =>
      some ((r, cs),
        .error (routingFailure s!"no endpoints registered for service '{service}'"))
    | some es => do
      let ((balancer, cs), result) ← r.balancer.selectInPlace cs draw service es
      some (({ r with balancer }, cs), result)

/-- All that routing can come to. -/
inductive Routing (r : Router) (cs : Connections) (draw : Nat) (c : Call) : Prop
  | refused (f : Failure) : f.code = .routing →
      (r.resolve c = "" ∨ r.endpoints (r.resolve c) = []) →
      r.route cs draw c = .error f → r.routeInPlace cs draw c = some ((r, cs), .error f) →
      Routing r cs draw c
  | routed (e : Endpoint) : r.resolve c ≠ "" → e ∈ r.endpoints (r.resolve c) →
      r.route cs draw c =
        .ok ({ r with balancer := r.balancer.advance (r.resolve c) }, cs.acquire e, e) →
      r.routeInPlace cs draw c =
        some (({ r with balancer := r.balancer.advance (r.resolve c) }, cs.acquire e), .ok e) →
      Routing r cs draw c

theorem routing {r : Router} {c : Call} (hlen : (r.endpoints (r.resolve c)).length < 2 ^ 32)
    (h : ∀ e ∈ r.endpoints (r.resolve c), e.weight < 2 ^ 32) (cs : Connections) (draw : Nat) :
    r.Routing cs draw c := by
  by_cases hservice : r.resolve c = ""
  · have hempty : (r.resolve c).isEmpty = true := by simpa using hservice
    exact .refused (routingFailure "request does not name a service") rfl (.inl hservice)
      (if_pos hempty) (if_pos hempty)
  · have hempty : (r.resolve c).isEmpty = false := by simpa using hservice
    cases hes : r.endpoints (r.resolve c) with
    | nil =>
      have hnone : (r.table.get? (r.resolve c)).filter (!·.isEmpty) = none := by
        rw [endpoints] at hes
        cases hget : r.table.get? (r.resolve c) with
        | none => rfl
        | some es => simpa [hget] using hes
      refine .refused (routingFailure s!"no endpoints registered for service '{r.resolve c}'") rfl
        (.inr hes) ?_ ?_
      · simp only [route, hempty, hes]
        rfl
      · simp only [routeInPlace, hempty, hnone]
        rfl
    | cons first rest =>
      have hsome : (r.table.get? (r.resolve c)).filter (!·.isEmpty) = some (first :: rest) := by
        rw [endpoints] at hes
        cases hget : r.table.get? (r.resolve c) with
        | none => simp [hget] at hes
        | some es => simp_all
      rw [hes] at hlen h
      obtain ⟨e, he, hchoose, hselect⟩ :=
        r.balancer.selectInPlace_eq cs draw (r.resolve c) (List.cons_ne_nil first rest) hlen h
      refine .routed e hservice (hes ▸ he) ?_ ?_
      · simp only [route, hempty, hes, Balancer.select, hchoose]
        rfl
      · simp only [routeInPlace, hempty, hsome, hselect]
        rfl

/-- A call is routed if its service has a name and the balancer chooses an endpoint of it.  Then a
connection is opened on the endpoint, and nothing but the balancer takes note of it. -/
theorem route_eq_ok_iff {r r' : Router} {cs cs' : Connections} {draw : Nat} {c : Call} {e : Endpoint} :
    r.route cs draw c = .ok (r', cs', e) ↔
      r.resolve c ≠ "" ∧
        r.balancer.choose cs draw (r.resolve c) (r.endpoints (r.resolve c)) = .ok e ∧
        r' = { r with balancer := r.balancer.advance (r.resolve c) } ∧ cs' = cs.acquire e := by
  simp only [route]
  by_cases hservice : r.resolve c = ""
  · simp [hservice]
  · have hempty : (r.resolve c).isEmpty = false := by simpa using hservice
    simp only [hempty, Bool.false_eq_true, if_false, ne_eq, hservice, not_false_eq_true, true_and]
    cases hes : r.endpoints (r.resolve c) with
    | nil => simp [Balancer.choose]
    | cons first rest =>
      simp only [Balancer.select]
      cases hchoose : r.balancer.choose cs draw (r.resolve c) (first :: rest) with
      | error f => simp [Bind.bind, Except.bind]
      | ok chosen =>
        simp only [Bind.bind, Except.bind, Except.ok.injEq, Prod.mk.injEq]
        grind

theorem eq_of_route {r r' : Router} {cs cs' : Connections} {draw : Nat} {c : Call} {e : Endpoint}
    (h : r.route cs draw c = .ok (r', cs', e)) :
    e ∈ r.endpoints (r.resolve c) ∧ cs' = cs.acquire e ∧ ∃ balancer, r' = { r with balancer } := by
  obtain ⟨-, hchoose, hr, hcs⟩ := route_eq_ok_iff.mp h
  exact ⟨Balancer.mem_of_choose hchoose, hcs, _, hr⟩

/-! ## Routers that come about -/

/-- The routers that there can be, with the connections that are open at the time. -/
inductive Reached : Router → Connections → Prop
  | new (balancer : Balancer) (cs : Connections) : Reached { balancer } cs
  | changed {r : Router} {cs : Connections} (c : Change) : Reached r cs → c.Real cs →
      Reached (r.apply cs c).1 (r.apply cs c).2
  | routed {r : Router} {cs : Connections} {draw : Nat} {c : Call} {after : Router × Connections}
      {result : Except Failure Endpoint} : Reached r cs →
      r.routeInPlace cs draw c = some (after, result) → Reached after.1 after.2
  /-- Others make endpoints, and open and close connections. -/
  | meanwhile {r : Router} {cs cs' : Connections} : Reached r cs →
      cs.counts.length ≤ cs'.counts.length → Reached r cs'
  /-- Others who share the balancer choose by it. -/
  | shared {r : Router} {cs : Connections} (balancer : Balancer) : Reached r cs →
      balancer.strategy = r.balancer.strategy → Reached { r with balancer } cs

/-- Whatever routing comes to, the table is left alone and no endpoint goes. -/
theorem routeInPlace_fixed {r : Router} {cs : Connections} {draw : Nat} {c : Call}
    {after : Router × Connections} {result : Except Failure Endpoint}
    (h : r.routeInPlace cs draw c = some (after, result)) :
    (∃ balancer, after.1 = { r with balancer }) ∧ after.2.counts.length = cs.counts.length := by
  simp only [routeInPlace] at h
  split at h
  · cases h
    exact ⟨⟨_, rfl⟩, rfl⟩
  · split at h
    · cases h
      exact ⟨⟨_, rfl⟩, rfl⟩
    · obtain ⟨⟨⟨balancer, cs'⟩, result'⟩, hselect, hafter⟩ := Option.bind_eq_some_iff.mp h
      cases hafter
      exact ⟨⟨balancer, rfl⟩, Balancer.length_selectInPlace hselect⟩

/-- No service of a router is without endpoints, and its endpoints are such as there can be. -/
theorem Reached.sound {r : Router} {cs : Connections} (h : r.Reached cs) :
    r.table.Filled ∧ ∀ e ∈ r.instances, e.Real cs := by
  induction h with
  | new balancer cs => exact ⟨by simp [RoutingTable.Filled], by simp [instances]⟩
  | changed c _ hc ih => exact ⟨filled_apply ih.1 _ c, real_apply ih.2 hc⟩
  | @routed r cs draw c after result _ hroute ih =>
    obtain ⟨⟨balancer, hafter⟩, hlen⟩ := routeInPlace_fixed hroute
    rw [hafter]
    exact ⟨ih.1, fun e he ↦ (ih.2 e he).mono (Nat.le_of_eq hlen.symm)⟩
  | meanwhile _ hle ih => exact ⟨ih.1, fun e he ↦ (ih.2 e he).mono hle⟩
  | shared balancer _ _ ih => exact ih

theorem mem_services_iff {r : Router} (h : r.table.Filled) {s : String} :
    s ∈ r.services ↔ r.endpoints s ≠ [] := by
  rw [services, Dictionary.mem_keys_iff, endpoints]
  cases hes : r.table.get? s with
  | none => simp
  | some es => simpa using h s es (Dictionary.mem_of_get?_eq_some hes)

/-- Routing in any router that there can be.  It does not break off, and it comes to the same as if the
choice were made first:

* it succeeds if and only if the service that the rules resolve has a name and is in the table;
* the endpoint that it succeeds with is one that the service has now, the count of this endpoint's
  connections has grown by one and no other, and table, rules and generation are the same as before,
  and so are the cursors of all other services;
* it fails with no other failure than one to route, and then it has left everything as it was. -/
theorem route_sound {r : Router} {cs : Connections} (h : r.Reached cs) (draw : Nat) (c : Call)
    (hlen : (r.endpoints (r.resolve c)).length < 2 ^ 32) :
    ∃ after result, r.routeInPlace cs draw c = some (after, result) ∧
      r.route cs draw c = result.map (fun e ↦ (after.1, after.2, e)) ∧
      (result.isOk = true ↔ r.resolve c ≠ "" ∧ r.resolve c ∈ r.services) ∧
      (∀ e, result = .ok e →
        e ∈ r.endpoints (r.resolve c) ∧
        (∀ id, after.2.count id = if id = e.counter then cs.count id + 1 else cs.count id) ∧
        after.1.table = r.table ∧ after.1.rules = r.rules ∧ after.1.generation = r.generation ∧
        ∀ other, other ≠ r.resolve c →
          after.1.balancer.cursors.get? other = r.balancer.cursors.get? other) ∧
      ∀ f, result = .error f → f.code = .routing ∧ after = (r, cs) := by
  obtain ⟨hfilled, hreal⟩ := h.sound
  have hweight : ∀ e ∈ r.endpoints (r.resolve c), e.weight < 2 ^ 32 := fun e he ↦
    (hreal e (mem_instances_of_mem_endpoints he)).weight_lt
  cases routing hlen hweight cs draw with
  | refused f hcode hwhy hroute hplace =>
    refine ⟨(r, cs), .error f, hplace, hroute, ?_, by simp, by simpa using hcode⟩
    rw [mem_services_iff hfilled]
    rcases hwhy with hwhy | hwhy <;> simp [hwhy, Except.isOk, Except.toBool]
  | routed e hservice he hroute hplace =>
    refine ⟨_, .ok e, hplace, hroute, ?_, ?_, by simp⟩
    · rw [mem_services_iff hfilled]
      simp [hservice, List.ne_nil_of_mem he, Except.isOk, Except.toBool]
    · rintro _ ⟨⟩
      refine ⟨he, fun id ↦ ?_, rfl, rfl, rfl, fun other hother ↦ ?_⟩
      · by_cases hid : id = e.counter
        · rw [if_pos hid, hid]
          exact Connections.count_set_self (hreal e (mem_instances_of_mem_endpoints he)).known _
        · rw [if_neg hid]
          exact Connections.count_set_of_ne cs hid _
      · exact Balancer.advance_get?_of_ne hother r.balancer

/-- Weights at either end of what 32 bits hold. -/
theorem route_sound_of_weights :
    let a : Endpoint :=
      { service := "s", id := "a", address := "h", port := 1, weight := 0, counter := 0 }
    let b : Endpoint :=
      { service := "s", id := "b", address := "h", port := 2, weight := 2 ^ 32 - 1, counter := 1 }
    let cs : Connections := ⟨[0, 0]⟩
    let r := ((ofStrategy .weightedRoundRobin).add "s" a).add "s" b
    let c : Call := { service := "s", method := "m", payload := [], traceId := ⟨"t", by decide⟩ }
    r.Reached cs ∧ (r.endpoints (r.resolve c)).length < 2 ^ 32 ∧
      ∃ after result, r.routeInPlace cs 0 c = some (after, result) ∧ result.isOk = true := by
  intro a b cs r c
  have hreached : r.Reached cs :=
    .changed (.add "s" b)
      (.changed (.add "s" a) (.new ⟨.weightedRoundRobin, []⟩ cs) (by decide : a.Real cs))
      (by decide : b.Real cs)
  have hlen : (r.endpoints (r.resolve c)).length < 2 ^ 32 := by decide
  obtain ⟨after, result, hplace, -, hok, -⟩ := route_sound hreached 0 c hlen
  exact ⟨hreached, hlen, after, result, hplace, hok.mpr ⟨by decide, by decide⟩⟩

end Router

end Interchange
