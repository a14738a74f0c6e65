import Interchange.Proofs.Routing.Run
import Mathlib.Data.List.Induction

/-!
# Rotation

A balancer that goes round keeps a cursor for each service, the router keeps the
services; the two are in step only because every write that takes a service out of
the table makes the balancer forget it, and no other write does
(`get?_cursors_apply`).  So a cursor counts what was routed to its service since
the service last entered the table (`turn`, `inTurn_run`), and this is the place in
the list, counted round, from which the next endpoint is taken.

What concerns other services does not count.  To say so without counting,
`concerning` strikes out of an event what it does to others, and `Agrees` relates
routers that look the same to one service: they stay so if one of them is spared
everything that concerns the others (`Agrees.run`).
-/

namespace Interchange

theorem Balancer.get?_cursors_foldl_forget (b : Balancer) (dropped : List String) (s : String) :
    (dropped.foldl forget b).cursors.get? s = if s ∈ dropped then none else b.cursors.get? s := by
  induction dropped generalizing b with
  | nil => simp
  | cons d dropped ih =>
    rw [List.foldl_cons, ih]
    by_cases hs : s = d
    · simp [hs, forget]
    · simp [hs, forget, Dictionary.get?_erase_of_ne hs]

@[simp] theorem Balancer.strategy_foldl_forget (b : Balancer) (dropped : List String) :
    (dropped.foldl forget b).strategy = b.strategy := by
  induction dropped generalizing b with
  | nil => rfl
  | cons d dropped ih => exact ih _

namespace Router

variable {r r' : Router} {x : Event} {xs ys : List Event} {s : String} {e : Endpoint}

theorem mem_services : s ∈ r.services ↔ (r.table.get? s).isSome := Dictionary.mem_keys_iff

/-! ## What the balancer forgets -/

@[simp] theorem strategy_apply (r : Router) (cs : Connections) (c : Change) :
    (r.apply cs c).1.balancer.strategy = r.balancer.strategy := by
  cases c with
  | add | registerRule | unregisterRule => rfl
  | update | sync => exact Balancer.strategy_foldl_forget ..
  | remove service id =>
    simp only [apply, remove]
    split
    · rfl
    · split <;> rfl

@[simp] theorem strategy_step (r : Router) (x : Event) :
    (r.step x).balancer.strategy = r.balancer.strategy := by
  cases r.step_cases x with
  | changed cs c _ hstep => rw [hstep, strategy_apply]
  | routed _ _ _ _ _ hstep => rw [hstep, Balancer.strategy_advance]
  | refused _ hstep => rw [hstep]

theorem get?_cursors_remove (r : Router) (service id s : String) :
    (r.remove service id).1.balancer.cursors.get? s =
      if s ∈ r.services ∧ s ∉ (r.remove service id).1.services then none
      else r.balancer.cursors.get? s := by
  by_cases hs : s = service
  · subst hs
    simp only [mem_services, remove]
    split
    · exact (if_neg fun h ↦ h.2 h.1).symm
    · next hlen =>
      have hsome : (r.table.get? s).isSome := by
        cases h : r.table.get? s with
        | none => simp [endpoints, h] at hlen
        | some => rfl
      split <;> simp [Balancer.forget, hsome]
  · rw [if_neg fun h ↦ h.2 (mem_services.mpr (get?_remove_of_ne hs r id ▸ mem_services.mp h.1)), remove]
    split
    · rfl
    · split
      · exact Dictionary.get?_erase_of_ne hs _
      · rfl

theorem get?_cursors_update (r : Router) (t : RoutingTable) (s : String) :
    (r.update t).balancer.cursors.get? s =
      if s ∈ r.services ∧ s ∉ (r.update t).services then none else r.balancer.cursors.get? s := by
  simp only [update, Balancer.get?_cursors_foldl_forget, List.mem_filter, services,
    Dictionary.mem_keys_iff, Dictionary.contains]
  simp

/-- A write makes the balancer forget the services that leave the table, and no others. -/
theorem get?_cursors_apply (r : Router) (cs : Connections) (c : Change) (s : String) :
    (r.apply cs c).1.balancer.cursors.get? s =
      if s ∈ r.services ∧ s ∉ (r.apply cs c).1.services then none
      else r.balancer.cursors.get? s := by
  cases c with
  | registerRule | unregisterRule => simp [apply, services, registerRule, unregisterRule]
  | remove service id => exact r.get?_cursors_remove service id s
  | update t => exact r.get?_cursors_update t s
  | sync registry services => exact r.get?_cursors_update _ s
  | add service e =>
    have hstay : s ∈ r.services → s ∈ (r.add service e).services := fun hs ↦
      Dictionary.mem_keys_insert.mpr (.inr hs)
    rw [if_neg fun h ↦ h.2 (hstay h.1)]
    rfl

/-! ## Turns -/

/-- Holds of an event that is routed to a service. -/
def serves (r : Router) (s : String) (x : Event) : Bool := (r.leased x).any (·.1 = s)

/-- How many events of a run are routed to a service. -/
def served (r : Router) (s : String) (xs : List Event) : Nat :=
  (r.moments xs).countP fun m ↦ m.1.serves s m.2

/-- How many events of a run are routed to a service since it last entered the table. -/
def turn (r : Router) (s : String) (xs : List Event) : Nat :=
  ((r.moments xs).reverse.takeWhile fun m ↦ s ∈ m.1.services).countP fun m ↦ m.1.serves s m.2

theorem turn_concat (r : Router) (s : String) (xs : List Event) (x : Event) :
    r.turn s (xs ++ [x]) =
      if s ∈ (r.run xs).services then r.turn s xs + (if (r.run xs).serves s x then 1 else 0)
      else 0 := by
  rw [turn, moments_append, moments_cons, moments_nil, List.reverse_concat, List.takeWhile_cons]
  by_cases hs : s ∈ (r.run xs).services
  · simp only [hs, decide_true, if_true, List.countP_cons]
    rfl
  · simp [hs]

/-- The turns of a service go on as long as it stays in the table. -/
theorem turn_append (h : ∀ m ∈ (r.run xs).moments ys, s ∈ m.1.services) :
    r.turn s (xs ++ ys) = r.turn s xs + (r.run xs).served s ys := by
  have hall : ∀ m ∈ ((r.run xs).moments ys).reverse, decide (s ∈ m.1.services) = true := fun m hm ↦
    decide_eq_true (h m (List.mem_reverse.mp hm))
  rw [turn, moments_append, List.reverse_append, List.takeWhile_append_of_pos hall,
    List.countP_append, List.countP_reverse, Nat.add_comm]
  rfl

/-- A router that goes round and has come to the given turns: the cursor of a service in the table
shows its turn, and no other service has a cursor. -/
structure InTurn (r : Router) (turn : String → Nat) : Prop where
  strategy : r.balancer.strategy = .roundRobin
  cursor {s : String} : s ∈ r.services → r.balancer.cursor s = UInt64.ofNat (turn s)
  idle {s : String} : s ∉ r.services → r.balancer.cursors.get? s = none

theorem InTurn.step {turn : String → Nat} (h : r.InTurn turn) (x : Event) :
    (r.step x).InTurn fun s ↦
      if s ∈ r.services then turn s + (if r.serves s x then 1 else 0) else 0 := by
  cases r.step_cases x with
  | refused hleased hstep =>
    rw [hstep]
    refine ⟨h.strategy, fun {s} hs ↦ ?_, h.idle⟩
    simp [hs, serves, hleased, h.cursor hs]
  | routed service e hleased _ he hstep =>
    rw [hstep]
    have hservice := mem_services_of_leased hleased
    refine ⟨by simp [h.strategy], fun {s} hs ↦ ?_, fun {s} hs ↦ ?_⟩
    · have hs' : s ∈ r.services := hs
      by_cases heq : s = service
      · subst heq
        simp only [hs', serves, hleased, Balancer.cursor_advance (congrArg Strategy.counts h.strategy),
          h.cursor hs']
        simp
      · simp [hs', serves, hleased, Ne.symm heq, Balancer.cursor_advance_of_ne heq, h.cursor hs']
    · have hne : s ≠ service := fun heq ↦ hs (heq ▸ hservice : s ∈ r.services)
      rw [Balancer.advance_get?_of_ne hne]
      exact h.idle hs
  | changed cs c hleased hstep =>
    rw [hstep]
    refine ⟨by simp [h.strategy], fun {s} hs ↦ ?_, fun {s} hs ↦ ?_⟩
    -- A service that is there after the write keeps its cursor, or enters without one.
    · have hkeep : (r.apply cs c).1.balancer.cursor s = r.balancer.cursor s := by
        rw [Balancer.cursor, Balancer.cursor, get?_cursors_apply, if_neg fun hgone ↦ hgone.2 hs]
      rw [hkeep]
      by_cases hbefore : s ∈ r.services
      · simp [hbefore, serves, hleased, h.cursor hbefore]
      · simp [hbefore, Balancer.cursor, h.idle hbefore]
    · rw [get?_cursors_apply]
      split
      · rfl
      · next hgone => exact h.idle fun hbefore ↦ hgone ⟨hbefore, hs⟩

/-- In every run the cursors show the turns. -/
theorem inTurn_run (xs : List Event) :
    ((ofStrategy .roundRobin).run xs).InTurn fun s ↦ (ofStrategy .roundRobin).turn s xs := by
  induction xs using List.reverseRecOn with
  | nil => exact ⟨rfl, by simp [ofStrategy, services, Dictionary.keys], by simp [ofStrategy]⟩
  | append_singleton xs x ih =>
    simp only [turn_concat, run_append]
    exact ih.step x

/-- A router that goes round takes the endpoint at the cursor of the service. -/
theorem getElem?_of_leased (hs : r.balancer.strategy = .roundRobin) (h : r.leased x = some (s, e)) :
    (r.endpoints s)[(r.balancer.cursor s).toNat % (r.endpoints s).length]? = some e := by
  obtain ⟨cs, draw, c, -, -, -, hchoose⟩ := leased_eq_some_iff.mp h
  exact Balancer.getElem?_of_choose hs hchoose

theorem InTurn.getElem?_of_leased {turn : String → Nat} (h : r.InTurn turn)
    (hleased : r.leased x = some (s, e)) (hlt : turn s < 2 ^ 64) :
    (r.endpoints s)[turn s % (r.endpoints s).length]? = some e := by
  have := Router.getElem?_of_leased h.strategy hleased
  rwa [h.cursor (mem_services_of_leased hleased), UInt64.toNat_ofNat_of_lt' hlt] at this

/-- A cursor stays at the beginning until its service is routed to. -/
theorem cursor_run_of_unserved (h : r.balancer.cursor s = 0) (hxs : r.served s xs = 0) :
    (r.run xs).balancer.cursor s = 0 := by
  induction xs generalizing r with
  | nil => exact h
  | cons x xs ih =>
    simp only [served, moments_cons, List.countP_cons] at hxs
    refine ih ?_ (Nat.eq_zero_of_add_eq_zero_right hxs)
    cases r.step_cases x with
    | refused _ hstep => rwa [hstep]
    | routed service e hleased _ _ hstep =>
      have hne : s ≠ service := fun heq ↦ by simp [serves, hleased, heq] at hxs
      rw [hstep, Balancer.cursor_advance_of_ne hne, h]
    | changed cs c _ hstep =>
      rw [hstep, Balancer.cursor, get?_cursors_apply]
      split
      · rfl
      · exact h

/-! ## What concerns others -/

/-- What an event does to one service: the event itself, or the replacement of the table by the part
that is about the service, or nothing. Rules concern every service. -/
def concerning (r : Router) (s : String) : Event → Option Event
  | .route cs draw c => if r.resolve c = s then some (.route cs draw c) else none
  | .change cs (.add service e) => if service = s then some (.change cs (.add service e)) else none
  | .change cs (.remove service id) =>
    if service = s then some (.change cs (.remove service id)) else none
  | .change cs (.update t) => some (.change cs (.update (t.filter (·.1 = s))))
  | .change cs (.sync registry services) =>
    some (.change cs (.update ((registry.gather services ([], cs)).1.filter (·.1 = s))))
  | .change cs (.registerRule rule) => some (.change cs (.registerRule rule))
  | .change cs (.unregisterRule name) => some (.change cs (.unregisterRule name))

/-- A run without all that concerns only other services. -/
def purge (r : Router) (s : String) : List Event → List Event
  | [] => []
  | x :: xs => (r.concerning s x).toList ++ (r.step x).purge s xs

/-- Routers that look the same to a service. -/
structure Agrees (s : String) (r r' : Router) : Prop where
  entry : r.table.get? s = r'.table.get? s
  rules : r.rules = r'.rules
  strategy : r.balancer.strategy = r'.balancer.strategy
  cursor : r.balancer.cursors.get? s = r'.balancer.cursors.get? s

namespace Agrees

theorem endpoints (h : Agrees s r r') : r.endpoints s = r'.endpoints s := by
  rw [Router.endpoints, Router.endpoints, h.entry]

theorem resolve (h : Agrees s r r') (c : Call) : r.resolve c = r'.resolve c := by
  rw [Router.resolve, Router.resolve, h.rules]

theorem leased_iff (h : Agrees s r r') (hs : r.balancer.strategy = .roundRobin) :
    r.leased x = some (s, e) ↔ r'.leased x = some (s, e) := by
  have hchoose (cs : Connections) (draw : Nat) :
      r.balancer.choose cs draw s (r.endpoints s) = r'.balancer.choose cs draw s (r'.endpoints s) := by
    have hcursor : r.balancer.cursor s = r'.balancer.cursor s := by
      rw [Balancer.cursor, Balancer.cursor, h.cursor]
    rw [h.endpoints]
    cases r'.endpoints s with
    | nil => rfl
    | cons => simp only [Balancer.choose, hs, ← h.strategy, hcursor]
  simp only [leased_eq_some_iff, h.resolve, hchoose]

/-- Writes that leave the same entry of a service leave routers that look the same to it. -/
theorem apply (h : Agrees s r r') (cs : Connections) (c c' : Change)
    (hrules : (r.apply cs c).1.rules = (r'.apply cs c').1.rules)
    (hentry : (r.apply cs c).1.table.get? s = (r'.apply cs c').1.table.get? s) :
    Agrees s (r.apply cs c).1 (r'.apply cs c').1 := by
  refine ⟨hentry, hrules, by simp [h.strategy], ?_⟩
  simp only [get?_cursors_apply, mem_services, h.entry, hentry, h.cursor]

/-- A write that leaves the entry of a service and the rules is not seen by it. -/
theorem apply_left {c : Change} (h : Agrees s r r') (cs : Connections)
    (hrules : (r.apply cs c).1.rules = r.rules)
    (hentry : (r.apply cs c).1.table.get? s = r.table.get? s) :
    Agrees s (r.apply cs c).1 r' := by
  refine ⟨hentry.trans h.entry, hrules.trans h.rules, by simp [h.strategy], ?_⟩
  rw [get?_cursors_apply, if_neg, h.cursor]
  rintro ⟨hin, hout⟩
  rw [mem_services] at hin hout
  exact hout (hentry ▸ hin)

theorem update (h : Agrees s r r') (cs : Connections) (t : RoutingTable) :
    Agrees s (r.update t) (r'.update (t.filter (·.1 = s))) := by
  refine h.apply cs (.update t) (.update _) h.rules ?_
  change (r.update t).table.get? s = (r'.update _).table.get? s
  -- Both look the service up among the entries with endpoints, one of them among its own entries only.
  rw [get?_update, get?_update, h.endpoints, List.filter_filter]
  simp only [Bool.and_comm]
  rw [← List.filter_filter, Dictionary.get?_filter_self]

/-- A call that goes to the service is routed alike by both, or by neither. -/
theorem route (h : Agrees s r r') (hs : r.balancer.strategy = .roundRobin) (cs : Connections)
    (draw : Nat) {c : Call} (hc : r.resolve c = s) :
    Agrees s (r.step (.route cs draw c)) (r'.step (.route cs draw c)) := by
  have hc' : r'.resolve c = s := (h.resolve c).symm.trans hc
  cases r.step_cases (.route cs draw c) with
  | routed s₁ e₁ hleased hs₁ _ hstep =>
    obtain rfl : s₁ = s := hs₁.symm.trans hc
    cases r'.step_cases (.route cs draw c) with
    | refused hleased' => simp [(h.leased_iff hs).mp hleased] at hleased'
    | routed s₂ e₂ _ hs₂ _ hstep' =>
      obtain rfl : s₂ = s₁ := hs₂.symm.trans hc'
      rw [hstep, hstep']
      refine ⟨h.entry, h.rules, by simp [h.strategy], ?_⟩
      simp [Balancer.advance, hs, ← h.strategy, Strategy.counts, Balancer.cursor, h.cursor]
  | refused hleased hstep =>
    cases r'.step_cases (.route cs draw c) with
    | refused _ hstep' => rwa [hstep, hstep']
    | routed s₂ e₂ hleased' hs₂ =>
      obtain rfl : s₂ = s := hs₂.symm.trans hc'
      simp [(h.leased_iff hs).mpr hleased'] at hleased

/-- A call that goes elsewhere is not seen by the service. -/
theorem route_left (h : Agrees s r r') (cs : Connections) (draw : Nat) {c : Call}
    (hc : r.resolve c ≠ s) : Agrees s (r.step (.route cs draw c)) r' := by
  cases r.step_cases (.route cs draw c) with
  | refused _ hstep => rwa [hstep]
  | routed s₁ e₁ _ hs₁ _ hstep =>
    have hne : s ≠ s₁ := fun heq ↦ hc (hs₁.trans heq.symm)
    rw [hstep]
    exact ⟨h.entry, h.rules, by simp [h.strategy], by simp [hne, h.cursor]⟩

/-- Routers that look the same to a service still do if one of them is spared what an event does to the
others. -/
theorem step (h : Agrees s r r') (hs : r.balancer.strategy = .roundRobin) (x : Event) :
    Agrees s (r.step x) (r'.run (r.concerning s x).toList) := by
  cases x with
  | route cs draw c =>
    rw [concerning]
    split
    · next hc => exact h.route hs cs draw hc
    · next hc => exact h.route_left cs draw hc
  | change cs c =>
    cases c with
    | update t => exact h.update cs t
    | sync registry services => exact h.update cs _
    | registerRule | unregisterRule =>
      refine h.apply cs _ _ ?_ h.entry
      simp only [Router.apply, registerRule, unregisterRule, h.rules]
    | add service e =>
      rw [concerning]
      split
      · next hservice =>
        subst hservice
        refine h.apply cs _ _ h.rules ?_
        simp [Router.apply, add, h.endpoints]
      · next hservice =>
        exact h.apply_left cs rfl (Dictionary.get?_insert_of_ne (Ne.symm hservice) ..)
    | remove service id =>
      rw [concerning]
      split
      · next hservice =>
        subst hservice
        refine h.apply cs _ _ (by simp [Router.apply, h.rules]) ?_
        simp only [Router.apply, remove, h.endpoints]
        split
        · exact h.entry
        · split <;> simp
      · next hservice =>
        exact h.apply_left cs (rules_remove ..) (get?_remove_of_ne (Ne.symm hservice) r id)

theorem run (h : Agrees s r r') (hs : r.balancer.strategy = .roundRobin) (xs : List Event) :
    Agrees s (r.run xs) (r'.run (r.purge s xs)) := by
  induction xs generalizing r r' with
  | nil => exact h
  | cons x xs ih =>
    rw [purge, run_append]
    exact ih (h.step hs x) (by rw [strategy_step, hs])

end Agrees

/-! ## Rotation -/

/-- Rotation in any run of a new router with a balancer of its own that goes round:

* a call that is routed to a service gets the endpoint at the turn of the service, which is the number
  of calls routed to it since it last entered the table, counted round the list that it has now;
* whatever concerns only other services makes no difference: the call gets the same endpoint in a run
  that is spared all of it;
* only services in the table have cursors;
* a service that was out of the table begins with the first endpoint of its list;
* a service that has stayed in the table goes on with its turn, whatever was written to it. -/
theorem rotation (xs : List Event) :
    let new := ofStrategy .roundRobin
    let r := new.run xs
    (∀ x s e, r.leased x = some (s, e) → new.turn s xs < 2 ^ 64 →
      (r.endpoints s)[new.turn s xs % (r.endpoints s).length]? = some e) ∧
    (∀ x s e, r.leased x = some (s, e) ↔ (new.run (new.purge s xs)).leased x = some (s, e)) ∧
    (∀ s ∈ r.balancer.cursors.keys, s ∈ r.services) ∧
    (∀ ys x s e, s ∉ r.services → r.served s ys = 0 → (r.run ys).leased x = some (s, e) →
      ((r.run ys).endpoints s).head? = some e) ∧
    ∀ ys x s e, (∀ m ∈ r.moments ys, s ∈ m.1.services) → (r.run ys).leased x = some (s, e) →
      new.turn s xs + r.served s ys < 2 ^ 64 →
      ((r.run ys).endpoints s)[
        (new.turn s xs + r.served s ys) % ((r.run ys).endpoints s).length]? = some e := by
  intro new r
  have hin : r.InTurn fun s ↦ new.turn s xs := inTurn_run xs
  have hrotates (ys : List Event) : (r.run ys).balancer.strategy = .roundRobin := by
    rw [← run_append]
    exact (inTurn_run (xs ++ ys)).strategy
  refine ⟨fun x s e hleased hlt ↦ hin.getElem?_of_leased hleased hlt, fun x s e ↦ ?_, fun s hs ↦ ?_,
    fun ys x s e hout hunserved hleased ↦ ?_, fun ys x s e hstays hleased hlt ↦ ?_⟩
  · have hself : Agrees s new new := ⟨rfl, rfl, rfl, rfl⟩
    exact (hself.run rfl xs).leased_iff hin.strategy
  · by_contra hout
    rw [Dictionary.mem_keys_iff, hin.idle hout] at hs
    cases hs
  · have hcursor : r.balancer.cursor s = 0 := by rw [Balancer.cursor, hin.idle hout, Option.getD_none]
    have := Router.getElem?_of_leased (hrotates ys) hleased
    rwa [cursor_run_of_unserved hcursor hunserved, UInt64.toNat_zero, Nat.zero_mod,
      ← List.head?_eq_getElem?] at this
  · have hlater := (inTurn_run (xs ++ ys)).getElem?_of_leased (x := x) (s := s) (e := e)
    rw [run_append, turn_append hstays] at hlater
    exact hlater hleased hlt

/-- A service that is refreshed goes on, and one that returns begins again. -/
theorem rotation_of_two :
    let a : Endpoint := { service := "s", id := "a", address := "h", port := 1, counter := 0 }
    let b : Endpoint := { service := "s", id := "b", address := "h", port := 2, counter := 1 }
    let c : Endpoint := { service := "t", id := "c", address := "h", port := 3, counter := 2 }
    let d : Endpoint := { service := "t", id := "d", address := "h", port := 4, counter := 3 }
    let cs : Connections := ⟨[0, 0, 0, 0]⟩
    let call (service : String) : Event :=
      .route cs 0 { service, method := "m", payload := [], traceId := ⟨"u", by decide⟩ }
    let new := ofStrategy .roundRobin
    let xs := [.change cs (.add "t" c), .change cs (.add "t" d), call "t", .change cs (.add "s" a),
      .change cs (.add "s" b), call "s", .change cs (.update [("s", [a, b])])]
    let ys := [.change cs (.update [("s", [b, a]), ("t", [d, c])])]
    let r := new.run xs
    (r.leased (call "s") = some ("s", b) ∧ new.turn "s" xs < 2 ^ 64 ∧
      (r.endpoints "s")[new.turn "s" xs % (r.endpoints "s").length]? = some b) ∧
    ("t" ∉ r.services ∧ r.served "t" ys = 0 ∧ (r.run ys).leased (call "t") = some ("t", d) ∧
      ((r.run ys).endpoints "t").head? = some d) ∧
    ((∀ m ∈ r.moments ys, "s" ∈ m.1.services) ∧ (r.run ys).leased (call "s") = some ("s", a) ∧
      new.turn "s" xs + r.served "s" ys < 2 ^ 64 ∧
      ((r.run ys).endpoints "s")[
        (new.turn "s" xs + r.served "s" ys) % ((r.run ys).endpoints "s").length]? = some a) := by
  intro a b c d cs call new xs ys r
  obtain ⟨hturn, -, -, hreturned, hstays⟩ := rotation xs
  have hleased : r.leased (call "s") = some ("s", b) := by decide
  have hlt : new.turn "s" xs < 2 ^ 64 := by decide
  have hout : "t" ∉ r.services := by decide
  have hunserved : r.served "t" ys = 0 := by decide
  have hback : (r.run ys).leased (call "t") = some ("t", d) := by decide
  have hin : ∀ m ∈ r.moments ys, "s" ∈ m.1.services := by
    intro m hm
    rw [List.mem_singleton.mp hm]
    decide
  have hnext : (r.run ys).leased (call "s") = some ("s", a) := by decide
  have hlt' : new.turn "s" xs + r.served "s" ys < 2 ^ 64 := by decide
  exact ⟨⟨hleased, hlt, hturn _ _ _ hleased hlt⟩,
    ⟨hout, hunserved, hback, hreturned _ _ _ _ hout hunserved hback⟩,
    ⟨hin, hnext, hlt', hstays _ _ _ _ hin hnext hlt'⟩⟩

end Router

end Interchange
