import Interchange.Proofs.Routing.Catalogue
import Interchange.Proofs.Routing.Rotation

/-!
# What a refresh keeps

To replace the table is to look up every new endpoint among the former ones of its
service.  Where ids are kept apart there is at most one with the same registration,
so it does not matter which is found, in which order the lists are, or how many
endpoints came and went beside it: the endpoint that was there stays
(`Renewed`, `renewed_update`).

Instances and registrations are two things.  A registry makes new instances
whenever it is asked, so the table that is gathered from it twice is never the same
twice; but its catalogue is.  What a table lists already changes nothing when it is
written again (`update_eq_self`), and repeated refreshes are cases of this.
-/

namespace Interchange.Router

variable {r r' : Router} {t : RoutingTable} {s : String} {e x : Endpoint} {es es' former : List Endpoint}

/-- What becomes of an endpoint in a refresh: it has its registration, and it is the former endpoint of
this registration, if there was one, or else the new one. -/
structure Renewed (former : List Endpoint) (e x : Endpoint) : Prop where
  toRegistration_eq : x.toRegistration = e.toRegistration
  kept {y : Endpoint} : y ∈ former → y.toRegistration = e.toRegistration → x = y
  new : (∀ y ∈ former, y.toRegistration ≠ e.toRegistration) → x = e

theorem renewed_retained (h : (former.map (·.id)).Nodup) (e : Endpoint) :
    Renewed former e (retained former e) := by
  refine ⟨toRegistration_retained former e, fun hy hreg ↦ retained_eq_self h hy hreg.symm, fun hnew ↦ ?_⟩
  rcases retained_eq_or_mem former e with heq | hmem
  · exact heq
  · exact absurd (toRegistration_retained former e) (hnew _ hmem)

/-- Each endpoint of a new list is renewed, in the order of the list. -/
theorem renewed_update (h : r.table.Distinct) (ht : Dictionary.Sorted t) (s : String) :
    List.Forall₂ (Renewed (r.endpoints s)) ((t.get? s).getD []) ((r.update t).endpoints s) := by
  rw [endpoints_update r ht, List.forall₂_map_right_iff]
  exact List.forall₂_same.mpr fun e _ ↦ renewed_retained (nodup_endpoints h s) e

/-! ## What is listed already -/

/-- Endpoints that are listed again, each by another instance, stay as they are. -/
theorem map_retained_eq_self (h : (es.map (·.id)).Nodup)
    (hreg : es'.map Endpoint.toRegistration = es.map Endpoint.toRegistration) :
    es'.map (retained es) = es := by
  have hlen : es'.length = es.length := by simpa using congrArg List.length hreg
  refine List.ext_getElem (by simpa using hlen) fun i hi hi' ↦ ?_
  rw [List.getElem_map]
  refine retained_eq_self h (List.getElem_mem hi') ?_
  have := congrArg (·[i]?) hreg
  simpa [hi', hlen ▸ hi'] using this

theorem toRegistration_of_entries (h : Catalogue.entries es' = Catalogue.entries es) :
    es'.map Endpoint.toRegistration = es.map Endpoint.toRegistration := by
  have := congrArg (List.map Prod.snd) h
  rwa [Catalogue.entries, Catalogue.entries, List.map_map, List.map_map] at this

/-- Without empty lists, the endpoints of all services make the table. -/
theorem table_eq_of_endpoints (hfilled : r.table.Filled) (hfilled' : r'.table.Filled)
    (h : Dictionary.Sorted r.table) (h' : Dictionary.Sorted r'.table)
    (heq : ∀ s, r.endpoints s = r'.endpoints s) : r.table = r'.table := by
  refine h.ext h' fun s ↦ ?_
  have hes := heq s
  rw [endpoints, endpoints] at hes
  cases hs : r.table.get? s with
  | none =>
    cases hs' : r'.table.get? s with
    | none => rfl
    | some es =>
      rw [hs, hs'] at hes
      exact absurd hes.symm (hfilled' s es (Dictionary.mem_of_get?_eq_some hs'))
  | some es =>
    cases hs' : r'.table.get? s with
    | none =>
      rw [hs, hs'] at hes
      exact absurd hes (hfilled s es (Dictionary.mem_of_get?_eq_some hs))
    | some es' =>
      rw [hs, hs'] at hes
      exact congrArg some hes

/-- A table that lists what is there changes nothing but the generation. -/
theorem update_eq_self (hfilled : r.table.Filled) (h : r.table.Distinct) (ht : Dictionary.Sorted t)
    (hlisted : Catalogue.ofTable t = Catalogue.ofTable r.table) :
    r.update t = { r with generation := r.generation + 1 } := by
  have hendpoints (s : String) : (r.update t).endpoints s = r.endpoints s := by
    rw [endpoints_update r ht]
    exact map_retained_eq_self (nodup_endpoints h s) (toRegistration_of_entries (congrFun hlisted s))
  have htable : (r.update t).table = r.table :=
    table_eq_of_endpoints (r.filled_update t) hfilled (ht.map_filter ..) h.sorted
      hendpoints
  -- No service leaves the table, so the balancer forgets none.
  have hdropped : r.services.filter (fun s ↦ !Dictionary.contains (r.update t).table s) = [] := by
    rw [htable, List.filter_eq_nil_iff]
    intro s hs
    rw [mem_services] at hs
    simp [Dictionary.contains, hs]
  calc r.update t
      = { r with
          table := (r.update t).table
          balancer := (r.services.filter fun s ↦ !Dictionary.contains (r.update t).table s).foldl
            Balancer.forget r.balancer
          generation := r.generation + 1 } := rfl
    _ = { r with generation := r.generation + 1 } := by rw [hdropped, htable]; rfl

/-- To add an endpoint that is there already, as another instance, changes nothing but the generation. -/
theorem add_eq_self (h : r.table.Distinct) (hx : x ∈ r.endpoints s)
    (hreg : x.toRegistration = e.toRegistration) :
    r.add s e = { r with generation := r.generation + 1 } := by
  obtain ⟨es, hes, hmem⟩ := mem_table_of_mem_endpoints hx
  have hget : r.table.get? s = some es := h.sorted.get?_eq_some_iff.mpr hes
  obtain ⟨l, l', rfl⟩ := List.append_of_mem hmem
  have hplace : place e (l ++ x :: l') = l ++ x :: l' := by
    have hequal : x.equal e = true := decide_eq_true hreg
    rw [place_of_mem (h.nodup hes) (congrArg Registration.id hreg), if_pos hequal]
  rw [add, endpoints, hget, Option.getD_some, hplace, h.sorted.insert_eq_self hget]

/-! ## Repeated refreshes -/

/-- A refresh that repeats what the last one listed changes nothing but the generation, whatever else
than the table has changed since. -/
theorem update_of_table_eq (r : Router) {t' : RoutingTable} (ht : t.Distinct) (ht' : t'.Distinct)
    (hlisted : Catalogue.ofTable t' = Catalogue.ofTable t) (htable : r'.table = (r.update t).table) :
    r'.update t' = { r' with generation := r'.generation + 1 } := by
  refine update_eq_self ?_ ?_ ht'.sorted ?_
  · exact htable ▸ r.filled_update t
  · exact htable ▸ distinct_update r ht
  · rw [hlisted, htable, ofTable_update r ht]

theorem sync_of_table_eq (r : Router) {registry : Registry} (h : registry.Reached)
    {services : List String} {cs : Connections} (htable : r'.table = (r.sync registry cs services).1.table)
    (cs' : Connections) :
    (r'.sync registry cs' services).1 = { r' with generation := r'.generation + 1 } := by
  have hdistinct (cs : Connections) := distinct_gather (fun s ↦ (h.tidy s).2) cs services
  refine update_of_table_eq r (hdistinct cs) (hdistinct cs') ?_ htable
  exact (ofTable_gather registry cs' services).trans (ofTable_gather registry cs services).symm

/-- Whatever is refreshed keeps what did not change, if ids are kept apart:

* the services are those that the new table lists endpoints for;
* each service has what the new table lists for it, in this order, and of each registration it has the
  former instance, if there was one, or else the new one;
* no connection is opened or closed, and services that stay keep their cursors;
* to refresh again by the same table changes nothing but the generation, and neither does it to
  synchronise again with a registry that has not changed, although all endpoints that the registry
  hands out are new, and no count changes either;
* to add an endpoint equal to one that is there changes nothing but the generation. -/
theorem refreshed (h : r.table.Distinct) (ht : t.Distinct) :
    (∀ s, s ∈ (r.update t).services ↔ ∃ es, t.get? s = some es ∧ es ≠ []) ∧
    (∀ s, List.Forall₂ (Renewed (r.endpoints s)) ((t.get? s).getD []) ((r.update t).endpoints s)) ∧
    ((∀ cs, (r.apply cs (.update t)).2 = cs) ∧
      ∀ s ∈ r.services, s ∈ (r.update t).services →
        (r.update t).balancer.cursors.get? s = r.balancer.cursors.get? s) ∧
    (∀ r' : Router, r'.table = (r.update t).table →
      r'.update t = { r' with generation := r'.generation + 1 }) ∧
    (∀ (registry : Registry) (services : List String) (cs cs' : Connections) (r' : Router),
      registry.Reached → r'.table = (r.sync registry cs services).1.table →
        (r'.sync registry cs' services).1 = { r' with generation := r'.generation + 1 } ∧
        (∀ e, cs'.Knows e → (r'.sync registry cs' services).2.active e = cs'.active e) ∧
        ∀ s es, (s, es) ∈ (registry.gather services ([], cs')).1 → ∀ e ∈ es, ¬ cs'.Knows e) ∧
    ∀ s e x, x ∈ r.endpoints s → x.toRegistration = e.toRegistration →
      r.add s e = { r with generation := r.generation + 1 } := by
  refine ⟨fun s ↦ mem_services_update r ht.sorted, renewed_update h ht.sorted,
    ⟨fun cs ↦ rfl, fun s hs hstays ↦ ?_⟩, fun r' htable ↦ update_of_table_eq r ht ht rfl htable,
    fun registry services cs cs' r' hregistry htable ↦
      ⟨sync_of_table_eq r hregistry htable cs', fun e he ↦ ?_, fun s es hmem e he ↦ ?_⟩,
    fun s e x ↦ add_eq_self h⟩
  · rw [get?_cursors_update, if_neg fun hgone ↦ hgone.2 hstays]
  · exact r'.active_apply he (.sync registry services)
  · rcases registry.mem_gather hmem with hmem | ⟨-, -, hnew⟩
    · cases hmem
    · exact (hnew e he).2

/-- A table in which one endpoint stays, one goes and one is new. -/
theorem refreshed_partly :
    let a : Endpoint := { service := "s", id := "a", address := "h", port := 1, counter := 0 }
    let b : Endpoint := { service := "s", id := "b", address := "h", port := 2, counter := 1 }
    let c : Endpoint := { service := "s", id := "c", address := "h", port := 3, counter := 3 }
    let r : Router := { table := [("s", [a, b])] }
    let t : RoutingTable := [("s", [c, { b with counter := 2 }])]
    r.table.Distinct ∧ t.Distinct ∧ (r.update t).endpoints "s" = [c, b] ∧
      List.Forall₂ (Renewed [a, b]) [c, { b with counter := 2 }] [c, b] ∧
      ∀ r' : Router, r'.table = (r.update t).table →
        r'.update t = { r' with generation := r'.generation + 1 } := by
  intro a b c r t
  have h : r.table.Distinct := ⟨by decide, by simp [r, a, b]⟩
  have ht : t.Distinct := ⟨by decide, by simp [t, b, c]⟩
  obtain ⟨-, hrenewed, -, hagain, -⟩ := refreshed h ht
  exact ⟨h, ht, by decide, hrenewed "s", hagain⟩

end Interchange.Router
