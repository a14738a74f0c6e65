import Interchange.Proofs.Routing.Run
import Mathlib.Logic.Function.Basic

/-!
# The table as a catalogue

A catalogue tells of every service what is registered for it, in order and under
which id, and nothing of how it is stored.  Its operations are what the writes to a
routing table ought to do.  They look for an id the other way round than the
router: to add, every entry of the id is replaced where the router replaces the
first one; to remove, the first entry of the id is dropped where the router drops
them all.  This comes to the same as long as no list repeats an id, which is what
every write preserves (`Router.distinct_run`), so the table shows in every run the
catalogue that the same operations make (`ofTable_run`).
-/

namespace Interchange

/-- What is registered for each service, with the ids. -/
abbrev Catalogue := String → List (String × Registration)

namespace Catalogue

/-- Endpoints as they are listed in a catalogue. -/
def entries (es : List Endpoint) : List (String × Registration) :=
  es.map fun e ↦ (e.id, e.toRegistration)

/-- What a table lists. -/
def ofTable (t : RoutingTable) : Catalogue := fun s ↦ entries ((Dictionary.get? t s).getD [])

/-- What a registry lists for some services. -/
def ofRegistry (registry : Registry) (services : List String) : Catalogue := fun s ↦
  if s ∈ services then (registry.registrations s).map fun x ↦ (x.id, x) else []

/-- Put a registration in the place of what goes by its id, or at the end. -/
def put (x : Registration) (l : List (String × Registration)) : List (String × Registration) :=
  if x.id ∈ l.map Prod.fst then l.map fun y ↦ if y.1 = x.id then (x.id, x) else y
  else l ++ [(x.id, x)]

/-- What becomes of a catalogue. -/
def step (k : Catalogue) : Router.Event → Catalogue
  | .change _ (.add service e) => Function.update k service (put e.toRegistration (k service))
  | .change _ (.remove service id) => Function.update k service ((k service).eraseP (·.1 = id))
  | .change _ (.update t) => ofTable t
  | .change _ (.sync registry services) => ofRegistry registry services
  | .change _ (.registerRule _) | .change _ (.unregisterRule _) | .route .. => k

/-- The catalogue that a list of events makes. -/
def run (xs : List Router.Event) : Catalogue := xs.foldl step fun _ ↦ []

end Catalogue

namespace Router

variable {r : Router} {x : Endpoint} {xs : List Event} {e : Endpoint} {es es' : List Endpoint}
  {s service id : String} {t : RoutingTable}

open Catalogue

/-! ## Putting an endpoint in its place -/

/-- The first id of a list that repeats none is not that of another. -/
theorem id_ne_of_mem (h : ((e :: es).map (·.id)).Nodup) (hx : x ∈ es) : x.id ≠ e.id := fun heq ↦
  (List.nodup_cons.mp h).1 (List.mem_map.mpr ⟨x, hx, heq⟩)

theorem place_of_mem (h : ((es ++ x :: es').map (·.id)).Nodup) (hid : x.id = e.id) :
    place e (es ++ x :: es') = es ++ (if x.equal e then x else e) :: es' := by
  induction es with
  | nil => simp [place, hid]
  | cons y es ih =>
    -- Whatever stands before has another id, so the search passes it.
    have hne : y.id ≠ e.id := fun hy ↦ id_ne_of_mem h (by simp) (hid.trans hy.symm)
    rw [List.cons_append, place, if_neg hne, ih (List.nodup_cons.mp h).2, List.cons_append]

theorem place_of_notMem (h : e.id ∉ es.map (·.id)) : place e es = es ++ [e] := by
  induction es with
  | nil => rfl
  | cons y es ih =>
    rw [List.map_cons, List.mem_cons, not_or] at h
    rw [place, if_neg (Ne.symm h.1), ih h.2, List.cons_append]

/-- Where no id is repeated, the entries of an id are one. -/
theorem entries_place_of_mem (h : (es.map (·.id)).Nodup) (hmem : e.id ∈ es.map (·.id)) :
    entries (place e es) =
      (entries es).map fun y ↦ if y.1 = e.id then (e.id, e.toRegistration) else y := by
  induction es with
  | nil => simp at hmem
  | cons y es ih =>
    by_cases hy : y.id = e.id
    · have hkept : (if y.equal e then y else e).toRegistration = e.toRegistration := by
        split
        · next heq => exact of_decide_eq_true heq
        · rfl
      have hothers : ∀ x ∈ es, x.id ≠ e.id := fun x hx ↦ hy ▸ id_ne_of_mem h hx
      have hrest : (entries es).map (fun y ↦ if y.1 = e.id then (e.id, e.toRegistration) else y) =
          entries es := by
        rw [entries, List.map_map]
        exact List.map_congr_left fun x hx ↦ if_neg (hothers x hx)
      rw [place, if_pos hy]
      simp only [entries, List.map_cons, hkept, hy, if_true]
      exact congrArg _ hrest.symm
    · rw [place, if_neg hy]
      simp only [entries, List.map_cons, hy, if_false]
      have : e.id ∈ es.map (·.id) := (List.mem_cons.mp hmem).resolve_left (Ne.symm hy)
      exact congrArg _ (ih (List.nodup_cons.mp h).2 this)

theorem entries_place (h : (es.map (·.id)).Nodup) (e : Endpoint) :
    entries (place e es) = put e.toRegistration (entries es) := by
  have hids : (entries es).map Prod.fst = es.map (·.id) := by simp [entries]
  rw [put, hids]
  split
  · next hmem => exact entries_place_of_mem h hmem
  · next hmem =>
    rw [place_of_notMem hmem]
    simp [entries]

/-! ## Taking an id away -/

theorem filter_eq_eraseP (h : (es.map (·.id)).Nodup) (id : String) :
    es.filter (·.id ≠ id) = es.eraseP (·.id = id) := by
  induction es with
  | nil => rfl
  | cons y es ih =>
    by_cases hy : y.id = id
    · have hothers : ∀ x ∈ es, x.id ≠ id := fun x hx ↦ hy ▸ id_ne_of_mem h hx
      simpa [hy] using hothers
    · simpa [hy] using ih (List.nodup_cons.mp h).2

/-- Removing tells whether there was something to remove. -/
theorem remove_snd_iff : (r.remove service id).2 = true ↔ id ∈ (r.endpoints service).map (·.id) := by
  have hlen : ((r.endpoints service).filter (·.id ≠ id)).length = (r.endpoints service).length ↔
      id ∉ (r.endpoints service).map (·.id) := by
    rw [List.length_filter_eq_length_iff]
    simp
  simp only [remove, hlen]
  split
  · next hnot => simpa using hnot
  · next hmem => split <;> simpa using hmem

/-! ## The catalogue of a run -/

theorem ofTable_apply (r : Router) (s : String) : ofTable r.table s = entries (r.endpoints s) := rfl

theorem ofTable_add (h : r.table.Distinct) (service : String) (e : Endpoint) :
    ofTable (r.add service e).table =
      Function.update (ofTable r.table) service (put e.toRegistration (ofTable r.table service)) := by
  funext s
  by_cases hs : s = service
  · subst hs
    rw [Function.update_self, ofTable_apply, endpoints_add_self, entries_place (nodup_endpoints h s)]
    rfl
  · rw [Function.update_of_ne hs, ofTable_apply, endpoints_add_of_ne hs]
    rfl

theorem ofTable_remove (h : r.table.Distinct) (service id : String) :
    ofTable (r.remove service id).1.table =
      Function.update (ofTable r.table) service ((ofTable r.table service).eraseP (·.1 = id)) := by
  funext s
  by_cases hs : s = service
  · subst hs
    rw [Function.update_self, ofTable_apply, endpoints_remove_self,
      filter_eq_eraseP (nodup_endpoints h s), ofTable_apply, entries, entries, List.eraseP_map]
    rfl
  · rw [Function.update_of_ne hs, ofTable_apply, endpoints_remove_of_ne hs]
    rfl

theorem ofTable_update (r : Router) (h : t.Distinct) : ofTable (r.update t).table = ofTable t := by
  funext s
  rw [ofTable_apply, endpoints_update r h.sorted, ofTable, entries, entries, List.map_map]
  refine List.map_congr_left fun e _ ↦ ?_
  simp only [Function.comp_apply, toRegistration_retained]

theorem ofTable_gather (registry : Registry) (cs : Connections) (services : List String) :
    ofTable (registry.gather services ([], cs)).1 = ofRegistry registry services := by
  funext s
  rw [ofTable, ofRegistry]
  split
  · next hs =>
    obtain ⟨es, hes, hmap⟩ := registry.get?_gather (x := ([], cs)) (.inl hs)
    rw [hes, ← hmap, List.map_map]
    rfl
  · next hs =>
    have hnone : Dictionary.get? (registry.gather services ([], cs)).1 s = none := by
      by_contra hsome
      obtain ⟨es, hes⟩ := Option.ne_none_iff_exists'.mp hsome
      rcases registry.mem_gather (Dictionary.mem_of_get?_eq_some hes) with hmem | ⟨hmem, -⟩
      · cases hmem
      · exact hs hmem
    rw [hnone]
    rfl

/-- What an event writes to the table, it writes to the catalogue. -/
theorem ofTable_step (h : r.table.Distinct) {x : Event} (hx : x.Distinct) :
    ofTable (r.step x).table = (ofTable r.table).step x := by
  cases x with
  | route cs draw c =>
    have := (r.generation_step (.route cs draw c)).2 rfl
    rw [this]
    rfl
  | change cs c =>
    cases c with
    | add service e => exact ofTable_add h service e
    | remove service id => exact ofTable_remove h service id
    | update t => exact ofTable_update r hx
    | sync registry services =>
      exact (ofTable_update r (distinct_gather hx cs services)).trans (ofTable_gather registry cs services)
    | registerRule | unregisterRule => rfl

theorem ofTable_run (h : r.table.Distinct) (hxs : ∀ x ∈ xs, x.Distinct) :
    ofTable (r.run xs).table = xs.foldl Catalogue.step (ofTable r.table) := by
  induction xs generalizing r with
  | nil => rfl
  | cons x xs ih =>
    obtain ⟨hx, hxs⟩ := List.forall_mem_cons.mp hxs
    rw [run_cons, ih (distinct_step h hx) hxs, ofTable_step h hx, List.foldl_cons]

/-- A registry that there can be does not repeat an id. -/
theorem Event.distinct_sync {registry : Registry} (h : registry.Reached) (cs : Connections)
    (services : List String) : (Event.change cs (.sync registry services)).Distinct :=
  fun s ↦ (h.tidy s).2

/-- The table of a new router after any run, as far as no replacement of it repeats an id:

* no service is listed without endpoints, and no list repeats an id;
* to add an endpoint replaces the one with its id in place, unless they are equal, or else appends it,
  and leaves all other endpoints and services alone;
* to remove an id tells whether it was there, takes away exactly its endpoint, keeps the order of the
  others, and leaves other services alone;
* the table lists what the catalogue does after the same operations;
* the generation grows by one if the event adds an endpoint, replaces the table or removes something,
  and otherwise it does not change; so a run that ends in the generation in which it began, and be it
  only in the same 64 bits as long as it writes less than 2⁶⁴ times, ends with the table with which it
  began. -/
theorem catalogued (balancer : Balancer) {xs : List Event} (h : ∀ x ∈ xs, x.Distinct) :
    let r := ({ balancer } : Router).run xs
    (r.table.Filled ∧ r.table.Distinct) ∧
    (∀ s e,
      (∀ es x es', r.endpoints s = es ++ x :: es' → x.id = e.id →
        (r.add s e).endpoints s = es ++ (if x.equal e then x else e) :: es') ∧
      (e.id ∉ (r.endpoints s).map (·.id) → (r.add s e).endpoints s = r.endpoints s ++ [e]) ∧
      ∀ other ≠ s, (r.add s e).endpoints other = r.endpoints other) ∧
    (∀ s id,
      ((r.remove s id).2 = true ↔ id ∈ (r.endpoints s).map (·.id)) ∧
      (r.remove s id).1.endpoints s = (r.endpoints s).eraseP (·.id = id) ∧
      ∀ other ≠ s, (r.remove s id).1.endpoints other = r.endpoints other) ∧
    (Catalogue.ofTable r.table = Catalogue.run xs ∧
      ∀ s, s ∈ r.services ↔ Catalogue.run xs s ≠ []) ∧
    (∀ x : Event, (r.step x).generation = r.generation + if r.writes x then 1 else 0) ∧
    (∀ ys, (r.run ys).generation = r.generation → (r.run ys).table = r.table) ∧
    ∀ ys, UInt64.ofNat (r.run ys).generation = UInt64.ofNat r.generation → r.written ys < 2 ^ 64 →
      (r.run ys).table = r.table := by
  intro r
  have hnew : ({ balancer } : Router).table.Distinct := ⟨.nil, by simp⟩
  have hfilled : r.table.Filled := filled_run (by simp [RoutingTable.Filled]) xs
  have hdistinct : r.table.Distinct := distinct_run hnew h
  have hshown : Catalogue.ofTable r.table = Catalogue.run xs := ofTable_run hnew h
  refine ⟨⟨hfilled, hdistinct⟩, fun s e ↦ ⟨?_, ?_, ?_⟩, fun s id ↦ ⟨remove_snd_iff, ?_, ?_⟩,
    ⟨hshown, fun s ↦ ?_⟩, fun x ↦ (r.generation_step x).1, fun ys hgen ↦ ?_, fun ys hgen hlt ↦ ?_⟩
  · intro es x es' hes hid
    rw [endpoints_add_self, hes]
    exact place_of_mem (hes ▸ nodup_endpoints hdistinct s) hid
  · intro hid
    rw [endpoints_add_self, place_of_notMem hid]
  · exact fun other hother ↦ endpoints_add_of_ne hother r e
  · rw [endpoints_remove_self, filter_eq_eraseP (nodup_endpoints hdistinct s)]
  · exact fun other hother ↦ endpoints_remove_of_ne hother r id
  · rw [mem_services_iff hfilled, ← hshown, ofTable_apply, entries, ne_eq, ne_eq, List.map_eq_nil_iff]
  · rw [generation_run] at hgen
    exact table_run_of_written (by omega)
  · have heq := congrArg UInt64.toNat hgen
    rw [generation_run, UInt64.toNat_ofNat', UInt64.toNat_ofNat'] at heq
    exact table_run_of_written (by omega)

/-- A service whose table comes from a registry, and from which an endpoint is then removed. -/
theorem catalogued_after_removal :
    let a : Registration := { service := "s", id := "a", address := "h", port := 1 }
    let b : Registration := { service := "s", id := "b", address := "h", port := 2 }
    let cs : Connections := {}
    let registry : Registry := ⟨[("s", [a, b])]⟩
    let xs := [.change cs (.sync registry ["s"]), .change cs (.add "s" { a with port := 3, counter := 7 })]
    let r := ({ balancer := { strategy := .random } } : Router).run xs
    (∀ x ∈ xs, x.Distinct) ∧ registry.Reached ∧
      Catalogue.ofTable r.table = Catalogue.run xs ∧
      Catalogue.run xs "s" = [("a", { a with port := 3 }), ("b", b)] ∧
      ((r.remove "s" "a").2 = true ↔ "a" ∈ (r.endpoints "s").map (·.id)) ∧
      (r.remove "s" "a").1.endpoints "s" = (r.endpoints "s").eraseP (·.id = "a") := by
  intro a b cs registry xs r
  have hregistry : registry.Reached := by
    have ha : Registry.Reached ⟨[("s", [a])]⟩ := .registered .new (x := a) rfl
    exact .registered ha (x := b) rfl
  have hxs : ∀ x ∈ xs, x.Distinct :=
    List.forall_mem_cons.mpr ⟨Event.distinct_sync hregistry cs ["s"],
      List.forall_mem_cons.mpr ⟨trivial, nofun⟩⟩
  obtain ⟨-, -, hremove, ⟨hshown, -⟩, -⟩ := catalogued { strategy := .random } hxs
  exact ⟨hxs, hregistry, hshown, by decide, (hremove "s" "a").1, (hremove "s" "a").2.1⟩

end Router

end Interchange
