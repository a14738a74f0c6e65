import Interchange.Proofs.Endpoint.Registry
import Interchange.Routing.Router
import Mathlib.Data.List.Nodup

/-!
# What is written to a routing table

A table is only ever changed by adding and removing endpoints, by replacing it as
a whole and by synchronising it with the registry.  This file says once which
entries each of these writes leaves in the table (`mem_table_add`,
`mem_table_remove`, `mem_table_update`; synchronising is replacing,
`sync_eq_update`), and derives from that what every write preserves:

* no service is listed without endpoints (`RoutingTable.Filled`);
* if each service is given endpoints under ids of their own, then it keeps such
  (`RoutingTable.Distinct`);
* if moreover they are endpoints of the service that they are given to, then they
  are kept so (`RoutingTable.Tidy`), and an endpoint is found by its service and
  its id alone (`Router.eq_of_service_of_id`);
* a table that has changed is of a new generation (`generation_apply`);
* an endpoint whose registration a write repeats stays in the table as the
  instance that it is (`mem_instances_apply_of_keeps`).
-/

namespace Interchange

/-- What can be written to a router. -/
inductive Change where
  | add (service : String) (e : Endpoint)
  | remove (service id : String)
  | update (table : RoutingTable)
  /-- Replace the table by what the registry lists for some services. -/
  | sync (registry : Registry) (services : List String)
  | registerRule (rule : Rule)
  | unregisterRule (name : String)

/-- What a change makes of a router. The registry hands out endpoints with counters of their own. -/
def Router.apply (r : Router) (cs : Connections) : Change → Router × Connections
  | .add service e => (r.add service e, cs)
  | .remove service id => ((r.remove service id).1, cs)
  | .update table => (r.update table, cs)
  | .sync registry services => r.sync registry cs services
  | .registerRule rule => (r.registerRule rule, cs)
  | .unregisterRule name => ((r.unregisterRule name).1, cs)

/-! ## What the registry hands out -/

namespace Registry

/-- The table of what the registry lists for some services, beside what was listed before. -/
def gather (registry : Registry) (services : List String) (x : RoutingTable × Connections) :
    RoutingTable × Connections :=
  services.foldl
    (fun (table, cs) service ↦
      let (cs, es) := registry.discover cs service
      (Dictionary.insert table service es, cs))
    x

@[simp] theorem gather_nil (registry : Registry) (x : RoutingTable × Connections) :
    registry.gather [] x = x := rfl

theorem gather_cons (registry : Registry) (service : String) (services : List String)
    (x : RoutingTable × Connections) :
    registry.gather (service :: services) x =
      registry.gather services
        (Dictionary.insert x.1 service (registry.discover x.2 service).2,
          (registry.discover x.2 service).1) := rfl

/-- How many endpoints are made for some services. -/
def extent (registry : Registry) (services : List String) : Nat :=
  (services.flatMap registry.registrations).length

/-- Gathering makes counters at zero, and changes none. -/
theorem counts_gather (registry : Registry) (services : List String)
    (x : RoutingTable × Connections) :
    (registry.gather services x).2.counts =
      x.2.counts ++ List.replicate (registry.extent services) 0 := by
  induction services generalizing x with
  | nil => simp [extent]
  | cons service services ih =>
    obtain ⟨es, heq, -⟩ := registry.discover_eq x.2 service
    rw [gather_cons, ih, heq]
    simp [extent, ← List.replicate_append_replicate]

theorem sorted_gather {registry : Registry} {services : List String}
    {x : RoutingTable × Connections} (h : Dictionary.Sorted x.1) :
    Dictionary.Sorted (registry.gather services x).1 := by
  induction services generalizing x with
  | nil => exact h
  | cons service services ih => exact ih (h.insert ..)

/-- What is gathered for a service are endpoints for its registrations, whose counters are new. -/
theorem mem_gather {registry : Registry} {services : List String}
    {x : RoutingTable × Connections} {s : String} {es : List Endpoint}
    (h : (s, es) ∈ (registry.gather services x).1) :
    (s, es) ∈ x.1 ∨
      s ∈ services ∧ es.map Endpoint.toRegistration = registry.registrations s ∧
        ∀ e ∈ es, (registry.gather services x).2.Knows e ∧ ¬ x.2.Knows e := by
  induction services generalizing x with
  | nil => exact .inl h
  | cons service services ih =>
    obtain ⟨new, heq, hmap, hcounter⟩ := registry.discover_eq x.2 service
    rw [gather_cons] at h ⊢
    rcases ih h with h' | ⟨hs, hmap', hknown⟩
    · rcases Dictionary.mem_insert h' with ⟨rfl, rfl⟩ | h'
      · refine .inr ⟨List.mem_cons_self, by rw [heq]; exact hmap, fun e he ↦ ?_⟩
        rw [heq] at he ⊢
        obtain ⟨hnew, hlt⟩ := hcounter e he
        refine ⟨Nat.lt_of_lt_of_le hlt ?_, hnew⟩
        simp only [counts_gather, List.length_append, List.length_replicate]
        omega
      · exact .inl h'
    · refine .inr ⟨List.mem_cons_of_mem _ hs, hmap', fun e he ↦ ⟨(hknown e he).1, fun hold ↦ ?_⟩⟩
      refine (hknown e he).2 (Nat.lt_of_lt_of_le hold ?_)
      rw [heq]
      simp

/-- Every service that is asked for is gathered. -/
theorem get?_gather (registry : Registry) {services : List String}
    {x : RoutingTable × Connections} {s : String}
    (hs : s ∈ services ∨
      ∃ es, x.1.get? s = some es ∧ es.map Endpoint.toRegistration = registry.registrations s) :
    ∃ es, (registry.gather services x).1.get? s = some es ∧
      es.map Endpoint.toRegistration = registry.registrations s := by
  induction services generalizing x with
  | nil => simpa using hs
  | cons service services ih =>
    obtain ⟨new, heq, hmap, -⟩ := registry.discover_eq x.2 service
    rw [gather_cons]
    apply ih
    by_cases hservice : s = service
    · subst hservice
      exact .inr ⟨new, by simp [heq], hmap⟩
    · rcases hs with hs | ⟨es, hes, hmap'⟩
      · exact .inl ((List.mem_cons.mp hs).resolve_left hservice)
      · exact .inr ⟨es, by rw [Dictionary.get?_insert_of_ne hservice, hes], hmap'⟩

end Registry

/-! ## What each write leaves in the table -/

namespace Router

variable {r : Router} {cs : Connections} {s service id : String} {e x : Endpoint}
  {es : List Endpoint} {t : RoutingTable}

theorem sync_eq_update (r : Router) (registry : Registry) (cs : Connections)
    (services : List String) :
    r.sync registry cs services =
      (r.update (registry.gather services ([], cs)).1, (registry.gather services ([], cs)).2) := rfl

theorem mem_instances : e ∈ r.instances ↔ ∃ s es, (s, es) ∈ r.table ∧ e ∈ es := by
  simp [instances]

theorem mem_table_of_mem_endpoints (h : e ∈ r.endpoints s) : ∃ es, (s, es) ∈ r.table ∧ e ∈ es := by
  rw [endpoints] at h
  cases hes : r.table.get? s with
  | none => simp [hes] at h
  | some es => exact ⟨es, Dictionary.mem_of_get?_eq_some hes, by simpa [hes] using h⟩

theorem mem_instances_of_mem_endpoints (h : e ∈ r.endpoints s) : e ∈ r.instances :=
  mem_instances.mpr ⟨s, mem_table_of_mem_endpoints h⟩

theorem mem_place (h : x ∈ place e es) : x = e ∨ x ∈ es := by
  induction es with
  | nil => simpa [place] using h
  | cons y es ih =>
    rw [place] at h
    split at h
    · split at h
      · exact .inr h
      · exact (List.mem_cons.mp h).imp_right (List.mem_cons_of_mem _)
    · rcases List.mem_cons.mp h with rfl | h
      · exact .inr List.mem_cons_self
      · exact (ih h).imp_right (List.mem_cons_of_mem _)

theorem place_ne_nil (e : Endpoint) (es : List Endpoint) : place e es ≠ [] := by
  cases es with
  | nil => simp [place]
  | cons y es =>
    rw [place]
    split <;> simp

theorem ids_place (e : Endpoint) (es : List Endpoint) :
    (place e es).map (·.id) =
      if e.id ∈ es.map (·.id) then es.map (·.id) else es.map (·.id) ++ [e.id] := by
  induction es with
  | nil => simp [place]
  | cons y es ih =>
    rw [place]
    by_cases hy : y.id = e.id
    · simp only [hy, if_true]
      split <;> simp [hy]
    · have hy' : ¬ e.id = y.id := Ne.symm hy
      simp only [hy, if_false, List.map_cons, ih, List.mem_cons, hy', false_or]
      split <;> simp

/-- Whatever is in the place of the new endpoint equals it, or goes. -/
theorem mem_place_of_mem (h : x ∈ es) (hx : x.id = e.id → x.equal e = true) : x ∈ place e es := by
  induction es with
  | nil => simp at h
  | cons y es ih =>
    rw [place]
    rcases List.mem_cons.mp h with rfl | h
    · split
      · next hy => simp [hx hy]
      · exact List.mem_cons_self
    · split
      · exact List.mem_cons_of_mem _ h
      · exact List.mem_cons_of_mem _ (ih h)

theorem retained_eq_or_mem (former : List Endpoint) (e : Endpoint) :
    retained former e = e ∨ retained former e ∈ former := by
  rw [retained]
  cases h : former.find? (·.equal e) with
  | none => exact .inl rfl
  | some x => exact .inr (List.mem_of_find?_eq_some h)

theorem toRegistration_retained (former : List Endpoint) (e : Endpoint) :
    (retained former e).toRegistration = e.toRegistration := by
  rw [retained]
  cases h : former.find? (·.equal e) with
  | none => rfl
  | some x => simpa [Endpoint.equal] using List.find?_some h

theorem mem_table_add (h : (s, es) ∈ (r.add service e).table) :
    s = service ∧ es = place e (r.endpoints service) ∨ (s, es) ∈ r.table :=
  Dictionary.mem_insert h

theorem mem_table_remove (h : (s, es) ∈ (r.remove service id).1.table) :
    (s = service ∧ es = (r.endpoints service).filter (·.id ≠ id) ∧ es ≠ []) ∨
      (s, es) ∈ r.table := by
  simp only [remove] at h
  split at h
  · exact .inr h
  · split at h
    · exact .inr (Dictionary.mem_erase.mp h).1
    · next hne =>
      rcases Dictionary.mem_insert h with ⟨rfl, rfl⟩ | h
      · exact .inl ⟨rfl, rfl, by simpa using hne⟩
      · exact .inr h

theorem mem_table_update (h : (s, es) ∈ (r.update t).table) :
    ∃ es₀, (s, es₀) ∈ t ∧ es₀ ≠ [] ∧ es = es₀.map (retained (r.endpoints s)) := by
  simp only [update, List.mem_map, List.mem_filter, Prod.mk.injEq, Prod.exists] at h
  obtain ⟨s', es₀, ⟨hmem, hne⟩, rfl, rfl⟩ := h
  exact ⟨es₀, hmem, by simpa using hne, rfl⟩

theorem get?_update (r : Router) (t : RoutingTable) (s : String) :
    (r.update t).table.get? s =
      (Dictionary.get? (t.filter fun s ↦ !s.2.isEmpty) s).map (·.map (retained (r.endpoints s))) :=
  Dictionary.get?_map ..

/-- Replacing the table gives each service what is listed for it, as far as it was there before. -/
theorem endpoints_update (r : Router) (h : Dictionary.Sorted t) (s : String) :
    (r.update t).endpoints s = ((t.get? s).getD []).map (retained (r.endpoints s)) := by
  rw [endpoints, get?_update, h.get?_filter]
  cases t.get? s with
  | none => rfl
  | some es => cases es <;> rfl

theorem mem_services_update (r : Router) (h : Dictionary.Sorted t) :
    s ∈ (r.update t).services ↔ ∃ es, t.get? s = some es ∧ es ≠ [] := by
  rw [services, Dictionary.mem_keys_iff, get?_update, h.get?_filter, Option.isSome_map]
  cases t.get? s with
  | none => simp
  | some es => cases es <;> simp

/-- Holds of a change that writes the table: a removal does so only if it finds something to remove. -/
def rewrites (r : Router) : Change → Bool
  | .add .. | .update _ | .sync .. => true
  | .remove service id => (r.remove service id).2
  | .registerRule _ | .unregisterRule _ => false

/-- Every write makes one generation, and whatever does not write leaves the table alone. -/
theorem generation_apply (r : Router) (cs : Connections) (c : Change) :
    (r.apply cs c).1.generation = r.generation + (if r.rewrites c then 1 else 0) ∧
      (r.rewrites c = false → (r.apply cs c).1.table = r.table) := by
  cases c with
  | add | update => simp [apply, rewrites]
  | sync => simp [apply, rewrites, sync_eq_update]
  | registerRule | unregisterRule => exact ⟨rfl, fun _ ↦ rfl⟩
  | remove service id =>
    simp only [apply, rewrites, remove]
    split
    · exact ⟨rfl, fun _ ↦ rfl⟩
    · split <;> simp

/-- A write that does not make a new generation leaves the table as it is. -/
theorem table_of_generation_eq (r : Router) (cs : Connections) (c : Change) :
    r.generation ≤ (r.apply cs c).1.generation ∧
      ((r.apply cs c).1.generation = r.generation → (r.apply cs c).1.table = r.table) := by
  obtain ⟨hgen, htable⟩ := r.generation_apply cs c
  refine ⟨by omega, fun heq ↦ htable ?_⟩
  by_contra hwrites
  simp [hgen, hwrites] at heq

end Router

/-! ## What every write preserves -/

namespace RoutingTable

/-- No service is listed without endpoints. -/
def Filled (t : RoutingTable) : Prop := ∀ s es, (s, es) ∈ t → es ≠ []

/-- The services stand in order, and the endpoints of each have ids of their own. -/
structure Distinct (t : RoutingTable) : Prop where
  sorted : Dictionary.Sorted t
  nodup {s : String} {es : List Endpoint} : (s, es) ∈ t → (es.map (·.id)).Nodup

/-- Endpoints of a service, and of no other, under ids of their own. -/
structure Apart (s : String) (es : List Endpoint) : Prop where
  service_eq {e : Endpoint} : e ∈ es → e.service = s
  nodup : (es.map (·.id)).Nodup

/-- The services stand in order, each with endpoints of its own, under ids of their own. -/
structure Tidy (t : RoutingTable) : Prop where
  sorted : Dictionary.Sorted t
  apart {s : String} {es : List Endpoint} : (s, es) ∈ t → Apart s es

theorem Tidy.distinct {t : RoutingTable} (h : t.Tidy) : t.Distinct :=
  ⟨h.sorted, fun hmem ↦ (h.apart hmem).nodup⟩

end RoutingTable

/-- An endpoint as there can be one: its counter exists, and its weight has 32 bits. -/
structure Endpoint.Real (cs : Connections) (e : Endpoint) : Prop where
  known : cs.Knows e
  weight_lt : e.weight < 2 ^ 32

instance (cs : Connections) (e : Endpoint) : Decidable (cs.Knows e) :=
  inferInstanceAs (Decidable (e.counter < cs.counts.length))

instance (cs : Connections) (e : Endpoint) : Decidable (e.Real cs) :=
  decidable_of_iff (cs.Knows e ∧ e.weight < 2 ^ 32) ⟨fun h ↦ ⟨h.1, h.2⟩, fun h ↦ ⟨h.1, h.2⟩⟩

theorem Endpoint.Real.mono {cs cs' : Connections} {e : Endpoint} (h : e.Real cs)
    (hle : cs.counts.length ≤ cs'.counts.length) : e.Real cs' :=
  ⟨Nat.lt_of_lt_of_le h.known hle, h.weight_lt⟩

namespace Change

/-- What is written keeps ids apart. -/
def Distinct : Change → Prop
  | .update table => table.Distinct
  | .sync registry _ => ∀ s, ((registry.registrations s).map (·.id)).Nodup
  | .add .. | .remove .. | .registerRule _ | .unregisterRule _ => True

/-- What is written keeps services and ids apart. -/
def Tidy : Change → Prop
  | .add service e => e.service = service
  | .update table => table.Tidy
  | .sync registry _ => registry.Tidy
  | .remove .. | .registerRule _ | .unregisterRule _ => True

/-- What is written are endpoints as there can be. -/
def Real (cs : Connections) : Change → Prop
  | .add _ e => e.Real cs
  | .update table => ∀ s es, (s, es) ∈ table → ∀ e ∈ es, e.Real cs
  | .sync registry services =>
    ∀ s ∈ services, ∀ x ∈ registry.registrations s, x.weight < 2 ^ 32
  | .remove .. | .registerRule _ | .unregisterRule _ => True

/-- The change does not take away the registration of this endpoint. -/
def Keeps (e : Endpoint) : Change → Prop
  | .add service x =>
    service = e.service → x.id = e.id → x.toRegistration = e.toRegistration
  | .remove service id => ¬ (service = e.service ∧ id = e.id)
  | .update table =>
    ∃ es, (e.service, es) ∈ table ∧ ∃ x ∈ es, x.toRegistration = e.toRegistration
  | .sync registry services =>
    e.service ∈ services ∧ e.toRegistration ∈ registry.registrations e.service
  | .registerRule _ | .unregisterRule _ => True

/-- How many counters a change makes. -/
def extent : Change → Nat
  | .sync registry services => registry.extent services
  | .add .. | .remove .. | .update _ | .registerRule _ | .unregisterRule _ => 0

end Change

namespace Router

variable {r : Router} {cs : Connections} {c : Change} {e x : Endpoint} {s : String} {es : List Endpoint}
  {t : RoutingTable}

/-- New counters count nothing yet, and the others count on. -/
theorem counts_apply (r : Router) (cs : Connections) (c : Change) :
    (r.apply cs c).2.counts = cs.counts ++ List.replicate c.extent 0 := by
  cases c with
  | sync registry services => exact registry.counts_gather services ([], cs)
  | add | remove | update | registerRule | unregisterRule => simp [apply, Change.extent]

theorem length_counts_le_apply (r : Router) (cs : Connections) (c : Change) :
    cs.counts.length ≤ (r.apply cs c).2.counts.length := by
  simp [counts_apply]

/-- No write opens or closes a connection. -/
theorem active_apply (r : Router) {cs : Connections} (h : cs.Knows e) (c : Change) :
    (r.apply cs c).2.active e = cs.active e := by
  have hcounts : (r.apply cs c).2 = ⟨cs.counts ++ List.replicate c.extent 0⟩ :=
    congrArg Connections.mk (r.counts_apply cs c)
  rw [hcounts]
  exact Connections.count_append h _

theorem filled_update (r : Router) (t : RoutingTable) : (r.update t).table.Filled := by
  intro s es hmem
  obtain ⟨es₀, -, hne, rfl⟩ := mem_table_update hmem
  simpa using hne

theorem filled_apply (h : r.table.Filled) (cs : Connections) (c : Change) :
    (r.apply cs c).1.table.Filled := by
  cases c with
  | update t => exact r.filled_update t
  | sync registry services => exact r.filled_update _
  | registerRule | unregisterRule => exact h
  | add service e =>
    intro s es hmem
    rcases mem_table_add hmem with ⟨-, rfl⟩ | hmem
    · exact place_ne_nil e _
    · exact h s es hmem
  | remove service id =>
    intro s es hmem
    rcases mem_table_remove hmem with ⟨-, -, hne⟩ | hmem
    · exact hne
    · exact h s es hmem

/-! ## Ids that are kept apart -/

theorem nodup_place (h : (es.map (·.id)).Nodup) (e : Endpoint) : ((place e es).map (·.id)).Nodup := by
  rw [ids_place]
  split
  · exact h
  · next hid => exact List.nodup_append.mpr ⟨h, by simp, by simpa using fun x hx ↦ by grind⟩

theorem nodup_endpoints (h : r.table.Distinct) (s : String) : ((r.endpoints s).map (·.id)).Nodup := by
  rw [endpoints]
  cases hes : r.table.get? s with
  | none => exact .nil
  | some es => exact h.nodup (Dictionary.mem_of_get?_eq_some hes)

theorem distinct_gather {registry : Registry} (h : ∀ s, ((registry.registrations s).map (·.id)).Nodup)
    (cs : Connections) (services : List String) :
    RoutingTable.Distinct (registry.gather services ([], cs)).1 := by
  refine ⟨registry.sorted_gather .nil, fun {s es} hmem ↦ ?_⟩
  obtain hmem | ⟨-, hmap, -⟩ := registry.mem_gather hmem
  · simp at hmem
  · have := h s
    rwa [← hmap, List.map_map] at this

theorem distinct_update (r : Router) (h : t.Distinct) : (r.update t).table.Distinct := by
  refine ⟨h.sorted.map_filter .., fun {s es} hmem ↦ ?_⟩
  obtain ⟨es₀, hmem₀, -, rfl⟩ := mem_table_update hmem
  have hid : (es₀.map (retained (r.endpoints s))).map (·.id) = es₀.map (·.id) := by
    simp [toRegistration_retained]
  exact hid ▸ h.nodup hmem₀

theorem sorted_remove (h : Dictionary.Sorted r.table) (service id : String) :
    Dictionary.Sorted (r.remove service id).1.table := by
  simp only [remove]
  split
  · exact h
  · split
    · exact h.erase service
    · exact h.insert ..

theorem distinct_apply (h : r.table.Distinct) (cs : Connections) (hc : c.Distinct) :
    (r.apply cs c).1.table.Distinct := by
  cases c with
  | update t => exact distinct_update r hc
  | sync registry services => exact distinct_update r (distinct_gather hc cs services)
  | registerRule | unregisterRule => exact h
  | add service e =>
    refine ⟨h.sorted.insert .., fun {s es} hmem ↦ ?_⟩
    rcases mem_table_add hmem with ⟨rfl, rfl⟩ | hmem
    · exact nodup_place (nodup_endpoints h s) e
    · exact h.nodup hmem
  | remove service id =>
    refine ⟨sorted_remove h.sorted service id, fun {s es} hmem ↦ ?_⟩
    rcases mem_table_remove hmem with ⟨rfl, rfl, -⟩ | hmem
    · exact (nodup_endpoints h s).sublist (List.filter_sublist.map _)
    · exact h.nodup hmem

theorem Change.Tidy.distinct (hc : c.Tidy) : c.Distinct := by
  cases c with
  | update t => exact RoutingTable.Tidy.distinct hc
  | sync registry services => exact fun s ↦ (hc s).2
  | add | remove | registerRule | unregisterRule => trivial

/-- An id tells an endpoint from the others of its service. -/
theorem eq_of_id (h : (es.map (·.id)).Nodup) (he : e ∈ es) (hx : x ∈ es) (hid : e.id = x.id) : e = x :=
  List.inj_on_of_nodup_map h he hx hid

/-! ## Services that are kept apart -/

theorem service_eq_of_mem_endpoints (h : r.table.Tidy) (he : e ∈ r.endpoints s) : e.service = s := by
  obtain ⟨es, hes, he⟩ := mem_table_of_mem_endpoints he
  exact (h.apart hes).service_eq he

theorem service_eq_of_update (r : Router) (h : t.Tidy) (hes : (s, es) ∈ (r.update t).table) (he : e ∈ es) :
    e.service = s := by
  obtain ⟨es₀, hes₀, -, rfl⟩ := mem_table_update hes
  obtain ⟨x, hx, rfl⟩ := List.mem_map.mp he
  rw [toRegistration_retained]
  exact (h.apart hes₀).service_eq hx

theorem tidy_gather {registry : Registry} (h : registry.Tidy) (cs : Connections)
    (services : List String) : RoutingTable.Tidy (registry.gather services ([], cs)).1 := by
  have hdistinct := distinct_gather (fun s ↦ (h s).2) cs services
  refine ⟨hdistinct.sorted, fun {s es} hmem ↦ ⟨fun he ↦ ?_, hdistinct.nodup hmem⟩⟩
  obtain hmem | ⟨-, hmap, -⟩ := registry.mem_gather hmem
  · simp at hmem
  · exact (h s).1 _ (hmap ▸ List.mem_map_of_mem he)

theorem tidy_apply (h : r.table.Tidy) (cs : Connections) (hc : c.Tidy) :
    (r.apply cs c).1.table.Tidy := by
  have hdistinct := distinct_apply h.distinct cs (Change.Tidy.distinct hc)
  refine ⟨hdistinct.sorted, fun {s es} hes ↦ ⟨fun {e} he ↦ ?_, hdistinct.nodup hes⟩⟩
  cases c with
  | update t => exact service_eq_of_update r hc hes he
  | sync registry services => exact service_eq_of_update r (tidy_gather hc cs services) hes he
  | registerRule | unregisterRule => exact (h.apart hes).service_eq he
  | add service x =>
    rcases mem_table_add hes with ⟨rfl, rfl⟩ | hes
    · rcases mem_place he with rfl | he
      · exact hc
      · exact service_eq_of_mem_endpoints h he
    · exact (h.apart hes).service_eq he
  | remove service id =>
    rcases mem_table_remove hes with ⟨rfl, rfl, -⟩ | hes
    · exact service_eq_of_mem_endpoints h (List.mem_of_mem_filter he)
    · exact (h.apart hes).service_eq he

/-- In a tidy table the endpoints of a service are what its entry lists. -/
theorem endpoints_eq (h : Dictionary.Sorted r.table) {s : String} {es : List Endpoint}
    (hes : (s, es) ∈ r.table) : r.endpoints s = es := by
  rw [endpoints, h.get?_eq_some_iff.mpr hes]
  rfl

theorem mem_instances_iff (h : r.table.Tidy) :
    e ∈ r.instances ↔ e ∈ r.endpoints e.service := by
  refine ⟨fun he ↦ ?_, mem_instances_of_mem_endpoints⟩
  obtain ⟨s, es, hes, he⟩ := mem_instances.mp he
  rwa [(h.apart hes).service_eq he, endpoints_eq h.sorted hes]

/-- In a tidy table service and id tell an endpoint. -/
theorem eq_of_service_of_id (h : r.table.Tidy) (he : e ∈ r.instances) (hx : x ∈ r.instances)
    (hservice : e.service = x.service) (hid : e.id = x.id) : e = x := by
  rw [mem_instances_iff h] at he hx
  exact eq_of_id (nodup_endpoints h.distinct x.service) (hservice ▸ he) hx hid

/-! ## Endpoints whose counters exist -/

/-- An endpoint in a table that was replaced was there before or is in the new table. -/
theorem mem_instances_update {t : RoutingTable} (he : e ∈ (r.update t).instances) :
    e ∈ r.instances ∨ ∃ s es, (s, es) ∈ t ∧ e ∈ es := by
  obtain ⟨s, es, hes, he⟩ := mem_instances.mp he
  obtain ⟨es₀, hes₀, -, rfl⟩ := mem_table_update hes
  obtain ⟨x, hx, rfl⟩ := List.mem_map.mp he
  rcases retained_eq_or_mem (r.endpoints s) x with hretained | hformer
  · exact .inr ⟨s, es₀, hes₀, by rwa [hretained]⟩
  · exact .inl (mem_instances_of_mem_endpoints hformer)

theorem real_apply (h : ∀ e ∈ r.instances, e.Real cs) (hc : c.Real cs) :
    ∀ e ∈ (r.apply cs c).1.instances, e.Real (r.apply cs c).2 := by
  intro e he
  cases c with
  | registerRule | unregisterRule => exact h e he
  | add service x =>
    obtain ⟨s, es, hes, he⟩ := mem_instances.mp he
    rcases mem_table_add hes with ⟨rfl, rfl⟩ | hes
    · rcases mem_place he with rfl | he
      · exact hc
      · exact h e (mem_instances_of_mem_endpoints he)
    · exact h e (mem_instances.mpr ⟨s, es, hes, he⟩)
  | remove service id =>
    obtain ⟨s, es, hes, he⟩ := mem_instances.mp he
    rcases mem_table_remove hes with ⟨rfl, rfl, -⟩ | hes
    · exact h e (mem_instances_of_mem_endpoints (List.mem_of_mem_filter he))
    · exact h e (mem_instances.mpr ⟨s, es, hes, he⟩)
  | update t =>
    rcases mem_instances_update he with he | ⟨s, es, hes, he⟩
    · exact h e he
    · exact hc s es hes e he
  | sync registry services =>
    rcases mem_instances_update he with he | ⟨s, es, hes, he⟩
    · exact (h e he).mono (length_counts_le_apply r cs (.sync registry services))
    · obtain hes | ⟨hs, hmap, hknown⟩ := registry.mem_gather hes
      · simp at hes
      · exact ⟨(hknown e he).1, hc s hs e.toRegistration (hmap ▸ List.mem_map_of_mem he)⟩

/-! ## Endpoints whose registration is repeated -/

/-- An endpoint stays when its registration comes again. -/
theorem retained_eq_self (h : (es.map (·.id)).Nodup) (he : e ∈ es)
    (hx : x.toRegistration = e.toRegistration) : retained es x = e := by
  have hfind : (es.find? (·.equal x)).isSome := by
    refine List.find?_isSome.mpr ⟨e, he, ?_⟩
    simp [Endpoint.equal, hx]
  obtain ⟨y, hy⟩ := Option.isSome_iff_exists.mp hfind
  have hreg : y.toRegistration = e.toRegistration := by
    rw [← hx]
    simpa [Endpoint.equal] using List.find?_some hy
  rw [retained, hy, Option.getD_some]
  exact eq_of_id h (List.mem_of_find?_eq_some hy) he (congrArg Registration.id hreg)

theorem mem_instances_update_of_mem (h : r.table.Tidy) {t : RoutingTable} {es : List Endpoint}
    (he : e ∈ r.instances) (hes : (e.service, es) ∈ t) (hx : x ∈ es)
    (hreg : x.toRegistration = e.toRegistration) : e ∈ (r.update t).instances := by
  have hne : es ≠ [] := List.ne_nil_of_mem hx
  refine mem_instances.mpr ⟨e.service, es.map (retained (r.endpoints e.service)), ?_, ?_⟩
  · simp only [update, List.mem_map, List.mem_filter]
    exact ⟨_, ⟨hes, by simpa using hne⟩, rfl⟩
  · refine List.mem_map.mpr ⟨x, hx, ?_⟩
    exact retained_eq_self (nodup_endpoints h.distinct e.service) ((mem_instances_iff h).mp he) hreg

theorem endpoints_remove_self (r : Router) (service id : String) :
    (r.remove service id).1.endpoints service = (r.endpoints service).filter (·.id ≠ id) := by
  simp only [remove]
  split
  · next hlen => exact (List.filter_eq_self.mpr (List.length_filter_eq_length_iff.mp hlen)).symm
  · split
    · next hnone =>
      rw [List.isEmpty_iff.mp hnone, endpoints, Dictionary.get?_erase_self]
      rfl
    · simp [endpoints]

theorem get?_remove_of_ne {service other : String} (h : other ≠ service) (r : Router) (id : String) :
    (r.remove service id).1.table.get? other = r.table.get? other := by
  simp only [remove]
  split
  · rfl
  · split
    · exact Dictionary.get?_erase_of_ne h _
    · exact Dictionary.get?_insert_of_ne h ..

theorem endpoints_remove_of_ne {service other : String} (h : other ≠ service) (r : Router)
    (id : String) : (r.remove service id).1.endpoints other = r.endpoints other := by
  rw [endpoints, endpoints, get?_remove_of_ne h]

/-- What is written for other services, or for other ids, changes nothing for an endpoint. -/
theorem mem_instances_apply_of_keeps (h : r.table.Tidy) (he : e ∈ r.instances) (cs : Connections)
    (hkeeps : c.Keeps e) : e ∈ (r.apply cs c).1.instances := by
  have hhere := (mem_instances_iff h).mp he
  cases c with
  | registerRule | unregisterRule => exact he
  | add service x =>
    refine mem_instances_of_mem_endpoints (s := e.service) ?_
    by_cases hservice : e.service = service
    · rw [apply, ← hservice, endpoints_add_self]
      refine mem_place_of_mem hhere fun hid ↦ ?_
      simp [Endpoint.equal, hkeeps hservice.symm hid.symm]
    · rwa [apply, endpoints_add_of_ne hservice]
  | remove service id =>
    refine mem_instances_of_mem_endpoints (s := e.service) ?_
    by_cases hservice : e.service = service
    · rw [apply, ← hservice, endpoints_remove_self]
      have hid : e.id ≠ id := fun hid ↦ hkeeps ⟨hservice.symm, hid.symm⟩
      exact List.mem_filter.mpr ⟨hhere, by simpa using hid⟩
    · rwa [apply, endpoints_remove_of_ne hservice]
  | update t =>
    obtain ⟨es, hes, x, hx, hreg⟩ := hkeeps
    exact mem_instances_update_of_mem h he hes hx hreg
  | sync registry services =>
    obtain ⟨hs, hreg⟩ := hkeeps
    obtain ⟨es, hes, hmap⟩ := registry.get?_gather (x := ([], cs)) (.inl hs)
    rw [← hmap] at hreg
    obtain ⟨x, hx, hreg⟩ := List.mem_map.mp hreg
    exact mem_instances_update_of_mem h he (Dictionary.mem_of_get?_eq_some hes) hx hreg

end Router

end Interchange
