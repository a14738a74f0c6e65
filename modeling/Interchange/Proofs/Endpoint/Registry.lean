import Interchange.Endpoint.Registry
import Interchange.Proofs.Dictionary

/-!
# Registries that come about

A registry changes by one registration at a time.  To register an id again takes the
earlier registration of this id away first, so no service ever has two of them, and a
registration is listed under the service that it names (`Registry.Reached.tidy`).
Whoever asks for a service gets an endpoint for each of its registrations, and each
time a new one (`Registry.discover_eq`).
-/

namespace Interchange

theorem Connections.count_append {cs : Connections} {id : CounterId} (h : id < cs.counts.length)
    (new : List UInt64) : Connections.count ⟨cs.counts ++ new⟩ id = cs.count id := by
  simp [count, List.getElem?_append_left h]

namespace Registry

variable {r r' : Registry} {x : Registration}

/-! ## What the registry hands out -/

theorem discover_fold (rs : List Registration) (cs : Connections) (es : List Endpoint) :
    ∃ new : List Endpoint,
      rs.foldl (fun (x : Connections × List Endpoint) e ↦
          ((x.1.register e 0).1, x.2 ++ [(x.1.register e 0).2])) (cs, es) =
        (⟨cs.counts ++ List.replicate rs.length 0⟩, es ++ new) ∧
      new.map Endpoint.toRegistration = rs ∧
      ∀ e ∈ new, ¬ cs.Knows e ∧ e.counter < cs.counts.length + rs.length := by
  induction rs generalizing cs es with
  | nil => exact ⟨[], by simp⟩
  | cons r rs ih =>
    obtain ⟨new, hfold, hmap, hcounter⟩ :=
      ih (cs.register r 0).1 (es ++ [(cs.register r 0).2])
    refine ⟨(cs.register r 0).2 :: new, ?_, by simp [hmap, Connections.register], ?_⟩
    · rw [List.foldl_cons, hfold]
      simp [Connections.register, List.replicate_succ]
    · intro e he
      rcases List.mem_cons.mp he with rfl | he
      · simp [Connections.register, Connections.Knows]
      · obtain ⟨hnew, hlt⟩ := hcounter e he
        have hlen : (cs.register r 0).1.counts.length = cs.counts.length + 1 := List.length_append
        refine ⟨fun hold ↦ hnew (Nat.lt_of_lt_of_le hold (by omega)), Nat.lt_of_lt_of_le hlt ?_⟩
        rw [List.length_cons]
        omega

/-- The endpoints of a service are new ones for its registrations, in their order. -/
theorem discover_eq (registry : Registry) (cs : Connections) (service : String) :
    ∃ es : List Endpoint,
      registry.discover cs service =
        (⟨cs.counts ++ List.replicate (registry.registrations service).length 0⟩, es) ∧
      es.map Endpoint.toRegistration = registry.registrations service ∧
      ∀ e ∈ es, ¬ cs.Knows e ∧
        e.counter < cs.counts.length + (registry.registrations service).length := by
  obtain ⟨es, hfold, hes⟩ := discover_fold (registry.registrations service) cs []
  exact ⟨es, hfold, hes⟩

/-! ## What is written to the registry -/

/-- The registrations of each service are its own, under ids of their own. -/
def Tidy (registry : Registry) : Prop :=
  ∀ s, (∀ x ∈ registry.registrations s, x.service = s) ∧
    ((registry.registrations s).map (·.id)).Nodup

/-- The registrations of each service after one was added. -/
theorem registrations_register (h : r.register x = .ok r') (s : String) :
    r'.registrations s =
      if s = x.service then (r.registrations s).filter (·.id ≠ x.id) ++ [x] else r.registrations s := by
  unfold register at h
  split at h
  · cases h
  · cases h
    by_cases hs : s = x.service
    · simp [registrations, hs]
    · simp [registrations, hs, Dictionary.get?_insert_of_ne hs]

/-- The registrations of each service after an id was removed. -/
theorem registrations_deregister (r : Registry) (service id s : String) :
    (r.deregister service id).1.registrations s =
      if s = service then (r.registrations s).filter (·.id ≠ id) else r.registrations s := by
  by_cases hs : s = service
  · subst hs
    rw [if_pos rfl]
    simp only [deregister]
    split
    · next hnone => rw [List.isEmpty_iff.mp hnone, registrations, Dictionary.get?_erase_self]; rfl
    · simp [registrations]
  · rw [if_neg hs]
    simp only [deregister]
    split
    · simp [registrations, Dictionary.get?_erase_of_ne hs]
    · simp [registrations, Dictionary.get?_insert_of_ne hs]

/-- The registries that there can be. -/
inductive Reached : Registry → Prop
  | new : Reached {}
  | registered {r r' : Registry} {x : Registration} : Reached r → r.register x = .ok r' → Reached r'
  | deregistered {r : Registry} (service id : String) : Reached r → Reached (r.deregister service id).1

theorem Tidy.register (h : r.Tidy) (hr : r.register x = .ok r') : r'.Tidy := by
  intro s
  rw [registrations_register hr]
  split
  · next hs =>
    refine ⟨fun y hy ↦ ?_, ?_⟩
    · rcases List.mem_append.mp hy with hy | hy
      · exact (h s).1 y (List.mem_of_mem_filter hy)
      · rw [List.mem_singleton.mp hy, hs]
    · rw [List.map_append]
      refine List.nodup_append.mpr ⟨(h s).2.sublist (List.filter_sublist.map _), by simp, ?_⟩
      -- What is left of the others goes by other ids.
      intro id hid id' hid' heq
      obtain ⟨y, hy, rfl⟩ := List.mem_map.mp hid
      rw [List.map_singleton, List.mem_singleton] at hid'
      exact of_decide_eq_true (List.mem_filter.mp hy).2 (heq.trans hid')
  · exact h s

theorem Tidy.deregister (h : r.Tidy) (service id : String) : (r.deregister service id).1.Tidy := by
  intro s
  rw [registrations_deregister]
  split
  · exact ⟨fun y hy ↦ (h s).1 y (List.mem_of_mem_filter hy), (h s).2.sublist (List.filter_sublist.map _)⟩
  · exact h s

theorem Reached.tidy (h : r.Reached) : r.Tidy := by
  induction h with
  | new => exact fun s ↦ ⟨nofun, List.nodup_nil⟩
  | registered _ hr ih => exact ih.register hr
  | deregistered service id _ ih => exact ih.deregister service id

end Registry

end Interchange
