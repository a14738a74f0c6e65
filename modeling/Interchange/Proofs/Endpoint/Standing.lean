import Interchange.Proofs.Endpoint.Registry
import Mathlib.Data.List.Induction
import Mathlib.Data.List.Nodup

/-!
# Which registrations stand

A registry is a map from services to lists, and every event rewrites one of the
lists.  What it comes to can be said without the map: under a service the last
event about an id decides, so a registration stands if it was accepted and no later
event is about its id (`standing`).  Each event takes away what it is about and then
adds what it registers, in the registry (`registrations_step`) as among the
registrations that stand (`standing_concat`), and so the two agree after every run
(`registrations_run`).
-/

namespace Interchange

/-- Holds of a registration with a service and an id, as it takes to be accepted. -/
def Registration.named (x : Registration) : Bool := x.service ≠ "" && x.id ≠ ""

namespace Registry

/-- What a registry is asked for. -/
inductive Event where
  | register (x : Registration)
  | deregister (service id : String)
deriving DecidableEq

namespace Event

/-- The registration that an event makes under a service. -/
def registered? (service : String) : Event → Option Registration
  | .register x => if x.named && x.service = service then some x else none
  | .deregister .. => none

/-- Holds of an event about an id of a service. A registration that is refused is about none. -/
def concerns (service id : String) : Event → Bool
  | .register x => x.named && x.service = service && x.id = id
  | .deregister s i => s = service && i = id

end Event

/-- The registry that an event leaves behind. -/
def step (r : Registry) : Event → Registry
  | .register x => (r.register x).toOption.getD r
  | .deregister service id => (r.deregister service id).1

/-- The registry that a list of events leaves behind. -/
def run (r : Registry) (xs : List Event) : Registry := xs.foldl step r

/-- The last event about an id of a service. -/
def latest? (service id : String) (xs : List Event) : Option Event :=
  (xs.filter (·.concerns service id)).getLast?

/-- The registrations under a service that no later event is about, in the order in which they were made. -/
def standing (service : String) : List Event → List Registration
  | [] => []
  | x :: xs =>
    ((x.registered? service).filter fun r ↦ !xs.any (·.concerns service r.id)).toList ++
      standing service xs

variable {r : Registry} {x : Registration} {e : Event} {xs : List Event} {s service id : String}

@[simp] theorem run_nil (r : Registry) : r.run [] = r := rfl

theorem run_concat (r : Registry) (xs : List Event) (e : Event) :
    r.run (xs ++ [e]) = (r.run xs).step e := List.foldl_concat ..

/-! ## Events -/

theorem Event.registered?_eq_some_iff :
    e.registered? s = some x ↔ e = .register x ∧ x.named = true ∧ x.service = s := by
  cases e with
  | deregister => simp [registered?]
  | register y =>
    simp only [registered?, Option.ite_none_right_eq_some, Option.some.injEq, Bool.and_eq_true,
      decide_eq_true_eq, register.injEq]
    exact ⟨fun ⟨h, hy⟩ ↦ ⟨hy, hy ▸ h⟩, fun ⟨hy, h⟩ ↦ ⟨hy ▸ h, hy⟩⟩

/-- What is registered is the matter of the event that registers it. -/
theorem Event.concerns_of_registered? (h : e.registered? s = some x) : e.concerns s x.id = true := by
  obtain ⟨rfl, hnamed, hservice⟩ := registered?_eq_some_iff.mp h
  simp [concerns, hnamed, hservice]

theorem Event.registered?_of_concerns (h : (register x).concerns s id = true) :
    (register x).registered? s = some x ∧ x.id = id := by
  simp only [concerns, Bool.and_eq_true, decide_eq_true_eq] at h
  obtain ⟨⟨hnamed, hservice⟩, hid⟩ := h
  exact ⟨registered?_eq_some_iff.mpr ⟨rfl, hnamed, hservice⟩, hid⟩

/-! ## What an event does to the registry -/

/-- A registration is refused if it names no service or no id, and only then. -/
theorem register_eq_error_iff :
    (∃ f, r.register x = .error f) ↔ x.service = "" ∨ x.id = "" := by
  unfold register
  split
  · next h => simpa using h
  · next h => simpa using h

theorem code_of_register {f : Failure} (h : r.register x = .error f) : f.code = .badRequest := by
  unfold register at h
  split at h
  · cases h; rfl
  · cases h

theorem exists_register (h : x.named = true) : ∃ r', r.register x = .ok r' := by
  cases hr : r.register x with
  | ok r' => exact ⟨r', rfl⟩
  | error f =>
    have hblank := register_eq_error_iff.mp ⟨f, hr⟩
    simp [Registration.named] at h
    exact absurd hblank (not_or.mpr h)

theorem step_of_not_named (h : x.named = false) : r.step (.register x) = r := by
  have hblank : x.service = "" ∨ x.id = "" := by
    by_contra hnot
    simp [Registration.named, not_or.mp hnot] at h
  obtain ⟨f, hf⟩ := register_eq_error_iff.mpr hblank
  rw [step, hf]
  rfl

/-- Every event takes away what it is about, and adds what it registers. -/
theorem registrations_step (r : Registry) (e : Event) (s : String) :
    (r.step e).registrations s =
      (r.registrations s).filter (fun x ↦ !e.concerns s x.id) ++ (e.registered? s).toList := by
  cases e with
  | deregister service id =>
    rw [step, registrations_deregister]
    by_cases hs : s = service
    · subst hs
      simp [Event.concerns, Event.registered?, eq_comm]
    · simp [Event.concerns, Event.registered?, hs, Ne.symm hs]
  | register y =>
    cases hnamed : y.named with
    | false => simp [step_of_not_named hnamed, Event.concerns, Event.registered?, hnamed]
    | true =>
      obtain ⟨r', hr⟩ := exists_register (r := r) hnamed
      have hstep : r.step (.register y) = r' := by rw [step, hr]; rfl
      rw [hstep, registrations_register hr]
      by_cases hs : s = y.service
      · subst hs
        simp [Event.concerns, Event.registered?, hnamed, eq_comm]
      · simp [Event.concerns, Event.registered?, hnamed, hs, Ne.symm hs]

theorem Reached.step (h : r.Reached) (e : Event) : (r.step e).Reached := by
  cases e with
  | deregister service id => exact h.deregistered service id
  | register x =>
    cases hr : r.register x with
    | ok r' =>
      have hstep : r.step (.register x) = r' := by rw [Registry.step, hr]; rfl
      exact hstep ▸ h.registered hr
    | error f =>
      have hstep : r.step (.register x) = r := by rw [Registry.step, hr]; rfl
      rwa [hstep]

theorem reached_run (xs : List Event) : (run {} xs).Reached := by
  induction xs using List.reverseRecOn with
  | nil => exact .new
  | append_singleton xs e ih => exact run_concat {} xs e ▸ ih.step e

/-- The services stand in order, and each of them has registrations. -/
structure Indexed (r : Registry) : Prop where
  sorted : Dictionary.Sorted r.services
  filled {s : String} {rs : List Registration} : (s, rs) ∈ r.services → rs ≠ []

theorem Reached.indexed (h : r.Reached) : r.Indexed := by
  induction h with
  | new => exact ⟨.nil, by simp⟩
  | registered _ hr ih =>
    unfold register at hr
    split at hr
    · cases hr
    · cases hr
      refine ⟨ih.sorted.insert .., fun {s rs} hmem ↦ ?_⟩
      rcases Dictionary.mem_insert hmem with ⟨-, rfl⟩ | hmem
      · simp
      · exact ih.filled hmem
  | deregistered service id _ ih =>
    simp only [deregister]
    split
    · exact ⟨ih.sorted.erase _, fun hmem ↦ ih.filled (Dictionary.mem_erase.mp hmem).1⟩
    · next hne =>
      refine ⟨ih.sorted.insert .., fun {s rs} hmem ↦ ?_⟩
      rcases Dictionary.mem_insert hmem with ⟨-, rfl⟩ | hmem
      · simpa using hne
      · exact ih.filled hmem

/-- The services that are named are those with registrations. -/
theorem Indexed.mem_names_iff (h : r.Indexed) : s ∈ r.names ↔ r.registrations s ≠ [] := by
  rw [names, Dictionary.mem_keys_iff, registrations]
  cases hs : r.services.get? s with
  | none => simp
  | some rs => simpa using h.filled (Dictionary.mem_of_get?_eq_some hs)

/-- Removing an id tells whether it was there. -/
theorem deregister_snd_iff :
    (r.deregister service id).2 = true ↔ id ∈ (r.registrations service).map (·.id) := by
  have hlen : ((r.registrations service).filter (·.id ≠ id)).length =
      (r.registrations service).length ↔ id ∉ (r.registrations service).map (·.id) := by
    rw [List.length_filter_eq_length_iff]
    simp
  simp only [deregister, decide_eq_true_eq, ne_eq, hlen, not_not]

/-! ## What stands -/

theorem standing_concat (s : String) (xs : List Event) (e : Event) :
    standing s (xs ++ [e]) =
      (standing s xs).filter (fun x ↦ !e.concerns s x.id) ++ (e.registered? s).toList := by
  induction xs with
  | nil => cases he : e.registered? s <;> simp [standing, he]
  | cons y xs ih =>
    rw [List.cons_append, standing, standing, ih, List.filter_append, List.append_assoc]
    congr 1
    cases y.registered? s with
    | none => rfl
    | some x =>
      simp only [Option.filter, List.any_append, List.any_cons, List.any_nil, Bool.or_false]
      by_cases hlater : xs.any (·.concerns s x.id) = true
      · simp [hlater]
      · by_cases hnow : e.concerns s x.id = true <;> simp [hlater, hnow]

/-- A registry lists what stands. -/
theorem registrations_run (xs : List Event) (s : String) :
    (run {} xs).registrations s = standing s xs := by
  induction xs using List.reverseRecOn with
  | nil => rfl
  | append_singleton xs e ih => rw [run_concat, registrations_step, ih, standing_concat]

theorem latest?_concat (s id : String) (xs : List Event) (e : Event) :
    latest? s id (xs ++ [e]) = if e.concerns s id then some e else latest? s id xs := by
  rw [latest?, List.filter_append]
  by_cases he : e.concerns s id = true
  · rw [if_pos he, List.filter_cons_of_pos he, List.filter_nil, List.getLast?_concat]
  · rw [if_neg he, List.filter_cons_of_neg he, List.filter_nil, List.append_nil, latest?]

/-- A registration stands if it is the last event about its id. -/
theorem mem_standing_iff : x ∈ standing s xs ↔ latest? s x.id xs = some (.register x) := by
  induction xs using List.reverseRecOn with
  | nil => simp [standing, latest?]
  | append_singleton xs e ih =>
    rw [standing_concat, latest?_concat, List.mem_append, List.mem_filter, Option.mem_toList, ih]
    split
    · next hnow =>
      simp only [hnow, Bool.not_true, Bool.false_eq_true, and_false, false_or, Option.some.injEq]
      constructor
      · exact fun h ↦ (Event.registered?_eq_some_iff.mp h).1
      · exact fun h ↦ h ▸ (Event.registered?_of_concerns (h ▸ hnow)).1
    · next hnow =>
      have hnew : e.registered? s ≠ some x := fun h ↦ hnow (Event.concerns_of_registered? h)
      simp [hnow, hnew]

theorem latest?_eq_register_iff :
    latest? s id xs = some (.register x) ↔ x ∈ standing s xs ∧ x.id = id := by
  constructor
  · intro h
    have hmem : Event.register x ∈ xs.filter (·.concerns s id) := List.mem_of_getLast? h
    have hid : x.id = id := (Event.registered?_of_concerns (List.mem_filter.mp hmem).2).2
    exact ⟨mem_standing_iff.mpr (hid ▸ h), hid⟩
  · rintro ⟨hmem, rfl⟩
    exact mem_standing_iff.mp hmem

/-- Behind a registration that stands are those that were made after it. -/
theorem exists_of_standing_eq {before after : List Registration}
    (h : standing s xs = before ++ x :: after) :
    ∃ past rest, xs = past ++ .register x :: rest ∧ (∀ e ∈ rest, e.concerns s x.id = false) ∧
      standing s rest = after := by
  induction xs generalizing before with
  | nil => simp [standing] at h
  | cons e xs ih =>
    rw [standing] at h
    cases hnow : (e.registered? s).filter fun r ↦ !xs.any (·.concerns s r.id) with
    | none =>
      rw [hnow] at h
      obtain ⟨past, rest, rfl, hrest⟩ := ih h
      exact ⟨e :: past, rest, rfl, hrest⟩
    | some y =>
      rw [hnow] at h
      cases before with
      | cons z before =>
        obtain ⟨past, rest, rfl, hrest⟩ := ih (List.cons.inj h).2
        exact ⟨e :: past, rest, rfl, hrest⟩
      | nil =>
        obtain ⟨rfl, hafter⟩ := List.cons.inj h
        obtain ⟨hy, hlater⟩ := Option.filter_eq_some_iff.mp hnow
        obtain ⟨rfl, -⟩ := Event.registered?_eq_some_iff.mp hy
        exact ⟨[], xs, rfl, by simpa using hlater, hafter⟩

/-! ## What is handed out -/

theorem counters_discover_fold (rs : List Registration) (cs : Connections) (es : List Endpoint) :
    (rs.foldl (fun (x : Connections × List Endpoint) e ↦
        ((x.1.register e 0).1, x.2 ++ [(x.1.register e 0).2])) (cs, es)).2.map (·.counter) =
      es.map (·.counter) ++ List.range' cs.counts.length rs.length := by
  induction rs generalizing cs es with
  | nil => simp
  | cons r rs ih =>
    rw [List.foldl_cons, ih, List.length_cons, List.range'_succ]
    simp [Connections.register]

/-- The endpoints that are handed out together have counters of their own, one after the other. -/
theorem counters_discover (r : Registry) (cs : Connections) (s : String) :
    (r.discover cs s).2.map (·.counter) =
      List.range' cs.counts.length (r.registrations s).length :=
  (counters_discover_fold (r.registrations s) cs []).trans (List.nil_append _)

/-- Endpoints that are handed out are new, and nothing is connected to them; nothing changes for those
that there were before. -/
structure Fresh (cs cs' : Connections) (es : List Endpoint) : Prop where
  apart : (es.map (·.counter)).Nodup
  new {e : Endpoint} : e ∈ es → ¬ cs.Knows e ∧ cs'.Knows e ∧ cs'.active e = 0
  active_eq {e : Endpoint} : cs.Knows e → cs'.active e = cs.active e

theorem fresh_discover (r : Registry) (cs : Connections) (s : String) :
    Fresh cs (r.discover cs s).1 (r.discover cs s).2 := by
  obtain ⟨es, heq, -, hcounter⟩ := r.discover_eq cs s
  have hnodup : ((r.discover cs s).2.map (·.counter)).Nodup := by
    rw [counters_discover]
    exact List.nodup_range'
  rw [heq] at hnodup ⊢
  refine ⟨hnodup, fun {e} he ↦ ?_, fun {e} hknown ↦ ?_⟩
  · obtain ⟨hnew, hlt⟩ := hcounter e he
    refine ⟨hnew, by simpa [Connections.Knows] using hlt, ?_⟩
    have hle : cs.counts.length ≤ e.counter := Nat.le_of_not_lt hnew
    rw [Connections.active, Connections.count, List.getD_eq_getElem?_getD,
      List.getElem?_append_right hle, List.getElem?_replicate]
    split <;> rfl
  · exact Connections.count_append hknown _

/-- The registry after any run of events, of which some may have been refused:

* whoever asks for a service gets an endpoint for each registration that stands, in their order; and
  each is new, with a counter of its own, at zero;
* a registration stands if the last event about its id is that it was made, so no id has two of them;
  those behind it are those that stand of the events after it was made;
* the services that are named are those with registrations, each of them once and in order;
* to remove an id tells whether it was listed;
* a registration without a service or an id, and no other, is refused as a bad request, and changes
  nothing. -/
theorem last_event_decides (xs : List Event) :
    let r := run {} xs
    (∀ s cs, (r.discover cs s).2.map Endpoint.toRegistration = standing s xs ∧
      Fresh cs (r.discover cs s).1 (r.discover cs s).2) ∧
    (∀ s, ((standing s xs).map (·.id)).Nodup ∧
      (∀ id x, x ∈ standing s xs ∧ x.id = id ↔ latest? s id xs = some (.register x)) ∧
      ∀ before x after, standing s xs = before ++ x :: after →
        ∃ past rest, xs = past ++ .register x :: rest ∧ (∀ e ∈ rest, e.concerns s x.id = false) ∧
          standing s rest = after) ∧
    ((∀ s, s ∈ r.names ↔ standing s xs ≠ []) ∧ r.names.Pairwise (· < ·)) ∧
    (∀ s id, (r.deregister s id).2 = true ↔ id ∈ (standing s xs).map (·.id)) ∧
    ∀ x, ((∃ f, r.register x = .error f) ↔ x.service = "" ∨ x.id = "") ∧
      ∀ f, r.register x = .error f → f.code = .badRequest ∧ r.step (.register x) = r := by
  intro r
  have hreached : r.Reached := reached_run xs
  have hlisted (s : String) : r.registrations s = standing s xs := registrations_run xs s
  refine ⟨fun s cs ↦ ⟨?_, fresh_discover r cs s⟩,
    fun s ↦ ⟨?_, fun id x ↦ latest?_eq_register_iff.symm, fun before x after ↦ exists_of_standing_eq⟩,
    ⟨fun s ↦ ?_, ?_⟩, fun s id ↦ ?_, fun x ↦ ⟨register_eq_error_iff, fun f hf ↦ ⟨code_of_register hf, ?_⟩⟩⟩
  · obtain ⟨es, heq, hmap, -⟩ := r.discover_eq cs s
    rw [heq, ← hlisted]
    exact hmap
  · rw [← hlisted]
    exact (hreached.tidy s).2
  · rw [hreached.indexed.mem_names_iff, hlisted]
  · exact List.Pairwise.map _ (fun _ _ hlt ↦ hlt) hreached.indexed.sorted
  · rw [deregister_snd_iff, hlisted]
  · rw [step, hf]
    rfl

/-- Of two registrations the first is made again and so comes last, and one without an id is refused. -/
theorem last_event_decides_again :
    let a : Registration := { service := "s", id := "a", address := "h", port := 1 }
    let b : Registration := { service := "s", id := "b", address := "h", port := 2 }
    let xs : List Event :=
      [.register a, .register b, .register { a with id := "" }, .register { a with port := 3 },
        .deregister "s" "c"]
    let r := run {} xs
    standing "s" xs = [b, { a with port := 3 }] ∧
      (r.discover {} "s").2.map Endpoint.toRegistration = [b, { a with port := 3 }] ∧
      latest? "s" "a" xs = some (.register { a with port := 3 }) ∧
      "s" ∈ r.names ∧ (r.deregister "s" "a").2 = true ∧
      (∃ f, r.register { a with id := "" } = .error f ∧ f.code = .badRequest) := by
  intro a b xs r
  have hstanding : standing "s" xs = [b, { a with port := 3 }] := by decide
  obtain ⟨hlisted, hstands, ⟨hnames, -⟩, hremoved, hrefused⟩ := last_event_decides xs
  obtain ⟨f, hf⟩ := (hrefused { a with id := "" }).1.mpr (.inr rfl)
  refine ⟨hstanding, ?_, ?_, ?_, ?_, f, hf, ((hrefused _).2 f hf).1⟩
  · rw [(hlisted "s" {}).1, hstanding]
  · exact ((hstands "s").2.1 "a" _).mp ⟨by rw [hstanding]; simp, rfl⟩
  · exact (hnames "s").mpr (by rw [hstanding]; simp)
  · exact (hremoved "s" "a").mpr (by rw [hstanding]; simp [a])

end Registry

end Interchange
