import Interchange.Proofs.Gateway.Concourse

/-!
# What the bank does

The bank keeps its guards under the names of their endpoints, drops some of them
now and then, and makes new ones.  It is meant to behave as if it kept them under
the instances themselves.  The first half of this file says what it does when it
is asked for the breaker of an endpoint (`Bank.Answers`), which guards stay
(`Bank.Answers.mem_of_sees`), and what the statistics list.

The second half relates a bank to the chronicle of what was done to its breakers.
`Bank.Records` says that breakers have been assigned to one instance each, and
that each is what the deeds noted for it make of a new one.  Every operation of
the bank keeps this, whatever the routing table is like.
-/

namespace Interchange

/-- The router lists this instance. -/
def Router.Lists (r : Router) (e : Endpoint) : Prop := ∃ x ∈ r.instances, x.SameInstance e

/-- The router lists an endpoint that shares the counter of this one. -/
def Router.Sees (r : Router) (e : Endpoint) : Prop := ∃ x ∈ r.instances, x.sharesCounter e = true

theorem Router.Sees.of_same {r : Router} {e x : Endpoint} (h : r.Sees e) (hx : e.SameInstance x) :
    r.Sees x := by
  obtain ⟨y, hy, hye⟩ := h
  refine ⟨y, hy, ?_⟩
  rwa [Endpoint.sharesCounter, ← hx.counter_eq]

theorem Router.Lists.of_same {r : Router} {e x : Endpoint} (h : r.Lists e) (hx : e.SameInstance x) :
    r.Lists x := by
  obtain ⟨y, hy, hye⟩ := h
  exact ⟨y, hy, hye.trans hx⟩

theorem Router.Lists.of_mem {r : Router} {e : Endpoint} (h : e ∈ r.instances) : r.Lists e :=
  ⟨e, h, .refl e⟩

theorem Router.Lists.sees {r : Router} {e : Endpoint} (h : r.Lists e) : r.Sees e := by
  obtain ⟨x, hx, hxe⟩ := h
  exact ⟨x, hx, by simpa [Endpoint.sharesCounter] using hxe.counter_eq⟩

/-- Instances that a tidy table lists under one name are one instance. -/
theorem Router.Lists.same_of_sameName {r : Router} {e x : Endpoint} (ht : r.table.Tidy)
    (he : r.Lists e) (hx : r.Lists x) (hname : Bank.sameName e x = true) : e.SameInstance x := by
  obtain ⟨y, hy, hye⟩ := he
  obtain ⟨z, hz, hzx⟩ := hx
  obtain ⟨hservice, hid⟩ : e.service = x.service ∧ e.id = x.id := by simpa [Bank.sameName] using hname
  have : y = z := Router.eq_of_service_of_id ht hy hz
    (hye.service_eq.trans (hservice.trans hzx.service_eq.symm))
    (hye.id_eq.trans (hid.trans hzx.id_eq.symm))
  exact hye.symm.trans (this ▸ hzx)

namespace Endpoint.SameInstance

variable {a b : Endpoint}

theorem sameName (h : a.SameInstance b) : Bank.sameName a b = true := by
  simp [Bank.sameName, h.service_eq, h.id_eq]

theorem of_sameName (hname : Bank.sameName a b = true) (hcounter : a.sharesCounter b = true) :
    a.SameInstance b := by
  obtain ⟨hservice, hid⟩ : a.service = b.service ∧ a.id = b.id := by simpa [Bank.sameName] using hname
  exact ⟨hservice, hid, by simpa [Endpoint.sharesCounter] using hcounter⟩

theorem sharesCounter (h : a.SameInstance b) : a.sharesCounter b = true := by
  simpa [Endpoint.sharesCounter] using h.counter_eq

end Endpoint.SameInstance

/-- The breaker of an endpoint as it is made. -/
def Breaker.new (thresholds : Thresholds) (e : Endpoint) : Breaker :=
  { name := s!"{e.service}/{e.id}", thresholds }

@[simp] theorem Breaker.circuit_new (thresholds : Thresholds) (e : Endpoint) :
    (Breaker.new thresholds e).circuit = .closed := rfl

theorem Breaker.new_eq_of_same {thresholds : Thresholds} {e x : Endpoint} (h : e.SameInstance x) :
    Breaker.new thresholds e = Breaker.new thresholds x := by
  rw [Breaker.new, Breaker.new, h.service_eq, h.id_eq]

namespace Bank

variable {b : Bank} {r : Router} {thresholds : Thresholds} {e x : Endpoint} {g g' : Guard}
  {id : BreakerId}

/-! ## Guards -/

/-- The name under which a guard is kept. -/
def key (g : Guard) : String × String := (g.endpoint.service, g.endpoint.id)

theorem sameName_comm (a b : Endpoint) : sameName a b = sameName b a := by
  simp only [sameName, eq_comm (a := a.service), eq_comm (a := a.id)]

/-- No two guards are kept under one name, and none shares its breaker with another. -/
structure Apart (b : Bank) : Prop where
  keys_nodup : (b.guards.map key).Nodup
  breakers_nodup : (b.guards.map (·.breaker)).Nodup
  breaker_lt : ∀ g ∈ b.guards, g.breaker < b.breakers.length

theorem key_eq_iff : key g = key g' ↔ sameName g.endpoint g'.endpoint = true := by
  simp [key, sameName]

theorem Apart.eq_of_sameName (h : b.Apart) (hg : g ∈ b.guards) (hg' : g' ∈ b.guards)
    (hname : sameName g.endpoint g'.endpoint = true) : g = g' :=
  List.inj_on_of_nodup_map h.keys_nodup hg hg' (key_eq_iff.mpr hname)

theorem mem_prune : g ∈ (b.prune r).guards → g ∈ b.guards := by
  unfold prune
  split
  · exact id
  · exact List.mem_of_mem_filter

theorem prune_sublist (b : Bank) (r : Router) : (b.prune r).guards.Sublist b.guards := by
  unfold prune
  split
  · exact .refl _
  · exact List.filter_sublist

/-- A guard stays as long as its counter is in the table. -/
theorem mem_prune_of_sees (hg : g ∈ b.guards) (hs : r.Sees g.endpoint) :
    g ∈ (b.prune r).guards := by
  unfold prune
  split
  · exact hg
  · exact List.mem_filter.mpr ⟨hg, List.any_eq_true.mpr hs⟩

/-- A guard that stays is in the table, unless the table is not looked at. -/
theorem sees_of_mem_prune (hg : g ∈ (b.prune r).guards)
    (h : b.generation = r.generation → r.Sees g.endpoint) : r.Sees g.endpoint := by
  unfold prune at hg
  split at hg
  · next heq => exact h heq
  · exact List.any_eq_true.mp (List.mem_filter.mp hg).2

theorem Apart.prune (h : b.Apart) (r : Router) : (b.prune r).Apart where
  keys_nodup := h.keys_nodup.sublist ((b.prune_sublist r).map _)
  breakers_nodup := h.breakers_nodup.sublist ((b.prune_sublist r).map _)
  breaker_lt g hg := by
    rw [breakers_prune]
    exact h.breaker_lt g (mem_prune hg)

/-- All that the bank can do when it is asked for the breaker of an endpoint. -/
inductive Answers (b : Bank) (r : Router) (thresholds : Thresholds) (e : Endpoint) :
    Bank → BreakerId → Prop
  | known {g : Guard} : g ∈ (b.prune r).guards → g.endpoint.SameInstance e →
      Answers b r thresholds e (b.prune r) g.breaker
  | unknown : (∀ g ∈ (b.prune r).guards, ¬ g.endpoint.SameInstance e) →
      Answers b r thresholds e ((b.prune r).create thresholds e).1 b.breakers.length

theorem answers (h : b.Apart) (r : Router) (thresholds : Thresholds) (e : Endpoint) :
    Answers b r thresholds e (b.guard r thresholds e).1 (b.guard r thresholds e).2 := by
  have hcreate : ((b.prune r).create thresholds e).2 = b.breakers.length := by
    rw [create, breakers_prune]
  cases hfind : (b.prune r).guards.find? fun g ↦ sameName g.endpoint e with
  | none =>
    simp only [guard, hfind, hcreate]
    refine .unknown fun g hg hsame ↦ ?_
    exact absurd hsame.sameName (List.find?_eq_none.mp hfind g hg)
  | some g =>
    have hg := List.mem_of_find?_eq_some hfind
    have hname := List.find?_some hfind
    simp only [guard, hfind]
    split
    · next hcounter => exact .known hg (.of_sameName hname hcounter)
    · next hcounter =>
      rw [hcreate]
      refine .unknown fun g' hg' hsame ↦ hcounter ?_
      have : g = g' := (h.prune r).eq_of_sameName hg hg' (by
        simp_all [sameName, hsame.service_eq, hsame.id_eq])
      exact this ▸ hsame.sharesCounter

theorem guards_create (b : Bank) (thresholds : Thresholds) (e : Endpoint) :
    (b.create thresholds e).1.guards =
      b.guards.filter (fun g ↦ !sameName g.endpoint e) ++ [⟨e, b.breakers.length⟩] := rfl

theorem breakers_create (b : Bank) (thresholds : Thresholds) (e : Endpoint) :
    (b.create thresholds e).1.breakers = b.breakers ++ [.new thresholds e] := rfl

theorem Apart.create (h : b.Apart) (thresholds : Thresholds) (e : Endpoint) :
    (b.create thresholds e).1.Apart where
  keys_nodup := by
    rw [guards_create, List.map_append]
    refine List.nodup_append.mpr ⟨h.keys_nodup.sublist (List.filter_sublist.map _), by simp, ?_⟩
    rintro _ hkey _ hnew rfl
    obtain ⟨g, hg, hgkey⟩ := List.mem_map.mp hkey
    rw [List.mem_singleton.mp hnew] at hgkey
    have := (List.mem_filter.mp hg).2
    simp [key_eq_iff.mp hgkey] at this
  breakers_nodup := by
    rw [guards_create, List.map_append]
    refine List.nodup_append.mpr ⟨h.breakers_nodup.sublist (List.filter_sublist.map _), by simp, ?_⟩
    rintro _ hbreaker _ hnew rfl
    obtain ⟨g, hg, hgbreaker⟩ := List.mem_map.mp hbreaker
    have hlt := h.breaker_lt g (List.mem_of_mem_filter hg)
    rw [hgbreaker, List.mem_singleton.mp hnew] at hlt
    exact Nat.lt_irrefl _ hlt
  breaker_lt g hg := by
    rw [guards_create] at hg
    rw [breakers_create, List.length_append]
    rcases List.mem_append.mp hg with hg | hg
    · exact Nat.lt_add_right _ (h.breaker_lt g (List.mem_of_mem_filter hg))
    · rw [List.mem_singleton.mp hg]
      exact Nat.lt_succ_self _

namespace Answers

variable {b' : Bank}

theorem generation_eq (hans : Answers b r thresholds e b' id) : b'.generation = r.generation := by
  cases hans with
  | known | unknown => exact b.generation_prune r

/-- Who asks gets the breaker that guards the endpoint from then on. -/
theorem guarded (hans : Answers b r thresholds e b' id) :
    ∃ g ∈ b'.guards, g.endpoint.SameInstance e ∧ g.breaker = id := by
  cases hans with
  | known hg hsame => exact ⟨_, hg, hsame, rfl⟩
  | unknown =>
    rw [guards_create, breakers_prune]
    exact ⟨⟨e, b.breakers.length⟩, by simp, .refl e, rfl⟩

/-- A guard whose counter is in the table stays, unless somebody asks for another instance of its
name. -/
theorem mem_of_sees (hans : Answers b r thresholds e b' id) (hg : g ∈ b.guards)
    (hs : r.Sees g.endpoint) (hname : sameName e g.endpoint = true → e.SameInstance g.endpoint) :
    g ∈ b'.guards := by
  have hstays := mem_prune_of_sees hg hs
  cases hans with
  | known => exact hstays
  | unknown hnone =>
    rw [guards_create]
    refine List.mem_append_left _ (List.mem_filter.mpr ⟨hstays, ?_⟩)
    cases h : sameName g.endpoint e with
    | false => rfl
    | true =>
      have hsame := hname (by rwa [sameName_comm])
      exact absurd hsame.symm (hnone g hstays)

/-- A guard is found by its instance as long as that is listed. -/
theorem id_eq_of_lists (hans : Answers b r thresholds e b' id) (h : b.Apart) (hg : g ∈ b.guards)
    (hl : r.Lists g.endpoint) (hsame : g.endpoint.SameInstance e) : id = g.breaker := by
  have hstays := mem_prune_of_sees hg hl.sees
  cases hans with
  | known hg' hsame' =>
    have := (h.prune r).eq_of_sameName hg' hstays (hsame'.trans hsame.symm).sameName
    rw [this]
  | unknown hnone => exact absurd hsame (hnone g hstays)

end Answers

/-! ## Breakers -/

@[simp] theorem guards_setBreaker (b : Bank) (id : BreakerId) (new : Breaker) :
    (b.setBreaker id new).guards = b.guards := rfl

@[simp] theorem generation_setBreaker (b : Bank) (id : BreakerId) (new : Breaker) :
    (b.setBreaker id new).generation = b.generation := rfl

@[simp] theorem length_setBreaker (b : Bank) (id : BreakerId) (new : Breaker) :
    (b.setBreaker id new).breakers.length = b.breakers.length := List.length_set

theorem breaker_setBreaker_self (h : id < b.breakers.length) (new : Breaker) :
    (b.setBreaker id new).breaker id = new := by
  simp [breaker, setBreaker, h]

@[simp] theorem setBreaker_breaker (b : Bank) (id : BreakerId) :
    b.setBreaker id (b.breaker id) = b := by
  have hset : b.breakers.set id (b.breaker id) = b.breakers := by
    rcases Nat.lt_or_ge id b.breakers.length with h | h
    · simp [breaker, h]
    · exact List.set_eq_of_length_le h
  rw [setBreaker, hset]

theorem breaker_setBreaker_of_ne {other : BreakerId} (h : other ≠ id) (b : Bank) (new : Breaker) :
    (b.setBreaker id new).breaker other = b.breaker other := by
  simp [breaker, setBreaker, List.getElem?_set_ne (Ne.symm h)]

@[simp] theorem breaker_prune (b : Bank) (r : Router) (id : BreakerId) :
    (b.prune r).breaker id = b.breaker id := by
  rw [breaker, breakers_prune, breaker]

theorem breaker_create (h : id < b.breakers.length) (thresholds : Thresholds) (e : Endpoint) :
    (b.create thresholds e).1.breaker id = b.breaker id := by
  simp [breaker, breakers_create, List.getElem?_append_left h]

theorem breaker_create_self (b : Bank) (thresholds : Thresholds) (e : Endpoint) :
    (b.create thresholds e).1.breaker b.breakers.length = .new thresholds e := by
  simp [breaker, breakers_create]

namespace Answers

variable {b' : Bank}

/-- Every guard was there before, or is made now, with a new breaker. -/
theorem mem_cases (hans : Answers b r thresholds e b' id) (hg : g ∈ b'.guards) :
    g ∈ (b.prune r).guards ∨
      g = ⟨e, id⟩ ∧ id = b.breakers.length ∧ b'.breaker id = .new thresholds e := by
  cases hans with
  | known => exact .inl hg
  | unknown =>
    have hlength : (b.prune r).breakers.length = b.breakers.length := by rw [breakers_prune]
    rw [guards_create, hlength] at hg
    refine (List.mem_append.mp hg).imp List.mem_of_mem_filter fun hg ↦ ?_
    exact ⟨List.mem_singleton.mp hg, rfl, hlength ▸ (b.prune r).breaker_create_self thresholds e⟩

/-- Who asks does nothing to a breaker. -/
theorem breaker_eq (hans : Answers b r thresholds e b' id) {other : BreakerId}
    (h : other < b.breakers.length) : b'.breaker other = b.breaker other := by
  cases hans with
  | known => exact b.breaker_prune r other
  | unknown => rw [breaker_create (by rwa [breakers_prune]), breaker_prune]

end Answers

theorem Apart.setBreaker (h : b.Apart) (id : BreakerId) (new : Breaker) :
    (b.setBreaker id new).Apart :=
  ⟨h.keys_nodup, h.breakers_nodup, by simpa using h.breaker_lt⟩

end Bank

/-! ## The chronicle of a bank -/

/-- What was done, by whomever to whichever breaker. -/
def entries (l : List Note) : List (Entry Reply) :=
  l.filterMap fun
    | .assigned .. => none
    | .did _ _ x => some x

/-- What was done to a breaker. -/
def entriesAt (id : BreakerId) (l : List Note) : List (Entry Reply) :=
  l.filterMap fun
    | .assigned .. => none
    | .did _ id' x => if id' = id then some x else none

@[simp] theorem entries_append (l l' : List Note) : entries (l ++ l') = entries l ++ entries l' :=
  List.filterMap_append

@[simp] theorem entriesAt_append (id : BreakerId) (l l' : List Note) :
    entriesAt id (l ++ l') = entriesAt id l ++ entriesAt id l' := List.filterMap_append

/-- Assigning a breaker does nothing to it. -/
@[simp] theorem entriesAt_append_assigned (id id' : BreakerId) (l : List Note) (author : Option Nat)
    (e : Endpoint) : entriesAt id (l ++ [.assigned author e id']) = entriesAt id l := by
  rw [entriesAt_append]
  exact List.append_nil _

theorem mem_append_assigned {l : List Note} {a author : Option Nat} {e x : Endpoint}
    {id id' : BreakerId} (h : .assigned a x id ∈ l ++ [Note.assigned author e id']) :
    .assigned a x id ∈ l ∨ id = id' ∧ x = e := by
  rcases List.mem_append.mp h with h | h
  · exact .inl h
  · simp only [List.mem_singleton, Note.assigned.injEq] at h
    exact .inr ⟨h.2.2, h.2.1⟩

theorem entriesAt_did (id : BreakerId) (e : Endpoint) (xs : List (Entry Reply)) :
    entriesAt id (xs.map (.did e id)) = xs := by
  simp [entriesAt, List.filterMap_map]

theorem entriesAt_did_of_ne {id id' : BreakerId} (h : id' ≠ id) (e : Endpoint)
    (xs : List (Entry Reply)) : entriesAt id (xs.map (.did e id')) = [] := by
  simp [entriesAt, h]

theorem mem_entriesAt {id : BreakerId} {l : List Note} {x : Entry Reply} :
    x ∈ entriesAt id l ↔ ∃ e, .did e id x ∈ l := by
  rw [entriesAt, List.mem_filterMap]
  constructor
  · rintro ⟨n, hn, hx⟩
    cases n with
    | assigned => cases hx
    | did e id' y =>
      by_cases hid : id' = id
      · simp only [hid, if_true, Option.some.injEq] at hx
        exact ⟨e, hid ▸ hx ▸ hn⟩
      · simp [hid] at hx
  · rintro ⟨e, he⟩
    exact ⟨_, he, if_pos rfl⟩

/-- Breakers have been assigned to one instance each, and each is what the deeds that the chronicle notes
for it make of a new one. -/
structure Bank.Records (thresholds : Thresholds) (b : Bank) (l : List Note) : Prop where
  apart : b.Apart
  guard_assigned (g : Guard) : g ∈ b.guards → ∃ author, .assigned author g.endpoint g.breaker ∈ l
  assigned_lt {author : Option Nat} {e : Endpoint} {id : BreakerId} :
    .assigned author e id ∈ l → id < b.breakers.length
  same {author author' : Option Nat} {e e' : Endpoint} {id : BreakerId} :
    .assigned author e id ∈ l → .assigned author' e' id ∈ l → e.SameInstance e'
  did_assigned {e : Endpoint} {id : BreakerId} {x : Entry Reply} :
    .did e id x ∈ l → ∃ author, .assigned author e id ∈ l
  breaker_eq {author : Option Nat} {e : Endpoint} {id : BreakerId} : .assigned author e id ∈ l →
    b.breaker id = (Breaker.new thresholds e).replay (history (entriesAt id l))
  faithful {author : Option Nat} {e : Endpoint} {id : BreakerId} : .assigned author e id ∈ l →
    Faithful (.new thresholds e) none (entriesAt id l)

namespace Bank.Records

variable {thresholds : Thresholds} {b b' : Bank} {l : List Note} {e : Endpoint} {id : BreakerId}

theorem nil (thresholds : Thresholds) : Records thresholds {} [] where
  apart := ⟨.nil, .nil, by simp⟩
  guard_assigned := by simp
  assigned_lt := by simp
  same := by simp
  did_assigned := by simp
  breaker_eq := by simp
  faithful := by simp

theorem prune (h : b.Records thresholds l) (r : Router) : (b.prune r).Records thresholds l where
  apart := h.apart.prune r
  guard_assigned g hg := h.guard_assigned g (mem_prune hg)
  assigned_lt ha := by
    rw [breakers_prune]
    exact h.assigned_lt ha
  same := h.same
  did_assigned := h.did_assigned
  breaker_eq ha := by
    rw [breaker_prune]
    exact h.breaker_eq ha
  faithful := h.faithful

/-- Nothing has been done to a breaker that is not there. -/
theorem entriesAt_of_le (h : b.Records thresholds l) (hid : b.breakers.length ≤ id) :
    entriesAt id l = [] := by
  refine List.eq_nil_iff_forall_not_mem.mpr fun x hx ↦ ?_
  obtain ⟨e, he⟩ := mem_entriesAt.mp hx
  obtain ⟨author, ha⟩ := h.did_assigned he
  exact absurd (h.assigned_lt ha) (Nat.not_lt.mpr hid)

/-- The breaker that guards an instance is assigned again. -/
theorem known (h : b.Records thresholds l) {g : Guard} (hg : g ∈ b.guards)
    (hsame : g.endpoint.SameInstance e) (author : Option Nat) :
    b.Records thresholds (l ++ [.assigned author e g.breaker]) := by
  obtain ⟨author₀, hg₀⟩ := h.guard_assigned g hg
  have hbreaker : Breaker.new thresholds g.endpoint = .new thresholds e :=
    Breaker.new_eq_of_same hsame
  refine ⟨h.apart, fun g' hg' ↦ ?_, fun ha ↦ ?_, fun ha ha' ↦ ?_, fun hx ↦ ?_, fun ha ↦ ?_,
    fun ha ↦ ?_⟩
  · obtain ⟨a, ha⟩ := h.guard_assigned g' hg'
    exact ⟨a, List.mem_append_left _ ha⟩
  · rcases mem_append_assigned ha with ha | ⟨rfl, -⟩
    · exact h.assigned_lt ha
    · exact h.apart.breaker_lt g hg
  · rcases mem_append_assigned ha with hold | ⟨rfl, rfl⟩ <;>
      rcases mem_append_assigned ha' with hold' | ⟨hid, rfl⟩
    · exact h.same hold hold'
    · exact (h.same (hid ▸ hold) hg₀).trans hsame
    · exact hsame.symm.trans (h.same hg₀ hold')
    · exact .refl _
  · obtain ⟨a, ha⟩ := h.did_assigned (by simpa using hx)
    exact ⟨a, List.mem_append_left _ ha⟩
  · rw [entriesAt_append_assigned]
    rcases mem_append_assigned ha with ha | ⟨rfl, rfl⟩
    · exact h.breaker_eq ha
    · exact hbreaker ▸ h.breaker_eq hg₀
  · rw [entriesAt_append_assigned]
    rcases mem_append_assigned ha with ha | ⟨rfl, rfl⟩
    · exact h.faithful ha
    · exact hbreaker ▸ h.faithful hg₀

/-- A new breaker is assigned. -/
theorem create (h : b.Records thresholds l) (e : Endpoint) (author : Option Nat) :
    (b.create thresholds e).1.Records thresholds (l ++ [.assigned author e b.breakers.length]) := by
  have hnew : entriesAt b.breakers.length l = [] := h.entriesAt_of_le (Nat.le_refl _)
  have hnone {a : Option Nat} {x : Endpoint} (ha : .assigned a x b.breakers.length ∈ l) : False :=
    Nat.lt_irrefl _ (h.assigned_lt ha)
  refine ⟨h.apart.create thresholds e, fun g hg ↦ ?_, fun ha ↦ ?_, fun ha ha' ↦ ?_, fun hx ↦ ?_,
    fun ha ↦ ?_, fun ha ↦ ?_⟩
  · rw [guards_create] at hg
    rcases List.mem_append.mp hg with hg | hg
    · obtain ⟨a, ha⟩ := h.guard_assigned g (List.mem_of_mem_filter hg)
      exact ⟨a, List.mem_append_left _ ha⟩
    · rw [List.mem_singleton.mp hg]
      exact ⟨author, by simp⟩
  · rw [breakers_create, List.length_append]
    rcases mem_append_assigned ha with ha | ⟨rfl, -⟩
    · exact Nat.lt_add_right _ (h.assigned_lt ha)
    · exact Nat.lt_succ_self _
  · rcases mem_append_assigned ha with hold | ⟨rfl, rfl⟩ <;>
      rcases mem_append_assigned ha' with hold' | ⟨hid, rfl⟩
    · exact h.same hold hold'
    · exact (hnone (hid ▸ hold)).elim
    · exact (hnone hold').elim
    · exact .refl _
  · obtain ⟨a, ha⟩ := h.did_assigned (by simpa using hx)
    exact ⟨a, List.mem_append_left _ ha⟩
  · rw [entriesAt_append_assigned]
    rcases mem_append_assigned ha with ha | ⟨rfl, rfl⟩
    · rw [breaker_create (h.assigned_lt ha)]
      exact h.breaker_eq ha
    · rw [breaker_create_self, hnew]
      rfl
  · rw [entriesAt_append_assigned]
    rcases mem_append_assigned ha with ha | ⟨rfl, rfl⟩
    · exact h.faithful ha
    · rw [hnew]
      trivial

/-- Somebody is given a breaker. -/
theorem assign (h : b.Records thresholds l) {r : Router} (hans : Answers b r thresholds e b' id)
    (author : Option Nat) : b'.Records thresholds (l ++ [.assigned author e id]) := by
  have hprune := h.prune r
  cases hans with
  | known hg hsame => exact hprune.known hg hsame author
  | unknown =>
    have := hprune.create e author
    rwa [breakers_prune] at this

/-- Something is done to a breaker. -/
theorem act (h : b.Records thresholds l) {author : Option Nat} (ha : .assigned author e id ∈ l)
    {new : Breaker} (xs : List (Entry Reply))
    (hnew : (b.breaker id).replay (history xs) = new)
    (hxs : ∀ before, Faithful (b.breaker id) before xs) :
    (b.setBreaker id new).Records thresholds (l ++ xs.map (.did e id)) := by
  have hassigned {a : Option Nat} {x : Endpoint} {id' : BreakerId}
      (ha : .assigned a x id' ∈ l ++ xs.map (Note.did e id)) : .assigned a x id' ∈ l := by
    simpa using ha
  refine ⟨h.apart.setBreaker id new, fun g hg ↦ ?_, fun ha ↦ ?_, fun ha ha' ↦ ?_, fun hx ↦ ?_,
    fun {a x id'} hx ↦ ?_, fun {a x id'} hx ↦ ?_⟩
  · obtain ⟨a, ha⟩ := h.guard_assigned g hg
    exact ⟨a, List.mem_append_left _ ha⟩
  · rw [length_setBreaker]
    exact h.assigned_lt (hassigned ha)
  · exact h.same (hassigned ha) (hassigned ha')
  · rcases List.mem_append.mp hx with hx | hx
    · obtain ⟨a, ha⟩ := h.did_assigned hx
      exact ⟨a, List.mem_append_left _ ha⟩
    · obtain ⟨y, -, hy⟩ := List.mem_map.mp hx
      cases hy
      exact ⟨author, List.mem_append_left _ ha⟩
  · rw [entriesAt_append, history_append, Breaker.replay_append, ← h.breaker_eq (hassigned hx)]
    by_cases hid : id' = id
    · rw [hid, breaker_setBreaker_self (h.assigned_lt ha), entriesAt_did, hnew]
    · rw [breaker_setBreaker_of_ne hid, entriesAt_did_of_ne (Ne.symm hid)]
      rfl
  · rw [entriesAt_append]
    refine (h.faithful (hassigned hx)).append fun before ↦ ?_
    rw [← h.breaker_eq (hassigned hx)]
    by_cases hid : id' = id
    · rw [hid, entriesAt_did]
      exact hxs before
    · rw [entriesAt_did_of_ne (Ne.symm hid)]
      trivial

end Bank.Records

/-! ## Looking at all breakers -/

namespace Bank

/-- Look at the breakers of some guards, one after the other. -/
def refreshAll (now : Span) (gs : List Guard) (b : Bank) : Bank :=
  gs.foldl (fun b g ↦ b.setBreaker g.breaker ((b.breaker g.breaker).refresh now)) b

/-- What is to be told of a look at a guard. -/
def lookNote (now : Span) (b : Bank) (g : Guard) : Note :=
  .did g.endpoint g.breaker ⟨now, none, .look ((b.breaker g.breaker).refresh now).circuit⟩

theorem stats_fst (b : Bank) (r : Router) (now : Span) :
    (b.stats r now).1 = refreshAll now (b.prune r).guards (b.prune r) := rfl

theorem stats_snd (b : Bank) (r : Router) (now : Span) :
    (b.stats r now).2 =
      (((b.stats r now).1.guards).map fun g ↦ (b.stats r now).1.breaker g.breaker).mergeSort
        fun x y ↦ x.name ≤ y.name := rfl

theorem refreshAll_cons (now : Span) (g : Guard) (gs : List Guard) (b : Bank) :
    refreshAll now (g :: gs) b =
      refreshAll now gs (b.setBreaker g.breaker ((b.breaker g.breaker).refresh now)) := rfl

@[simp] theorem guards_refreshAll (now : Span) (gs : List Guard) (b : Bank) :
    (refreshAll now gs b).guards = b.guards := by
  induction gs generalizing b with
  | nil => rfl
  | cons g gs ih => rw [refreshAll_cons, ih, guards_setBreaker]

@[simp] theorem generation_refreshAll (now : Span) (gs : List Guard) (b : Bank) :
    (refreshAll now gs b).generation = b.generation := by
  induction gs generalizing b with
  | nil => rfl
  | cons g gs ih => rw [refreshAll_cons, ih, generation_setBreaker]

/-- A breaker that several guards share would be looked at several times, which makes no difference. -/
theorem breaker_refreshAll (now : Span) {gs : List Guard} {b : Bank} {id : BreakerId}
    (hid : id < b.breakers.length) :
    (refreshAll now gs b).breaker id =
      if id ∈ gs.map (·.breaker) then (b.breaker id).refresh now else b.breaker id := by
  induction gs generalizing b with
  | nil => rfl
  | cons g gs ih =>
    rw [refreshAll_cons, ih (by simpa using hid)]
    by_cases hg : id = g.breaker
    · subst hg
      simp [breaker_setBreaker_self hid]
    · simp [hg, breaker_setBreaker_of_ne hg]

/-- Looking at breakers is noted, and is all that is done. -/
theorem Records.refreshAll {thresholds : Thresholds} {b : Bank} {l : List Note} {gs : List Guard}
    (h : b.Records thresholds l)
    (hgs : ∀ g ∈ gs, ∃ author, .assigned author g.endpoint g.breaker ∈ l)
    (hnodup : (gs.map (·.breaker)).Nodup) (now : Span) :
    (Bank.refreshAll now gs b).Records thresholds (l ++ gs.map (lookNote now b)) := by
  induction gs generalizing b l with
  | nil =>
    rw [List.map_nil, List.append_nil]
    exact h
  | cons g gs ih =>
    obtain ⟨author, ha⟩ := hgs g List.mem_cons_self
    rw [List.map_cons, List.nodup_cons] at hnodup
    have hact := h.act ha [⟨now, none, .look ((b.breaker g.breaker).refresh now).circuit⟩] rfl
      fun before ↦ ⟨⟨rfl, fun hnone ↦ absurd rfl hnone⟩, trivial⟩
    have hgs' : ∀ g' ∈ gs, ∃ author, .assigned author g'.endpoint g'.breaker ∈
        l ++ [lookNote now b g] := fun g' hg' ↦ by
      obtain ⟨a, ha⟩ := hgs g' (List.mem_cons_of_mem _ hg')
      exact ⟨a, List.mem_append_left _ ha⟩
    have hrest := ih hact hgs' hnodup.2
    have hsame : ∀ g' ∈ gs, lookNote now (b.setBreaker g.breaker
        ((b.breaker g.breaker).refresh now)) g' = lookNote now b g' := fun g' hg' ↦ by
      have hne : g'.breaker ≠ g.breaker := fun heq ↦
        hnodup.1 (heq ▸ List.mem_map_of_mem (f := (·.breaker)) hg')
      rw [lookNote, lookNote, breaker_setBreaker_of_ne hne]
    rw [refreshAll_cons, List.map_cons, List.append_cons, ← List.map_congr_left hsame]
    exact hrest

theorem Records.stats {thresholds : Thresholds} {b : Bank} {l : List Note}
    (h : b.Records thresholds l) (r : Router) (now : Span) :
    (b.stats r now).1.Records thresholds (l ++ (b.prune r).guards.map (lookNote now b)) := by
  have hprune := h.prune r
  have hnotes : (b.prune r).guards.map (lookNote now (b.prune r)) =
      (b.prune r).guards.map (lookNote now b) := List.map_congr_left fun g _ ↦ by
    rw [lookNote, lookNote, breaker_prune]
  rw [stats_fst, ← hnotes]
  exact hprune.refreshAll hprune.guard_assigned hprune.apart.breakers_nodup now

/-- The statistics are the breakers on guard, as they are seen at the time. -/
theorem stats_perm {b : Bank} (h : b.Apart) (r : Router) (now : Span) :
    (b.stats r now).2.Perm
      ((b.prune r).guards.map fun g ↦ (b.breaker g.breaker).refresh now) := by
  rw [stats_snd, stats_fst, guards_refreshAll]
  refine (List.mergeSort_perm ..).trans (List.Perm.of_eq (List.map_congr_left fun g hg ↦ ?_))
  rw [breaker_refreshAll now ((h.prune r).breaker_lt g hg), if_pos (List.mem_map_of_mem hg),
    breaker_prune]

end Bank

end Interchange
