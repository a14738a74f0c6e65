import Interchange.Dictionary
import Mathlib.Data.List.Nodup
import Mathlib.Data.String.Basic

/-!
# Entries of a dictionary

Look-up tells what a dictionary holds, one key at a time.  Some properties are
about all entries at once, and are easier to state of the list: this file says
where the entries come from, that the operations keep the keys in order, that in a
dictionary whose keys are in order an entry is what look-up finds, and that making
a dictionary of entries changes nothing but their order.
-/

namespace Interchange.Dictionary

variable {α β : Type*} {d : Dictionary α} {key k : String} {v x : α}

theorem mem_of_get?_eq_some (h : get? d key = some v) : (key, v) ∈ d := by
  induction d with
  | nil => simp at h
  | cons e rest ih =>
    obtain ⟨k, x⟩ := e
    by_cases hk : k = key
    · simp only [get?, hk, if_true, Option.some.injEq] at h
      simp [hk, h]
    · simp only [get?, hk, if_false] at h
      exact List.mem_cons_of_mem _ (ih h)

theorem mem_keys_iff : key ∈ keys d ↔ (get? d key).isSome := by
  induction d with
  | nil => simp [keys]
  | cons e rest ih =>
    obtain ⟨k, x⟩ := e
    by_cases hk : k = key
    · simp [keys, get?, hk]
    · simpa [keys, get?, hk, Ne.symm hk] using ih

theorem mem_insert (h : (k, x) ∈ insert d key v) : k = key ∧ x = v ∨ (k, x) ∈ d := by
  induction d with
  | nil => simpa [insert] using h
  | cons e rest ih =>
    obtain ⟨k', x'⟩ := e
    rw [insert] at h
    split at h
    · rcases List.mem_cons.mp h with h | h
      · exact .inl (by simpa using h)
      · exact .inr (List.mem_cons_of_mem _ h)
    · split at h
      · rcases List.mem_cons.mp h with h | h
        · exact .inl (by simpa using h)
        · exact .inr h
      · rcases List.mem_cons.mp h with h | h
        · exact .inr (by simp [h])
        · exact (ih h).imp_right (List.mem_cons_of_mem _)

theorem mem_erase : (k, x) ∈ erase d key ↔ (k, x) ∈ d ∧ k ≠ key := by
  simp [erase]

theorem mem_of_mem_ofList {entries : List (String × α)} {e : String × α} (h : e ∈ ofList entries) :
    e ∈ entries := by
  have hfold (d : Dictionary α) : e ∈ entries.foldl (fun acc e ↦ insert acc e.1 e.2) d →
      e ∈ entries ∨ e ∈ d := by
    clear h
    induction entries generalizing d with
    | nil => exact .inr
    | cons x rest ih =>
      intro h
      rcases ih _ h with h | h
      · exact .inl (List.mem_cons_of_mem _ h)
      · rcases mem_insert (x := e.2) h with ⟨hk, hv⟩ | h
        · exact .inl (by simp [Prod.ext hk hv])
        · exact .inr h
  exact (hfold [] h).resolve_right (by simp)

theorem get?_insertNew (d : Dictionary α) (k : String) (v : α) (key : String) :
    get? (insertNew d k v) key = (get? d key).or (if k = key then some v else none) := by
  unfold insertNew
  cases h : get? d k with
  | some x =>
    by_cases hk : k = key
    · simp [← hk, h]
    · simp [hk]
  | none =>
    by_cases hk : k = key
    · simp [← hk, h]
    · simp [hk, get?_insert_of_ne (Ne.symm hk)]

/-- Values may be changed, one by one. -/
theorem get?_map (d : Dictionary α) (f : String × α → β) (key : String) :
    get? (d.map fun e ↦ (e.1, f e)) key = (get? d key).map fun v ↦ f (key, v) := by
  induction d with
  | nil => rfl
  | cons e rest ih =>
    obtain ⟨k, v⟩ := e
    by_cases hk : k = key
    · simp [get?, hk]
    · simpa [get?, hk] using ih

/-- The entries of other keys do not matter. -/
theorem get?_filter_self (d : Dictionary α) (key : String) :
    get? (d.filter (·.1 = key)) key = get? d key := by
  induction d with
  | nil => rfl
  | cons e rest ih =>
    obtain ⟨k, v⟩ := e
    by_cases hk : k = key
    · simp [get?, hk]
    · simpa [get?, hk] using ih

/-- Entries that are added give values to keys that have none. -/
theorem get?_addMissing (d : Dictionary α) (entries : List (String × α)) (key : String) :
    get? (addMissing d entries) key = (get? d key).or (get? entries key) := by
  induction entries generalizing d with
  | nil => simp [addMissing]
  | cons e rest ih =>
    obtain ⟨k, v⟩ := e
    change get? (addMissing (insertNew d k v) rest) key = _
    rw [ih, get?_insertNew, Option.or_assoc, get?]
    split <;> rfl

instance : Decidable (Sorted d) := inferInstanceAs (Decidable (d.Pairwise fun a b ↦ a.1 < b.1))

namespace Sorted

theorem insert (h : Sorted d) (key : String) (v : α) : Sorted (insert d key v) := by
  induction d with
  | nil => simp [Dictionary.insert, Sorted]
  | cons e rest ih =>
    obtain ⟨k, x⟩ := e
    obtain ⟨hfirst, hrest⟩ := List.pairwise_cons.mp h
    rw [Dictionary.insert]
    split
    · next hk => exact List.pairwise_cons.mpr ⟨fun y hy ↦ hk ▸ hfirst y hy, hrest⟩
    · next hk =>
      split
      · next hlt =>
        refine List.pairwise_cons.mpr ⟨fun y hy ↦ ?_, h⟩
        rcases List.mem_cons.mp hy with rfl | hy
        · exact hlt
        · exact lt_trans hlt (hfirst y hy)
      · next hle =>
        have hlt : k < key := lt_of_le_of_ne (not_lt.mp hle) hk
        refine List.pairwise_cons.mpr ⟨fun y hy ↦ ?_, ih hrest⟩
        rcases mem_insert (x := y.2) hy with ⟨hy, -⟩ | hy
        · exact hy ▸ hlt
        · exact hfirst y hy

theorem insertNew (h : Sorted d) (key : String) (v : α) : Sorted (insertNew d key v) := by
  unfold Dictionary.insertNew
  split
  · exact h
  · exact h.insert key v

theorem addMissing (h : Sorted d) (entries : List (String × α)) : Sorted (addMissing d entries) := by
  induction entries generalizing d with
  | nil => exact h
  | cons e rest ih => exact ih (h.insertNew e.1 e.2)

theorem erase (h : Sorted d) (key : String) : Sorted (erase d key) := List.Pairwise.filter _ h

/-- Values may change, and entries may be left out. -/
theorem map_filter (h : Sorted d) (p : String × α → Bool) (f : String × α → β) :
    Sorted ((d.filter p).map fun e ↦ (e.1, f e)) :=
  List.Pairwise.map _ (fun _ _ hlt ↦ hlt) (List.Pairwise.filter p h)

/-- No key is repeated. -/
theorem nodup_keys (h : Sorted d) : (keys d).Nodup :=
  List.Pairwise.map _ (fun _ _ hlt ↦ ne_of_lt hlt) h

/-- No key has two entries. -/
theorem eq_of_mem (h : Sorted d) (hv : (key, v) ∈ d) (hx : (key, x) ∈ d) : v = x := by
  induction d with
  | nil => simp at hv
  | cons e rest ih =>
    obtain ⟨hfirst, hrest⟩ := List.pairwise_cons.mp h
    rcases List.mem_cons.mp hv with hv | hv <;> rcases List.mem_cons.mp hx with hx | hx
    · exact (Prod.mk.inj (hv.trans hx.symm)).2
    · exact absurd (hfirst (key, x) hx) (by simp [← hv])
    · exact absurd (hfirst (key, v) hv) (by simp [← hx])
    · exact ih hrest hv hx

theorem get?_eq_some_iff (h : Sorted d) : get? d key = some v ↔ (key, v) ∈ d := by
  constructor
  · exact mem_of_get?_eq_some
  · intro hmem
    have hkey : key ∈ keys d := List.mem_map_of_mem hmem
    obtain ⟨x, hx⟩ := Option.isSome_iff_exists.mp (mem_keys_iff.mp hkey)
    rw [hx, h.eq_of_mem (mem_of_get?_eq_some hx) hmem]

/-- Dictionaries with the same values are the same. -/
protected theorem ext {d' : Dictionary α} (h : Sorted d) (h' : Sorted d')
    (heq : ∀ key, get? d key = get? d' key) : d = d' := by
  have hnodup {d : Dictionary α} (h : Sorted d) : d.Nodup := List.Nodup.of_map _ h.nodup_keys
  have hperm : d.Perm d' := by
    refine (List.perm_ext_iff_of_nodup (hnodup h) (hnodup h')).mpr fun ⟨key, v⟩ ↦ ?_
    rw [← h.get?_eq_some_iff, ← h'.get?_eq_some_iff, heq]
  exact hperm.eq_of_pairwise (fun a b _ _ hab hba ↦ absurd hab (lt_asymm hba)) h h'

/-- To put what is there already changes nothing. -/
theorem insert_eq_self (h : Sorted d) (hv : get? d key = some v) : Dictionary.insert d key v = d := by
  refine (h.insert key v).ext h fun k ↦ ?_
  by_cases hk : k = key
  · rw [hk, get?_insert_self, hv]
  · rw [get?_insert_of_ne hk]

/-- Where keys are in order, what is left out of a dictionary is not found in it. -/
theorem get?_filter (h : Sorted d) (p : String × α → Bool) (key : String) :
    get? (d.filter p) key = (get? d key).filter fun v ↦ p (key, v) := by
  have hfilter : Sorted (d.filter p) := List.Pairwise.filter _ h
  ext v
  rw [hfilter.get?_eq_some_iff, List.mem_filter, Option.filter_eq_some_iff, h.get?_eq_some_iff]

end Sorted

theorem sorted_ofList (entries : List (String × α)) : Sorted (ofList entries) := by
  have hfold (d : Dictionary α) (h : Sorted d) :
      Sorted (entries.foldl (fun acc e ↦ insert acc e.1 e.2) d) := by
    induction entries generalizing d with
    | nil => exact h
    | cons e rest ih => exact ih _ (h.insert e.1 e.2)
  exact hfold [] List.Pairwise.nil

/-- Putting an entry adds its key. -/
theorem mem_keys_insert : k ∈ keys (insert d key v) ↔ k = key ∨ k ∈ keys d := by
  rw [mem_keys_iff, mem_keys_iff]
  by_cases hk : k = key
  · simp [hk]
  · simp [hk, get?_insert_of_ne]

/-- Adding entries adds their keys. -/
theorem mem_keys_addMissing {entries : List (String × α)} :
    k ∈ keys (addMissing d entries) ↔ k ∈ keys d ∨ k ∈ keys entries := by
  rw [mem_keys_iff, mem_keys_iff, mem_keys_iff, get?_addMissing, Option.isSome_or, Bool.or_eq_true]

theorem get?_eq_none_iff : get? d key = none ↔ key ∉ keys d := by
  rw [mem_keys_iff, Option.not_isSome_iff_eq_none]

/-- An entry behind all others is put at the end. -/
theorem insert_of_forall_lt (h : ∀ e ∈ d, e.1 < key) (v : α) : insert d key v = d ++ [(key, v)] := by
  induction d with
  | nil => rfl
  | cons e rest ih =>
    obtain ⟨hlt, hrest⟩ := List.forall_mem_cons.mp h
    rw [insert, if_neg (ne_of_lt hlt), if_neg (lt_asymm hlt), ih hrest, List.cons_append]

/-- Entries that are in order already stay as they are. -/
theorem ofList_of_sorted {entries : List (String × α)} (h : Sorted entries) :
    ofList entries = entries := by
  have hfold (d : Dictionary α) (rest : List (String × α)) (h : Sorted (d ++ rest)) :
      rest.foldl (fun acc e ↦ insert acc e.1 e.2) d = d ++ rest := by
    induction rest generalizing d with
    | nil => simp
    | cons e rest ih =>
      have hlt : ∀ x ∈ d, x.1 < e.1 := fun x hx ↦
        (List.pairwise_append.mp h).2.2 x hx e List.mem_cons_self
      rw [List.foldl_cons, insert_of_forall_lt hlt, ih]
      · simp
      · simpa using h
  exact hfold [] entries h

/-- Where no key is repeated, look-up does not see in which order the entries were listed. -/
theorem get?_ofList_of_nodup {entries : List (String × α)} (h : (keys entries).Nodup) (key : String) :
    get? (ofList entries) key = get? entries key := by
  have hfold (d : Dictionary α) :
      get? (entries.foldl (fun acc e ↦ insert acc e.1 e.2) d) key =
        (get? entries key).or (get? d key) := by
    induction entries generalizing d with
    | nil => rfl
    | cons e rest ih =>
      obtain ⟨hnew, hrest⟩ := List.nodup_cons.mp h
      rw [List.foldl_cons, ih hrest, get?]
      split
      · next hkey =>
        subst hkey
        rw [get?_eq_none_iff.mpr hnew, get?_insert_self]
        rfl
      · next hkey => rw [get?_insert_of_ne (Ne.symm hkey)]
  rw [ofList, hfold [], get?_nil, Option.or_none]

end Interchange.Dictionary
