/-! # Dictionaries

A dictionary lists its entries in strictly increasing order of their keys, which is also the order of
the keys' UTF-8 bytes. `Dictionary.insert` keeps that order; look-up says what each operation does.
-/

namespace Interchange

/-- Entries in the order of their keys. -/
abbrev Dictionary (α : Type u) := List (String × α)

namespace Dictionary

variable {α : Type u}

/-- The keys are in strictly increasing order. -/
def Sorted (d : Dictionary α) : Prop := d.Pairwise fun a b ↦ a.1 < b.1

/-- The value of a key. -/
def get? (d : Dictionary α) (key : String) : Option α :=
  match d with
  | [] => none
  | (k, v) :: rest => if k = key then some v else get? rest key

/-- Put an entry in its place; a key that is there already gets the new value. -/
def insert (d : Dictionary α) (key : String) (value : α) : Dictionary α :=
  match d with
  | [] => [(key, value)]
  | (k, v) :: rest =>
    if k = key then (key, value) :: rest
    else if key < k then (key, value) :: (k, v) :: rest
    else (k, v) :: insert rest key value

/-- Put an entry in its place unless the key has a value already. -/
def insertNew (d : Dictionary α) (key : String) (value : α) : Dictionary α :=
  match get? d key with
  | some _ => d
  | none => insert d key value

/-- Add every entry of a list whose key is not there yet. -/
def addMissing (d : Dictionary α) (entries : List (String × α)) : Dictionary α :=
  entries.foldl (fun acc e ↦ insertNew acc e.1 e.2) d

/-- The entries of a list; of a repeated key the last value counts. -/
def ofList (entries : List (String × α)) : Dictionary α :=
  entries.foldl (fun acc e ↦ insert acc e.1 e.2) []

/-- Remove a key. -/
def erase (d : Dictionary α) (key : String) : Dictionary α := d.filter fun e ↦ e.1 ≠ key

/-- Holds of a key that has a value. -/
def contains (d : Dictionary α) (key : String) : Bool := (get? d key).isSome

/-- The keys in order. -/
def keys (d : Dictionary α) : List String := d.map Prod.fst

@[simp] theorem get?_nil (key : String) : get? ([] : Dictionary α) key = none := rfl

@[simp] theorem get?_insert_self (d : Dictionary α) (key : String) (value : α) :
    get? (insert d key value) key = some value := by
  induction d with
  | nil => simp [insert, get?]
  | cons e rest ih =>
    obtain ⟨k, v⟩ := e
    by_cases h : k = key
    · simp [insert, get?, h]
    · by_cases hl : key < k
      · simp [insert, get?, h, hl]
      · simp [insert, get?, h, hl, ih]

theorem get?_insert_of_ne {key other : String} (h : other ≠ key) (d : Dictionary α) (value : α) :
    get? (insert d key value) other = get? d other := by
  induction d with
  | nil => simp [insert, get?, Ne.symm h]
  | cons e rest ih =>
    obtain ⟨k, v⟩ := e
    by_cases hk : k = key
    · subst hk; simp [insert, get?, Ne.symm h]
    · by_cases hl : key < k
      · simp [insert, get?, hk, hl, Ne.symm h]
      · simp [insert, get?, hk, hl, ih]

@[simp] theorem get?_erase_self (d : Dictionary α) (key : String) :
    get? (erase d key) key = none := by
  induction d with
  | nil => rfl
  | cons e rest ih =>
    obtain ⟨k, v⟩ := e
    by_cases h : k = key
    · simpa [erase, h] using ih
    · simpa [erase, get?, h] using ih

theorem get?_erase_of_ne {key other : String} (h : other ≠ key) (d : Dictionary α) :
    get? (erase d key) other = get? d other := by
  induction d with
  | nil => rfl
  | cons e rest ih =>
    obtain ⟨k, v⟩ := e
    by_cases hk : k = key
    · subst hk; simpa [erase, get?, Ne.symm h] using ih
    · simpa [erase, get?, hk] using congrArg (fun x ↦ if k = other then some v else x) ih

end Dictionary

end Interchange
