import Interchange.Failure
import Interchange.Json.Written
import Interchange.Proofs.Json.Reading

/-!
# What is written and read back

An object may list its members in any order, and is written in that order; what is
read from a text has its objects in order.  So a value comes back from its text in
its canonical form at best, and a value is *legible* if it does (`Json.Legible`).
Not every value is: a text that nests too far is not read, and a number that is not
finite is not written.  In a legible value that is in order nothing gets lost
(`Json.Legible.decode_eq`).
-/

namespace Interchange

namespace Json

mutual

/-- The value with every object in order; of a repeated key the last value counts. -/
def canonical : Json → Json
  | .array items => .array (canonicalItems items)
  | .object members => .ofMembers (canonicalMembers members)
  | j => j

/-- The items of an array in canonical form. -/
def canonicalItems : List Json → List Json
  | [] => []
  | j :: rest => canonical j :: canonicalItems rest

/-- Members with their values in canonical form. -/
def canonicalMembers : List (String × Json) → List (String × Json)
  | [] => []
  | (k, j) :: rest => (k, canonical j) :: canonicalMembers rest

end

mutual

theorem canonical_of_ordered {j : Json} (h : j.Ordered) : j.canonical = j := by
  cases j with
  | null | bool | int | float | string => rfl
  | array items => rw [canonical, canonicalItems_of_ordered h]
  | object members =>
    rw [canonical, canonicalMembers_of_ordered h.2, ofMembers, Dictionary.ofList_of_sorted h.1]

theorem canonicalItems_of_ordered {items : List Json} (h : OrderedItems items) :
    canonicalItems items = items := by
  cases items with
  | nil => rfl
  | cons j rest => rw [canonicalItems, canonical_of_ordered h.1, canonicalItems_of_ordered h.2]

theorem canonicalMembers_of_ordered {members : List (String × Json)} (h : OrderedMembers members) :
    canonicalMembers members = members := by
  match members, h with
  | [], _ => rfl
  | (k, j) :: rest, h =>
    rw [canonicalMembers, canonical_of_ordered h.1, canonicalMembers_of_ordered h.2]

end

@[simp] theorem keys_canonicalMembers (members : List (String × Json)) :
    Dictionary.keys (canonicalMembers members) = Dictionary.keys members := by
  induction members with
  | nil => rfl
  | cons e rest ih => simpa [canonicalMembers, Dictionary.keys] using ih

theorem get?_canonicalMembers (members : List (String × Json)) (key : String) :
    Dictionary.get? (canonicalMembers members) key = (Dictionary.get? members key).map canonical := by
  induction members with
  | nil => rfl
  | cons e rest ih =>
    rw [canonicalMembers, Dictionary.get?, Dictionary.get?, ih]
    split <;> rfl

/-- An object that is made of members, of which none is repeated, has these members. -/
theorem get?_ofMembers {members : List (String × Json)} (h : (Dictionary.keys members).Nodup)
    (key : String) : (ofMembers members).get? key = Dictionary.get? members key := by
  rw [ofMembers, get?_object, Dictionary.get?_ofList_of_nodup h]

/-- The members of an object, if none is repeated, are those of its canonical form. -/
theorem get?_canonical {members : List (String × Json)} (h : (Dictionary.keys members).Nodup)
    (key : String) : (object members).canonical.get? key = ((object members).get? key).map canonical := by
  have hnodup : (Dictionary.keys (canonicalMembers members)).Nodup := by simpa using h
  rw [canonical, get?_ofMembers hnodup, get?_canonicalMembers, get?_object]

/-- The text of the value reads as the value, with its objects in order. -/
def Legible (j : Json) : Prop := decode j.bytes = .ok j.canonical

end Json

end Interchange
