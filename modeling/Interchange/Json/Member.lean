import Interchange.Json.Shape

/-! # Members by their kind

Taking members of a known kind out of an object. A member that is missing, `null` or of another kind
counts as absent.
-/

namespace Interchange.Json

/-- A whole number that is not negative. -/
def asNat? : Json → Option Nat
  | .int n => if 0 ≤ n then some n.toNat else none
  | _ => none

/-- A whole number. -/
def asInt? : Json → Option Int
  | .int n => some n
  | _ => none

/-- A truth value. -/
def asBool? : Json → Option Bool
  | .bool b => some b
  | _ => none

/-- The items of an array. -/
def asItems? : Json → Option (List Json)
  | .array items => some items
  | _ => none

/-- The members of an object. -/
def asMembers? : Json → Option (List (String × Json))
  | .object members => some members
  | _ => none

/-- A member other than `null`. -/
def present? (j : Json) (key : String) : Option Json := (j.get? key).filter (· ≠ .null)

/-- A member that is a text. -/
def text? (j : Json) (key : String) : Option String := (j.get? key).bind asString?

/-- A member that is a text, or else the empty text. -/
def text (j : Json) (key : String) : String := (j.text? key).getD ""

/-- A member that is a whole number, not negative. -/
def nat? (j : Json) (key : String) : Option Nat := (j.get? key).bind asNat?

/-- A member that is a truth value. -/
def bool? (j : Json) (key : String) : Option Bool := (j.get? key).bind asBool?

/-- The items of a member that is an array. -/
def items (j : Json) (key : String) : List Json := ((j.get? key).bind asItems?).getD []

/-- The members of a member that is an object. -/
def members (j : Json) (key : String) : List (String × Json) :=
  ((j.get? key).bind asMembers?).getD []

/-- A member that has a shape. -/
def shaped? {α : Type} (j : Json) (key : String) (shape : Shape α) : Option α :=
  (j.present? key).bind fun x ↦ (shape.ofJson x).toOption

/-- A text, or `null` for none. -/
def ofText? (s : Option String) : Json := (s.map .string).getD .null

end Interchange.Json
