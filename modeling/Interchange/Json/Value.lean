import Interchange.Dictionary

/-! # JSON values

The members of an object form a dictionary. `Json.Ordered` says so of a whole value, and `Json.depth`
is what limits how far a text may nest.
-/

namespace Interchange

/-- A JSON value. -/
inductive Json where
  | null
  | bool (b : Bool)
  | int (n : Int)
  | float (x : Float)
  | string (s : String)
  | array (items : List Json)
  | object (members : List (String × Json))
deriving Inhabited

namespace Json

/-- The object with these members; of a repeated key the last value counts. -/
def ofMembers (members : List (String × Json)) : Json := .object (Dictionary.ofList members)

/-- A member of an object. -/
def get? (j : Json) (key : String) : Option Json :=
  match j with
  | .object members => Dictionary.get? members key
  | _ => none

/-- The text of a string value. -/
def asString? : Json → Option String
  | .string s => some s
  | _ => none

mutual

/-- Every object in the value has its keys in strictly increasing order. -/
def Ordered : Json → Prop
  | .array items => OrderedItems items
  | .object members => Dictionary.Sorted members ∧ OrderedMembers members
  | _ => True

/-- The order of objects inside the items of an array. -/
def OrderedItems : List Json → Prop
  | [] => True
  | j :: rest => Ordered j ∧ OrderedItems rest

/-- The order of objects inside the members of an object. -/
def OrderedMembers : List (String × Json) → Prop
  | [] => True
  | (_, j) :: rest => Ordered j ∧ OrderedMembers rest

end

mutual

/-- How deep arrays and objects are nested. -/
def depth : Json → Nat
  | .array items => depthItems items + 1
  | .object members => depthMembers members + 1
  | _ => 0

/-- The greatest depth among the items of an array. -/
def depthItems : List Json → Nat
  | [] => 0
  | j :: rest => max (depth j) (depthItems rest)

/-- The greatest depth among the members of an object. -/
def depthMembers : List (String × Json) → Nat
  | [] => 0
  | (_, j) :: rest => max (depth j) (depthMembers rest)

end

mutual

/-- Equality of values is decidable. -/
def decEq : (a b : Json) → Decidable (a = b)
  | .null, b => match b with
    | .null => isTrue rfl
    | .bool _ | .int _ | .float _ | .string _ | .array _ | .object _ => isFalse nofun
  | .bool x, b => match b with
    | .bool y => decidable_of_iff (x = y) (by simp)
    | .null | .int _ | .float _ | .string _ | .array _ | .object _ => isFalse nofun
  | .int x, b => match b with
    | .int y => decidable_of_iff (x = y) (by simp)
    | .null | .bool _ | .float _ | .string _ | .array _ | .object _ => isFalse nofun
  | .float x, b => match b with
    | .float y => decidable_of_iff (x = y) (by simp)
    | .null | .bool _ | .int _ | .string _ | .array _ | .object _ => isFalse nofun
  | .string x, b => match b with
    | .string y => decidable_of_iff (x = y) (by simp)
    | .null | .bool _ | .int _ | .float _ | .array _ | .object _ => isFalse nofun
  | .array x, b => match b with
    | .array y => match decEqItems x y with
      | isTrue h => isTrue (congrArg Json.array h)
      | isFalse h => isFalse fun e ↦ h (Json.array.inj e)
    | .null | .bool _ | .int _ | .float _ | .string _ | .object _ => isFalse nofun
  | .object x, b => match b with
    | .object y => match decEqMembers x y with
      | isTrue h => isTrue (congrArg Json.object h)
      | isFalse h => isFalse fun e ↦ h (Json.object.inj e)
    | .null | .bool _ | .int _ | .float _ | .string _ | .array _ => isFalse nofun

/-- Equality of lists of items is decidable. -/
def decEqItems : (a b : List Json) → Decidable (a = b)
  | [], [] => isTrue rfl
  | [], _ :: _ | _ :: _, [] => isFalse nofun
  | x :: xs, y :: ys =>
    match decEq x y, decEqItems xs ys with
    | isTrue h, isTrue h' => isTrue (by rw [h, h'])
    | isFalse h, _ => isFalse fun e ↦ h (List.cons.inj e).1
    | _, isFalse h => isFalse fun e ↦ h (List.cons.inj e).2

/-- Equality of lists of members is decidable. -/
def decEqMembers : (a b : List (String × Json)) → Decidable (a = b)
  | [], [] => isTrue rfl
  | [], _ :: _ | _ :: _, [] => isFalse nofun
  | (k, x) :: xs, (l, y) :: ys =>
    if hk : k = l then
      match decEq x y, decEqMembers xs ys with
      | isTrue h, isTrue h' => isTrue (by rw [hk, h, h'])
      | isFalse h, _ => isFalse fun e ↦ h (Prod.mk.inj (List.cons.inj e).1).2
      | _, isFalse h => isFalse fun e ↦ h (List.cons.inj e).2
    else isFalse fun e ↦ hk (Prod.mk.inj (List.cons.inj e).1).1

end

instance : DecidableEq Json := decEq

@[simp] theorem get?_object (members : Dictionary Json) (key : String) :
    (Json.object members).get? key = members.get? key := rfl

end Json

end Interchange
