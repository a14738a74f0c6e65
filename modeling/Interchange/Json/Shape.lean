import Interchange.Json.Skip

/-! # Shapes

A shape says how to take a value of some type out of JSON, both from a value that is read already and
straight from text. From text the first fault in reading order counts, be it in the grammar or in the
shape, and members that nobody asked for are passed over.
-/

namespace Interchange.Json

/-- What kind of value it is. -/
def found : Json → Found
  | .null => .null
  | .bool b => .bool b
  | .int n => .int n
  | .float x => .float x
  | .string s => .string s
  | .array _ => .sequence
  | .object _ => .map

open Reader

/-- A mismatch noticed behind the last byte that was read. -/
def misfit {α : Type} (m : Mismatch) (left : Bytes) : Except Fault α :=
  .error ⟨.mismatch m, left.length⟩

/-- Put a result of a check in its place in the text. -/
def placed {α : Type} (checked : Except Mismatch α) (after : Bytes) : Except Fault (α × Bytes) :=
  match checked with
  | .ok x => .ok (x, after)
  | .error m => misfit m after

/-- Refuse what stands here in place of the expected. A scalar is read to its end first. -/
def refuse {α : Type} (expected : String) : Bytes → Except Fault α
  | [] => fail .endInValue []
  | b :: rest =>
    let wrong (found : Found) (after : Bytes) : Except Fault α :=
      misfit (.wrongType found expected) after
    if b = 'n'.toUInt8 then do wrong .null (← word ['u', 'l', 'l'] rest)
    else if b = 't'.toUInt8 then do wrong (.bool true) (← word ['r', 'u', 'e'] rest)
    else if b = 'f'.toUInt8 then do wrong (.bool false) (← word ['a', 'l', 's', 'e'] rest)
    else if b = '-'.toUInt8 then do
      let (n, after) ← number true rest
      wrong n.found after
    else if (digit? b).isSome then do
      let (n, after) ← number false (b :: rest)
      wrong n.found after
    else if b = '\"'.toUInt8 then do
      let (s, after) ← stringBody rest
      wrong (.string s) after
    else if b = '['.toUInt8 then wrong .sequence (b :: rest)
    else if b = '\x7b'.toUInt8 then wrong .map (b :: rest)
    else failAt .valueExpected (b :: rest)

/-- How to take an `α` out of a value, and out of text in which a number of further arrays and objects
may be opened. -/
structure Shape (α : Type) where
  ofJson : Json → Except Mismatch α
  read : Nat → Bytes → Except Fault (α × Bytes)

namespace Shape

/-- Take a value out of a whole text. -/
def parse {α : Type} (shape : Shape α) (text : Bytes) : Except Fault α :=
  finish (shape.read depthLimit text)

/-! ## Scalars -/

/-- Any value as it is. -/
def any : Shape Json where
  ofJson := .ok
  read := value

/-- A text. -/
def text : Shape String where
  ofJson
    | .string s => .ok s
    | j => .error (.wrongType j.found "a string")
  read _ bytes :=
    match skipBlank bytes with
    | [] => fail .endInValue []
    | b :: rest => if b = '\"'.toUInt8 then stringBody rest else refuse "a string" (b :: rest)

/-- A truth value. -/
def bool : Shape Bool where
  ofJson
    | .bool b => .ok b
    | j => .error (.wrongType j.found "a boolean")
  read _ bytes :=
    match skipBlank bytes with
    | [] => fail .endInValue []
    | b :: rest =>
      if b = 't'.toUInt8 then do .ok (true, ← word ['r', 'u', 'e'] rest)
      else if b = 'f'.toUInt8 then do .ok (false, ← word ['a', 'l', 's', 'e'] rest)
      else refuse "a boolean" (b :: rest)

/-- A number, checked once it is read. -/
def numeric {α : Type} (expected : String) (check : Json → Except Mismatch α) : Shape α where
  ofJson := check
  read _ bytes :=
    match skipBlank bytes with
    | [] => fail .endInValue []
    | b :: rest =>
      if b = '-'.toUInt8 then do
        let (n, after) ← number true rest
        placed (check n) after
      else if (digit? b).isSome then do
        let (n, after) ← number false (b :: rest)
        placed (check n) after
      else refuse expected (b :: rest)

/-- An integer from `low` to `high`. -/
def integer (expected : String) (low high : Int) : Shape Int :=
  numeric expected fun
    | .int n =>
      if low ≤ n ∧ n ≤ high then .ok n else .error (.wrongValue (.int n) expected)
    | j => .error (.wrongType j.found expected)

/-- A natural number of at most so many bits. -/
def unsigned (bits : Nat) : Shape Nat :=
  let expected := s!"u{bits}"
  numeric expected fun
    | .int n =>
      if 0 ≤ n ∧ n < Nat.pow 2 bits then .ok n.toNat else .error (.wrongValue (.int n) expected)
    | j => .error (.wrongType j.found expected)

/-- An integer of at most so many bits, the sign among them. -/
def signed (bits : Nat) : Shape Int :=
  let half : Int := Nat.pow 2 (bits - 1)
  integer s!"i{bits}" (-half) (half - 1)

/-- The double next to an integer. -/
def nearest (n : Int) : Float :=
  let size := n.natAbs.toUInt64.toFloat
  if n < 0 then -size else size

/-- A number in double precision. -/
def float : Shape Float :=
  numeric "f64" fun
    | .int n => .ok (nearest n)
    | .float x => .ok x
    | j => .error (.wrongType j.found "f64")

/-- Nothing but `null`. -/
def unit : Shape Unit where
  ofJson
    | .null => .ok ()
    | j => .error (.wrongType j.found "unit")
  read _ bytes :=
    match skipBlank bytes with
    | [] => fail .endInValue []
    | b :: rest =>
      if b = 'n'.toUInt8 then do .ok ((), ← word ['u', 'l', 'l'] rest) else refuse "unit" (b :: rest)

/-- Either `null` or a value of the shape. -/
def nullable {α : Type} (shape : Shape α) : Shape (Option α) where
  ofJson
    | .null => .ok none
    | j => (shape.ofJson j).map some
  read depth bytes :=
    match skipBlank bytes with
    | [] => fail .endInValue []
    | b :: rest =>
      if b = 'n'.toUInt8 then do .ok (none, ← word ['u', 'l', 'l'] rest)
      else do
        let (x, after) ← shape.read depth (b :: rest)
        .ok (some x, after)

/-! ## Names -/

/-- The meaning of a name among those listed. -/
def named {α : Type} (names : List (String × α)) (name : String) : Except Mismatch α :=
  match names.lookup name with
  | some x => .ok x
  | none => .error (.unknownVariant name (names.map Prod.fst))

/-- One of several names, either as a text or as the only key of an object that holds `null`. -/
def tag {α : Type} (names : List (String × α)) : Shape α where
  ofJson
    | .string s => named names s
    | .object [(key, content)] => do
      let x ← named names key
      unit.ofJson content
      .ok x
    | .object _ => .error (.wrongValue .map "map with a single key")
    | j => .error (.wrongType j.found "string or map")
  read depth bytes :=
    match skipBlank bytes with
    | [] => fail .endInValue []
    | b :: rest =>
      if b = '\"'.toUInt8 then do
        let (s, after) ← stringBody rest
        placed (named names s) after
      else if b = '\x7b'.toUInt8 then
        if depth = 0 then fail .tooDeep rest
        else do
          let (more, here) ← nextMember true rest
          if more then
            let (s, after) ← stringBody here
            let (x, after) ← placed (named names s) after
            let ((), after) ← unit.read (depth - 1) (← colon after)
            match skipBlank after with
            | [] => fail .endInObject []
            | c :: rest =>
              if c = '\x7d'.toUInt8 then .ok (x, rest) else fail .valueExpected (c :: rest)
          else failAt .valueExpected here
      else failAt .valueExpected (b :: rest)

/-! ## Sequences -/

/-- Where a refused item of an array is noticed: behind the closing bracket or the comma. -/
def behindItem (bytes : Bytes) : Bytes :=
  match skipBlank bytes with
  | [] => []
  | b :: rest =>
    if b = ']'.toUInt8 then rest
    else if b = ','.toUInt8 then skipBlank rest
    else b :: rest

/-- The items of an array, each checked when it is read. -/
def list {α β : Type} (item : Shape α) (check : α → Except Mismatch β) : Shape (List β) where
  ofJson
    | .array xs => xs.mapM fun j ↦ do check (← item.ofJson j)
    | j => .error (.wrongType j.found "a sequence")
  read depth bytes :=
    match skipBlank bytes with
    | [] => fail .endInValue []
    | b :: rest =>
      if b = '['.toUInt8 then
        if depth = 0 then fail .tooDeep rest
        else
          let checked (here : Bytes) : Except Fault (β × Bytes) := do
            let (x, after) ← item.read (depth - 1) here
            match check x with
            | .ok y => .ok (y, after)
            | .error m => misfit m (behindItem after)
          Reader.items checked (rest.length + 1) true rest
      else refuse "a sequence" (b :: rest)

/-- The end of an array of which nothing more is wanted. -/
def arrayEnd (bytes : Bytes) : Except Fault Bytes :=
  match skipBlank bytes with
  | [] => fail .endInArray []
  | b :: rest =>
    if b = ']'.toUInt8 then .ok rest
    else if b = ','.toUInt8 then
      match skipBlank rest with
      | [] => failAt .trailingText []
      | c :: rest =>
        if c = ']'.toUInt8 then failAt .trailingComma (c :: rest)
        else failAt .trailingText (c :: rest)
    else failAt .trailingText (b :: rest)

/-! ## Records -/

/-- Where a field may be left out. -/
inductive Absence where
  /-- Nowhere. -/
  | never
  /-- Among the members of an object, not among the items of an array. -/
  | inObjects
  /-- In objects, and at the end of arrays. -/
  | anywhere
deriving DecidableEq, Repr

/-- A field of a record `σ`: what it is called and how its content is put into the record. -/
structure Field (σ : Type) where
  name : String
  absence : Absence
  content : Shape (σ → σ)

/-- The shape of what a function makes of the content. -/
def map {α β : Type} (shape : Shape α) (f : α → β) : Shape β where
  ofJson j := (shape.ofJson j).map f
  read depth bytes := (shape.read depth bytes).map fun (x, after) ↦ (f x, after)

/-- A field with this content. -/
def Field.of {α σ : Type} (name : String) (absence : Absence) (shape : Shape α)
    (set : α → σ → σ) : Field σ :=
  ⟨name, absence, shape.map set⟩

variable {σ : Type}

/-- The first field that must be there and is not. -/
def missing? (fields : List (Field σ)) (present : List String) : Option String :=
  (fields.find? fun f ↦ f.absence = .never && !present.contains f.name).map Field.name

/-- How a message names the items that a record needs. -/
def itemsOf (name : String) (fields : List (Field σ)) : String :=
  s!"struct {name} with {fields.length} element" ++ if fields.length = 1 then "" else "s"

/-- Fill a record from the items of an array. -/
def fillFromItems (expected : String) : List (Field σ) → Nat → List Json → σ →
    Except Mismatch (σ × List Json)
  | [], _, items, r => .ok (r, items)
  | f :: fields, index, [], r =>
    if f.absence = .anywhere then fillFromItems expected fields (index + 1) [] r
    else .error (.wrongLength index expected)
  | f :: fields, index, j :: items, r => do
    let set ← f.content.ofJson j
    fillFromItems expected fields (index + 1) items (set r)

/-- Fill a record from the members of an object. -/
def fillFromMembers (fields : List (Field σ)) : List (String × Json) → σ → Except Mismatch σ
  | [], r => .ok r
  | (key, j) :: members, r =>
    match fields.find? (·.name = key) with
    | some f => do
      let set ← f.content.ofJson j
      fillFromMembers fields members (set r)
    | none => fillFromMembers fields members r

/-- Fill a record from the items of an array in a text. -/
def readItems (expected : String) (depth : Nat) : List (Field σ) → Nat → Bool → Bytes → σ →
    Except Fault (σ × Bytes)
  | [], _, _, bytes, r => do .ok (r, ← arrayEnd bytes)
  | f :: fields, index, first, bytes, r => do
    let (more, here) ← nextItem first bytes
    if more then
      let (set, after) ← f.content.read depth here
      readItems expected depth fields (index + 1) false after (set r)
    else if f.absence = .anywhere then readItems expected depth fields (index + 1) false here r
    else misfit (.wrongLength index expected) (here.drop 1)

/-- Where a repeated key is noticed: behind blanks and a closing brace. -/
def behindKey (bytes : Bytes) : Bytes :=
  match skipBlank bytes with
  | [] => []
  | b :: rest => if b = '\x7d'.toUInt8 then rest else b :: rest

/-- Fill a record from the members of an object in a text. -/
def readMembers (fields : List (Field σ)) (depth : Nat) : Nat → Bool → List String → Bytes → σ →
    Except Fault (σ × Bytes)
  | 0, _, _, _, _ => fail .endInObject []
  | rounds + 1, first, seen, bytes, r => do
    let (more, here) ← nextMember first bytes
    if more then
      let (key, after) ← stringBody here
      match fields.find? (·.name = key) with
      | some f =>
        if seen.contains key then misfit (.duplicateField key) (behindKey after)
        else
          let (set, after) ← f.content.read depth (← colon after)
          readMembers fields depth rounds false (key :: seen) after (set r)
      | none =>
        let after ← Skip.one (← colon after)
        readMembers fields depth rounds false seen after r
    else
      match missing? fields seen with
      | some name => misfit (.missingField name) (here.drop 1)
      | none => .ok (r, here.drop 1)

/-- A record that starts blank and is filled field by field, from an object or from an array that holds
the fields in order. -/
def record (name : String) (blank : σ) (fields : List (Field σ)) : Shape σ where
  ofJson
    | .object members => do
      let r ← fillFromMembers fields members blank
      match missing? fields (Dictionary.keys members) with
      | some field => .error (.missingField field)
      | none => .ok r
    | .array items => do
      let (r, rest) ← fillFromItems (itemsOf name fields) fields 0 items blank
      if rest.isEmpty then .ok r
      else .error (.wrongLength items.length "fewer elements in array")
    | j => .error (.wrongType j.found s!"struct {name}")
  read depth bytes :=
    match skipBlank bytes with
    | [] => fail .endInValue []
    | b :: rest =>
      if b = '['.toUInt8 then
        if depth = 0 then fail .tooDeep rest
        else readItems (itemsOf name fields) (depth - 1) fields 0 true rest blank
      else if b = '\x7b'.toUInt8 then
        if depth = 0 then fail .tooDeep rest
        else readMembers fields (depth - 1) (rest.length + 1) true [] rest blank
      else refuse s!"struct {name}" (b :: rest)

/-- Two items of an array. -/
def pair {α β : Type} (left : Shape α) (right : Shape β) : Shape (α × β) where
  ofJson
    | .array [] => .error (.wrongLength 0 "a tuple of size 2")
    | .array [x] => do
      let _ ← left.ofJson x
      .error (.wrongLength 1 "a tuple of size 2")
    | .array (x :: y :: rest) => do
      let a ← left.ofJson x
      let b ← right.ofJson y
      if rest.isEmpty then .ok (a, b)
      else .error (.wrongLength (rest.length + 2) "fewer elements in array")
    | j => .error (.wrongType j.found "a tuple of size 2")
  read depth bytes :=
    match skipBlank bytes with
    | [] => fail .endInValue []
    | b :: rest =>
      if b = '['.toUInt8 then
        if depth = 0 then fail .tooDeep rest
        else do
          let (more, here) ← nextItem true rest
          if more then
            let (x, after) ← left.read (depth - 1) here
            let (more, here) ← nextItem false after
            if more then
              let (y, after) ← right.read (depth - 1) here
              .ok ((x, y), ← arrayEnd after)
            else misfit (.wrongLength 1 "a tuple of size 2") (here.drop 1)
          else misfit (.wrongLength 0 "a tuple of size 2") (here.drop 1)
      else refuse "a tuple of size 2" (b :: rest)

end Shape

end Interchange.Json
