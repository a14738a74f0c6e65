import Interchange.Json.Float
import Interchange.Text.Quoted
import Interchange.Text.Utf8

/-! # Why a text or a value is refused

A text can break the grammar of JSON, and a value can have another shape than the one asked for. A
fault tells where in the text it was noticed; a value that is read already has no such place.
-/

namespace Interchange.Json

/-- What was found where something else was asked for. -/
inductive Found where
  | null
  | bool (b : Bool)
  | int (n : Int)
  | float (x : Float)
  | string (s : String)
  | sequence
  | map
deriving DecidableEq

/-- How a value misses the shape asked for. -/
inductive Mismatch where
  | wrongType (found : Found) (expected : String)
  | wrongValue (found : Found) (expected : String)
  | missingField (name : String)
  | duplicateField (name : String)
  | unknownVariant (name : String) (variants : List String)
  | wrongLength (length : Nat) (expected : String)
  | unknownCode (code : Nat)
deriving DecidableEq

/-- What breaks the grammar of JSON. -/
inductive Breach where
  | endInValue
  | endInArray
  | endInObject
  | endInString
  | valueExpected
  | wordExpected
  | colonExpected
  | itemEndExpected
  | memberEndExpected
  | trailingComma
  | trailingText
  | keyExpected
  | badNumber
  | numberTooLarge
  | badEscape
  | loneSurrogate
  | surrogateUnpaired
  | badCodePoint
  | controlCharacter
  | tooDeep
deriving DecidableEq, Repr

/-- Why reading a text failed. -/
inductive Cause where
  | breach (b : Breach)
  | mismatch (m : Mismatch)
deriving DecidableEq

/-- A failed reading: its cause, and how many bytes were left behind the place where it was noticed. -/
structure Fault where
  cause : Cause
  left : Nat
deriving DecidableEq

/-- A line and a column, the column counting bytes since the last line break. -/
structure Position where
  line : Nat
  column : Nat
deriving DecidableEq, Repr

/-- The place behind these bytes. -/
def Position.after (bytes : Bytes) : Position :=
  bytes.foldl (fun p b ↦ if b = 0x0a then ⟨p.line + 1, 0⟩ else ⟨p.line, p.column + 1⟩) ⟨1, 0⟩

@[simp] theorem Position.after_nil : Position.after [] = ⟨1, 0⟩ := rfl

/-- How a message names what was found. -/
def Found.describe : Found → String
  | .null => "null"
  | .bool b => s!"boolean `{b}`"
  | .int n => s!"integer `{n}`"
  | .float x => "floating point `" ++ String.ofList (floatChars x) ++ "`"
  | .string s => "string " ++ Text.quoted s
  | .sequence => "sequence"
  | .map => "map"

/-- A name between the marks that messages put around names. -/
def marked (name : String) : String := s!"`{name}`"

/-- The choice of names that a message offers. -/
def oneOf : List String → String
  | [] => "there are no variants"
  | [a] => s!"expected {marked a}"
  | [a, b] => s!"expected {marked a} or {marked b}"
  | names => "expected one of " ++ ", ".intercalate (names.map marked)

/-- The text of a mismatch. -/
def Mismatch.message : Mismatch → String
  | .wrongType found expected => s!"invalid type: {found.describe}, expected {expected}"
  | .wrongValue found expected => s!"invalid value: {found.describe}, expected {expected}"
  | .missingField name => s!"missing field {marked name}"
  | .duplicateField name => s!"duplicate field {marked name}"
  | .unknownVariant name variants => s!"unknown variant {marked name}, {oneOf variants}"
  | .wrongLength length expected => s!"invalid length {length}, expected {expected}"
  | .unknownCode code => s!"unknown error code {code}"

/-- The text of a breach of the grammar. -/
def Breach.message : Breach → String
  | .endInValue => "EOF while parsing a value"
  | .endInArray => "EOF while parsing a list"
  | .endInObject => "EOF while parsing an object"
  | .endInString => "EOF while parsing a string"
  | .valueExpected => "expected value"
  | .wordExpected => "expected ident"
  | .colonExpected => "expected `:`"
  | .itemEndExpected => "expected `,` or `]`"
  | .memberEndExpected => "expected `,` or `\x7d`"
  | .trailingComma => "trailing comma"
  | .trailingText => "trailing characters"
  | .keyExpected => "key must be a string"
  | .badNumber => "invalid number"
  | .numberTooLarge => "number out of range"
  | .badEscape => "invalid escape"
  | .loneSurrogate => "lone leading surrogate in hex escape"
  | .surrogateUnpaired => "unexpected end of hex escape"
  | .badCodePoint => "invalid unicode code point"
  | .controlCharacter => "control character (\\u0000-\\u001F) found while parsing a string"
  | .tooDeep => "recursion limit exceeded"

/-- The text of a cause. -/
def Cause.message : Cause → String
  | .breach b => b.message
  | .mismatch m => m.message

/-- The text of a fault noticed in these bytes. -/
def Fault.message (text : Bytes) (f : Fault) : String :=
  let p := Position.after (text.take (text.length - f.left))
  s!"{f.cause.message} at line {p.line} column {p.column}"

end Interchange.Json
