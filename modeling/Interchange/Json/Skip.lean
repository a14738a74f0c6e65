import Interchange.Json.Reader

/-! # Passing over a value

A member that nobody asked for is passed over. Only its outline is checked: its numbers may be of any
size, its strings may hold any bytes, and it may nest without limit.
-/

namespace Interchange.Json.Skip

open Reader

/-- Pass over an exponent behind its letter. -/
def exponent (bytes : Bytes) : Except Fault Bytes :=
  match (exponentSign bytes).2 with
  | [] => fail .badNumber []
  | b :: rest =>
    if (digit? b).isSome then .ok (takeDigits rest).2 else fail .badNumber rest

/-- Pass over what may stand behind the whole digits of a number. -/
def numberTail (bytes : Bytes) : Except Fault Bytes :=
  match bytes with
  | [] => .ok []
  | b :: rest =>
    if b = '.'.toUInt8 then
      let (fraction, after) := takeDigits rest
      if fraction.isEmpty then failAt .badNumber after
      else
        match after with
        | [] => .ok []
        | c :: behind => if isExponentLetter c then exponent behind else .ok after
    else if isExponentLetter b then exponent rest
    else .ok (b :: rest)

/-- Pass over a number behind its sign. -/
def number (bytes : Bytes) : Except Fault Bytes :=
  match bytes with
  | [] => fail .badNumber []
  | b :: rest =>
    match digit? b with
    | none => fail .badNumber rest
    | some d =>
      let (digits, after) := takeDigits rest
      if d = 0 ∧ digits ≠ [] then failAt .badNumber rest else numberTail after

/-- How many bytes an escape takes behind its backslash. -/
def escape : Bytes → Except Fault Nat
  | [] => fail .endInString []
  | b :: rest =>
    match unescape? b with
    | some _ => .ok 1
    | none =>
      if b = 'u'.toUInt8 then do
        let _ ← hexFour rest
        .ok 5
      else fail .badEscape rest

/-- Pass over a string up to its closing quote, after passing over some bytes. -/
def string : Nat → Bytes → Except Fault Bytes
  | _, [] => fail .endInString []
  | skip + 1, _ :: rest => string skip rest
  | 0, b :: rest =>
    if b = '\"'.toUInt8 then .ok rest
    else if b = '\\'.toUInt8 then do
      let taken ← escape rest
      string taken rest
    else if b < 0x20 then fail .controlCharacter (b :: rest)
    else string 0 rest

mutual

/-- Pass over a value. -/
def value : Nat → Bytes → Except Fault Bytes
  | 0, _ => fail .endInValue []
  | rounds + 1, bytes =>
    match skipBlank bytes with
    | [] => fail .endInValue []
    | b :: rest =>
      if b = 'n'.toUInt8 then word ['u', 'l', 'l'] rest
      else if b = 't'.toUInt8 then word ['r', 'u', 'e'] rest
      else if b = 'f'.toUInt8 then word ['a', 'l', 's', 'e'] rest
      else if b = '-'.toUInt8 then number rest
      else if (digit? b).isSome then number (b :: rest)
      else if b = '\"'.toUInt8 then string 0 rest
      else if b = '['.toUInt8 then items rounds true rest
      else if b = '\x7b'.toUInt8 then members rounds true rest
      else failAt .valueExpected (b :: rest)

/-- Pass over the items that are left, and the closing bracket. -/
def items : Nat → Bool → Bytes → Except Fault Bytes
  | 0, _, _ => fail .endInArray []
  | rounds + 1, first, bytes =>
    match skipBlank bytes with
    | [] => fail .endInArray []
    | b :: rest =>
      if b = ']'.toUInt8 then .ok rest
      else if first then do items rounds false (← value rounds (b :: rest))
      else if b = ','.toUInt8 then do items rounds false (← value rounds rest)
      else failAt .itemEndExpected (b :: rest)

/-- Pass over the members that are left, and the closing brace. -/
def members : Nat → Bool → Bytes → Except Fault Bytes
  | 0, _, _ => fail .endInObject []
  | rounds + 1, first, bytes =>
    match skipBlank bytes with
    | [] => fail .endInObject []
    | b :: rest =>
      if b = '\x7d'.toUInt8 then .ok rest
      else if first then member rounds (b :: rest)
      else if b = ','.toUInt8 then member rounds rest
      else failAt .memberEndExpected (b :: rest)

/-- Pass over a member and those behind it. -/
def member : Nat → Bytes → Except Fault Bytes
  | 0, _ => fail .endInObject []
  | rounds + 1, bytes =>
    match skipBlank bytes with
    | [] => fail .endInObject []
    | b :: rest =>
      if b = '\"'.toUInt8 then do
        let after ← colon (← string 0 rest)
        members rounds false (← value rounds after)
      else failAt .keyExpected (b :: rest)

end

/-- Pass over the value that the bytes start with; no byte is looked at in more than three rounds. -/
def one (bytes : Bytes) : Except Fault Bytes := value (3 * bytes.length + 3) bytes

end Interchange.Json.Skip
