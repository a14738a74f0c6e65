import Interchange.Json.Value
import Interchange.Json.Fault

/-! # Reading JSON text

Every reader takes the bytes that are left and answers what it read with the bytes behind it. At most
127 arrays and objects may be open at once. The loops over items and members count down from the
number of bytes that are left, of which each round takes one.
-/

namespace Interchange.Json

namespace Reader

/-- A fault noticed behind the last byte that was read. -/
def fail {α : Type} (b : Breach) (left : Bytes) : Except Fault α :=
  .error ⟨.breach b, left.length⟩

/-- A fault noticed at the first byte that is left. -/
def failAt {α : Type} (b : Breach) (left : Bytes) : Except Fault α :=
  .error ⟨.breach b, left.length - 1⟩

/-! ## Blanks, words and digits -/

/-- The four blank characters of JSON. -/
def isBlankByte (b : UInt8) : Bool := b == 0x20 || b == 0x0a || b == 0x0d || b == 0x09

/-- The bytes from the first that is not blank. -/
def skipBlank (bytes : Bytes) : Bytes := bytes.dropWhile isBlankByte

/-- Pass over the rest of a word. -/
def word : List Char → Bytes → Except Fault Bytes
  | [], bytes => .ok bytes
  | _ :: _, [] => fail .endInValue []
  | c :: cs, b :: rest => if b = c.toUInt8 then word cs rest else fail .wordExpected rest

/-- The value of a decimal digit. -/
def digit? (b : UInt8) : Option Nat :=
  if 0x30 ≤ b && b ≤ 0x39 then some (b.toNat - 0x30) else none

/-- The digits at the front. -/
def takeDigits : Bytes → List Nat × Bytes
  | [] => ([], [])
  | b :: rest =>
    match digit? b with
    | some d => let (ds, after) := takeDigits rest; (d :: ds, after)
    | none => ([], b :: rest)

/-! ## Numbers -/

/-- The largest number of digits is kept that fits 64 bits; the count of the others is answered. -/
def gatherWhole : Nat → List Nat → Nat × Nat
  | sum, [] => (sum, 0)
  | sum, d :: ds =>
    if sum * 10 + d < 0x10000000000000000 then gatherWhole (sum * 10 + d) ds else (sum, ds.length + 1)

/-- Digits behind the point are added while 64 bits hold them; the count of those is answered. -/
def gatherFraction : Nat → List Nat → Nat × Nat
  | sum, [] => (sum, 0)
  | sum, d :: ds =>
    if sum * 10 + d < 0x10000000000000000 then
      let (total, count) := gatherFraction (sum * 10 + d) ds
      (total, count + 1)
    else (sum, 0)

/-- A power of ten with an exponent of at most 308. -/
def tenTo (e : Nat) : Float := Float.ofScientific 1 false e

/-- `x · 10 ^ e` in double precision, in steps of at most `10 ^ 308`; none if it is too large. -/
def scale : Nat → Float → Int → Option Float
  | 0, x, _ => some x
  | steps + 1, x, e =>
    if e.natAbs ≤ 308 then
      if 0 ≤ e then
        let y := x * tenTo e.natAbs
        if y.isFinite then some y else none
      else some (x / tenTo e.natAbs)
    else if x == 0 then some x
    else if 0 ≤ e then none
    else scale steps (x / tenTo 308) (e + 308)

/-- The number `sum · 10 ^ e`; a positive double divided four times by `10 ^ 308` is zero. -/
def scaled (negative : Bool) (sum : Nat) (e : Int) : Option Float :=
  (scale 4 sum.toUInt64.toFloat e).map fun x ↦ if negative then -x else x

/-- A number without point and exponent of which all digits were kept. -/
def wholeNumber (negative : Bool) (sum : Nat) : Json :=
  if !negative then .int sum
  else if sum ≠ 0 ∧ sum ≤ 0x8000000000000000 then .int (-sum)
  else .float (-sum.toUInt64.toFloat)

/-- The digits of an exponent behind the first; none once it is beyond 31 bits, which `refuse` says is
a number too large. -/
def exponentDigits (refuse : Bool) : Nat → Bytes → Except Fault (Option Nat × Bytes)
  | e, [] => .ok (some e, [])
  | e, b :: rest =>
    match digit? b with
    | none => .ok (some e, b :: rest)
    | some d =>
      if e * 10 + d < 0x80000000 then exponentDigits refuse (e * 10 + d) rest
      else if refuse then fail .numberTooLarge rest
      else .ok (none, (takeDigits rest).2)

/-- The sign of an exponent: whether it is negative. -/
def exponentSign : Bytes → Bool × Bytes
  | [] => (false, [])
  | b :: rest =>
    if b = '-'.toUInt8 then (true, rest)
    else if b = '+'.toUInt8 then (false, rest)
    else (false, b :: rest)

/-- An exponent behind its letter; none for one that makes any number zero. -/
def exponent (zero : Bool) (bytes : Bytes) : Except Fault (Option Int × Bytes) :=
  let (below, digits) := exponentSign bytes
  match digits with
  | [] => fail .endInValue []
  | b :: rest =>
    match digit? b with
    | none => fail .badNumber rest
    | some d => do
      let (e, after) ← exponentDigits (!zero && !below) d rest
      .ok (e.map fun n ↦ if below then -(n : Int) else n, after)

/-- Holds of the letter that starts an exponent. -/
def isExponentLetter (b : UInt8) : Bool := b == 'e'.toUInt8 || b == 'E'.toUInt8

/-- The double with these digits, behind which an exponent may stand. -/
def doubleTail (negative : Bool) (sum : Nat) (place : Int) (bytes : Bytes) :
    Except Fault (Json × Bytes) :=
  let finish (e : Int) (after : Bytes) : Except Fault (Json × Bytes) :=
    match scaled negative sum e with
    | some x => .ok (.float x, after)
    | none => fail .numberTooLarge after
  match bytes with
  | [] => finish place []
  | b :: rest =>
    if isExponentLetter b then do
      let (e, after) ← exponent (sum == 0) rest
      match e with
      | some e => finish (place + e) after
      | none => .ok (.float (if negative then -0.0 else 0.0), after)
    else finish place (b :: rest)

/-- A number behind its whole digits. -/
def numberTail (negative : Bool) (whole : List Nat) (bytes : Bytes) :
    Except Fault (Json × Bytes) :=
  let (sum, dropped) := gatherWhole 0 whole
  match bytes with
  | [] =>
    if dropped = 0 then .ok (wholeNumber negative sum, []) else doubleTail negative sum dropped []
  | b :: rest =>
    if b = '.'.toUInt8 then
      let (fraction, after) := takeDigits rest
      if fraction.isEmpty then
        if after.isEmpty then fail .endInValue [] else failAt .badNumber after
      else
        let (total, count) := gatherFraction sum fraction
        doubleTail negative total (dropped - count) after
    else if isExponentLetter b || dropped ≠ 0 then doubleTail negative sum dropped (b :: rest)
    else .ok (wholeNumber negative sum, b :: rest)

/-- A number behind its sign. -/
def number (negative : Bool) (bytes : Bytes) : Except Fault (Json × Bytes) :=
  match bytes with
  | [] => fail .endInValue []
  | b :: rest =>
    match digit? b with
    | none => fail .badNumber rest
    | some d =>
      let (digits, after) := takeDigits rest
      if d = 0 ∧ digits ≠ [] then failAt .badNumber rest
      else numberTail negative (d :: digits) after

/-! ## Strings -/

/-- The value of a hexadecimal digit. -/
def hexDigit? (b : UInt8) : Option Nat :=
  if 0x30 ≤ b && b ≤ 0x39 then some (b.toNat - 0x30)
  else if 0x61 ≤ b && b ≤ 0x66 then some (b.toNat - 0x61 + 10)
  else if 0x41 ≤ b && b ≤ 0x46 then some (b.toNat - 0x41 + 10)
  else none

/-- Four hexadecimal digits. -/
def hexFour : Bytes → Except Fault Nat
  | a :: b :: c :: d :: rest =>
    match hexDigit? a, hexDigit? b, hexDigit? c, hexDigit? d with
    | some a, some b, some c, some d => .ok (((a * 16 + b) * 16 + c) * 16 + d)
    | _, _, _, _ => fail .badEscape rest
  | _ => fail .endInString []

/-- The character that an escape letter stands for. -/
def unescape? (b : UInt8) : Option Char :=
  if b = '\"'.toUInt8 then some '\"'
  else if b = '\\'.toUInt8 then some '\\'
  else if b = '/'.toUInt8 then some '/'
  else if b = 'b'.toUInt8 then some '\x08'
  else if b = 'f'.toUInt8 then some '\x0c'
  else if b = 'n'.toUInt8 then some '\n'
  else if b = 'r'.toUInt8 then some '\r'
  else if b = 't'.toUInt8 then some '\t'
  else none

/-- Holds of the first code of a surrogate pair. -/
def isHighSurrogate (n : Nat) : Bool := 0xd800 ≤ n && n ≤ 0xdbff

/-- Holds of the second code of a surrogate pair. -/
def isLowSurrogate (n : Nat) : Bool := 0xdc00 ≤ n && n ≤ 0xdfff

/-- The code behind the first of a pair: `\u` and four digits. -/
def pairedCode : Bytes → Except Fault Nat
  | [] => fail .endInString []
  | b :: rest =>
    if b = '\\'.toUInt8 then
      match rest with
      | [] => fail .endInString []
      | c :: rest =>
        if c = 'u'.toUInt8 then do
          let low ← hexFour rest
          if isLowSurrogate low then .ok low else fail .loneSurrogate (rest.drop 4)
        else fail .surrogateUnpaired rest
    else fail .surrogateUnpaired rest

/-- The character written by its code, and how many bytes stand behind the letter `u`. -/
def codeEscape (bytes : Bytes) : Except Fault (Char × Nat) := do
  let n ← hexFour bytes
  if isLowSurrogate n then fail .loneSurrogate (bytes.drop 4)
  else if isHighSurrogate n then do
    let low ← pairedCode (bytes.drop 4)
    .ok (Char.ofNat (0x10000 + (n - 0xd800) * 0x400 + (low - 0xdc00)), 10)
  else .ok (Char.ofNat n, 4)

/-- The character of an escape, and how many bytes stand behind the backslash. -/
def escape : Bytes → Except Fault (Char × Nat)
  | [] => fail .endInString []
  | b :: rest =>
    match unescape? b with
    | some c => .ok (c, 1)
    | none =>
      if b = 'u'.toUInt8 then do
        let (c, taken) ← codeEscape rest
        .ok (c, taken + 1)
      else fail .badEscape rest

/-- Look for the end of a string without asking whether its bytes are UTF-8: how many bytes it stands
for, an escape for those of its character, and the bytes behind the closing quote. -/
def stringEnd : Nat → Bytes → Except Fault (Nat × Bytes)
  | _, [] => fail .endInString []
  | skip + 1, _ :: rest => stringEnd skip rest
  | 0, b :: rest =>
    if b = '\"'.toUInt8 then .ok (0, rest)
    else if b = '\\'.toUInt8 then do
      let (c, taken) ← escape rest
      let (size, after) ← stringEnd taken rest
      .ok (c.utf8Size + size, after)
    else if b < 0x20 then fail .controlCharacter rest
    else do
      let (size, after) ← stringEnd 0 rest
      .ok (size + 1, after)

/-- The characters of a string up to its closing quote, after passing over some bytes. A byte that
does not belong to UTF-8 is reported once the string is known to end. Its place is counted back from
the closing quote over the bytes that the string stands for, so an escape counts for fewer bytes than
it takes. -/
def stringTail : Nat → Bytes → Except Fault (List Char × Bytes)
  | _, [] => fail .endInString []
  | skip + 1, _ :: rest => stringTail skip rest
  | 0, b :: rest =>
    if b = '\"'.toUInt8 then .ok ([], rest)
    else if b = '\\'.toUInt8 then do
      let (c, taken) ← escape rest
      let (cs, after) ← stringTail taken rest
      .ok (c :: cs, after)
    else if b < 0x20 then fail .controlCharacter rest
    else
      match Utf8.next? (b :: rest) with
      | some c => do
        let (cs, after) ← stringTail (c.utf8Size - 1) rest
        .ok (c :: cs, after)
      | none => do
        let (size, after) ← stringEnd 0 rest
        .error ⟨.breach .badCodePoint, after.length + size + 1⟩

/-- A string behind its opening quote. -/
def stringBody (bytes : Bytes) : Except Fault (String × Bytes) := do
  let (cs, after) ← stringTail 0 bytes
  .ok (String.ofList cs, after)

/-! ## Arrays and objects -/

/-- Go to the next item of an array: whether there is one, and the bytes at the item or at the closing
bracket. -/
def nextItem (first : Bool) (bytes : Bytes) : Except Fault (Bool × Bytes) :=
  match skipBlank bytes with
  | [] => fail .endInArray []
  | b :: rest =>
    if b = ']'.toUInt8 then .ok (false, b :: rest)
    else if first then .ok (true, b :: rest)
    else if b = ','.toUInt8 then
      match skipBlank rest with
      | [] => fail .endInValue []
      | c :: rest =>
        if c = ']'.toUInt8 then failAt .trailingComma (c :: rest) else .ok (true, c :: rest)
    else failAt .itemEndExpected (b :: rest)

/-- Go to the next member of an object: whether there is one, and the bytes behind the opening quote
of its key or at the closing brace. -/
def nextMember (first : Bool) (bytes : Bytes) : Except Fault (Bool × Bytes) :=
  match skipBlank bytes with
  | [] => fail .endInObject []
  | b :: rest =>
    if b = '\x7d'.toUInt8 then .ok (false, b :: rest)
    else if first then
      if b = '\"'.toUInt8 then .ok (true, rest) else failAt .keyExpected (b :: rest)
    else if b = ','.toUInt8 then
      match skipBlank rest with
      | [] => fail .endInValue []
      | c :: rest =>
        if c = '\"'.toUInt8 then .ok (true, rest)
        else if c = '\x7d'.toUInt8 then failAt .trailingComma (c :: rest)
        else failAt .keyExpected (c :: rest)
    else failAt .memberEndExpected (b :: rest)

/-- Pass over the colon behind a key. -/
def colon (bytes : Bytes) : Except Fault Bytes :=
  match skipBlank bytes with
  | [] => fail .endInObject []
  | b :: rest => if b = ':'.toUInt8 then .ok rest else failAt .colonExpected (b :: rest)

/-- The items that are left, and the bytes behind the closing bracket. -/
def items {α : Type} (item : Bytes → Except Fault (α × Bytes)) :
    Nat → Bool → Bytes → Except Fault (List α × Bytes)
  | 0, _, _ => fail .endInArray []
  | rounds + 1, first, bytes => do
    let (more, here) ← nextItem first bytes
    if more then
      let (x, after) ← item here
      let (xs, after) ← items item rounds false after
      .ok (x :: xs, after)
    else .ok ([], here.drop 1)

/-- The members that are left, and the bytes behind the closing brace. -/
def members {α : Type} (value : Bytes → Except Fault (α × Bytes)) :
    Nat → Bool → Bytes → Except Fault (List (String × α) × Bytes)
  | 0, _, _ => fail .endInObject []
  | rounds + 1, first, bytes => do
    let (more, here) ← nextMember first bytes
    if more then
      let (key, after) ← stringBody here
      let after ← colon after
      let (x, after) ← value after
      let (xs, after) ← members value rounds false after
      .ok ((key, x) :: xs, after)
    else .ok ([], here.drop 1)

/-! ## Values -/

/-- A value, of which arrays and objects are read behind their opening bracket as told. -/
def valueBy (array object : Bytes → Except Fault (Json × Bytes)) (bytes : Bytes) :
    Except Fault (Json × Bytes) :=
  match skipBlank bytes with
  | [] => fail .endInValue []
  | b :: rest =>
    if b = 'n'.toUInt8 then do .ok (.null, ← word ['u', 'l', 'l'] rest)
    else if b = 't'.toUInt8 then do .ok (.bool true, ← word ['r', 'u', 'e'] rest)
    else if b = 'f'.toUInt8 then do .ok (.bool false, ← word ['a', 'l', 's', 'e'] rest)
    else if b = '-'.toUInt8 then number true rest
    else if (digit? b).isSome then number false (b :: rest)
    else if b = '\"'.toUInt8 then do
      let (s, after) ← stringBody rest
      .ok (.string s, after)
    else if b = '['.toUInt8 then array rest
    else if b = '\x7b'.toUInt8 then object rest
    else failAt .valueExpected (b :: rest)

/-- A value with at most this many arrays and objects around one another. -/
def value : Nat → Bytes → Except Fault (Json × Bytes)
  | 0 => valueBy (fail .tooDeep) (fail .tooDeep)
  | depth + 1 =>
    valueBy
      (fun bytes ↦ do
        let (xs, after) ← items (value depth) (bytes.length + 1) true bytes
        .ok (.array xs, after))
      (fun bytes ↦ do
        let (ms, after) ← members (value depth) (bytes.length + 1) true bytes
        .ok (ofMembers ms, after))

/-- How many arrays and objects may be open at once. -/
def depthLimit : Nat := 127

/-- The end of a text, behind which only blanks may stand. -/
def finish {α : Type} : Except Fault (α × Bytes) → Except Fault α
  | .error f => .error f
  | .ok (x, after) =>
    match skipBlank after with
    | [] => .ok x
    | rest => failAt .trailingText rest

end Reader

/-- The value that a text holds. -/
def parse (text : Bytes) : Except Fault Json := Reader.finish (Reader.value Reader.depthLimit text)

end Interchange.Json
