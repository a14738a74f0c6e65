import Interchange.Json.Value
import Interchange.Json.Float
import Interchange.Text.Utf8

/-! # The written form of a JSON value

The text has no blanks. Characters stand for themselves except the quote, the backslash and the
controls below the space. Members are written in the order in which the object lists them.
-/

namespace Interchange.Json

/-- The letter of a control character that has a short escape. -/
def escapeLetter? : Char → Option Char
  | '\"' => some '\"'
  | '\\' => some '\\'
  | '\x08' => some 'b'
  | '\x0c' => some 'f'
  | '\n' => some 'n'
  | '\r' => some 'r'
  | '\t' => some 't'
  | _ => none

/-- A character as it stands inside a string. -/
def stringChar (c : Char) : List Char :=
  match escapeLetter? c with
  | some letter => ['\\', letter]
  | none =>
    if c.toNat < 0x20 then
      ['\\', 'u', '0', '0', Nat.digitChar (c.toNat / 16), Nat.digitChar (c.toNat % 16)]
    else [c]

/-- A text between quotes. -/
def stringChars (s : String) : List Char := '\"' :: (s.toList.flatMap stringChar ++ ['\"'])

/-- The text of an integer. -/
def intChars (n : Int) : List Char :=
  if n < 0 then '-' :: Decimal.digitChars n.natAbs else Decimal.digitChars n.natAbs

mutual

/-- The written form as a list of characters. -/
def chars : Json → List Char
  | .null => ['n', 'u', 'l', 'l']
  | .bool true => ['t', 'r', 'u', 'e']
  | .bool false => ['f', 'a', 'l', 's', 'e']
  | .int n => intChars n
  | .float x => floatChars x
  | .string s => stringChars s
  | .array [] => ['[', ']']
  | .array (j :: rest) => '[' :: (chars j ++ itemChars rest)
  | .object [] => ['\x7b', '\x7d']
  | .object ((k, j) :: rest) => '\x7b' :: (stringChars k ++ ':' :: (chars j ++ memberChars rest))

/-- The items after the first, and the closing bracket. -/
def itemChars : List Json → List Char
  | [] => [']']
  | j :: rest => ',' :: (chars j ++ itemChars rest)

/-- The members after the first, and the closing brace. -/
def memberChars : List (String × Json) → List Char
  | [] => ['\x7d']
  | (k, j) :: rest => ',' :: (stringChars k ++ ':' :: (chars j ++ memberChars rest))

end

/-- The written form. -/
def written (j : Json) : String := String.ofList j.chars

/-- The written form in bytes. -/
def bytes (j : Json) : Bytes := Utf8.encodeChars j.chars

end Interchange.Json
