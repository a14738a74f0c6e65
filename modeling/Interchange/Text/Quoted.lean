import Interchange.Text.Concealed

/-! # Quoted text

A text in double quotes with every character visible: quotes and backslashes are escaped, the usual
controls have their letters, and any other character without a visible form is written by its
hexadecimal code in braces.
-/

namespace Interchange.Text

/-- A number in hexadecimal, without leading zeros. -/
def hex (n : Nat) : String := String.ofList (Nat.toDigits 16 n)

/-- A character as it stands between double quotes. -/
def quotedChar (c : Char) : String :=
  match c with
  | '\x00' => "\\0"
  | '\t' => "\\t"
  | '\n' => "\\n"
  | '\r' => "\\r"
  | '\"' => "\\\""
  | '\\' => "\\\\"
  | c =>
    if c.toNat < 0x20 || isConcealed c then "\\u\x7b" ++ hex c.toNat ++ "\x7d" else c.toString

/-- A text in double quotes. -/
def quoted (s : String) : String := "\"" ++ String.join (s.toList.map quotedChar) ++ "\""

/-- A list of written items in square brackets. -/
def bracketed (items : List String) : String := "[" ++ ", ".intercalate items ++ "]"

/-- A named record with its fields in braces. -/
def recordText (name : String) (fields : List (String × String)) : String :=
  name ++ " \x7b " ++ ", ".intercalate (fields.map fun f ↦ f.1 ++ ": " ++ f.2) ++ " \x7d"

/-- A named record that shows some of its fields only. -/
def partialRecordText (name : String) (fields : List (String × String)) : String :=
  name ++ " \x7b " ++ String.join (fields.map fun f ↦ f.1 ++ ": " ++ f.2 ++ ", ") ++ ".. \x7d"

@[simp] theorem quoted_empty : quoted "" = "\"\"" := rfl

end Interchange.Text
