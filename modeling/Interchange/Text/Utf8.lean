/-! # UTF-8 -/

namespace Interchange

/-- The content of a body or payload. -/
abbrev Bytes := List UInt8

namespace Utf8

/-- The bytes of a run of characters. -/
def encodeChars (cs : List Char) : Bytes := cs.flatMap String.utf8EncodeChar

/-- The bytes of a text. -/
def encode (s : String) : Bytes := encodeChars s.toList

/-- The character that the bytes start with: no more than four of them matter. -/
def next? (bytes : Bytes) : Option Char := (bytes.take 4).toByteArray.utf8DecodeChar? 0

/-- Decode after passing over the bytes of the character read before. -/
def decodeAfter : Nat → Bytes → Option (List Char)
  | _, [] => some []
  | skip + 1, _ :: rest => decodeAfter skip rest
  | 0, b :: rest =>
    match next? (b :: rest) with
    | some c => (decodeAfter (c.utf8Size - 1) rest).map (c :: ·)
    | none => none

/-- The text that the bytes spell, if they are UTF-8. -/
def decode? (bytes : Bytes) : Option String := (decodeAfter 0 bytes).map String.ofList

@[simp] theorem encodeChars_nil : encodeChars [] = [] := rfl

@[simp] theorem encodeChars_cons (c : Char) (cs : List Char) :
    encodeChars (c :: cs) = String.utf8EncodeChar c ++ encodeChars cs := rfl

theorem encodeChars_append (cs ds : List Char) :
    encodeChars (cs ++ ds) = encodeChars cs ++ encodeChars ds := List.flatMap_append

end Utf8

end Interchange
