import Interchange.Failure
import Interchange.Json.Written

/-! # Payload codecs

A codec of one's own may refuse to write a value as well as to read a payload. The one for JSON writes
every value.
-/

namespace Interchange

/-- How the value that a body holds is turned into a payload and back. -/
structure Codec where
  contentType : String
  encode : Json → Except Failure Bytes
  decode : Bytes → Except Failure Json

namespace Codec

/-- A codec that refuses no value. -/
def Writes (k : Codec) : Prop := ∀ value, ∃ payload, k.encode value = .ok payload

/-- The five bytes that count as blank in a payload. -/
def isBlankByte (b : UInt8) : Bool :=
  b == 0x20 || b == 0x09 || b == 0x0a || b == 0x0c || b == 0x0d

/-- Payloads in JSON. A blank payload stands for `null`. -/
def json : Codec where
  contentType := "application/json"
  encode value := .ok value.bytes
  decode bytes := if bytes.all isBlankByte then .ok .null else Json.decode bytes

@[simp] theorem json_encode (value : Json) : json.encode value = .ok value.bytes := rfl

theorem writes_json : json.Writes := fun value ↦ ⟨value.bytes, rfl⟩

@[simp] theorem json_decode_nil : json.decode [] = .ok .null := rfl

end Codec

end Interchange
