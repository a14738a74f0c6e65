import Interchange.Dictionary
import Interchange.Text.Blank

/-! # Headers and trace ids -/

namespace Interchange

/-- Header values by name. Names keep their spelling; looking one up ignores the case of ASCII
letters. -/
abbrev Headers := Dictionary String

namespace Headers

/-- Names that differ at most in the case of ASCII letters. -/
def sameName (a b : String) : Bool := a.toLower == b.toLower

/-- The value of a header. -/
def find? (headers : Headers) (name : String) : Option String :=
  (List.find? (fun h ↦ sameName h.1 name) headers).map Prod.snd

/-- The header that names a service. -/
def service : String := "x-service-name"

/-- The header that names a method. -/
def method : String := "x-method-name"

/-- The header that carries a trace id. -/
def trace : String := "x-trace-id"

/-- The header that tells how a body is encoded. -/
def contentType : String := "content-type"

end Headers

/-- The id by which a message is followed through the interchange. It is never blank. -/
structure TraceId where
  text : String
  notBlank : Text.isBlank text = false
deriving DecidableEq

namespace TraceId

/-- A text as a trace id, unless it is blank. -/
def ofText? (s : String) : Option TraceId :=
  if h : Text.isBlank s = false then some ⟨s, h⟩ else none

/-- The id that a text gives, or this one if the text is blank. -/
def adopt (id : TraceId) (s : String) : TraceId := (ofText? s).getD id

theorem adopt_of_not_blank {s : String} (h : Text.isBlank s = false) (id : TraceId) :
    (id.adopt s).text = s := by simp [adopt, ofText?, h]

theorem adopt_of_blank {s : String} (h : Text.isBlank s = true) (id : TraceId) :
    id.adopt s = id := by simp [adopt, ofText?, h]

end TraceId

end Interchange
