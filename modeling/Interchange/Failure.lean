import Interchange.Code

/-! # Failures

Every part of the interchange reports a failure as a code with a message, to which details and the
text of an underlying cause may be attached.
-/

namespace Interchange

/-- A failure as it crosses from one part to another. -/
structure Failure where
  code : Code
  message : String
  details : Option Json := none
  cause : Option String := none
deriving DecidableEq

namespace Failure

/-- Code, meaning and message. -/
def describe (f : Failure) : String := s!"{f.code.describe}: {f.message}"

/-- The object by which a failure is shown in a body. Details that are `null` are shown too. -/
def toJson (f : Failure) : Json :=
  .ofMembers <|
    [("code", .int f.code.toNat), ("message", .string f.message)] ++
      f.details.toList.map fun d ↦ ("details", d)

/-- A text that is not JSON. -/
def ofFault (text : Bytes) (f : Json.Fault) : Failure :=
  let message := f.message text
  { code := .serialization, message, cause := some message }

/-- A transport that gave way. -/
def ofTransport (message : String) : Failure :=
  { code := .connection, message, cause := some message }

/-- An attempt that took too long, as a timer reports it. -/
def ofTimer : Failure :=
  { code := .timeout, message := "downstream attempt timed out",
    cause := some "deadline has elapsed" }

end Failure

/-- The JSON value of a body, or the failure that it is not JSON. -/
def Json.decode (text : Bytes) : Except Failure Json :=
  (Json.parse text).mapError (Failure.ofFault text)

end Interchange
