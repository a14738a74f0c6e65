import Interchange.Json.Shape

/-! # Failure codes

Codes below 600 have their usual meaning as HTTP statuses; those from 600 on belong to the
interchange itself.
-/

namespace Interchange

/-- What kind of failure it is. -/
inductive Code where
  | badRequest
  | unauthorized
  | forbidden
  | notFound
  | timeout
  | internal
  | notImplemented
  | unavailable
  | protocol
  | serialization
  | routing
  | connection
deriving DecidableEq, Repr

namespace Code

/-- Every code, in increasing order of the numbers. -/
def all : List Code :=
  [.badRequest, .unauthorized, .forbidden, .notFound, .timeout, .internal, .notImplemented,
    .unavailable, .protocol, .serialization, .routing, .connection]

/-- The number of a code. -/
def toNat : Code → Nat
  | .badRequest => 400
  | .unauthorized => 401
  | .forbidden => 403
  | .notFound => 404
  | .timeout => 408
  | .internal => 500
  | .notImplemented => 501
  | .unavailable => 503
  | .protocol => 600
  | .serialization => 601
  | .routing => 602
  | .connection => 603

/-- The code with a number. -/
def ofNat? (n : Nat) : Option Code := all.find? (·.toNat = n)

/-- What the code means. -/
def reason : Code → String
  | .badRequest => "Bad Request"
  | .unauthorized => "Unauthorized"
  | .forbidden => "Forbidden"
  | .notFound => "Not Found"
  | .timeout => "Request Timeout"
  | .internal => "Internal Error"
  | .notImplemented => "Not Implemented"
  | .unavailable => "Service Unavailable"
  | .protocol => "Protocol Error"
  | .serialization => "Serialization Error"
  | .routing => "Routing Error"
  | .connection => "Connection Error"

/-- The name of a code in a listing of settings. -/
def label : Code → String
  | .badRequest => "BadRequest"
  | .unauthorized => "Unauthorized"
  | .forbidden => "Forbidden"
  | .notFound => "NotFound"
  | .timeout => "Timeout"
  | .internal => "InternalError"
  | .notImplemented => "NotImplemented"
  | .unavailable => "ServiceUnavailable"
  | .protocol => "ProtocolError"
  | .serialization => "SerializationError"
  | .routing => "RoutingError"
  | .connection => "ConnectionError"

/-- Holds of the interchange's own codes. -/
def isFramework (c : Code) : Bool := 600 ≤ c.toNat

/-- The HTTP status of a code; the interchange's own codes are server errors there. -/
def httpStatus (c : Code) : Nat := if c.isFramework then 500 else c.toNat

/-- Number and meaning. -/
def describe (c : Code) : String := s!"{c.toNat} {c.reason}"

/-- A code known by its number. -/
def check (n : Nat) : Except Json.Mismatch Code :=
  match ofNat? n with
  | some c => .ok c
  | none => .error (.unknownCode n)

/-- The number of a code in JSON. -/
def numberShape : Json.Shape Nat := Json.Shape.unsigned 16

/-- The code that a JSON value names. -/
def ofJson (j : Json) : Except Json.Mismatch Code := do check (← numberShape.ofJson j)

@[simp] theorem ofNat?_toNat (c : Code) : ofNat? c.toNat = some c := by cases c <;> rfl

theorem toNat_injective {c d : Code} (h : c.toNat = d.toNat) : c = d := by
  have := congrArg ofNat? h
  simpa using this

end Code

end Interchange
