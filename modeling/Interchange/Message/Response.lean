import Interchange.Failure
import Interchange.Message.Request

/-! # Responses

A service answers a call with a `Reply`, which leaves the interchange as an `Outbound` message of the
protocol that the request came in.
-/

namespace Interchange

/-- The answer to a call. -/
structure Reply where
  success : Bool
  payload : Bytes
  headers : Headers := []
  errorCode : Option Code := none
  errorMessage : Option String := none
  errorDetails : Option Json := none
  source : Option Protocol := none
  pattern : Pattern := .requestResponse
  metadata : Metadata := []
  traceId : Option String := none
deriving DecidableEq

namespace Reply

/-- A successful answer. -/
def ofPayload (payload : Bytes) : Reply := { success := true, payload }

/-- A failed answer with the code, message and details of a failure. -/
def ofFailure (f : Failure) : Reply :=
  { success := false, payload := [], errorCode := some f.code, errorMessage := some f.message,
    errorDetails := f.details }

/-- Note on an answer which call it belongs to. What the answer notes itself is kept. -/
def correlate (r : Reply) (c : Call) : Reply :=
  { r with
    source := c.source
    pattern := c.pattern
    traceId := some c.traceId.text
    metadata := r.metadata.addMissing c.metadata }

/-- The failure that an answer reports. A missing code is an internal error, a missing message the
meaning of the code. -/
def failure? (r : Reply) : Option Failure :=
  if r.success then none
  else
    let code := r.errorCode.getD .internal
    some { code, message := r.errorMessage.getD code.reason, details := r.errorDetails }

/-- The answer itself, or the failure that it reports. -/
def result (r : Reply) : Except Failure Reply :=
  match r.failure? with
  | some f => .error f
  | none => .ok r

@[simp] theorem failure?_ofPayload (payload : Bytes) : (ofPayload payload).failure? = none := rfl

@[simp] theorem failure?_ofFailure (f : Failure) :
    (ofFailure f).failure? = some { f with cause := none } := rfl

@[simp] theorem failure?_correlate (r : Reply) (c : Call) :
    (r.correlate c).failure? = r.failure? := rfl

end Reply

/-- A message as it goes out. -/
structure Outbound where
  protocol : Protocol
  status : Nat
  body : Bytes
  pattern : Pattern := .requestResponse
  headers : Headers := []
  metadata : Metadata := []
deriving DecidableEq

namespace Outbound

/-- The value of a header. -/
def header? (m : Outbound) (name : String) : Option String := m.headers.find? name

/-- Set a header. -/
def withHeader (m : Outbound) (name value : String) : Outbound :=
  { m with headers := m.headers.insert name value }

/-- Note a value on the message. -/
def withMetadata (m : Outbound) (key : String) (value : Json) : Outbound :=
  { m with metadata := m.metadata.insert key value }

/-- The JSON value of the body. -/
def bodyJson (m : Outbound) : Except Failure Json := Json.decode m.body

end Outbound

end Interchange
