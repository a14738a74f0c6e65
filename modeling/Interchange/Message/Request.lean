import Interchange.Message.Headers
import Interchange.Message.Metadata
import Interchange.Protocol.Tag
import Interchange.Text.Utf8
import Interchange.Time.Span

/-! # Requests

A request arrives as an `Inbound` message of some protocol and goes on as a `Call`, which every service
behind the interchange understands.
-/

namespace Interchange

/-- A message as it came in. -/
structure Inbound where
  protocol : Protocol
  body : Bytes
  /-- The service that the envelope names. -/
  service : Option String := none
  /-- The method that the envelope names. -/
  method : Option String := none
  /-- The HTTP verb, in any case. -/
  httpMethod : Option String := none
  pattern : Pattern := .requestResponse
  headers : Headers := []
  metadata : Metadata := []
deriving DecidableEq

/-- The value of a header. -/
def Inbound.header? (m : Inbound) (name : String) : Option String := m.headers.find? name

/-- A request to a method of a service. -/
structure Call where
  service : String
  method : String
  payload : Bytes
  traceId : TraceId
  headers : Headers := []
  /-- How long a single attempt may take. -/
  timeout : Option Span := none
  /-- The protocol in which the answer is written. -/
  source : Option Protocol := none
  pattern : Pattern := .requestResponse
  metadata : Metadata := []
deriving DecidableEq

namespace Call

/-- The value of a header. -/
def header? (c : Call) (name : String) : Option String := c.headers.find? name

/-- Service and method in one name. -/
def qualifiedMethod (c : Call) : String := c.service ++ "." ++ c.method

/-- Take over a trace id, unless it is blank. -/
def adoptTrace (c : Call) (id : String) : Call := { c with traceId := c.traceId.adopt id }

/-- Set a header. -/
def withHeader (c : Call) (name value : String) : Call :=
  { c with headers := c.headers.insert name value }

/-- Note a value on the call. -/
def withMetadata (c : Call) (key : String) (value : Json) : Call :=
  { c with metadata := c.metadata.insert key value }

end Call

end Interchange
