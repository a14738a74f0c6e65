import Interchange.Protocol.Codec
import Interchange.Protocol.Crossing
import Interchange.Protocol.PathTemplate

/-! # REST

Service and method are named by the envelope, by headers, or by the path. The body of a successful
answer depends on pattern and verb: a published message is accepted without a body, `HEAD` never has
one, and neither has an empty payload or a `null` in answer to `DELETE`.
-/

namespace Interchange

/-- How REST messages cross. -/
structure Rest where
  codec : Codec := .json
  template : Option PathTemplate := none

namespace Rest

/-- The protocols handled. -/
def protocols : List Protocol := [.rest]

/-- Service and method as the path names them. -/
def fromPath? (a : Rest) (m : Inbound) : Option (String × String) := do
  let template ← a.template
  let path ← (← m.metadata.get? Metadata.path).asString?
  template.extract path

/-- The service and method of a request. -/
def target (a : Rest) (m : Inbound) : Except Failure (String × String) :=
  let named := a.fromPath? m
  match m.service?.or (named.map Prod.fst) with
  | none => .error (protocolFailure "REST request does not name a service")
  | some service =>
    match m.method?.or (named.map Prod.snd) with
    | none => .error (protocolFailure "REST request does not name a method")
    | some method => .ok (service, method)

/-- The verb of a request in upper case. -/
def verb (m : Inbound) : String := (m.httpMethod.getD "POST").toUpper

/-- The verb that an answer is for: the one noted on it, or else that of the request. -/
def verbOf (r : Reply) (asked : Option Inbound) : String :=
  let noted := (r.metadata.get? Metadata.httpMethod).bind Json.asString?
  ((noted.or (asked.bind Inbound.httpMethod)).getD "POST").toUpper

/-- The call that a request becomes. -/
def accept (a : Rest) (fresh : TraceId) (m : Inbound) : Except Failure Call := do
  requireProtocol protocols m.protocol
  let (service, method) ← a.target m
  let payload ← a.codec.encode (← a.codec.decode m.body)
  .ok (((m.toCall fresh service method payload).withHeader
    Headers.contentType a.codec.contentType).withMetadata Metadata.httpMethod (.string (verb m)))

/-- A message without a body. -/
def bare (status : Nat) : Outbound := { protocol := .rest, status, body := [] }

/-- A message that holds a value. -/
def holding (a : Rest) (status : Nat) (value : Json) : Except Failure Outbound := do
  let body ← a.codec.encode value
  .ok (Outbound.withHeader { protocol := .rest, status, body } Headers.contentType a.codec.contentType)

/-- Status and body of an answer. -/
def content (a : Rest) (r : Reply) (verb : String) : Except Failure Outbound :=
  match r.failure? with
  | some f => a.holding f.code.httpStatus (.ofMembers [("error", f.toJson)])
  | none =>
    if r.pattern = .publishSubscribe then .ok (bare 202)
    else if verb = "HEAD" then .ok (bare 200)
    else if r.payload.isEmpty then .ok (bare 204)
    else do
      let value ← a.codec.decode r.payload
      if verb = "DELETE" ∧ value = .null then .ok (bare 204) else a.holding 200 value

/-- The message that an answer becomes. -/
def render (a : Rest) (r : Reply) (asked : Option Inbound) : Except Failure Outbound := do
  requireProtocol protocols (← r.target asked)
  let verb := verbOf r asked
  let m ← a.content r verb
  .ok (r.finish (m.withMetadata Metadata.httpMethod (.string verb)))

/-- The adapter as a record of its parts. -/
def describe (a : Rest) : String :=
  let template := match a.template with
    | some t => s!"Some({t.describe})"
    | none => "None"
  Text.recordText "RestAdapter"
    [("content_type", Text.quoted a.codec.contentType), ("template", template)]

end Rest

end Interchange
