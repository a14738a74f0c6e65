import Interchange.Protocol.Codec
import Interchange.Protocol.Crossing
import Interchange.Protocol.JsonRpc.Response

/-! # How JSON-RPC messages cross

A method is named as `service.method`, split at the first point; a name without a point in it goes to
the service that the envelope names. The id of a request is noted in the metadata, from where it comes
back to the answer. A notification becomes a published message, and its answer has no body.
-/

namespace Interchange

/-- How JSON-RPC messages cross. -/
structure JsonRpc where
  codec : Codec := .json

namespace JsonRpc

/-- The protocols handled. -/
def protocols : List Protocol := [.jsonRpc]

/-- The request that a body holds. -/
def parse (body : Bytes) : Except Failure Request := do
  match ← Json.decode body with
  | .object members =>
    match Request.shape.ofJson (.object members) with
    | .error m => .error (protocolFailure s!"invalid JSON-RPC request: {m.message}")
    | .ok request =>
      if request.version ≠ version then
        .error (protocolFailure s!"unsupported JSON-RPC version {Text.quoted request.version}")
      else .ok request
  | .array _ => .error (protocolFailure "JSON-RPC batch requests are not supported")
  | _ => .error (protocolFailure "JSON-RPC request must be an object")

/-- The parts of a name before and behind its first point, if both hold anything. -/
def splitMethod? (name : String) : Option (String × String) :=
  let before := name.toList.takeWhile (· ≠ '.')
  let behind := (name.toList.dropWhile (· ≠ '.')).drop 1
  if before.isEmpty || behind.isEmpty then none
  else some (String.ofList before, String.ofList behind)

/-- The service and method that a request is for. -/
def target (m : Inbound) (method : String) : Except Failure (String × String) :=
  match splitMethod? method with
  | some target => .ok target
  | none =>
    match m.service? with
    | some service => .ok (service, method)
    | none =>
      .error (protocolFailure s!"JSON-RPC method {Text.quoted method} does not name a service")

/-- The call that a request becomes. -/
def accept (a : JsonRpc) (fresh : TraceId) (m : Inbound) : Except Failure Call := do
  requireProtocol protocols m.protocol
  let request ← parse m.body
  if Text.isBlank request.method then .error (protocolFailure "JSON-RPC method is empty")
  else
    let (service, method) ← target m request.method
    let payload ← a.codec.encode request.params
    let call := (m.toCall fresh service method payload).withHeader
      Headers.contentType a.codec.contentType
    match request.id with
    | some id => .ok (call.withMetadata Metadata.jsonRpcId id)
    | none => .ok { call with pattern := .publishSubscribe }

/-- The id of the request that an answer is for; none if that was a notification. -/
def requestId? (r : Reply) (asked : Option Inbound) : Option Json :=
  (r.metadata.get? Metadata.jsonRpcId).or do
    let m ← asked
    let request ← (parse m.body).toOption
    request.id

/-- The response object of an answer. -/
def response (a : JsonRpc) (id : Json) (r : Reply) : Except Failure Response :=
  match r.failure? with
  | some f => .ok (.ofError id (.ofFailure f))
  | none => do .ok (.ofResult id (← a.codec.decode r.payload))

/-- The message that an answer becomes. -/
def render (a : JsonRpc) (r : Reply) (asked : Option Inbound) : Except Failure Outbound := do
  requireProtocol protocols (← r.target asked)
  let id := requestId? r asked
  if id.isNone ∧ r.pattern = .publishSubscribe then
    .ok (r.finish { protocol := .jsonRpc, status := 204, body := [] })
  else
    let id := id.getD .null
    let response ← a.response id r
    let m : Outbound := { protocol := .jsonRpc, status := 200, body := response.toJson.bytes }
    .ok (r.finish ((m.withHeader Headers.contentType "application/json").withMetadata
      Metadata.jsonRpcId id))

/-- The adapter as a record of its parts. -/
def describe (a : JsonRpc) : String :=
  Text.recordText "JsonRpcAdapter" [("content_type", Text.quoted a.codec.contentType)]

end JsonRpc

end Interchange
