import Interchange.Json.Written
import Interchange.Protocol.Crossing

/-! # Envelopes

Messages of WebSocket and MQTT name their service and method outside the body, which passes through
as it is. A frame holds either text or arbitrary bytes.
-/

namespace Interchange

/-- What a frame holds. -/
inductive Framing where
  | text
  | binary
deriving DecidableEq, Repr

namespace Framing

/-- Every framing. -/
def all : List Framing := [.text, .binary]

/-- The name of a framing. -/
def name : Framing → String
  | .text => "text"
  | .binary => "binary"

/-- A framing by its name. -/
def shape : Json.Shape Framing := .tag (all.map fun f ↦ (f.name, f))

/-- UTF-8 is text, anything else is not. -/
def infer (payload : Bytes) : Framing :=
  if (Utf8.decode? payload).isSome then .text else .binary

/-- The framing noted in the metadata, if any. -/
def noted (metadata : Metadata) : Except Failure (Option Framing) :=
  match metadata.get? Metadata.framing with
  | none => .ok none
  | some (.string "text") => .ok (some .text)
  | some (.string "binary") => .ok (some .binary)
  | some other =>
    .error (protocolFailure s!"unknown framing {other.written}, expected \"text\" or \"binary\"")

/-- The framing noted in the metadata, or else the one that fits the payload. -/
def choose (metadata : Metadata) (payload : Bytes) : Except Failure Framing := do
  .ok ((← noted metadata).getD (infer payload))

end Framing

/-- How messages in envelopes cross. -/
structure Envelope where

namespace Envelope

/-- The protocols handled. -/
def protocols : List Protocol := [.webSocket, .mqtt]

/-- The call that a request becomes. -/
def accept (_ : Envelope) (fresh : TraceId) (m : Inbound) : Except Failure Call := do
  requireProtocol protocols m.protocol
  match m.service? with
  | none => .error (protocolFailure s!"{m.protocol.name} envelope does not name a service")
  | some service =>
    match m.method? with
    | none => .error (protocolFailure s!"{m.protocol.name} envelope does not name a method")
    | some method => do
      let framing ← Framing.choose m.metadata m.body
      .ok ((m.toCall fresh service method m.body).withMetadata Metadata.framing
        (.string framing.name))

/-- The body that reports a failure. -/
def failureBody (r : Reply) (f : Failure) : Json :=
  .ofMembers <|
    ("error", f.toJson) :: r.traceId.toList.map fun id ↦ ("trace_id", .string id)

/-- Status, body and framing of an answer. -/
def content (p : Protocol) (r : Reply) : Except Failure Outbound :=
  let framed (m : Outbound) (f : Framing) : Outbound :=
    m.withMetadata Metadata.framing (.string f.name)
  match r.failure? with
  | some f =>
    .ok (framed { protocol := p, status := f.code.toNat, body := (failureBody r f).bytes } .text)
  | none => do
    let framing ← Framing.choose r.metadata r.payload
    .ok (framed { protocol := p, status := 200, body := r.payload } framing)

/-- The message that an answer becomes. -/
def render (_ : Envelope) (r : Reply) (asked : Option Inbound) : Except Failure Outbound := do
  let p ← r.target asked
  requireProtocol protocols p
  let m ← content p r
  .ok <| r.finish <|
    match r.metadata.get? Metadata.topic with
    | some topic => m.withMetadata Metadata.topic topic
    | none => m

end Envelope

end Interchange
