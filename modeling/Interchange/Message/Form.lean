import Interchange.Json.Member
import Interchange.Json.Written
import Interchange.Message.Response

/-! # The JSON forms of messages

Messages, replies and failures can be shown as JSON objects and taken from them. Bytes are shown as a
text when they are UTF-8, and in hexadecimal otherwise. What an object leaves out has its usual value.
-/

namespace Interchange

/-! ## Bytes -/

namespace Bytes

/-- Two hexadecimal digits for each byte. -/
def hexText (bytes : Bytes) : String :=
  String.ofList <|
    bytes.flatMap fun b ↦ [Nat.digitChar (b.toNat / 16), Nat.digitChar (b.toNat % 16)]

/-- The value of a hexadecimal digit in lower case. -/
def hexDigit (c : Char) : Nat :=
  if '0' ≤ c ∧ c ≤ '9' then c.toNat - '0'.toNat else c.toNat - 'a'.toNat + 10

/-- The bytes that pairs of hexadecimal digits spell. -/
def ofHex : List Char → Bytes
  | c :: d :: rest => UInt8.ofNat (16 * hexDigit c + hexDigit d) :: ofHex rest
  | _ => []

/-- The form of bytes. -/
def toJson (bytes : Bytes) : Json :=
  match Utf8.decode? bytes with
  | some s => .string s
  | none => .ofMembers [("hex", .string bytes.hexText)]

/-- The bytes of a form. -/
def ofJson : Json → Bytes
  | .string s => Utf8.encode s
  | j => ofHex (j.text "hex").toList

/-- The bytes of a member. -/
def member (j : Json) (key : String) : Bytes := ((j.get? key).map ofJson).getD []

end Bytes

/-! ## Headers and failures -/

namespace Headers

/-- The form of headers. -/
def toJson (h : Headers) : Json := .object (h.map fun e ↦ (e.1, .string e.2))

/-- The headers of a form. -/
def member (j : Json) : Headers :=
  (j.members "headers").filterMap fun e ↦ e.2.asString?.map fun s ↦ (e.1, s)

end Headers

namespace Failure

/-- The form of a failure: code and meaning, message, and the details if there are any. -/
def report (f : Failure) : Json :=
  .ofMembers <|
    [("error", .string f.code.describe), ("message", .string f.message)] ++
      f.details.toList.map fun d ↦ ("details", d)

/-- The failure with the code, message and details of an object. -/
def ofJson (j : Json) : Failure :=
  { code := ((j.nat? "code").bind Code.ofNat?).getD .internal
    message := j.text "message"
    details := j.get? "details" }

end Failure

/-- The form of a result: the failure, or what is shown of a success. -/
def resultForm {α : Type} (shown : α → Json) : Except Failure α → Json
  | .ok x => shown x
  | .error f => f.report

/-! ## Messages -/

namespace Pattern

/-- The pattern that an object names. -/
def member (j : Json) : Pattern := (j.shaped? "message_type" shape).getD default

end Pattern

namespace Protocol

/-- The protocol that an object names. -/
def member? (j : Json) (key : String) : Option Protocol := j.shaped? key shape

/-- The form of a protocol, or `null` for none. -/
def toJson? (p : Option Protocol) : Json := Json.ofText? (p.map name)

end Protocol

/-- The incoming message of a form. -/
def Inbound.ofJson (j : Json) : Inbound :=
  { protocol := (Protocol.member? j "protocol").getD .rest
    body := Bytes.member j "body"
    service := j.text? "service"
    method := j.text? "method"
    httpMethod := j.text? "http_method"
    pattern := Pattern.member j
    headers := Headers.member j
    metadata := j.members "metadata" }

namespace Call

/-- The call of a form. It has a fresh trace id unless the form brings one that is not blank. -/
def ofJson (fresh : TraceId) (j : Json) : Call :=
  let call : Call :=
    { service := j.text "service"
      method := j.text "method"
      payload := Bytes.member j "payload"
      traceId := fresh
      headers := Headers.member j
      timeout := (j.nat? "timeout_ms").map Span.ofMillis
      source := Protocol.member? j "source_protocol"
      pattern := Pattern.member j
      metadata := j.members "metadata" }
  match j.text? "trace_id" with
  | some id => call.adoptTrace id
  | none => call

/-- The form of a call. -/
def toJson (c : Call) : Json :=
  .ofMembers
    [("service", .string c.service), ("method", .string c.method),
      ("payload", Bytes.toJson c.payload), ("trace_id", .string c.traceId.text),
      ("timeout_ms", (c.timeout.map fun t ↦ .int t.millis).getD .null),
      ("source_protocol", Protocol.toJson? c.source), ("message_type", .string c.pattern.name),
      ("headers", c.headers.toJson), ("metadata", .object c.metadata)]

end Call

namespace Reply

/-- The answer of a form. -/
def ofJson (j : Json) : Reply :=
  { success := (j.bool? "success").getD true
    payload := Bytes.member j "payload"
    headers := Headers.member j
    errorCode := (j.nat? "error_code").bind Code.ofNat?
    errorMessage := j.text? "error_message"
    errorDetails := j.get? "error_details"
    source := Protocol.member? j "source_protocol"
    pattern := Pattern.member j
    metadata := j.members "metadata"
    traceId := j.text? "trace_id" }

/-- The form of an answer. -/
def toJson (r : Reply) : Json :=
  .ofMembers <|
    [("success", .bool r.success), ("payload", Bytes.toJson r.payload),
      ("error_code", (r.errorCode.map fun c ↦ .int c.toNat).getD .null),
      ("error_message", Json.ofText? r.errorMessage),
      ("source_protocol", Protocol.toJson? r.source), ("message_type", .string r.pattern.name),
      ("metadata", .object r.metadata), ("trace_id", Json.ofText? r.traceId),
      ("headers", r.headers.toJson)] ++
      r.errorDetails.toList.map fun d ↦ ("error_details", d)

end Reply

/-- The form of an outgoing message. -/
def Outbound.toJson (m : Outbound) : Json :=
  .ofMembers
    [("protocol", .string m.protocol.name), ("message_type", .string m.pattern.name),
      ("status", .int m.status), ("headers", m.headers.toJson), ("body", Bytes.toJson m.body),
      ("metadata", .object m.metadata)]

end Interchange
