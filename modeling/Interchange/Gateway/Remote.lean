import Interchange.Endpoint.Connections
import Interchange.Http.Status
import Interchange.Http.Uri
import Interchange.Message.Response
import Interchange.Protocol.Codec
import Interchange.Protocol.JsonRpc.Response

/-! # Remote services

A call to an endpoint that speaks JSON-RPC is posted to it as one request, and its response is read as
the answer. Requests are numbered in the order in which they are made up, whether or not they can be
sent.
-/

namespace Interchange

/-- Where requests go on every endpoint, and the number of the next one. -/
structure Remote where
  path : String := "/"
  nextId : Nat := 1
deriving DecidableEq, Repr

/-- A request as it is sent. -/
structure Posting where
  url : String
  contentType : String := "application/json"
  traceId : String
  body : Bytes
deriving DecidableEq, Repr

/-- What becomes of a request that was sent. -/
inductive Exchange where
  /-- There is no connection. -/
  | refused
  /-- The connection ends before there is a response. -/
  | dropped
  /-- The connection ends inside the response. -/
  | cutShort
  | answered (status : Nat) (body : Bytes)
deriving DecidableEq, Repr

namespace Remote

/-- Send requests to a path, which begins with a slash. -/
def withPath (r : Remote) (path : String) : Remote :=
  { r with path := if path.toList.head? = some '/' then path else "/" ++ path }

/-- The request for a call, from its number. -/
def request (id : Nat) (e : Endpoint) (c : Call) : Except Failure JsonRpc.Request := do
  let params ← Codec.json.decode c.payload
  .ok { method := s!"{e.service}.{c.method}", params, id := some (.int id) }

/-- Refuse to send what HTTP does not allow. -/
def checkPosting (e : Endpoint) (p : Posting) (path : String) : Except Failure Posting :=
  let refuse (why : String) : Except Failure Posting :=
    .error { code := .internal, message := s!"failed to build request to {p.url}: {why}"
             cause := some why }
  match Http.checkUri (e.authority ++ path) with
  | .error fault => refuse fault.message
  | .ok () =>
    if Http.isHeaderValue p.traceId then .ok p else refuse "failed to parse header value"

/-- Make up the request for a call. -/
def prepare (r : Remote) (e : Endpoint) (c : Call) : Remote × Except Failure Posting :=
  if e.transport ≠ .internalJsonRpc then
    (r, .error
      { code := .notImplemented
        message := s!"no transport for {e.transport.name} endpoint {e.id}" })
  else
    ({ r with nextId := r.nextId + 1 }, do
      let request ← request r.nextId e c
      let url := s!"http://{e.authority}{r.path}"
      checkPosting e { url, traceId := c.traceId.text, body := request.toJson.bytes } r.path)

/-- A connection that gave way. -/
def lost (message why : String) : Failure :=
  { code := .connection, message := s!"{message}: {why}", cause := some why }

/-- The answer that a response holds. -/
def replyOf (r : JsonRpc.Response) : Reply :=
  match r.error, r.result with
  | some e, _ =>
    { Reply.ofFailure { code := e.failureCode, message := e.message } with
      errorDetails := e.data }
  | none, some result => .ofPayload result.bytes
  | none, none => .ofPayload []

/-- The answer to a call, from what became of its request. -/
def interpret (e : Endpoint) (c : Call) : Exchange → Except Failure Reply
  | .refused => .error (lost s!"request to {e.authority} failed" "client error (Connect)")
  | .dropped => .error (lost s!"request to {e.authority} failed" "client error (SendRequest)")
  | .cutShort =>
    .error
      (lost s!"failed to read response from {e.authority}" "error reading a body from connection")
  | .answered status body =>
    match JsonRpc.Response.shape.parse body with
    | .ok r =>
      let reply := replyOf r
      .ok { reply with headers := reply.headers.insert Headers.trace c.traceId.text }
    | .error fault =>
      if Http.isSuccess status then .error (.ofFault body fault)
      else
        .ok (.ofFailure
          { code := (Code.ofNat? status).getD .internal
            message := s!"backend answered HTTP {Http.statusText status}" })

/-- Call an endpoint, where sending a request has a known outcome. -/
def call (r : Remote) (send : Posting → Exchange) (e : Endpoint) (c : Call) :
    Remote × Except Failure Reply :=
  let (r, posting) := r.prepare e c
  (r, posting.bind fun p ↦ interpret e c (send p))

/-- The remote as a record of its parts. -/
def describe (r : Remote) : String :=
  Text.recordText "JsonRpcHttpDownstream" [("path", Text.quoted r.path)]

end Remote

end Interchange
