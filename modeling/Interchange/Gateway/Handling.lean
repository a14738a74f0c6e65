import Interchange.Gateway.Dispatch
import Interchange.Protocol.Adapter

/-! # Handling messages

A gateway accepts a message with the adapter of its protocol, dispatches the call that it becomes, and
lets the answer out in the same protocol. A failure on the way is rendered like any answer; only when
that fails too does the sender get a plain body.
-/

namespace Interchange

/-- Settings and adapters, which stay as they are while messages come and go. -/
structure Gateway where
  settings : Settings := {}
  adapters : Adapters := .standard

/-- A message to come, and the trace id that it gets if it brings none. -/
structure Incoming where
  moment : Span
  message : Inbound
  fresh : TraceId
  cancellation : Cancellation := .never
  draws : Draws := {}

namespace Gateway

variable {β : Type}

/-- A gateway with the standard adapters. -/
def build (settings : Settings) : Except Failure Gateway := do
  let template ← settings.pathTemplate
  .ok { settings, adapters := .withRest { template } }

/-- The call that a message becomes. One without a limit gets the default. -/
def accept (g : Gateway) (fresh : TraceId) (m : Inbound) : Except Failure Call := do
  let call ← g.adapters.accept fresh m
  .ok { call with timeout := some (call.timeout.getD g.settings.defaultTimeout) }

/-- The body that reports a failure when no adapter can. -/
def plain (m : Inbound) (f : Failure) : Outbound :=
  Outbound.withHeader
    { protocol := m.protocol, status := f.code.httpStatus, pattern := m.pattern
      body := (Json.ofMembers [("error", f.toJson)]).bytes }
    Headers.contentType "application/json"

/-- The answer that stands for a failure, before any adapter sees it. -/
def failureReply (m : Inbound) (call : Option Call) (f : Failure) : Reply :=
  match call with
  | some c => (Reply.ofFailure f).correlate c
  | none =>
    { Reply.ofFailure f with
      source := some m.protocol
      pattern := m.pattern
      traceId := m.header? Headers.trace }

/-- Tell the sender of a message about a failure. -/
def renderFailure (g : Gateway) (m : Inbound) (call : Option Call) (f : Failure) : Outbound :=
  match g.adapters.render (failureReply m call f) (some m) with
  | .ok out => out
  | .error _ => plain m f

/-- Let an answer out. -/
def render (g : Gateway) (m : Inbound) (call : Option Call) (r : Reply) : Outbound :=
  match g.adapters.render r (some m) with
  | .ok out => out
  | .error f => g.renderFailure m call f

/-- The message that a result becomes. A message that was not accepted has no call. -/
def respond (g : Gateway) (m : Inbound) (call : Option Call) : Except Failure Reply → Outbound
  | .ok r => g.render m call r
  | .error f =>
    match call with
    | some c => g.render m call ((Reply.ofFailure f).correlate c)
    | none => g.renderFailure m none f

/-- Dispatch several calls, and tell when and how each of them ended. -/
def dispatchAll (g : Gateway) (backend : Backend β) (arrivals : List Arrival) (s : Traffic × β) :
    List (Span × Except Failure Reply) × Traffic × β :=
  let (errands, s) := (Errand.process g.settings backend).run (arrivals.map .coming) s
  (errands.filterMap Errand.result?, s)

/-- The errand that a message becomes. One that is not accepted is over as soon as it comes. -/
def errand (i : Incoming) : Except Failure Call → Errand
  | .ok call =>
    .coming
      { moment := i.moment, call, cancellation := i.cancellation, draws := i.draws }
  | .error f => .ended i.moment (.error f)

/-- Handle several messages, and tell when each was answered and with what. -/
def handleAll (g : Gateway) (backend : Backend β) (messages : List Incoming) (s : Traffic × β) :
    List (Span × Outbound) × Traffic × β :=
  let accepted := messages.map fun i ↦ g.accept i.fresh i.message
  let (errands, s) :=
    (Errand.process g.settings backend).run (List.zipWith errand messages accepted) s
  let answer (i : Incoming) (x : Except Failure Call × Errand) : Option (Span × Outbound) :=
    x.2.result?.map fun (t, result) ↦ (t, g.respond i.message x.1.toOption result)
  ((List.zipWith answer messages (accepted.zip errands)).filterMap id, s)

/-- The gateway as a record of its parts, with the names of the services that it routes to. -/
def describe (g : Gateway) (r : Router) : String :=
  Text.partialRecordText "Bridge"
    [("config", g.settings.describe), ("adapters", g.adapters.describe),
      ("services", Text.bracketed (r.services.map Text.quoted))]

end Gateway

end Interchange
