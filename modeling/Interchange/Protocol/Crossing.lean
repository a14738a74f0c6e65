import Interchange.Message.Response

/-! # What every crossing shares

Whatever the protocol, a request keeps its headers, metadata and pattern when it becomes a call, and an
answer brings its headers and trace id along when it leaves.
-/

namespace Interchange

/-- A text without blanks at its ends, if anything is left of it. -/
def nonBlank? (s : Option String) : Option String :=
  s.bind fun s ↦ if (Text.trim s).isEmpty then none else some (Text.trim s)

namespace Inbound

/-- The service that the envelope names, or else the header for it. -/
def service? (m : Inbound) : Option String :=
  (nonBlank? m.service).or (nonBlank? (m.header? Headers.service))

/-- The method that the envelope names, or else the header for it. -/
def method? (m : Inbound) : Option String :=
  (nonBlank? m.method).or (nonBlank? (m.header? Headers.method))

/-- The call that a request becomes. Its trace id is taken from the header unless that is blank. -/
def toCall (m : Inbound) (fresh : TraceId) (service method : String) (payload : Bytes) : Call :=
  { service, method, payload
    traceId := match m.header? Headers.trace with
      | some id => fresh.adopt id
      | none => fresh
    headers := m.headers
    source := some m.protocol
    pattern := m.pattern
    metadata := m.metadata }

end Inbound

/-- A message that no protocol allows. -/
def protocolFailure (message : String) : Failure := { code := .protocol, message }

/-- Refuse a protocol that is not among those supported. -/
def requireProtocol (supported : List Protocol) (p : Protocol) : Except Failure Unit :=
  if supported.contains p then .ok ()
  else .error (protocolFailure s!"protocol {p.name} is not handled by this adapter")

namespace Reply

/-- The protocol in which an answer is written: that of the request, or else the one noted. -/
def target (r : Reply) (asked : Option Inbound) : Except Failure Protocol :=
  match (asked.map Inbound.protocol).or r.source with
  | some p => .ok p
  | none => .error (protocolFailure "response has no target protocol")

/-- Hand on the pattern, the headers that are not set yet, and the trace id. -/
def finish (r : Reply) (m : Outbound) : Outbound :=
  let headers := Dictionary.addMissing m.headers r.headers
  { m with
    pattern := r.pattern
    headers := match r.traceId with
      | some id => Dictionary.insert headers Headers.trace id
      | none => headers }

@[simp] theorem pattern_finish (r : Reply) (m : Outbound) : (r.finish m).pattern = r.pattern := rfl

@[simp] theorem protocol_finish (r : Reply) (m : Outbound) :
    (r.finish m).protocol = m.protocol := rfl

@[simp] theorem status_finish (r : Reply) (m : Outbound) : (r.finish m).status = m.status := rfl

@[simp] theorem body_finish (r : Reply) (m : Outbound) : (r.finish m).body = m.body := rfl

@[simp] theorem metadata_finish (r : Reply) (m : Outbound) :
    (r.finish m).metadata = m.metadata := rfl

end Reply

end Interchange
