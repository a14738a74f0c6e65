import Interchange.Proofs.Json.Legibility
import Interchange.Proofs.Protocol.JsonRpc.Notification

/-!
# Reports of failures

A failure leaves as a value with a member `error`.  In JSON-RPC that is the error
object of the response, with the details under `data`; elsewhere it is the failure
itself, and an envelope has the trace id beside it (`Call.report`).  The status is the
code of the failure as far as the protocol has statuses
(`Protocol.failureStatus`).

A legible report says what the failure was: its code, its message, and its details
if it has any (`Call.Reportable.reports`).  Two failures with the same report differ
at most in their cause (`Outbound.Reports.unique`).
-/

namespace Interchange

/-! ## What is reported -/

/-- The status with which a failure leaves. HTTP does not know the interchange's own codes, and an
answer to a JSON-RPC request has arrived if there is one. -/
def Protocol.failureStatus : Protocol → Code → Nat
  | .rest, code => if 600 ≤ code.toNat then 500 else code.toNat
  | .webSocket, code | .mqtt, code => code.toNat
  | .jsonRpc, _ => 200

/-- The member of an error object that holds the details. -/
def Protocol.detailsKey : Protocol → String
  | .jsonRpc => "data"
  | .rest | .webSocket | .mqtt => "details"

/-- An object that shows a failure, with the details under a key. -/
structure Json.Shows (o : Json) (key : String) (f : Failure) : Prop where
  code_eq : o.get? "code" = some (.int f.code.toNat)
  message_eq : o.get? "message" = some (.string f.message)
  details_eq : o.get? key = f.details

/-- A message that reports a failure in a protocol: the status is the one for its code, and the body
has a member `error` that shows it. -/
structure Outbound.Reports (out : Outbound) (p : Protocol) (f : Failure) : Prop where
  status_eq : out.status = p.failureStatus f.code
  exists_body : ∃ j o, out.bodyJson = .ok j ∧ j.get? "error" = some o ∧ o.Shows p.detailsKey f

/-- The report of a failure of a call, as a value. -/
def Call.report (c : Call) : Protocol → Failure → Json
  | .rest, f => .ofMembers [("error", f.toJson)]
  | .webSocket, f | .mqtt, f =>
    .ofMembers [("error", f.toJson), ("trace_id", .string c.traceId.text)]
  | .jsonRpc, f =>
    (JsonRpc.Response.ofError ((c.metadata.get? Metadata.jsonRpcId).getD .null)
      (.ofFailure f)).toJson

/-- A failure whose details are in order, and whose report can be read. -/
structure Call.Reportable (c : Call) (p : Protocol) (f : Failure) : Prop where
  ordered : ∀ d ∈ f.details, d.Ordered
  legible : (c.report p f).Legible

/-! ## What a report says -/

variable {p : Protocol} {c : Call} {f f' : Failure} {out out' : Outbound}

namespace Json.Shows

variable {o : Json} {key : String}

/-- An object shows at most one failure, but for the cause. -/
theorem unique (h : o.Shows key f) (h' : o.Shows key f') :
    f.code = f'.code ∧ f.message = f'.message ∧ f.details = f'.details := by
  have hcode := h.code_eq.symm.trans h'.code_eq
  have hmessage := h.message_eq.symm.trans h'.message_eq
  simp only [Option.some.injEq, Json.int.injEq, Int.natCast_inj, Json.string.injEq] at hcode hmessage
  exact ⟨Code.toNat_injective hcode, hmessage, h.details_eq.symm.trans h'.details_eq⟩

/-- What an object shows its canonical form shows. -/
theorem canonical {members : List (String × Json)} (h : (Json.object members).Shows key f)
    (hnodup : (Dictionary.keys members).Nodup) (hf : ∀ d ∈ f.details, d.Ordered) :
    (Json.object members).canonical.Shows key f := by
  refine ⟨?_, ?_, ?_⟩
  · rw [get?_canonical hnodup, h.code_eq]
    rfl
  · rw [get?_canonical hnodup, h.message_eq]
    rfl
  · rw [get?_canonical hnodup, h.details_eq]
    cases hdetails : f.details with
    | none => rfl
    | some d => rw [Option.map_some, canonical_of_ordered (hf d hdetails)]

end Json.Shows

/-- The object of a failure shows it. -/
theorem Failure.shows_toJson (f : Failure) : f.toJson.Shows "details" f := by
  have hget (key : String) : f.toJson.get? key = Dictionary.get? ([("code", .int f.code.toNat),
      ("message", .string f.message)] ++ f.details.toList.map fun d ↦ ("details", d)) key := by
    refine Json.get?_ofMembers ?_ key
    cases f.details <;> simp [Dictionary.keys]
  constructor <;> rw [hget] <;> cases f.details <;> simp [Dictionary.get?]

/-- So does the error object of JSON-RPC. -/
theorem JsonRpc.ErrorObject.shows_ofFailure (f : Failure) :
    (ErrorObject.ofFailure f).toJson.Shows "data" f := by
  obtain ⟨code, message, details, cause⟩ := f
  constructor <;> cases details <;> simp [toJson, ofFailure, Dictionary.get?]

/-- Every report is an object without repeated members, of which one shows the failure. -/
theorem Call.exists_of_report (c : Call) (p : Protocol) (f : Failure) :
    ∃ members shown, c.report p f = .object members ∧ (Dictionary.keys members).Nodup ∧
      (c.report p f).get? "error" = some (.object shown) ∧ (Dictionary.keys shown).Nodup ∧
      (Json.object shown).Shows p.detailsKey f := by
  have hsorted (members : List (String × Json)) :
      (Dictionary.keys (Dictionary.ofList members)).Nodup :=
    Dictionary.Sorted.nodup_keys (Dictionary.sorted_ofList members)
  cases p with
  | rest =>
    exact ⟨_, _, rfl, hsorted _, rfl, hsorted _, f.shows_toJson⟩
  | webSocket | mqtt =>
    refine ⟨_, _, rfl, hsorted _, Json.get?_ofMembers ?_ _, hsorted _, f.shows_toJson⟩
    simp [Dictionary.keys]
  | jsonRpc =>
    refine ⟨_, _, rfl, ?_, rfl, ?_, JsonRpc.ErrorObject.shows_ofFailure f⟩
    · simp [Dictionary.keys, JsonRpc.Response.ofError]
    · cases hdetails : f.details <;> simp [Dictionary.keys, JsonRpc.ErrorObject.ofFailure, hdetails]

/-- A message reports a failure if it has the status for its code, and the report, which can be read, as
its body. -/
theorem Call.Reportable.reports (h : c.Reportable p f)
    (hstatus : out.status = p.failureStatus f.code) (hbody : out.body = (c.report p f).bytes) :
    out.Reports p f := by
  obtain ⟨members, shown, hmembers, hnodup, herror, hshown, hshows⟩ := c.exists_of_report p f
  have hread : out.bodyJson = .ok (c.report p f).canonical := by
    rw [Outbound.bodyJson, hbody]
    exact h.legible
  refine ⟨hstatus, _, _, hread, ?_, hshows.canonical hshown h.ordered⟩
  rw [hmembers] at herror ⊢
  rw [Json.get?_canonical hnodup, herror]
  rfl

/-- Failures that are reported by one body differ at most in their cause. -/
theorem Outbound.Reports.unique (h : out.Reports p f) (h' : out'.Reports p f')
    (hbody : out.body = out'.body) :
    f.code = f'.code ∧ f.message = f'.message ∧ f.details = f'.details := by
  obtain ⟨j, o, hj, ho, hshows⟩ := h.exists_body
  obtain ⟨j', o', hj', ho', hshows'⟩ := h'.exists_body
  rw [bodyJson, hbody] at hj
  cases hj.symm.trans hj'
  cases ho.symm.trans ho'
  exact hshows.unique hshows'

/-! ## How a report is written -/

variable {m : Inbound} {asked : Option Inbound}

theorem Rest.report_of_render {a : Rest} (hcodec : a.codec = .json)
    (h : a.render ((Reply.ofFailure f).correlate c) asked = .ok out) :
    out.status = Protocol.rest.failureStatus f.code ∧ out.body = (c.report .rest f).bytes := by
  obtain ⟨x, hx, hstatus, hbody⟩ := content_of_render h
  obtain ⟨body, hwritten, rfl⟩ := holding_eq_ok_iff.mp hx
  have hcode : f.code.httpStatus = Protocol.rest.failureStatus f.code := by
    simp [Protocol.failureStatus, Code.httpStatus, Code.isFramework]
  rw [hcodec] at hwritten
  constructor
  · rw [hstatus, ← hcode]
    rfl
  · rw [hbody]
    exact (Except.ok.inj hwritten).symm

theorem Envelope.report_of_render {a : Envelope}
    (h : a.render ((Reply.ofFailure f).correlate c) (some m) = .ok out) :
    out.status = m.protocol.failureStatus f.code ∧ out.body = (c.report m.protocol f).bytes := by
  obtain ⟨p, x, htarget, hp, hx, hstatus, hbody, -⟩ := content_of_render h
  cases htarget
  cases hx
  have hprotocol : m.protocol = .webSocket ∨ m.protocol = .mqtt := by simpa [protocols] using hp
  rw [hstatus, hbody]
  rcases hprotocol with hprotocol | hprotocol <;> rw [hprotocol] <;> exact ⟨rfl, rfl⟩

/-- A failed call that notes the id of a request is answered with an error that has this id. -/
theorem JsonRpc.report_of_render {a : JsonRpc} {id : Json}
    (hid : c.metadata.get? Metadata.jsonRpcId = some id)
    (h : a.render ((Reply.ofFailure f).correlate c) asked = .ok out) :
    out.status = Protocol.jsonRpc.failureStatus f.code ∧ out.body = (c.report .jsonRpc f).bytes := by
  have hrequest : JsonRpc.requestId? ((Reply.ofFailure f).correlate c) asked = some id :=
    JsonRpc.requestId?_correlate rfl hid
  obtain ⟨-, ⟨hnone, -⟩ | ⟨response, hresponse, rfl⟩⟩ := JsonRpc.render_cases h
  · cases hrequest.symm.trans hnone
  · rw [hrequest] at hresponse
    cases hresponse
    refine ⟨rfl, ?_⟩
    rw [Call.report, hid]
    rfl

/-- The adapter of each protocol, with the given one for REST. -/
def Adapter.ofProtocol (a : Rest) : Protocol → Adapter
  | .rest => .rest a
  | .jsonRpc => .jsonRpc {}
  | .webSocket | .mqtt => .envelope {}

theorem Adapters.find?_withRest (a : Rest) (p : Protocol) :
    (withRest a).find? p = some (.ofProtocol a p) := by
  cases p <;> rfl

theorem Adapter.writes_ofProtocol {a : Rest} (hcodec : a.codec = .json) (p : Protocol)
    (f : Failure) : (ofProtocol a p).Writes f := by
  cases p with
  | rest =>
    have hwrites := Codec.writes_json (Rest.failureValue f)
    rw [← hcodec] at hwrites
    exact hwrites
  | jsonRpc | webSocket | mqtt => trivial

/-- Unless the call is that of a notification, its failure is reported. -/
theorem Adapter.report_of_render {a : Rest} (hcodec : a.codec = .json) {fresh : TraceId}
    (haccept : (ofProtocol a m.protocol).accept fresh m = .ok c) (hnotifies : ¬ m.Notifies)
    (h : (ofProtocol a m.protocol).render ((Reply.ofFailure f).correlate c) (some m) = .ok out) :
    out.status = m.protocol.failureStatus f.code ∧ out.body = (c.report m.protocol f).bytes := by
  cases hprotocol : m.protocol with
  | rest =>
    rw [hprotocol] at h
    exact Rest.report_of_render hcodec h
  | jsonRpc =>
    rw [hprotocol] at h haccept
    obtain ⟨id, hid⟩ := JsonRpc.exists_id_of_accept hnotifies haccept
    exact JsonRpc.report_of_render hid h
  | webSocket | mqtt =>
    rw [hprotocol] at h
    rw [← hprotocol]
    exact Envelope.report_of_render (a := {}) h

end Interchange
