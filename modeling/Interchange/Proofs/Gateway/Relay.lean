import Interchange.Gateway.Remote
import Interchange.Proofs.Protocol.Delivery
import Interchange.Proofs.Protocol.JsonRpc.Rereading

/-!
# Two gateways in a row

A gateway posts a call to a service that speaks JSON-RPC, and the service may be
another gateway.  Then what the first one writes is read by the second, and what the
second one answers is read by the first, and both must mean the same
(`Remote.relayed`).

On the way there the name of the method is what can go wrong: it is put together
from the service and the method, and taken apart at the first point
(`JsonRpc.splitMethod?_qualified`).  On the way back it is the code of a failure,
which is a number of JSON-RPC in between (`JsonRpc.ErrorObject.failureCode_ofFailure`).
-/

namespace Interchange

/-- A JSON-RPC message with this body, whose sender waits for an answer. -/
structure Inbound.Brings (m : Inbound) (body : Bytes) : Prop where
  protocol_eq : m.protocol = .jsonRpc
  body_eq : m.body = body
  pattern_eq : m.pattern = .requestResponse

/-- A call to the same method of the same service, with this payload, that notes this id. -/
structure Call.Relays (c : Call) (service method : String) (payload : Bytes) (id : Json) : Prop where
  service_eq : c.service = service
  method_eq : c.method = method
  payload_eq : c.payload = payload
  pattern_eq : c.pattern = .requestResponse
  source_eq : c.source = some .jsonRpc
  id_eq : c.metadata.get? Metadata.jsonRpcId = some id

/-- The id that an answer notes, or else this one. -/
def Reply.idOr (r : Reply) (id : Json) : Json := (r.metadata.get? Metadata.jsonRpcId).getD id

namespace JsonRpc

variable {a : JsonRpc} {m : Inbound} {c : Call} {r : Reply} {fresh : TraceId} {service method : String}
  {params id : Json}

/-! ## The way there -/

theorem toList_qualified (service method : String) :
    (s!"{service}.{method}").toList = service.toList ++ '.' :: method.toList := by
  change (service ++ "." ++ method).toList = _
  simp

/-- A service whose name has no point in it is told from the method. -/
theorem splitMethod?_qualified (hservice : service ≠ "") (hpoint : '.' ∉ service.toList)
    (hmethod : method ≠ "") : splitMethod? s!"{service}.{method}" = some (service, method) :=
  splitMethod?_eq_some_iff.mpr ⟨rfl, hpoint, hservice, hmethod⟩

/-- A name with a point in it is not blank. -/
theorem isBlank_qualified (service method : String) :
    Text.isBlank s!"{service}.{method}" = false := by
  have hpoint : Text.isBlankChar '.' = false := by decide
  rw [Text.isBlank, toList_qualified, List.all_append, List.all_cons, hpoint, Bool.false_and, Bool.and_false]

/-- A request that names service and method becomes a call to them. -/
theorem exists_accept_qualified (hservice : service ≠ "") (hpoint : '.' ∉ service.toList)
    (hmethod : method ≠ "") (hprotocol : m.protocol = .jsonRpc) (hpattern : m.pattern = .requestResponse)
    (hparse : parse m.body = .ok { method := s!"{service}.{method}", params, id := some id })
    {payload : Bytes} (hpayload : a.codec.encode params = .ok payload) :
    ∃ c, a.accept fresh m = .ok c ∧ c.Relays service method payload id := by
  have htarget : target m s!"{service}.{method}" = .ok (service, method) := by
    rw [target, splitMethod?_qualified hservice hpoint hmethod]
  refine ⟨_, accept_eq_ok_iff.mpr
    ⟨hprotocol, _, service, method, payload, hparse, ?_, htarget, hpayload, rfl⟩, ?_⟩
  · exact isBlank_qualified service method
  · exact ⟨rfl, rfl, rfl, hpattern, congrArg some hprotocol, Dictionary.get?_insert_self ..⟩

/-! ## The way back -/

namespace ErrorObject

/-- A failure keeps its code on the way. -/
theorem failureCode_ofFailure (f : Failure) : (ofFailure f).failureCode = f.code := by
  obtain ⟨code, message, details, cause⟩ := f
  cases code <;> rfl

theorem regular_ofFailure {f : Failure} (h : ∀ x ∈ f.details, x.Regular) : (ofFailure f).Regular := by
  refine ⟨?_, ?_, h⟩
  · change -0x80000000 ≤ (f.code.toNat : Int)
    omega
  · change (f.code.toNat : Int) < 0x80000000
    cases f.code <;> decide

end ErrorObject

theorem response_of_failure {f : Failure} (hf : r.failure? = some f) (id : Json) :
    a.response id r = .ok (.ofError id (.ofFailure f)) := by
  rw [response, hf]

theorem response_of_success {w : Json} (hsuccess : r.success = true)
    (hw : a.codec.decode r.payload = .ok w) (id : Json) : a.response id r = .ok (.ofResult id w) := by
  have hnone : r.failure? = none := if_pos hsuccess
  rw [response, hnone, hw]
  rfl

/-- To a correlated answer leaves the response that it stands for, with an id that may be its own. -/
theorem exists_render_relayed {payload : Bytes} (hc : c.Relays service method payload id)
    {asked : Option Inbound} (hasked : ∀ q ∈ asked, q.protocol = .jsonRpc) {response : Response}
    (hresponse : a.response (r.idOr id) r = .ok response) :
    ∃ out, a.render (r.correlate c) asked = .ok out ∧ out.body = response.toJson.bytes := by
  have htarget : (r.correlate c).target asked = .ok .jsonRpc := by
    cases asked with
    | none => rw [Reply.target, Reply.correlate, hc.source_eq]; rfl
    | some q => rw [Reply.target_of_asked, hasked q rfl]
  have hnoted : requestId? (r.correlate c) asked = some (r.idOr id) := by
    rw [Reply.idOr, requestId?, Reply.correlate, Dictionary.get?_addMissing, hc.id_eq]
    cases r.metadata.get? Metadata.jsonRpcId <;> rfl
  have hsame : a.response (r.idOr id) (r.correlate c) = .ok response := hresponse
  rw [render_of_id htarget hnoted, hsame]
  exact ⟨_, rfl, rfl⟩

end JsonRpc

namespace Remote

variable {r : Remote} {e : Endpoint} {c : Call} {v : Json} {p : Posting}

/-- A posting is sent if HTTP allows its address and its trace id. -/
theorem checkPosting_eq_ok_iff {q : Posting} {path : String} : checkPosting e q path = .ok p ↔
    p = q ∧ Http.checkUri (e.authority ++ path) = .ok () ∧ Http.isHeaderValue q.traceId = true := by
  unfold checkPosting
  dsimp only
  cases Http.checkUri (e.authority ++ path) with
  | error fault => simp
  | ok checked =>
    cases Http.isHeaderValue q.traceId with
    | false => simp
    | true =>
      simp only [if_true, Except.ok.injEq, and_true]
      exact eq_comm

/-- The request for a call whose payload has this value. -/
def posted (r : Remote) (e : Endpoint) (c : Call) (v : Json) : JsonRpc.Request :=
  { method := s!"{e.service}.{c.method}", params := v, id := some (.int r.nextId) }

/-- What is posted for a call whose payload can be read. -/
theorem prepare_eq_ok_iff (htransport : e.transport = .internalJsonRpc)
    (hpayload : Codec.json.decode c.payload = .ok v) : (r.prepare e c).2 = .ok p ↔
      p = { url := s!"http://{e.authority}{r.path}", traceId := c.traceId.text,
            body := (r.posted e c v).toJson.bytes } ∧
        Http.checkUri (e.authority ++ r.path) = .ok () ∧ Http.isHeaderValue c.traceId.text = true := by
  have hrequest : request r.nextId e c = .ok (r.posted e c v) := by
    rw [request, hpayload]
    rfl
  unfold prepare
  rw [if_neg (not_not_intro htransport), hrequest]
  exact checkPosting_eq_ok_iff

/-- Whatever is answered to a posting is what the call is answered with. -/
theorem call_eq (h : (r.prepare e c).2 = .ok p) (send : Posting → Exchange) :
    (r.call send e c).2 = interpret e c (send p) := by
  change (r.prepare e c).2.bind _ = _
  rw [h]
  rfl

/-- A response that comes back is taken for what it says. -/
theorem interpret_response {response : JsonRpc.Response} (h : response.Regular)
    (hwithin : response.Within 126) (status : Nat) :
    interpret e c (.answered status response.toJson.bytes) =
      .ok { replyOf response with
        headers := (replyOf response).headers.insert Headers.trace c.traceId.text } := by
  rw [interpret, (JsonRpc.Response.parse_toJson_iff h).mpr hwithin]

theorem replyOf_ofFailure (id : Json) (f : Failure) :
    replyOf (.ofError id (.ofFailure f)) = .ofFailure f := by
  change { Reply.ofFailure { code := (JsonRpc.ErrorObject.ofFailure f).failureCode, message := f.message } with
    errorDetails := f.details } = Reply.ofFailure f
  rw [JsonRpc.ErrorObject.failureCode_ofFailure]
  rfl

/-- A call is answered in this way, if its posting is answered with what leaves another gateway. -/
def Yields (r : Remote) (e : Endpoint) (c : Call) (left : Except Failure Outbound) (back : Reply) : Prop :=
  ∃ out, left = .ok out ∧ ∀ status,
    (r.call (fun _ ↦ .answered status out.body) e c).2 =
      .ok { back with headers := [(Headers.trace, c.traceId.text)] }

theorem yields_response {a : JsonRpc} {c' : Call} {reply : Reply} {asked : Option Inbound}
    {service method : String} {payload : Bytes} {id : Json} (hp : (r.prepare e c).2 = .ok p)
    (hc : c'.Relays service method payload id) (hasked : ∀ q ∈ asked, q.protocol = .jsonRpc)
    {response : JsonRpc.Response} (h : response.Regular) (hwithin : response.Within 126)
    (hresponse : a.response (reply.idOr id) reply = .ok response)
    (hheaders : (replyOf response).headers = []) :
    r.Yields e c (a.render (reply.correlate c') asked) (replyOf response) := by
  obtain ⟨out, hrender, hout⟩ := JsonRpc.exists_render_relayed hc hasked hresponse
  refine ⟨out, hrender, fun status ↦ ?_⟩
  rw [call_eq hp, hout, interpret_response h hwithin, hheaders]
  rfl

/-- An answer of another gateway comes back: a failure with its code, message and details, and a payload
with its value. Details and payloads that are `null` are not told from none, so nothing is said of them. -/
structure Returns (r : Remote) (e : Endpoint) (c : Call) (a : JsonRpc) (reply : Reply)
    (left : Except Failure Outbound) : Prop where
  failure : ∀ f, reply.failure? = some f → f.details ≠ some .null →
    (∀ x ∈ f.details, x.Regular ∧ x.depth ≤ 125) → r.Yields e c left (.ofFailure f)
  success : reply.success = true → ∀ w, a.codec.decode reply.payload = .ok w → w ≠ .null →
    w.Regular → w.depth ≤ 126 → r.Yields e c left (.ofPayload w.bytes)

/-- What another gateway answers to a posting, a service behind this one might have answered itself. Two
gateways in a row agree on the service, the method and the payload of a call, on the code, the message and
the details of a failure, and on the value of a payload. The number of the posting is the id in between,
and the trace id is that of the call.

The values that are handed on nest no deeper than a reader goes inside a request or a response, and their
numbers come back from their text. What the codec of the other gateway makes of the value that is posted
is the payload there. -/
theorem relayed (htransport : e.transport = .internalJsonRpc) (hservice : e.service ≠ "")
    (hpoint : '.' ∉ e.service.toList) (hmethod : c.method ≠ "") (hnumber : r.nextId < 2 ^ 64)
    (hpayload : Codec.json.decode c.payload = .ok v) (hv : v.Exact) (hdepth : v.depth ≤ 126) :
    ((∃ p, (r.prepare e c).2 = .ok p) ↔
      Http.checkUri (e.authority ++ r.path) = .ok () ∧ Http.isHeaderValue c.traceId.text = true) ∧
    ∀ p, (r.prepare e c).2 = .ok p → ∀ (a : JsonRpc) (payload : Bytes), a.codec.encode v = .ok payload →
      ∀ (fresh : TraceId) (m : Inbound), m.Brings p.body →
      ∃ c', a.accept fresh m = .ok c' ∧ c'.Relays e.service c.method payload (.int r.nextId) ∧
        ∀ (reply : Reply) (asked : Option Inbound), (∀ q ∈ asked, q.protocol = .jsonRpc) →
          (∀ id ∈ reply.metadata.get? Metadata.jsonRpcId, id.Regular ∧ id.depth ≤ 126) →
          r.Returns e c a reply (a.render (reply.correlate c') asked) := by
  have hregular : v.Regular := ⟨Codec.ordered_decode hpayload, hv⟩
  have hnext : (Json.int r.nextId).Regular := Json.regular_int (by omega) (by omega)
  refine ⟨?_, fun p hp a payload hwritten fresh m hm ↦ ?_⟩
  · simp only [prepare_eq_ok_iff htransport hpayload, exists_and_right, exists_eq, true_and]
  have hbody : p.body = (r.posted e c v).toJson.bytes := by
    obtain ⟨rfl, -⟩ := (prepare_eq_ok_iff htransport hpayload).mp hp
    rfl
  have hparse : JsonRpc.parse m.body = .ok (r.posted e c v) := by
    rw [hm.body_eq, hbody]
    exact JsonRpc.parse_request hregular hnext hdepth (Nat.zero_le _)
  obtain ⟨c', haccept, hrelays⟩ : ∃ c', a.accept fresh m = .ok c' ∧
      c'.Relays e.service c.method payload (.int r.nextId) :=
    JsonRpc.exists_accept_qualified hservice hpoint hmethod hm.protocol_eq hm.pattern_eq hparse hwritten
  refine ⟨c', haccept, hrelays, fun reply asked hasked hnoted ↦ ?_⟩
  -- The answer may note an id of its own, which then stands in place of the number of the posting.
  obtain ⟨hid, hidDepth⟩ :
      (reply.idOr (.int r.nextId)).Regular ∧ (reply.idOr (.int r.nextId)).depth ≤ 126 := by
    rw [Reply.idOr]
    cases h : reply.metadata.get? Metadata.jsonRpcId with
    | none => exact ⟨hnext, Nat.zero_le _⟩
    | some id => exact hnoted id h
  constructor
  · intro f hf hnull hdetails
    have he : (JsonRpc.ErrorObject.ofFailure f).Regular :=
      JsonRpc.ErrorObject.regular_ofFailure fun x hx ↦ (hdetails x hx).1
    have hwithin : (JsonRpc.Response.ofError (reply.idOr (.int r.nextId)) (.ofFailure f)).Within 126 :=
      JsonRpc.Response.within_ofError.mpr ⟨hnull, hidDepth, fun x hx ↦ (hdetails x hx).2⟩
    rw [← replyOf_ofFailure (reply.idOr (.int r.nextId)) f]
    refine yields_response hp hrelays hasked (JsonRpc.Response.regular_ofError hid he) hwithin
      (JsonRpc.response_of_failure hf _) ?_
    rw [replyOf_ofFailure]
    rfl
  · intro hsuccess w hw hnull hregular hdepth
    have hwithin : (JsonRpc.Response.ofResult (reply.idOr (.int r.nextId)) w).Within 126 :=
      JsonRpc.Response.within_ofResult.mpr ⟨hnull, hidDepth, hdepth⟩
    exact yields_response hp hrelays hasked (JsonRpc.Response.regular_ofResult hid hregular) hwithin
      (JsonRpc.response_of_success hsuccess hw _) rfl

/-- A call with a list, which another gateway answers with a failure, and then with a text. -/
theorem relayed_list :
    let e : Endpoint :=
      { id := "1", service := "s", address := "h", port := 80, transport := .internalJsonRpc, counter := 0 }
    let v := Json.array [.int (-7), .string "\x7b", .null]
    let c : Call := { service := "s", method := "a.b", payload := v.bytes, traceId := ⟨"t", by decide⟩ }
    let f : Failure := { code := .routing, message := "no", details := some (.array [.int 1]) }
    let r : Remote := {}
    ∃ p, (r.prepare e c).2 = .ok p ∧
      ∃ c', JsonRpc.accept {} ⟨"u", by decide⟩ { protocol := .jsonRpc, body := p.body } = .ok c' ∧
        c'.service = "s" ∧ c'.method = "a.b" ∧ c'.payload = v.bytes ∧
        r.Yields e c (JsonRpc.render {} ((Reply.ofFailure f).correlate c') none) (.ofFailure f) ∧
        r.Yields e c (JsonRpc.render {} ((Reply.ofPayload (Json.string "x").bytes).correlate c') none)
          (.ofPayload (Json.string "x").bytes) := by
  intro e v c f r
  have hv : v.Exact := ⟨Json.exact_int (by decide) (by decide), trivial, trivial, trivial⟩
  have hpayload : Codec.json.decode c.payload = .ok v := by decide +kernel
  obtain ⟨hsent, hreturns⟩ := relayed (r := r) (e := e) (c := c) rfl (by decide) (by decide) (by decide)
    (by decide) hpayload hv (by decide)
  obtain ⟨p, hp⟩ := hsent.mpr ⟨by decide +kernel, by decide +kernel⟩
  obtain ⟨c', haccept, hrelays, hback⟩ := hreturns p hp {} v.bytes rfl ⟨"u", by decide⟩
    { protocol := .jsonRpc, body := p.body } ⟨rfl, rfl, rfl⟩
  have hfailure := hback (.ofFailure f) none nofun nofun
  have hsuccess := hback (.ofPayload (Json.string "x").bytes) none nofun nofun
  have hone : (Json.array [.int 1]).Regular :=
    ⟨⟨trivial, trivial⟩, ⟨Json.exact_int (by decide) (by decide), trivial⟩⟩
  refine ⟨p, hp, c', haccept, hrelays.service_eq, hrelays.method_eq, hrelays.payload_eq, ?_, ?_⟩
  · refine hfailure.failure f rfl (by decide) fun x hx ↦ ?_
    cases hx
    exact ⟨hone, by decide⟩
  · exact hsuccess.success rfl (.string "x") (by decide +kernel) nofun ⟨trivial, trivial⟩ (by decide)

end Remote

end Interchange
