import Interchange.Proofs.Protocol.Rendering

/-!
# The id of a request comes back

An id takes one of two ways from a request to its answer.  If the request became a
call, the id is noted in the metadata of the call (`JsonRpc.id_of_accept`), and from
there an answer that notes no id itself gets it (`JsonRpc.requestId?_correlate`).  If
there is no call, the body of the request is read once more.  Both ways begin at the
member of the body that is called `id`, whatever its value
(`JsonRpc.id_of_parse`), and end at the member of that name in the answer
(`JsonRpc.echoes_of_render`).
-/

namespace Interchange

/-- The answer to a JSON-RPC request with this id: a response object of version 2.0 that repeats the id,
and holds either a result or an error. -/
structure Outbound.Echoes (out : Outbound) (id : Json) : Prop where
  status_eq : out.status = 200
  exists_body : ∃ members : List (String × Json), out.body = (Json.object members).bytes ∧
    (members.map Prod.fst).Nodup ∧
    (Json.object members).get? "jsonrpc" = some (.string "2.0") ∧
    (Json.object members).get? "id" = some id ∧
    ((Json.object members).get? "result").isSome ≠ ((Json.object members).get? "error").isSome

/-- A JSON-RPC message that holds a request whose `id` has this value. -/
structure Inbound.Asks (m : Inbound) (id : Json) : Prop where
  protocol_eq : m.protocol = .jsonRpc
  exists_request : ∃ request, JsonRpc.parse m.body = .ok request
  exists_member : ∃ j, Json.decode m.body = .ok j ∧ j.get? "id" = some id

namespace JsonRpc

variable {id : Json} {m : Inbound} {c : Call} {r : Reply} {asked : Option Inbound} {out : Outbound}

/-! ## The way in -/

/-- The id of a request is the member of that name. -/
theorem id_of_ofJson {members : List (String × Json)} (hsorted : Dictionary.Sorted members)
    {request : Request} (h : Request.shape.ofJson (.object members) = .ok request) :
    request.id = Dictionary.get? members "id" := by
  have hid := Json.Shape.part_of_ofJson Request.id "id" some h hsorted rfl ?_ ?_
  · rw [hid]
    cases Dictionary.get? members "id" <;> rfl
  · simp only [List.forall_mem_cons]
    refine ⟨fun _ ↦ ?_, fun _ ↦ ?_, fun _ ↦ ?_, fun hne ↦ absurd rfl hne, List.forall_mem_nil _⟩
    all_goals exact Json.Shape.Field.keeps_of fun _ _ ↦ rfl
  · intro j set hset r
    obtain ⟨x, hx, rfl⟩ := Json.Shape.Field.ofJson_of hset
    cases hx
    rfl

theorem id_of_parse {body : Bytes} {request : Request} {j : Json} (h : parse body = .ok request)
    (hj : Json.decode body = .ok j) : request.id = j.get? "id" := by
  obtain ⟨x, hx, h⟩ := bind_eq_ok.mp h
  cases hx.symm.trans hj
  split at h
  · next members =>
    split at h
    · cases h
    · next request' hrequest =>
      split at h
      · cases h
      · cases h
        exact id_of_ofJson (Json.ordered_decode hj).1 hrequest
  · cases h
  · cases h

theorem exists_request (hasks : m.Asks id) : ∃ request, parse m.body = .ok request ∧ request.id = some id := by
  obtain ⟨request, hrequest⟩ := hasks.exists_request
  obtain ⟨j, hj, hid⟩ := hasks.exists_member
  exact ⟨request, hrequest, (id_of_parse hrequest hj).trans hid⟩

/-- A call notes the id of the request that became it. -/
theorem id_of_accept {a : JsonRpc} {fresh : TraceId} (hasks : m.Asks id)
    (h : a.accept fresh m = .ok c) : c.metadata.get? Metadata.jsonRpcId = some id := by
  obtain ⟨request, hrequest, hid⟩ := exists_request hasks
  obtain ⟨-, request', service, method, payload, hrequest', -, -, -, rfl⟩ := accept_eq_ok_iff.mp h
  cases hrequest.symm.trans hrequest'
  rw [hid]
  exact Dictionary.get?_insert_self ..

/-! ## The way out -/

/-- An answer that notes no id gets that of the call. -/
theorem requestId?_correlate (hr : r.metadata.get? Metadata.jsonRpcId = none)
    (hc : c.metadata.get? Metadata.jsonRpcId = some id) :
    requestId? (r.correlate c) asked = some id := by
  simp [requestId?, Reply.correlate, Dictionary.get?_addMissing, hr, hc]

/-- An answer that notes no id, and has no call, gets that of the request. -/
theorem requestId?_of_asks (hr : r.metadata.get? Metadata.jsonRpcId = none) (hasks : m.Asks id) :
    requestId? r (some m) = some id := by
  obtain ⟨request, hrequest, hid⟩ := exists_request hasks
  rw [requestId?, hr, Option.none_or]
  change (parse m.body).toOption.bind Request.id = some id
  rw [hrequest]
  exact hid

/-- A response holds its id, and either a result or an error. -/
theorem echoes_of_response {a : JsonRpc} {response : Response}
    (h : a.response id r = .ok response) (hstatus : out.status = 200)
    (hbody : out.body = response.toJson.bytes) : out.Echoes id := by
  unfold JsonRpc.response at h
  split at h
  · cases h
    refine ⟨hstatus, _, hbody, ?_⟩
    simp [Response.ofError, Dictionary.get?, version]
  · obtain ⟨result, -, h⟩ := bind_eq_ok.mp h
    cases h
    refine ⟨hstatus, _, hbody, ?_⟩
    simp [Response.ofResult, Dictionary.get?, version]

theorem echoes_of_render {a : JsonRpc} (h : a.render r asked = .ok out)
    (hid : requestId? r asked = some id) : out.Echoes id := by
  obtain ⟨-, ⟨hnone, -, -⟩ | ⟨response, hresponse, rfl⟩⟩ := render_cases h
  · cases hid.symm.trans hnone
  · rw [hid] at hresponse
    exact echoes_of_response hresponse rfl rfl

end JsonRpc

end Interchange
