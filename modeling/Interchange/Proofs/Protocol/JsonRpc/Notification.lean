import Interchange.Proofs.Protocol.JsonRpc.Echo

/-!
# Notifications

A notification is a request without an id.  It becomes a call if it says where it
goes (`JsonRpc.exists_accept_iff`; the codec must not refuse its parameters), and the
call is a published message, on which no id is noted (`JsonRpc.call_of_accept`).  An answer has no body if it answers a
published message for which no id is known (`JsonRpc.render_silent`).

So that a notification wants no answer is known in two ways.  If there is no call,
only one of them is left: the body of the request is read again, and has no id, but
the pattern is the one with which the message came.
-/

namespace Interchange

/-- A JSON-RPC message that holds a request without an id, and on which none is noted either. -/
structure Inbound.Notifies (m : Inbound) : Prop where
  protocol_eq : m.protocol = .jsonRpc
  exists_request : ∃ request, JsonRpc.parse m.body = .ok request
  no_member : ∃ j, Json.decode m.body = .ok j ∧ j.get? "id" = none
  unmarked : m.metadata.get? Metadata.jsonRpcId = none

/-- The request of a JSON-RPC message names a method, and the method or the envelope names a service. -/
def Inbound.Addressed (m : Inbound) : Prop :=
  ∃ request, JsonRpc.parse m.body = .ok request ∧ Text.isBlank request.method = false ∧
    ((JsonRpc.splitMethod? request.method).isSome ∨ m.service?.isSome)

/-- A message without a body to somebody who does not wait for one. -/
structure Outbound.Silent (out : Outbound) : Prop where
  status_eq : out.status = 204
  body_eq : out.body = []
  pattern_eq : out.pattern = .publishSubscribe

namespace JsonRpc

variable {a : JsonRpc} {fresh : TraceId} {m : Inbound} {c : Call} {r : Reply} {asked : Option Inbound}

/-! ## The way in -/

theorem exists_target_iff {method : String} :
    (∃ t, target m method = .ok t) ↔ (splitMethod? method).isSome ∨ m.service?.isSome := by
  unfold target
  cases splitMethod? method with
  | some t => simp
  | none => cases m.service? <;> simp

/-- A message becomes a call if and only if it says where it goes. -/
theorem exists_accept_iff (hwrites : a.codec.Writes) (hprotocol : m.protocol = .jsonRpc) :
    (∃ c, a.accept fresh m = .ok c) ↔ m.Addressed := by
  constructor
  · rintro ⟨c, h⟩
    obtain ⟨-, request, service, method, payload, hrequest, hblank, htarget, -⟩ := accept_eq_ok_iff.mp h
    exact ⟨request, hrequest, hblank, exists_target_iff.mp ⟨_, htarget⟩⟩
  · rintro ⟨request, hrequest, hblank, hnamed⟩
    obtain ⟨⟨service, method⟩, htarget⟩ := exists_target_iff.mpr hnamed
    obtain ⟨payload, hpayload⟩ := hwrites request.params
    exact ⟨_, accept_eq_ok_iff.mpr
      ⟨hprotocol, request, service, method, payload, hrequest, hblank, htarget, hpayload, rfl⟩⟩

/-- A request without a member `id` has no id. -/
theorem id_of_notifies (h : m.Notifies) {request : Request} (hrequest : parse m.body = .ok request) :
    request.id = none := by
  obtain ⟨j, hj, hid⟩ := h.no_member
  exact (id_of_parse hrequest hj).trans hid

/-- The call that a notification becomes. -/
theorem call_of_accept (hnotifies : m.Notifies) (h : a.accept fresh m = .ok c) :
    c.pattern = .publishSubscribe ∧ c.metadata.get? Metadata.jsonRpcId = none := by
  obtain ⟨-, request, service, method, payload, hrequest, -, -, -, rfl⟩ := accept_eq_ok_iff.mp h
  rw [id_of_notifies hnotifies hrequest]
  exact ⟨rfl, hnotifies.unmarked⟩

/-- The call that any other message becomes notes an id. -/
theorem exists_id_of_accept (hnotifies : ¬ m.Notifies) (h : a.accept fresh m = .ok c) :
    ∃ id, c.metadata.get? Metadata.jsonRpcId = some id := by
  obtain ⟨hprotocol, request, service, method, payload, hrequest, -, -, -, rfl⟩ := accept_eq_ok_iff.mp h
  cases hid : request.id with
  | some id => exact ⟨id, Dictionary.get?_insert_self ..⟩
  | none =>
    by_contra hunmarked
    refine hnotifies ⟨hprotocol, ⟨_, hrequest⟩, ?_, ?_⟩
    · obtain ⟨j, hj, -⟩ := bind_eq_ok.mp hrequest
      exact ⟨j, hj, (id_of_parse hrequest hj).symm.trans hid⟩
    · exact Option.eq_none_iff_forall_ne_some.mpr fun id hid ↦ hunmarked ⟨id, hid⟩

/-! ## The way out -/

/-- To a notification no id is known, unless the answer notes one. -/
theorem requestId?_of_notifies (h : m.Notifies) (hr : r.metadata.get? Metadata.jsonRpcId = none) :
    requestId? r (some m) = none := by
  obtain ⟨request, hrequest⟩ := h.exists_request
  rw [requestId?, hr, Option.none_or]
  change (parse m.body).toOption.bind Request.id = none
  rw [hrequest]
  exact id_of_notifies h hrequest

/-- What answers a published message without an id is silent. -/
theorem render_silent (htarget : r.target asked = .ok .jsonRpc) (hid : requestId? r asked = none)
    (hpattern : r.pattern = .publishSubscribe) :
    ∃ out, a.render r asked = .ok out ∧ out.Silent := by
  refine ⟨r.finish { protocol := .jsonRpc, status := 204, body := [] }, ?_, rfl, rfl, hpattern⟩
  change r.target asked >>= _ = _
  rw [htarget]
  change (if (requestId? r asked).isNone ∧ r.pattern = .publishSubscribe then _ else _) = _
  rw [if_pos ⟨by rw [hid]; rfl, hpattern⟩]

end JsonRpc

end Interchange
