import Interchange.Gateway.Handlers
import Interchange.Proofs.Gateway.Answers
import Interchange.Proofs.Protocol.JsonRpc.Echo

/-!
# Every JSON-RPC request gets its id back

A JSON-RPC request that has an id is answered with a response that has the same id,
whatever becomes of it (`Gateway.id_echoed`): it may be refused, its call may fail or
be cancelled, and the answer of a service may turn out to be no JSON.  All that
services have to do is to leave the note of the id alone, as handlers do
(`Handlers.unmarked_of_gives`).
-/

namespace Interchange

/-- An answer on which no JSON-RPC id is noted. -/
def Reply.Unmarked (r : Reply) : Prop := r.metadata.get? Metadata.jsonRpcId = none

theorem Handlers.unmarked_of_gives {β : Type} {t : Handlers} {r : Reply}
    (h : (t.backend : Backend β).Gives r) : r.Unmarked := by
  obtain ⟨visit, inner, h⟩ := h
  cases h
  unfold Reply.Unmarked
  split <;> rfl

namespace Gateway

variable {g : Gateway} {i : Incoming} {a : JsonRpc} {id : Json}

/-- The answer to a request with an id, whatever has come of it. -/
theorem echoes_answer (hsound : g.adapters.Sound) (ha : g.adapters.find? .jsonRpc = some (.jsonRpc a))
    (hasks : i.message.Asks id) {r : Except Failure Reply}
    (h : ComesOf Reply.Unmarked (g.accept i.fresh i.message) r) : (g.answer i r).Echoes id := by
  rw [← hasks.protocol_eq] at ha
  cases haccept : g.adapters.accept i.fresh i.message with
  | ok c =>
    have hnoted : c.metadata.get? Metadata.jsonRpcId = some id := by
      obtain ⟨b, hb, hc⟩ := Adapters.exists_of_accept haccept
      cases ha.symm.trans hb
      exact JsonRpc.id_of_accept hasks hc
    obtain ⟨r', hr', hrender⟩ := exists_render_answer hsound ha (fun _ ↦ trivial) (fun f ↦ rfl) haccept h
    exact JsonRpc.echoes_of_render hrender (JsonRpc.requestId?_correlate hr' hnoted)
  | error f =>
    rw [answer_of_refused haccept h]
    have hrender := render_renderFailure hsound ha (fun _ ↦ trivial) none f
    exact JsonRpc.echoes_of_render hrender (JsonRpc.requestId?_of_asks rfl hasks)

/-- Every request with an id is answered with that id: if messages are handled together, and if a message
comes to a gateway at work, once there is an answer. -/
theorem id_echoed (settings : Settings) (rest : Rest) :
    let g : Gateway := { settings, adapters := .withRest rest }
    (∀ {β : Type} (backend : Backend β), (∀ r, backend.Gives r → r.Unmarked) →
      ∀ (messages : List Incoming) (s : Traffic × β),
        List.Forall₂ (fun i x ↦ ∀ id, i.message.Asks id → x.2.Echoes id) messages
          (g.handleAll backend messages s).1) ∧
    ∀ (w : Concourse) (i : Incoming) (es : List Concourse.Event),
      (∀ z ∈ es, z.Yields Reply.Unmarked) →
        ∀ out ∈ ((w.receive g i).run settings es).answer? g i w.errands.length,
          ∀ id, i.message.Asks id → out.Echoes id := by
  intro g
  have hsound : g.adapters.Sound := Adapters.sound_ofList _
  have ha : g.adapters.find? .jsonRpc = some (.jsonRpc {}) := rfl
  constructor
  · intro β backend hbackend messages s
    refine g.forall₂_handleAll hbackend messages s
      (R := fun i out ↦ ∀ id, i.message.Asks id → out.Echoes id) ?_
    intro i r hr id hasks
    exact echoes_answer hsound ha hasks hr
  · intro w i es hes out hout id hasks
    obtain ⟨r, hr, rfl⟩ := Concourse.comes_of_answer? hes hout
    exact echoes_answer hsound ha hasks hr

/-- A request that names no method is refused, and gets its id back all the same, which is `null`:
when it is handled by handlers, and when it comes to a gateway at work. -/
theorem id_echoed_null :
    let message : Inbound :=
      { protocol := .jsonRpc
        body := Utf8.encode "\x7b\"id\":null,\"jsonrpc\":\"2.0\",\"method\":\"\"\x7d" }
    let i : Incoming := { moment := 0, message, fresh := ⟨"t", by decide⟩ }
    let answers := (handleAll {} (Handlers.backend []) [i] ({}, ())).1
    let w := (Concourse.receive {} i {}).run {} [.resume 0 false { outcome := .ok (.ofPayload []) }]
    message.Asks .null ∧ (∀ r, (Handlers.backend [] : Backend Unit).Gives r → r.Unmarked) ∧
      (∃ t out, answers = [(t, out)] ∧ out.Echoes .null) ∧
      ∃ out, w.answer? {} i 0 = some out ∧ out.Echoes .null := by
  intro message i answers w
  have hasks : message.Asks .null := by
    refine ⟨rfl, ⟨{ method := "", id := some .null }, by decide +kernel⟩, ?_⟩
    exact ⟨.object [("id", .null), ("jsonrpc", .string "2.0"), ("method", .string "")],
      by decide +kernel, rfl⟩
  have hbackend : ∀ r, (Handlers.backend [] : Backend Unit).Gives r → r.Unmarked :=
    fun _ ↦ Handlers.unmarked_of_gives
  refine ⟨hasks, hbackend, ?_, ?_⟩
  · have hanswers := (id_echoed {} {}).1 (Handlers.backend []) hbackend [i] ({}, ())
    obtain ⟨⟨t, out⟩, rest, hout, hrest, heq⟩ := List.forall₂_cons_left_iff.mp hanswers
    cases hrest
    exact ⟨t, out, heq, hout .null hasks⟩
  · have hanswered : (w.answer? {} i 0).isSome = true := by decide +kernel
    have hevents : ∀ z ∈ [Concourse.Event.resume 0 false { outcome := .ok (.ofPayload []) }],
        z.Yields Reply.Unmarked := by
      intro z hz
      cases List.mem_singleton.mp hz
      intro r hr
      cases hr
      rfl
    obtain ⟨out, hout⟩ := Option.isSome_iff_exists.mp hanswered
    exact ⟨out, hout, (id_echoed {} {}).2 {} i _ hevents out hout .null hasks⟩

end Gateway

end Interchange
