import Interchange.Proofs.Gateway.Echo
import Interchange.Proofs.Protocol.JsonRpc.Notification

/-!
# Notifications at a gateway

Whoever sends a notification does not wait for an answer, and what becomes of its
call is not told: not that there is no way for it, nor that a service failed, nor
what it answered (`Gateway.silent_of_accepted`).  A notification that is refused is
treated like any other message that is refused.  Its pattern is then the one with
which it came, and unless that says that nobody waits, the sender is told of the
failure, with the id `null` (`Gateway.notification_silent_iff`,
`Gateway.notification_answered`).
-/

namespace Interchange.Gateway

/-- How a notification is answered. Nothing is told of it if it says where it goes, or if its own pattern
is that of a published message; else it is told why it was refused. -/
structure Quiet (g : Gateway) (i : Incoming) (out : Outbound) : Prop where
  silent_iff : out.Silent ↔ i.message.Addressed ∨ i.message.pattern = .publishSubscribe
  refusal : ¬ out.Silent → out.Echoes .null ∧ out.pattern = i.message.pattern ∧
    ∃ f, g.adapters.accept i.fresh i.message = .error f ∧
      out.body = (JsonRpc.Response.ofError .null (.ofFailure f)).toJson.bytes

variable {g : Gateway} {i : Incoming} {a : JsonRpc}

/-- Whatever has come of the call of a notification, nothing is told of it. -/
theorem silent_of_accepted (hsound : g.adapters.Sound)
    (ha : g.adapters.find? i.message.protocol = some (.jsonRpc a)) (hnotifies : i.message.Notifies)
    {c : Call} (haccept : g.adapters.accept i.fresh i.message = .ok c) {r : Except Failure Reply}
    (h : ComesOf Reply.Unmarked (g.accept i.fresh i.message) r) : (g.answer i r).Silent := by
  obtain ⟨b, hb, hc⟩ := Adapters.exists_of_accept haccept
  cases ha.symm.trans hb
  obtain ⟨hpattern, hnoted⟩ := JsonRpc.call_of_accept hnotifies hc
  obtain ⟨r', hr', hrender⟩ := exists_render_answer hsound ha (fun _ ↦ trivial) (fun f ↦ rfl) haccept h
  have hunmarked : (r'.correlate c).metadata.get? Metadata.jsonRpcId = none := by
    rw [Reply.correlate, Dictionary.get?_addMissing, hnoted, Option.or_none]
    exact hr'
  have htarget : (r'.correlate c).target (some i.message) = .ok .jsonRpc := by
    rw [Reply.target_of_asked, hnotifies.protocol_eq]
  obtain ⟨out, hout, hsilent⟩ := JsonRpc.render_silent (a := a) htarget
    (JsonRpc.requestId?_of_notifies hnotifies hunmarked) hpattern
  cases hout.symm.trans hrender
  exact hsilent

/-- A notification that was refused is answered like any other message that was. -/
theorem quiet_of_refused (hsound : g.adapters.Sound)
    (ha : g.adapters.find? i.message.protocol = some (.jsonRpc a)) (hnotifies : i.message.Notifies)
    {f : Failure} (hrefused : g.adapters.accept i.fresh i.message = .error f)
    (hlost : ¬ i.message.Addressed) : g.Quiet i (g.renderFailure i.message none f) := by
  have hrender : a.render (failureReply i.message none f) (some i.message) =
      .ok (g.renderFailure i.message none f) :=
    render_renderFailure hsound ha (fun _ ↦ trivial) none f
  have hid := JsonRpc.requestId?_of_notifies (r := failureReply i.message none f) hnotifies rfl
  have htarget : (failureReply i.message none f).target (some i.message) = .ok .jsonRpc := by
    rw [Reply.target_of_asked, hnotifies.protocol_eq]
  by_cases hpattern : i.message.pattern = .publishSubscribe
  · obtain ⟨out, hout, hsilent⟩ := JsonRpc.render_silent (a := a) htarget hid hpattern
    cases hout.symm.trans hrender
    exact ⟨⟨fun _ ↦ .inr hpattern, fun _ ↦ hsilent⟩, fun h ↦ absurd hsilent h⟩
  · obtain ⟨-, ⟨-, hpublished, -⟩ | ⟨response, hresponse, hout⟩⟩ := JsonRpc.render_cases hrender
    · exact absurd hpublished hpattern
    · rw [hid] at hresponse
      have hstatus : (g.renderFailure i.message none f).status = 200 := by rw [hout]; rfl
      have hbody : (g.renderFailure i.message none f).body = response.toJson.bytes := by
        rw [hout]; rfl
      have hechoes := JsonRpc.echoes_of_response hresponse hstatus hbody
      refine ⟨⟨fun h ↦ ?_, fun h ↦ ?_⟩, fun _ ↦ ⟨hechoes, ?_, f, hrefused, ?_⟩⟩
      · cases hstatus.symm.trans h.status_eq
      · exact absurd (h.resolve_right hpattern) hlost
      · rw [hout]; rfl
      · cases hresponse
        exact hbody

theorem quiet_answer (hsound : g.adapters.Sound)
    (ha : g.adapters.find? .jsonRpc = some (.jsonRpc a)) (hwrites : a.codec.Writes)
    (hnotifies : i.message.Notifies) {r : Except Failure Reply}
    (h : ComesOf Reply.Unmarked (g.accept i.fresh i.message) r) : g.Quiet i (g.answer i r) := by
  rw [← hnotifies.protocol_eq] at ha
  have haddressed : (∃ c, a.accept i.fresh i.message = .ok c) ↔ i.message.Addressed :=
    JsonRpc.exists_accept_iff hwrites hnotifies.protocol_eq
  cases haccept : g.adapters.accept i.fresh i.message with
  | ok c =>
    have hsilent := silent_of_accepted hsound ha hnotifies haccept h
    obtain ⟨b, hb, hc⟩ := Adapters.exists_of_accept haccept
    cases ha.symm.trans hb
    exact ⟨⟨fun _ ↦ .inl (haddressed.mp ⟨c, hc⟩), fun _ ↦ hsilent⟩, fun h ↦ absurd hsilent h⟩
  | error f =>
    rw [answer_of_refused haccept h]
    refine quiet_of_refused hsound ha hnotifies haccept fun hlost ↦ ?_
    obtain ⟨c, hc⟩ := haddressed.mpr hlost
    rw [Adapters.accept_of_find? ha] at haccept
    cases hc.symm.trans haccept

/-- A notification is answered without a body if and only if it says where it goes, or is marked as a
published message by whoever sends it: if messages are handled together, and if a message comes to a
gateway at work, once there is an answer. -/
theorem notification_silent_iff (settings : Settings) (rest : Rest) :
    let g : Gateway := { settings, adapters := .withRest rest }
    (∀ {β : Type} (backend : Backend β), (∀ r, backend.Gives r → r.Unmarked) →
      ∀ (messages : List Incoming) (s : Traffic × β),
        List.Forall₂ (fun i x ↦ i.message.Notifies → g.Quiet i x.2) messages
          (g.handleAll backend messages s).1) ∧
    ∀ (w : Concourse) (i : Incoming) (es : List Concourse.Event),
      (∀ z ∈ es, z.Yields Reply.Unmarked) →
        ∀ out ∈ ((w.receive g i).run settings es).answer? g i w.errands.length,
          i.message.Notifies → g.Quiet i out := by
  intro g
  have hsound : g.adapters.Sound := Adapters.sound_ofList _
  have ha : g.adapters.find? .jsonRpc = some (.jsonRpc {}) := rfl
  constructor
  · intro β backend hbackend messages s
    refine g.forall₂_handleAll hbackend messages s
      (R := fun i out ↦ i.message.Notifies → g.Quiet i out) ?_
    intro i r hr hnotifies
    exact quiet_answer hsound ha Codec.writes_json hnotifies hr
  · intro w i es hes out hout hnotifies
    obtain ⟨r, hr, rfl⟩ := Concourse.comes_of_answer? hes hout
    exact quiet_answer hsound ha Codec.writes_json hnotifies hr

/-- A notification for a service that has no endpoint: nothing is told of it, when it is handled by
handlers, and when it comes to a gateway at work. -/
theorem notification_silent_unrouted :
    let message : Inbound := { protocol := .jsonRpc, body := Utf8.encode "\x7b\"method\":\"a.b\"\x7d" }
    let i : Incoming := { moment := 0, message, fresh := ⟨"t", by decide⟩ }
    let answers := (handleAll {} (Handlers.backend []) [i] ({}, ())).1
    let w := (Concourse.receive {} i {}).run {} [.resume 0 false { outcome := .ok (.ofPayload []) }]
    message.Notifies ∧ message.Addressed ∧
      (∀ r, (Handlers.backend [] : Backend Unit).Gives r → r.Unmarked) ∧
      (∃ t out, answers = [(t, out)] ∧ out.Silent) ∧ ∃ out, w.answer? {} i 0 = some out ∧ out.Silent := by
  intro message i answers w
  have hrequest : JsonRpc.parse message.body = .ok { method := "a.b" } := by decide +kernel
  have hnotifies : message.Notifies :=
    ⟨rfl, ⟨_, hrequest⟩, ⟨.object [("method", .string "a.b")], by decide +kernel, rfl⟩, rfl⟩
  have haddressed : message.Addressed := ⟨_, hrequest, by decide +kernel, .inl (by decide +kernel)⟩
  have hbackend : ∀ r, (Handlers.backend [] : Backend Unit).Gives r → r.Unmarked :=
    fun _ ↦ Handlers.unmarked_of_gives
  refine ⟨hnotifies, haddressed, hbackend, ?_, ?_⟩
  · have hanswers := (notification_silent_iff {} {}).1 (Handlers.backend []) hbackend [i] ({}, ())
    obtain ⟨⟨t, out⟩, rest, hout, hrest, heq⟩ := List.forall₂_cons_left_iff.mp hanswers
    cases hrest
    exact ⟨t, out, heq, (hout hnotifies).silent_iff.mpr (.inl haddressed)⟩
  · have hanswered : (w.answer? {} i 0).isSome = true := by decide +kernel
    have hevents : ∀ z ∈ [Concourse.Event.resume 0 false { outcome := .ok (.ofPayload []) }],
        z.Yields Reply.Unmarked := by
      intro z hz
      cases List.mem_singleton.mp hz
      intro r hr
      cases hr
      rfl
    obtain ⟨out, hout⟩ := Option.isSome_iff_exists.mp hanswered
    have hquiet := (notification_silent_iff {} {}).2 {} i _ hevents out hout hnotifies
    exact ⟨out, hout, hquiet.silent_iff.mpr (.inl haddressed)⟩

/-- A notification that names no service is answered with a body. -/
theorem notification_answered :
    let message : Inbound := { protocol := .jsonRpc, body := Utf8.encode "\x7b\"method\":\"b\"\x7d" }
    let i : Incoming := { moment := 0, message, fresh := ⟨"t", by decide⟩ }
    message.Notifies ∧ ∃ out, (handleAll {} (Handlers.backend []) [i] ({}, ())).1 = [(0, out)] ∧
      out.status = 200 ∧ out.body ≠ [] ∧ out.pattern = .requestResponse := by
  intro message i
  have hrequest : JsonRpc.parse message.body = .ok { method := "b" } := by decide +kernel
  have hnotifies : message.Notifies :=
    ⟨rfl, ⟨_, hrequest⟩, ⟨.object [("method", .string "b")], by decide +kernel, rfl⟩, rfl⟩
  have hanswers : ((handleAll {} (Handlers.backend []) [i] ({}, ())).1.map fun x ↦
      (x.1, x.2.status, x.2.pattern, x.2.body.isEmpty)) = [(0, 200, .requestResponse, false)] := by
    decide +kernel
  obtain ⟨⟨t, out⟩, hout, hparts⟩ := List.map_eq_singleton_iff.mp hanswers
  simp only [Prod.mk.injEq, List.isEmpty_eq_false_iff] at hparts
  obtain ⟨rfl, hstatus, hpattern, hbody⟩ := hparts
  exact ⟨hnotifies, out, hout, hstatus, hbody, hpattern⟩

end Interchange.Gateway
