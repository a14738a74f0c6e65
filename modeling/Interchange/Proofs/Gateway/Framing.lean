import Interchange.Proofs.Gateway.Delivery
import Interchange.Proofs.Text.Utf8

/-!
# How answers are framed

A frame is labelled as text if it holds text, unless the label is noted.  A message
without a label gets the one that fits its body, and the call that it becomes notes
this label (`Envelope.framing_of_infer`).  From there an answer inherits it, before
anybody looks at what the answer holds (`Envelope.render_unlabelled`).

So it is the request after which the payload of an answer is labelled, and the label
is right only if both are text, or neither is (`Gateway.framed_like_request`).  The
report of a failure is text, and labelled as text.
-/

namespace Interchange

/-- Holds of the bytes of a text. -/
def Bytes.IsText (bytes : Bytes) : Prop := ∃ s, bytes = Utf8.encode s

/-- A message that is labelled as text. -/
def Outbound.LabelledText (out : Outbound) : Prop :=
  out.metadata.get? Metadata.framing = some (.string Framing.text.name)

/-- A message in an envelope without a label. -/
structure Inbound.Unlabelled (m : Inbound) : Prop where
  protocol_eq : m.protocol = .webSocket ∨ m.protocol = .mqtt
  framing_eq : m.metadata.get? Metadata.framing = none

/-- A successful answer on which no label is noted. -/
structure Reply.Unlabelled (r : Reply) : Prop where
  success_eq : r.success = true
  framing_eq : r.metadata.get? Metadata.framing = none

theorem Json.isText_bytes (j : Json) : j.bytes.IsText := by
  refine ⟨String.ofList j.chars, ?_⟩
  rw [Utf8.encode, String.toList_ofList]
  rfl

/-- The label that fits is `text` for texts and for nothing else. -/
theorem Framing.infer_eq_text_iff {bytes : Bytes} : infer bytes = .text ↔ bytes.IsText := by
  have hdecode : (Utf8.decode? bytes).isSome = true ↔ bytes.IsText := by
    simp only [Option.isSome_iff_exists, Utf8.decode?_eq_some_iff, Bytes.IsText]
  rw [← hdecode, infer]
  split <;> simp_all

theorem Framing.name_injective {f f' : Framing} (h : f.name = f'.name) : f = f' := by
  cases f <;> cases f' <;> simp [name] at h ⊢

namespace Envelope

variable {a : Envelope} {m : Inbound} {c : Call} {r : Reply} {f : Failure} {fresh : TraceId}
  {asked : Option Inbound} {out : Outbound}

/-- The call that a message without a label becomes notes the label that fits the body. -/
theorem framing_of_infer (h : a.accept fresh m = .ok c)
    (hm : m.metadata.get? Metadata.framing = none) :
    c.metadata.get? Metadata.framing = some (.string (Framing.infer m.body).name) := by
  obtain ⟨-, service, method, framing, -, -, hframing, rfl⟩ := accept_eq_ok_iff.mp h
  rw [Framing.choose, Framing.noted, hm] at hframing
  cases hframing
  exact Dictionary.get?_insert_self ..

/-- The report of a failure is labelled as text, and is. -/
theorem framing_of_failure (hf : r.failure? = some f) (h : a.render r asked = .ok out) :
    out.LabelledText ∧ out.body.IsText := by
  obtain ⟨p, x, -, -, hx, -, hbody, hlabel⟩ := content_of_render h
  rw [content, hf] at hx
  cases hx
  refine ⟨hlabel.trans (Dictionary.get?_insert_self ..), ?_⟩
  rw [hbody]
  exact Json.isText_bytes _

/-- A payload without a label is labelled as the call says. -/
theorem render_unlabelled {framing : Framing} (hprotocol : m.protocol = .webSocket ∨ m.protocol = .mqtt)
    (hc : c.metadata.get? Metadata.framing = some (.string framing.name)) (hr : r.Unlabelled) :
    ∃ x, a.render (r.correlate c) (some m) = .ok x ∧ x.body = r.payload ∧
      x.metadata.get? Metadata.framing = some (.string framing.name) := by
  have hnone : (r.correlate c).failure? = none := if_pos hr.success_eq
  have hnoted : (r.correlate c).metadata.get? Metadata.framing = some (.string framing.name) := by
    rw [Reply.correlate, Dictionary.get?_addMissing, hr.framing_eq, hc]
    rfl
  obtain ⟨x, hx, -, hbody, hlabel⟩ := render_noted (a := a) hprotocol hnone hnoted
  exact ⟨x, hx, hbody, hlabel⟩

end Envelope

/-- How the answer to a message without a label is framed, by what has come of the call: the report of a
failure as text, and a payload as the message was. Its label is right if and only if the payload is text
where the body of the message is. -/
structure Outbound.FramedLike (out : Outbound) (m : Inbound) (x : Except Failure Reply) : Prop where
  failed : ∀ f, x = .error f → out.LabelledText ∧ out.body.IsText
  answered : ∀ r, x = .ok r → out.body = r.payload ∧ (out.LabelledText ↔ m.body.IsText)
  right_iff : (out.LabelledText ↔ out.body.IsText) ↔
    ∀ r, x = .ok r → (m.body.IsText ↔ r.payload.IsText)

theorem Outbound.framedLike_error {out : Outbound} (m : Inbound) (f : Failure)
    (h : out.LabelledText ∧ out.body.IsText) : out.FramedLike m (.error f) :=
  ⟨fun _ _ ↦ h, fun _ hx ↦ (nomatch hx), fun _ _ hx ↦ (nomatch hx), fun _ ↦ iff_of_true h.1 h.2⟩

theorem Outbound.framedLike_ok {out : Outbound} {m : Inbound} {r : Reply} (hbody : out.body = r.payload)
    (hlabel : out.metadata.get? Metadata.framing = some (.string (Framing.infer m.body).name)) :
    out.FramedLike m (.ok r) := by
  have htext : out.LabelledText ↔ m.body.IsText := by
    rw [LabelledText, hlabel, ← Framing.infer_eq_text_iff]
    constructor
    · intro h
      exact Framing.name_injective (Json.string.inj (Option.some.inj h))
    · intro h
      rw [h]
  refine ⟨fun f hf ↦ (nomatch hf), fun r' hr ↦ ?_, ?_⟩
  · cases hr
    exact ⟨hbody, htext⟩
  · rw [htext, hbody]
    exact ⟨fun h r' hr ↦ Except.ok.inj hr ▸ h, fun h ↦ h r rfl⟩

namespace Gateway

variable {g : Gateway} {i : Incoming}

/-- The answer to a message without a label that became a call, by what has come of that. -/
def Frames (g : Gateway) (i : Incoming) (x : Except Failure Reply) (out : Outbound) : Prop :=
  ∀ c, g.accept i.fresh i.message = .ok c → i.message.Unlabelled → out.FramedLike i.message x

theorem frames_answer {a : Rest} (hadapters : g.adapters = .withRest a) {x : Except Failure Reply}
    (h : ComesOf Reply.Unlabelled (g.accept i.fresh i.message) x) : g.Frames i x (g.answer i x) := by
  intro c hc hm
  have hsound := sound_of_withRest hadapters
  have ha : g.adapters.find? i.message.protocol = some (.envelope {}) := by
    rw [find?_of_withRest hadapters]
    rcases hm.protocol_eq with hp | hp <;> rw [hp] <;> rfl
  have hlabel : c.metadata.get? Metadata.framing =
      some (.string (Framing.infer i.message.body).name) := by
    rw [accept_eq, Adapters.accept_of_find? ha] at hc
    cases haccept : Envelope.accept {} i.fresh i.message with
    | error f => rw [Adapter.accept, haccept] at hc; cases hc
    | ok c' =>
      rw [Adapter.accept, haccept] at hc
      cases hc
      have hnoted := Envelope.framing_of_infer haccept hm.framing_eq
      exact hnoted
  cases x with
  | error f =>
    rw [answer_of_failed hsound ha (fun _ ↦ trivial) hc]
    have hrender := render_renderFailure hsound ha (fun _ ↦ trivial) (some c) f
    exact Outbound.framedLike_error _ f (Envelope.framing_of_failure (a := {}) rfl hrender)
  | ok r =>
    have hanswer : g.answer i (.ok r) = g.render i.message (some c) r := by rw [answer, hc]; rfl
    rw [hc] at h
    cases h with
    | @answered _ r hr =>
      obtain ⟨out, hout, hbody, hframing⟩ :=
        Envelope.render_unlabelled (a := {}) hm.protocol_eq hlabel hr
      have hset : g.adapters.render (r.correlate c) (some i.message) = .ok out :=
        (Adapters.render_of_find? ha _).trans hout
      rw [hanswer, render, hset]
      exact Outbound.framedLike_ok hbody hframing

/-- The answer to a message without a label is labelled after the message, and not after what it holds
itself: if messages are handled together, and if a message comes to a gateway at work. -/
theorem framed_like_request (settings : Settings) (template : Option PathTemplate) :
    let g : Gateway := { settings, adapters := .withRest { template } }
    (∀ {β : Type} (backend : Backend β), (∀ r, backend.Gives r → r.success = true → r.Unlabelled) →
      ∀ (messages : List Incoming) (s : Traffic × β) (k : Nat) (i : Incoming) (t : Span)
        (x : Except Failure Reply),
        messages[k]? = some i → (g.endings backend messages s)[k]? = some (t, x) →
          ∃ out, (g.handleAll backend messages s).1[k]? = some (t, out) ∧ g.Frames i x out) ∧
    ∀ (w : Concourse) (i : Incoming) (es : List Concourse.Event), (∀ z ∈ es, z.Yields Reply.Unlabelled) →
      ∀ (t : Span) (x : Except Failure Reply),
        ((w.receive g i).run settings es).errands[w.errands.length]?.bind Errand.result? = some (t, x) →
          ∃ out, ((w.receive g i).run settings es).answer? g i w.errands.length = some out ∧
            g.Frames i x out := by
  intro g
  constructor
  · intro β backend hbackend messages s k i t x hi hend
    have hcomes := g.comes_of_ending hbackend messages s hi hend
    refine ⟨g.answer i x, ?_, frames_answer rfl hcomes⟩
    rw [handleAll_eq, List.getElem?_zipWith, hi, hend]
  · intro w i es hes t x hend
    have hcomes := Concourse.comes_of_result hes hend
    refine ⟨g.answer i x, ?_, frames_answer rfl hcomes⟩
    rw [Concourse.answer?, hend]
    rfl

/-- A message that is text: a handler answers it with a byte that is none, and the answer is labelled as
text; of a service of the same gateway at work it comes to a text, and the label is right. -/
theorem framed_like_request_byte :
    let handlers : Handlers := [(("a", "b"), .immediate fun _ ↦ .ok [0xff])]
    let e : Endpoint := { service := "a", id := "1", address := "", port := 0, counter := 0 }
    let s : Traffic × Unit := ({ router := { table := [("a", [e])] }, connections := ⟨[0]⟩ }, ())
    let message : Inbound :=
      { protocol := .mqtt, body := Utf8.encode "hi", service := some "a", method := some "b" }
    let i : Incoming := { moment := 0, message, fresh := ⟨"t", by decide⟩ }
    let g : Gateway := { settings := {}, adapters := .withRest { template := none } }
    let effort : Effort Reply := { outcome := .ok (.ofPayload (Utf8.encode "ho")) }
    let es : List Concourse.Event := [.resume 0 false effort, .resume 0 false effort, .resume 0 false effort]
    let w := (Concourse.receive g i { toTraffic := s.1 }).run {} es
    (∀ r, (handlers.backend : Backend Unit).Gives r → r.success = true → r.Unlabelled) ∧
      (∀ z ∈ es, z.Yields Reply.Unlabelled) ∧ message.Unlabelled ∧
      (∃ out : Outbound, (g.handleAll handlers.backend [i] s).1[0]? = some (0, out) ∧ out.body = [0xff] ∧
        out.LabelledText) ∧
      ∃ out, w.answer? g i 0 = some out ∧ (out.LabelledText ↔ out.body.IsText) := by
  intro handlers e s message i g effort es w
  have hbackend : ∀ r, (handlers.backend : Backend Unit).Gives r → r.success = true → r.Unlabelled := by
    intro r hr hsuccess
    have hplain := Handlers.plain_of_gives hr hsuccess
    exact ⟨hsuccess, by rw [hplain.metadata_eq]; rfl⟩
  have hes : ∀ z ∈ es, z.Yields Reply.Unlabelled := by
    intro z hz
    have hz : z = .resume 0 false effort := by simpa [es] using hz
    subst hz
    rintro r ⟨⟩
    exact ⟨rfl, rfl⟩
  have hmessage : message.Unlabelled := ⟨.inr rfl, rfl⟩
  have htext : message.body.IsText := ⟨"hi", rfl⟩
  obtain ⟨hhandled, hcame⟩ := framed_like_request {} none
  let c : Call :=
    { service := "a", method := "b", payload := Utf8.encode "hi", traceId := i.fresh
      timeout := some (Span.ofMillis 30000), source := some .mqtt
      metadata := [("framing", .string "text")] }
  have hc : g.accept i.fresh i.message = .ok c := by decide +kernel
  refine ⟨hbackend, hes, hmessage, ?_, ?_⟩
  · let r := (Reply.ofPayload [0xff]).correlate c
    have hendings : g.endings handlers.backend [i] s = [(0, .ok r)] := by decide +kernel
    obtain ⟨out, hout, hframes⟩ :=
      hhandled handlers.backend hbackend [i] s 0 i 0 (.ok r) rfl (by rw [hendings]; rfl)
    obtain ⟨hbody, hlabel⟩ := (hframes c hc hmessage).answered r rfl
    exact ⟨out, hout, hbody, hlabel.mpr htext⟩
  · let r := (Reply.ofPayload (Utf8.encode "ho")).correlate c
    have hended : w.errands[0]?.bind Errand.result? = some (0, .ok r) := by decide +kernel
    obtain ⟨out, hout, hframes⟩ := hcame { toTraffic := s.1 } i es hes 0 (.ok r) hended
    refine ⟨out, hout, (hframes c hc hmessage).right_iff.mpr fun r' hr' ↦ ?_⟩
    cases hr'
    exact iff_of_true htext ⟨"ho", rfl⟩

/-- A byte that belongs to no text leaves in a frame that is labelled as text. -/
theorem byte_labelled_text :
    let handlers : Handlers := [(("a", "b"), .immediate fun _ ↦ .ok [0xff])]
    let e : Endpoint := { service := "a", id := "1", address := "", port := 0, counter := 0 }
    let s : Traffic × Unit := ({ router := { table := [("a", [e])] }, connections := ⟨[0]⟩ }, ())
    let message : Inbound :=
      { protocol := .webSocket, body := Utf8.encode "hi", service := some "a", method := some "b" }
    let i : Incoming := { moment := 0, message, fresh := ⟨"t", by decide⟩ }
    message.Unlabelled ∧ ∃ out, (handleAll {} handlers.backend [i] s).1 = [(0, out)] ∧
      out.LabelledText ∧ ¬ out.body.IsText := by
  intro handlers e s message i
  have hanswers : ((handleAll {} handlers.backend [i] s).1.map fun x ↦
      (x.1, x.2.metadata.get? Metadata.framing, x.2.body)) = [(0, some (.string "text"), [0xff])] := by
    decide +kernel
  obtain ⟨⟨t, out⟩, hout, hparts⟩ := List.map_eq_singleton_iff.mp hanswers
  simp only [Prod.mk.injEq] at hparts
  obtain ⟨rfl, hlabel, hbody⟩ := hparts
  have hbinary : Framing.infer [0xff] ≠ .text := by decide +kernel
  refine ⟨⟨.inl rfl, rfl⟩, out, hout, hlabel, ?_⟩
  rw [hbody, ← Framing.infer_eq_text_iff]
  exact hbinary

end Gateway

end Interchange
