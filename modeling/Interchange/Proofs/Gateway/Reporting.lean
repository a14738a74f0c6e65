import Interchange.Gateway.Handlers
import Interchange.Proofs.Gateway.Answers
import Interchange.Proofs.Protocol.Reporting

/-!
# Failures are reported without loss

If the call of a message fails, the sender is told of the failure itself: of its
code, its message and its details, whatever the failure was and wherever it came
from (`Gateway.failure_reported`).  Only the cause is kept back.  The one
exception are notifications, since nobody waits for their answers.
-/

namespace Interchange.Gateway

variable {g : Gateway} {i : Incoming} {c : Call} {f : Failure}

/-- The failure of a call is reported, unless the call is that of a notification or the report is not
legible. -/
def Reported (g : Gateway) (i : Incoming) (f : Failure) (out : Outbound) : Prop :=
  ∀ c, g.accept i.fresh i.message = .ok c → ¬ i.message.Notifies →
    c.Reportable i.message.protocol f → out.Reports i.message.protocol f

theorem sound_of_withRest {a : Rest} (hadapters : g.adapters = .withRest a) : g.adapters.Sound :=
  hadapters ▸ Adapters.sound_ofList _

theorem find?_of_withRest {a : Rest} (hadapters : g.adapters = .withRest a) (p : Protocol) :
    g.adapters.find? p = some (.ofProtocol a p) := by
  rw [hadapters, Adapters.find?_withRest]

/-- What is answered if a call has failed. -/
theorem answer_of_failed (hsound : g.adapters.Sound) {a : Adapter}
    (ha : g.adapters.find? i.message.protocol = some a) (hwrites : ∀ f, a.Writes f)
    (hc : g.accept i.fresh i.message = .ok c) (f : Failure) : g.answer i (.error f) = g.renderFailure i.message (some c) f := by
  have hrender : a.render ((Reply.ofFailure f).correlate c) (some i.message) =
      .ok (g.renderFailure i.message (some c) f) :=
    render_renderFailure hsound ha hwrites (some c) f
  rw [answer, hc]
  change g.render i.message (some c) ((Reply.ofFailure f).correlate c) = _
  rw [render, Adapters.render_of_find? ha, hrender]

/-- The failure of a call as it is rendered. -/
theorem report_renderFailure {a : Rest} (hadapters : g.adapters = .withRest a)
    (hcodec : a.codec = .json) (hc : g.accept i.fresh i.message = .ok c)
    (hnotifies : ¬ i.message.Notifies) (f : Failure) :
    (g.renderFailure i.message (some c) f).status = i.message.protocol.failureStatus f.code ∧
      (g.renderFailure i.message (some c) f).body = (c.report i.message.protocol f).bytes := by
  have hsound := sound_of_withRest hadapters
  have ha := find?_of_withRest hadapters i.message.protocol
  -- The call differs from the one that the adapter made in its timeout only.
  rw [accept_eq, Adapters.accept_of_find? ha] at hc
  cases haccept : (Adapter.ofProtocol a i.message.protocol).accept i.fresh i.message with
  | error f' => rw [haccept] at hc; cases hc
  | ok c' =>
    rw [haccept] at hc
    cases hc
    have hrender := render_renderFailure hsound ha (Adapter.writes_ofProtocol hcodec _) (some c') f
    have hreport := Adapter.report_of_render hcodec haccept hnotifies hrender
    exact hreport

theorem reported_answer {a : Rest} (hadapters : g.adapters = .withRest a) (hcodec : a.codec = .json)
    (i : Incoming) (f : Failure) : g.Reported i f (g.answer i (.error f)) := by
  intro c hc hnotifies hreportable
  have hsound := sound_of_withRest hadapters
  have ha := find?_of_withRest hadapters i.message.protocol
  obtain ⟨hstatus, hbody⟩ := report_renderFailure hadapters hcodec hc hnotifies f
  rw [answer_of_failed hsound ha (Adapter.writes_ofProtocol hcodec _) hc]
  exact hreportable.reports hstatus hbody

/-- If a call fails, its failure is reported: if messages are handled together, and if a message comes to
a gateway at work. What a report says tells two failures apart unless they differ in their cause only. -/
theorem failure_reported (settings : Settings) (template : Option PathTemplate) :
    let g : Gateway := { settings, adapters := .withRest { template } }
    (∀ {β : Type} (backend : Backend β) (messages : List Incoming) (s : Traffic × β) (k : Nat)
      (i : Incoming) (t : Span) (f : Failure), messages[k]? = some i →
        (g.endings backend messages s)[k]? = some (t, .error f) →
          ∃ out, (g.handleAll backend messages s).1[k]? = some (t, out) ∧ g.Reported i f out) ∧
    (∀ (w : Concourse) (i : Incoming) (es : List Concourse.Event) (t : Span) (f : Failure),
      ((w.receive g i).run settings es).errands[w.errands.length]?.bind Errand.result? =
          some (t, .error f) →
        ∃ out, ((w.receive g i).run settings es).answer? g i w.errands.length = some out ∧
          g.Reported i f out) ∧
    ∀ (p : Protocol) (f f' : Failure) (out out' : Outbound), out.Reports p f → out'.Reports p f' →
      out.body = out'.body →
        f.code = f'.code ∧ f.message = f'.message ∧ f.details = f'.details := by
  intro g
  refine ⟨?_, ?_, ?_⟩
  · intro β backend messages s k i t f hi hend
    refine ⟨g.answer i (.error f), ?_, reported_answer rfl rfl i f⟩
    rw [handleAll_eq, List.getElem?_zipWith, hi, hend]
  · intro w i es t f hend
    refine ⟨g.answer i (.error f), ?_, reported_answer rfl rfl i f⟩
    rw [Concourse.answer?, hend]
    rfl
  · intro p f f' out out' hreports hreports' hbody
    exact hreports.unique hreports' hbody

/-- A handler fails with details that are `null`, and so does the call of a request with an id: when it is
handled, and when it comes to a gateway at work. -/
theorem failure_reported_null :
    let f : Failure := { code := .badRequest, message := "no", details := some .null }
    let handlers : Handlers := [(("a", "b"), .immediate fun _ ↦ .error f)]
    let e : Endpoint := { service := "a", id := "1", address := "", port := 0, counter := 0 }
    let s : Traffic × Unit := ({ router := { table := [("a", [e])] }, connections := ⟨[0]⟩ }, ())
    let message : Inbound :=
      { protocol := .jsonRpc, body := Utf8.encode "\x7b\"id\":1,\"method\":\"a.b\"\x7d" }
    let i : Incoming := { moment := 0, message, fresh := ⟨"t", by decide⟩ }
    let g : Gateway := { settings := {}, adapters := .withRest { template := none } }
    let w := (Concourse.receive g i { toTraffic := s.1 }).run {}
      [.resume 0 false { outcome := .error f }, .resume 0 false { outcome := .error f },
        .resume 0 false { outcome := .error f }]
    (∃ c, g.accept i.fresh message = .ok c ∧ c.Reportable .jsonRpc f) ∧ ¬ message.Notifies ∧
      g.endings handlers.backend [i] s = [(0, .error f)] ∧
      w.errands[0]?.bind Errand.result? = some (0, .error f) ∧
      (∃ out, (g.handleAll handlers.backend [i] s).1[0]? = some (0, out) ∧ out.Reports .jsonRpc f) ∧
      ∃ out, w.answer? g i 0 = some out ∧ out.Reports .jsonRpc f ∧
        ∀ f', out.Reports .jsonRpc f' → f'.details = some .null := by
  intro f handlers e s message i g w
  have haccept : ∃ c, g.accept i.fresh message = .ok c ∧ c.Reportable .jsonRpc f := by
    let c : Call :=
      { service := "a", method := "b", payload := Utf8.encode "null", traceId := i.fresh
        headers := [("content-type", "application/json")], timeout := some (Span.ofMillis 30000)
        source := some .jsonRpc, metadata := [("jsonrpc_id", .int 1)] }
    refine ⟨c, by decide +kernel, ?_, ?_⟩
    · rintro d ⟨⟩
      trivial
    · unfold Json.Legible
      decide +kernel
  obtain ⟨c, hc, hreportable⟩ := haccept
  have hnotifies : ¬ message.Notifies := by
    rintro ⟨-, -, ⟨j, hj, hnone⟩, -⟩
    have hread : Json.decode message.body =
        .ok (.object [("id", .int 1), ("method", .string "a.b")]) := by decide +kernel
    cases hread.symm.trans hj
    cases hnone
  have hendings : g.endings handlers.backend [i] s = [(0, .error f)] := by decide +kernel
  have hended : w.errands[0]?.bind Errand.result? = some (0, .error f) := by decide +kernel
  obtain ⟨hhandled, hcame, hunique⟩ := failure_reported {} none
  refine ⟨⟨c, hc, hreportable⟩, hnotifies, hendings, hended, ?_, ?_⟩
  · obtain ⟨out, hout, hreported⟩ := hhandled handlers.backend [i] s 0 i 0 f rfl (by rw [hendings]; rfl)
    exact ⟨out, hout, hreported c hc hnotifies hreportable⟩
  · obtain ⟨out, hout, hreported⟩ := hcame { toTraffic := s.1 } i _ 0 f hended
    have hreports := hreported c hc hnotifies hreportable
    refine ⟨out, hout, hreports, fun f' hreports' ↦ ?_⟩
    exact (hunique .jsonRpc f' f out out hreports' hreports rfl).2.2

end Interchange.Gateway
