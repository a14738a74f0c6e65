import Interchange.Proofs.Gateway.Schedule
import Interchange.Proofs.Protocol.Rendering

/-!
# Every message is answered in kind

A message that comes to a gateway is refused, or becomes a call.  What can come of
it then is said by `ComesOf`: of a refused message the reason, of a call some
failure, or an answer that has been told to which call it belongs.  Nothing that
goes on at the gateway makes anything else of it, one step of the call as little as
a whole run (`Errand.Serves`).

The answer that leaves is of the protocol in which the message came.  If the
message became a call, an adapter writes the answer, on the first attempt or, as
the report of a failure, on the second; its pattern and its trace id are those of
the call, whatever the services put there (`Gateway.answered_in_kind`).  A plain body
goes out in one case only: a REST adapter has a codec of its own, and that refuses to
write the report as well (`Gateway.Unwritten`).
-/

namespace Interchange

variable {α β : Type}

/-- What can come of a message: if it was refused, the reason; if it became a call, some failure, or an
answer of a kind that has been told to which call it belongs. -/
inductive ComesOf (Q : Reply → Prop) : Except Failure Call → Except Failure Reply → Prop
  | refused (f : Failure) : ComesOf Q (.error f) (.error f)
  | failed (c : Call) (f : Failure) : ComesOf Q (.ok c) (.error f)
  | answered (c : Call) {r : Reply} : Q r → ComesOf Q (.ok c) (.ok (r.correlate c))

/-- What a result becomes for the caller. -/
theorem ComesOf.of_result {Q : Reply → Prop} (c : Call) {r : Except Failure Reply}
    (h : ∀ x, r = .ok x → Q x) : ComesOf Q (.ok c) (r.map (·.correlate c)) := by
  cases r with
  | error f => exact .failed c f
  | ok x => exact .answered c (h x rfl)

/-! ## One call -/

theorem Effort.Yields.bounded {Q : α → Prop} {e : Effort α} (h : e.Yields Q) (now : Span)
    (limit : Option Span) : (e.bounded now limit).Yields Q := by
  unfold Effort.bounded
  split
  · dsimp only
    split
    · intro x hx
      cases hx
    · exact h
  · exact h

namespace Invocation

variable {Q : α → Prop} {i j : Invocation α} {now : Span}

/-- What an invocation waits for or has ended with is of a kind, unless it is a failure. -/
def Yields (Q : α → Prop) (i : Invocation α) : Prop :=
  match i.stage with
  | .pending .. => True
  | .calling _ _ outcome | .finished _ outcome => ∀ x, outcome = .ok x → Q x

theorem yields_start (terms : Terms) (c : Cancellation) (now : Span) :
    (start terms c now : Invocation α).Yields Q := by
  cases c with
  | never | after => trivial
  | beforehand => exact nofun

theorem Yields.revoke (h : i.Yields Q) (now : Span) : (i.revoke now).Yields Q := by
  unfold Invocation.revoke
  split <;> exact h

/-- If the effort that it is given is of a kind, whatever an invocation comes to is. -/
theorem Wakes.yields {e : Effort α} {b b' : Breaker} {ds : List (Deed α)}
    (h : Wakes e now i b ds j b') (he : e.Yields Q) (hi : i.Yields Q) : j.Yields Q := by
  cases h with
  | idle => exact hi
  | revoked =>
    unfold abandon
    split
    · exact hi
    · exact nofun
    · exact nofun
  | rejected | failed | stopped => exact nofun
  | retried => trivial
  | admitted => exact he.bounded now i.terms.limit
  | succeeded _ hstage =>
    unfold Yields at hi
    rw [hstage] at hi
    exact hi

/-- The result of an invocation is of a kind if what it came to is. -/
theorem Yields.result (h : i.Yields Q) {t : Span} {r : Except Failure α}
    (hr : i.result? = some (t, r)) : ∀ x, r = .ok x → Q x := by
  unfold Yields at h
  unfold result? at hr
  cases hstage : i.stage with
  | finished t' r' =>
    rw [hstage] at h hr
    cases hr
    exact h
  | pending | calling =>
    rw [hstage] at hr
    cases hr

end Invocation

namespace Errand

variable {Q : Reply → Prop} {settings : Settings} {accepted : Except Failure Call} {x y : Errand}

/-- Where a message can stand after it was accepted as a call, or refused. -/
inductive Serves (Q : Reply → Prop) : Except Failure Call → Errand → Prop
  | coming (a : Arrival) : Serves Q (.ok a.call) (.coming a)
  | underway {c : Call} {e : Endpoint} {id : BreakerId} {i : Invocation Reply} :
      i.result? = none → i.Yields Q → Serves Q (.ok c) (.underway c e id i)
  | ended {accepted : Except Failure Call} {t : Span} {r : Except Failure Reply} :
      ComesOf Q accepted r → Serves Q accepted (.ended t r)

theorem serves_errand (i : Incoming) (accepted : Except Failure Call) :
    Serves Q accepted (Gateway.errand i accepted) := by
  cases accepted with
  | ok call =>
    exact .coming { moment := i.moment, call, cancellation := i.cancellation, draws := i.draws }
  | error f => exact .ended (.refused f)

/-- Plans make no difference to where a message stands. -/
theorem serves_planless : Serves Q accepted x.planless ↔ Serves Q accepted x := by
  constructor
  · intro h
    cases x with
    | coming a => cases h; exact .coming a
    | underway c e id i => cases h with | underway hi hQ => exact .underway hi hQ
    | ended t r => exact h
  · intro h
    cases h with
    | coming a => exact .coming { a with moment := 0, cancellation := .never }
    | underway hi hQ => exact .underway hi hQ
    | ended h => exact .ended h

/-- What one step of a call preserves. -/
theorem Resumes.serves {now : Span} {revoked : Bool} {effort : Effort Reply} {k : Nat}
    {s s' : Traffic} {ns : List Note} (h : Resumes settings now revoked effort k x s y s' ns)
    (heffort : effort.Yields Q) (hx : Serves Q accepted x) : Serves Q accepted y := by
  have hrevoke {i : Invocation Reply} (hi : i.Yields Q) :
      (if revoked then i.revoke now else i).Yields Q := by
    split
    · exact hi.revoke now
    · exact hi
  cases h with
  | refused | withdrawn => cases hx; exact .ended (.failed _ _)
  | departed => cases hx; exact .underway rfl (Invocation.yields_start ..)
  | continued hwakes hnone =>
    cases hx with
    | underway _ hi => exact .underway hnone (hwakes.yields heffort (hrevoke hi))
  | concluded hwakes hsome =>
    cases hx with
    | underway _ hi =>
      exact .ended (.of_result _ ((hwakes.yields heffort (hrevoke hi)).result hsome))
  | still => exact hx

/-- What one act of the schedule preserves: it is a step that the services answer. -/
theorem Serves.act {backend : Backend β} (hQ : ∀ r, backend.Gives r → r.success = true → Q r)
    (hx : Serves Q accepted x) (hdue : x.due.isSome) (s : Traffic × β) :
    Serves Q accepted (x.act settings backend s).1 := by
  obtain ⟨d, hd⟩ := Option.isSome_iff_exists.mp hdue
  obtain ⟨revoked, effort, heffort, hplanless, -⟩ :=
    exists_resume settings backend x.planless_planless (live_planless hdue) hd s
  have hyields : effort.Yields Q := fun r hr ↦ hQ r (heffort r hr).1 (heffort r hr).2
  have hy : Serves Q accepted (x.planless.resume settings d revoked effort s.1).1 :=
    (resumes settings d revoked effort 0 x.planless s.1).serves hyields (serves_planless.mpr hx)
  rw [← serves_planless, hplanless, serves_planless] at hy
  exact hy

/-- The result of a message is something that can come of it. -/
theorem Serves.comes (hx : Serves Q accepted x) {t : Span} {r : Except Failure Reply}
    (hr : x.result? = some (t, r)) : ComesOf Q accepted r := by
  cases hx with
  | coming | underway => cases hr
  | ended h => cases hr; exact h

/-- A message of which nothing is due has its result. -/
theorem Serves.result_of_due (hx : Serves Q accepted x) (hdue : x.due = none) :
    ∃ t r, x.result? = some (t, r) := by
  cases hx with
  | coming a => cases hdue
  | underway hi =>
    have hnext := Invocation.isSome_next.mpr hi
    simp only [due, Invocation.due, Option.map_eq_none_iff] at hdue
    rw [hdue] at hnext
    cases hnext
  | ended h => exact ⟨_, _, rfl⟩

end Errand

/-! ## Messages at a gateway -/

/-- The answer to a message of which this has come. -/
def Gateway.answer (g : Gateway) (i : Incoming) (r : Except Failure Reply) : Outbound :=
  g.respond i.message (g.accept i.fresh i.message).toOption r

namespace Concourse

variable {Q : Reply → Prop} {settings : Settings} {accepted : Except Failure Call}

/-- What an attempt comes to in an event is of a kind. -/
def Event.Yields (Q : Reply → Prop) : Event → Prop
  | .resume _ _ effort => effort.Yields Q
  | .pass _ | .change _ | .create .. | .seed .. | .acquire _ | .release _ | .route .. | .come _ | .look
  | .ask _ => True

/-- A message comes to a gateway at work. -/
def receive (g : Gateway) (i : Incoming) (w : Concourse) : Concourse :=
  { w with errands := w.errands ++ [Gateway.errand i (g.accept i.fresh i.message)] }

/-- The answer to a message that came as one of several, once there is a result. -/
def answer? (g : Gateway) (i : Incoming) (k : Nat) (w : Concourse) : Option Outbound :=
  (w.errands[k]?.bind Errand.result?).map fun x ↦ g.answer i x.2

theorem serves_step {w : Concourse} {k : Nat} {x : Errand} (hx : w.errands[k]? = some x)
    (h : x.Serves Q accepted) {z : Event} (hz : z.Yields Q) :
    ∃ y, (w.step settings z).errands[k]? = some y ∧ y.Serves Q accepted := by
  have hk : k ≠ w.errands.length := Nat.ne_of_lt (List.getElem?_eq_some_iff.mp hx).1
  rw [errands_step]
  cases z with
  | pass | change | create | seed | acquire | release | route | look | ask => exact ⟨x, hx, h⟩
  | come a => exact ⟨x, by simp [hk, hx], h⟩
  | resume m revoked effort =>
    by_cases hm : m = k
    · have hresumes := x.resumes settings w.now revoked effort k w.toTraffic
      exact ⟨_, by simp [hm, hx], hresumes.serves hz h⟩
    · exact ⟨x, by simp [hm, hx], h⟩

/-- Whatever goes on at a gateway, what comes of a message is what can come of it. -/
theorem serves_run {w : Concourse} {k : Nat} {x : Errand} (hx : w.errands[k]? = some x)
    (h : x.Serves Q accepted) {es : List Event} (hes : ∀ z ∈ es, z.Yields Q) :
    ∃ y, (w.run settings es).errands[k]? = some y ∧ y.Serves Q accepted := by
  induction es generalizing w x with
  | nil => exact ⟨x, hx, h⟩
  | cons z es ih =>
    obtain ⟨hz, hes⟩ := List.forall_mem_cons.mp hes
    obtain ⟨y, hy, hserves⟩ := serves_step hx h hz
    exact ih hy hserves hes

/-- The result of a message that came to a gateway is something that can come of it. -/
theorem comes_of_result {g : Gateway} {i : Incoming} {w : Concourse} {es : List Event}
    (hes : ∀ z ∈ es, z.Yields Q) {t : Span} {r : Except Failure Reply}
    (h : ((w.receive g i).run settings es).errands[w.errands.length]?.bind Errand.result? =
      some (t, r)) : ComesOf Q (g.accept i.fresh i.message) r := by
  have hx : (w.receive g i).errands[w.errands.length]? =
      some (Gateway.errand i (g.accept i.fresh i.message)) := by simp [receive]
  obtain ⟨y, hy, hserves⟩ := serves_run hx (Errand.serves_errand i _) hes
  rw [hy] at h
  exact hserves.comes h

/-- What is answered to a message is what is answered to something that can come of it. -/
theorem comes_of_answer? {g : Gateway} {i : Incoming} {w : Concourse} {es : List Event}
    (hes : ∀ z ∈ es, z.Yields Q) {out : Outbound}
    (h : ((w.receive g i).run settings es).answer? g i w.errands.length = some out) :
    ∃ r, ComesOf Q (g.accept i.fresh i.message) r ∧ out = g.answer i r := by
  obtain ⟨⟨t, r⟩, hresult, rfl⟩ := Option.map_eq_some_iff.mp h
  exact ⟨r, comes_of_result hes hresult, rfl⟩

end Concourse

namespace Gateway

variable {Q : Reply → Prop}

/-- The errands that several messages become. -/
def errands (g : Gateway) (messages : List Incoming) : List Errand :=
  messages.map fun i ↦ errand i (g.accept i.fresh i.message)

/-- When and how each of several messages ends that are handled together. -/
def endings (g : Gateway) (backend : Backend β) (messages : List Incoming) (s : Traffic × β) :
    List (Span × Except Failure Reply) :=
  ((Errand.process g.settings backend).run (g.errands messages) s).1.filterMap Errand.result?

/-- The results of messages of which nothing is due any more. -/
theorem forall₂_results (g : Gateway) {messages : List Incoming} {xs : List Errand}
    (hdue : ∀ x ∈ xs, x.due = none)
    (h : List.Forall₂ (fun i x ↦ Errand.Serves Q (g.accept i.fresh i.message) x) messages xs) :
    List.Forall₂ (fun i x ↦ ComesOf Q (g.accept i.fresh i.message) x.2) messages
      (xs.filterMap Errand.result?) := by
  induction h with
  | nil => exact .nil
  | @cons i x messages xs hx _ ih =>
    obtain ⟨hnone, hrest⟩ := List.forall_mem_cons.mp hdue
    obtain ⟨t, r, hr⟩ := hx.result_of_due hnone
    rw [List.filterMap_cons, hr]
    exact .cons (hx.comes hr) (ih hrest)

/-- What is answered to messages of which nothing is due any more. -/
theorem answers_eq (g : Gateway) {messages : List Incoming} {xs : List Errand}
    (hdue : ∀ x ∈ xs, x.due = none)
    (h : List.Forall₂ (fun i x ↦ Errand.Serves Q (g.accept i.fresh i.message) x) messages xs) :
    (List.zipWith (fun i (x : Except Failure Call × Errand) ↦
        x.2.result?.map fun (t, result) ↦ (t, g.respond i.message x.1.toOption result)) messages
        ((messages.map fun i ↦ g.accept i.fresh i.message).zip xs)).filterMap id =
      List.zipWith (fun i x ↦ (x.1, g.answer i x.2)) messages (xs.filterMap Errand.result?) := by
  induction h with
  | nil => rfl
  | @cons i x messages xs hx _ ih =>
    obtain ⟨hnone, hrest⟩ := List.forall_mem_cons.mp hdue
    obtain ⟨t, r, hr⟩ := hx.result_of_due hnone
    simp only [List.map_cons, List.zip_cons_cons, List.zipWith_cons_cons, hr, Option.map_some,
      List.filterMap_cons, id]
    exact congrArg _ (ih hrest)

/-- Where messages stand that have been handled together. -/
theorem forall₂_run_errands (g : Gateway) {backend : Backend β}
    (hQ : ∀ r, backend.Gives r → r.success = true → Q r) (messages : List Incoming) (s : Traffic × β) :
    List.Forall₂ (fun i x ↦ Errand.Serves Q (g.accept i.fresh i.message) x) messages
      ((Errand.process g.settings backend).run (g.errands messages) s).1 := by
  have hstart : List.Forall₂ (fun i x ↦ Errand.Serves Q (g.accept i.fresh i.message) x) messages
      (g.errands messages) := by
    refine List.forall₂_map_right_iff.mpr (List.forall₂_same.mpr fun i _ ↦ ?_)
    exact Errand.serves_errand i _
  exact Process.forall₂_run (p := Errand.process g.settings backend)
    (fun i x s hdue hx ↦ hx.act hQ hdue s) hstart s

/-- They have all ended. -/
theorem isSome_result_of_mem_run (g : Gateway) (backend : Backend β) (messages : List Incoming)
    (s : Traffic × β) :
    ∀ x ∈ ((Errand.process g.settings backend).run (g.errands messages) s).1, x.result?.isSome := by
  intro x hx
  have hdue := Process.due_of_mem_run (Errand.process g.settings backend) (g.errands messages) s x hx
  have hserves := g.forall₂_run_errands (fun (r : Reply) (_ : backend.Gives r) _ ↦ trivial) messages s
  obtain ⟨k, hk, rfl⟩ := List.getElem_of_mem hx
  have hk' : k < messages.length := hserves.length_eq ▸ hk
  obtain ⟨t, r, hr⟩ := (hserves.get hk' hk).result_of_due hdue
  rw [List.get_eq_getElem] at hr
  rw [hr]
  rfl

/-- Messages that are handled together are answered according to how each of them ends. -/
theorem handleAll_eq (g : Gateway) (backend : Backend β) (messages : List Incoming)
    (s : Traffic × β) :
    g.handleAll backend messages s =
      (List.zipWith (fun i x ↦ (x.1, g.answer i x.2)) messages (g.endings backend messages s),
        ((Errand.process g.settings backend).run (g.errands messages) s).2) := by
  have herrands : List.zipWith errand messages (messages.map fun i ↦ g.accept i.fresh i.message) =
      g.errands messages := by
    rw [List.zipWith_map_right, List.zipWith_self]
    rfl
  have hserves := g.forall₂_run_errands (fun (r : Reply) (_ : backend.Gives r) _ ↦ trivial) messages s
  have hdue := Process.due_of_mem_run (Errand.process g.settings backend) (g.errands messages) s
  rw [handleAll, herrands]
  exact Prod.ext (g.answers_eq hdue hserves) rfl

/-- Each of them ends with something that can come of it. -/
theorem forall₂_endings (g : Gateway) {backend : Backend β}
    (hQ : ∀ r, backend.Gives r → r.success = true → Q r) (messages : List Incoming) (s : Traffic × β) :
    List.Forall₂ (fun i x ↦ ComesOf Q (g.accept i.fresh i.message) x.2) messages
      (g.endings backend messages s) :=
  g.forall₂_results (Process.due_of_mem_run (Errand.process g.settings backend) _ s)
    (g.forall₂_run_errands hQ messages s)

theorem comes_of_ending (g : Gateway) {backend : Backend β}
    (hQ : ∀ r, backend.Gives r → r.success = true → Q r) (messages : List Incoming)
    (s : Traffic × β) {k : Nat} {i : Incoming} (hi : messages[k]? = some i) {t : Span}
    {r : Except Failure Reply} (hend : (g.endings backend messages s)[k]? = some (t, r)) :
    ComesOf Q (g.accept i.fresh i.message) r := by
  obtain ⟨hk, rfl⟩ := List.getElem?_eq_some_iff.mp hi
  obtain ⟨hk', hr⟩ := List.getElem?_eq_some_iff.mp hend
  have hcomes := (g.forall₂_endings hQ messages s).get hk hk'
  simpa [hr] using hcomes

/-- Messages that are handled together are all answered, each with what is answered to something that can
come of it. -/
theorem forall₂_handleAll (g : Gateway) {backend : Backend β} (hQ : ∀ r, backend.Gives r → Q r)
    (messages : List Incoming) (s : Traffic × β) {R : Incoming → Outbound → Prop}
    (hR : ∀ i r, ComesOf Q (g.accept i.fresh i.message) r → R i (g.answer i r)) :
    List.Forall₂ (fun i x ↦ R i x.2) messages (g.handleAll backend messages s).1 := by
  rw [handleAll_eq]
  have h := g.forall₂_endings (fun r hr _ ↦ hQ r hr) messages s
  generalize g.endings backend messages s = endings at h
  induction h with
  | nil => exact .nil
  | cons hr _ ih => exact .cons (hR _ _ hr) ih

/-- The call that a message becomes is the one that the adapter makes of it, but for its timeout. -/
theorem accept_eq (g : Gateway) (i : Incoming) :
    g.accept i.fresh i.message = (g.adapters.accept i.fresh i.message).map fun c ↦
      { c with timeout := some (c.timeout.getD g.settings.defaultTimeout) } := by
  unfold accept
  cases g.adapters.accept i.fresh i.message <;> rfl

/-- A plain body went out in place of the report of a failure, because the REST adapter that is there
for the message has a codec that refuses to write it. -/
def Unwritten (g : Gateway) (m : Inbound) (out : Outbound) : Prop :=
  ∃ a f e, g.adapters.find? m.protocol = some (.rest a) ∧
    a.codec.encode (Rest.failureValue f) = .error e ∧ out = plain m f

variable {g : Gateway} {i : Incoming}

theorem not_unwritten {m : Inbound} {a : Adapter} (ha : g.adapters.find? m.protocol = some a)
    (hwrites : ∀ f, a.Writes f) (out : Outbound) : ¬ g.Unwritten m out := by
  rintro ⟨b, f, e, hb, hencode, -⟩
  obtain rfl : a = .rest b := Option.some.inj (ha.symm.trans hb)
  obtain ⟨body, hbody⟩ := hwrites f
  cases hbody.symm.trans hencode

/-- The report of a failure leaves if there is an adapter for it that can write it. -/
theorem renderFailure_cases {m : Inbound} (hsound : g.adapters.Sound) {a : Adapter}
    (ha : g.adapters.find? m.protocol = some a) (call : Option Call) (f : Failure) :
    a.render (failureReply m call f) (some m) = .ok (g.renderFailure m call f) ∨
      g.Unwritten m (g.renderFailure m call f) := by
  have hfailure : (failureReply m call f).failure? = some { f with cause := none } := by
    cases call <;> rfl
  have hset := Adapters.render_of_find? ha (failureReply m call f)
  cases hrender : a.render (failureReply m call f) (some m) with
  | ok out =>
    left
    rw [renderFailure, hset, hrender]
  | error e =>
    right
    have hunwritten : ¬ a.Writes { f with cause := none } := fun hwrites ↦ by
      obtain ⟨out, hout⟩ :=
        Adapter.exists_render (Reply.target_of_asked _ m) (hsound.supports ha) hfailure hwrites
      cases hrender.symm.trans hout
    obtain ⟨b, e', rfl, hencode⟩ := Adapter.exists_of_not_writes hunwritten
    refine ⟨b, f, e', ha, hencode, ?_⟩
    rw [renderFailure, hset, hrender]

theorem render_renderFailure {m : Inbound} (hsound : g.adapters.Sound) {a : Adapter}
    (ha : g.adapters.find? m.protocol = some a) (hwrites : ∀ f, a.Writes f) (call : Option Call)
    (f : Failure) :
    a.render (failureReply m call f) (some m) = .ok (g.renderFailure m call f) :=
  (renderFailure_cases hsound ha call f).resolve_right (not_unwritten ha hwrites _)

/-- An answer to a call leaves as an adapter writes it, or else as the report of a failure. -/
theorem render_correlate_cases {m : Inbound} (hsound : g.adapters.Sound) {a : Adapter}
    (ha : g.adapters.find? m.protocol = some a) (hfailure : ∀ f, Q (Reply.ofFailure f)) (c : Call)
    {r : Reply} (hr : Q r) :
    (∃ r', Q r' ∧ a.render (r'.correlate c) (some m) = .ok (g.render m (some c) (r.correlate c))) ∨
      g.Unwritten m (g.render m (some c) (r.correlate c)) := by
  have hset := Adapters.render_of_find? ha (r.correlate c)
  cases hrender : a.render (r.correlate c) (some m) with
  | ok out =>
    refine .inl ⟨r, hr, ?_⟩
    rw [hrender, render, hset, hrender]
  | error f =>
    have hagain : g.render m (some c) (r.correlate c) = g.renderFailure m (some c) f := by
      rw [render, hset, hrender]
    rw [hagain]
    exact (renderFailure_cases hsound ha (some c) f).imp_left fun h ↦
      ⟨Reply.ofFailure f, hfailure f, h⟩

/-- If a message became a call, an adapter writes the answer if it can. -/
theorem answer_cases (hsound : g.adapters.Sound) {a : Adapter}
    (ha : g.adapters.find? i.message.protocol = some a) (hfailure : ∀ f, Q (Reply.ofFailure f))
    {c : Call} (haccept : g.adapters.accept i.fresh i.message = .ok c) {r : Except Failure Reply}
    (h : ComesOf Q (g.accept i.fresh i.message) r) :
    (∃ r', Q r' ∧ a.render (r'.correlate c) (some i.message) = .ok (g.answer i r)) ∨
      g.Unwritten i.message (g.answer i r) := by
  -- The timeout that is added to the call does not show in an answer to it.
  let c' : Call := { c with timeout := some (c.timeout.getD g.settings.defaultTimeout) }
  have hc : g.accept i.fresh i.message = .ok c' := by rw [accept_eq, haccept]; rfl
  rw [hc] at h
  rw [answer, hc]
  cases h with
  | failed _ f => exact render_correlate_cases hsound ha hfailure c' (hfailure f)
  | answered _ hr => exact render_correlate_cases hsound ha hfailure c' hr

theorem exists_render_answer (hsound : g.adapters.Sound) {a : Adapter}
    (ha : g.adapters.find? i.message.protocol = some a) (hwrites : ∀ f, a.Writes f)
    (hfailure : ∀ f, Q (Reply.ofFailure f))
    {c : Call} (haccept : g.adapters.accept i.fresh i.message = .ok c) {r : Except Failure Reply}
    (h : ComesOf Q (g.accept i.fresh i.message) r) :
    ∃ r', Q r' ∧ a.render (r'.correlate c) (some i.message) = .ok (g.answer i r) :=
  (answer_cases hsound ha hfailure haccept h).resolve_right (not_unwritten ha hwrites _)

/-- If a message was refused, the answer is a report of that. -/
theorem answer_of_refused {f : Failure} (hrefused : g.adapters.accept i.fresh i.message = .error f)
    {r : Except Failure Reply} (h : ComesOf Q (g.accept i.fresh i.message) r) :
    g.answer i r = g.renderFailure i.message none f := by
  have hf : g.accept i.fresh i.message = .error f := by rw [accept_eq, hrefused]; rfl
  rw [hf] at h
  rw [answer, hf]
  cases h
  rfl

/-- A codec that writes nothing but `null` refuses the report that there is no endpoint. -/
example :
    let codec : Codec :=
      { contentType := "text/plain"
        encode := fun v ↦ if v = .null then .ok [] else .error cancelled
        decode := fun _ ↦ .ok .null }
    let g : Gateway := { adapters := .ofList [.rest { codec }] }
    let message : Inbound := { protocol := .rest, body := [], service := some "a", method := some "b" }
    let i : Incoming := { moment := 0, message, fresh := ⟨"t", by decide⟩ }
    let w := (Concourse.receive g i {}).run g.settings [.resume 0 false { outcome := .ok (.ofPayload []) }]
    w.answer? g i 0 = some (plain message cancelled) := by
  decide +kernel

end Gateway

end Interchange
