import Interchange.Gateway.Handling
import Interchange.Proofs.Attempt.Schedule
import Interchange.Proofs.Gateway.Bank
import Interchange.Proofs.Gateway.Slots

/-!
# What a gateway handles is a run of a concourse

Calls that are dispatched together are scheduled by `Process.run`, and the services
behind the gateway answer them.  A concourse can follow every such schedule: time
passes up to the moment at which a call is due, and the call goes on, with the
effort that the services put into it then (`Concourse.Follows.act`).  So whatever
comes of the calls comes of some run in which nobody else does anything
(`Concourse.Follows.run`), and all that holds of every run holds of them.

One thing that holds is that no connection stays open: when all calls have ended
every count is what it was (`Gateway.connections_dispatchAll`,
`Gateway.connections_handleAll`).
-/

namespace Interchange

variable {β : Type}

/-- An answer that the services behind a gateway can give. -/
def Backend.Gives (backend : Backend β) (r : Reply) : Prop :=
  ∃ visit inner, (backend visit inner).2.outcome = .ok r

/-- What an attempt comes to is of a kind, unless it fails. -/
def Effort.Yields {α : Type} (Q : α → Prop) (e : Effort α) : Prop := ∀ x, e.outcome = .ok x → Q x

namespace Errand

/-- What the services put into an attempt that begins now. -/
def effort (backend : Backend β) (call : Call) (e : Endpoint) (now : Span) (s : Traffic × β) :
    Effort Reply :=
  let visit : Visit := { moment := now, endpoint := e, active := s.1.connections.active e, call }
  let effort := (backend visit s.2).2
  { after := effort.after, outcome := effort.outcome.bind Reply.result }

/-- An attempt comes to a successful answer of the services, unless it fails. -/
theorem yields_effort (backend : Backend β) (call : Call) (e : Endpoint) (now : Span)
    (s : Traffic × β) :
    (effort backend call e now s).Yields fun r ↦ backend.Gives r ∧ r.success = true := by
  intro r hr
  let visit : Visit := { moment := now, endpoint := e, active := s.1.connections.active e, call }
  change (backend visit s.2).2.outcome.bind Reply.result = .ok r at hr
  cases hanswer : (backend visit s.2).2.outcome with
  | error f => rw [hanswer] at hr; cases hr
  | ok answer =>
    -- An answer that does not report a failure is handed on as it is.
    rw [hanswer] at hr
    change answer.result = .ok r at hr
    unfold Reply.result at hr
    split at hr
    · cases hr
    · next hnone =>
      cases hr
      refine ⟨⟨visit, s.2, hanswer⟩, ?_⟩
      by_contra hfailed
      simp [Reply.failure?, hfailed] at hnone

/-- A step at a gateway is a step at the breaker alone, for the right effort. -/
theorem step_site (backend : Backend β) (call : Call) (e : Endpoint) (id : BreakerId)
    {i : Invocation Reply} (h : i.next.isSome) (now : Span) (s : Traffic × β) :
    let out := i.step (.lone (effort backend call e now s)) now (s.1.bank.breaker id)
    ∃ inner, i.step (site backend call e id) now s =
      (out.1, { s.1 with bank := s.1.bank.setBreaker id out.2 }, inner) := by
  cases hs : i.stage with
  | finished => simp [Invocation.next, hs] at h
  | calling => simp [Invocation.step, hs, site, Site.lone]
  | pending n t =>
    simp only [Invocation.step, hs, site, Site.lone]
    split <;> exact ⟨_, rfl⟩

theorem conclude_eq (call : Call) (e : Endpoint) (id : BreakerId) (i : Invocation Reply)
    (s : Traffic) (inner : β) :
    conclude call e id i (s, inner) =
      ((conclude call e id i (s, ())).1, (conclude call e id i (s, ())).2.1, inner) := by
  unfold conclude
  split <;> rfl

/-- A call without its plans: when it comes, and whether its caller is going to cancel it. -/
def planless : Errand → Errand
  | .coming a => .coming { a with moment := 0, cancellation := .never }
  | .underway call e id i => .underway call e id { i with cancelAt := none }
  | .ended t r => .ended t r

@[simp] theorem result?_planless (x : Errand) : x.planless.result? = x.result? := by
  cases x <;> rfl

@[simp] theorem planless_planless (x : Errand) : x.planless.planless = x.planless := by
  cases x <;> rfl

/-- A call that is due has not ended, and without its plans it is not going to be cancelled. -/
theorem live_planless {x : Errand} (h : x.due.isSome) : x.planless.Live := by
  cases x with
  | coming | ended => trivial
  | underway call e id i =>
    have hnext : i.next.isSome := by simpa [due, Invocation.due] using h
    exact ⟨Invocation.isSome_next.mp hnext, rfl⟩

/-- Whether a call is over does not depend on its plans. -/
theorem conclude_cancelAt (call : Call) (e : Endpoint) (id : BreakerId) (i : Invocation Reply)
    (c : Option Span) (s : Traffic) :
    (conclude call e id { i with cancelAt := c } (s, ())).1.planless =
        (conclude call e id i (s, ())).1.planless ∧
      (conclude call e id { i with cancelAt := c } (s, ())).2 =
        (conclude call e id i (s, ())).2 := by
  have hresult : ({ i with cancelAt := c } : Invocation Reply).result? = i.result? := rfl
  unfold conclude
  rw [hresult]
  cases i.result? <;> exact ⟨rfl, rfl⟩

/-- A call that is due to come can be routed. -/
theorem resume_coming (settings : Settings) {a a' : Arrival} (hcall : a'.call = a.call)
    (hdraws : a'.draws = a.draws) (effort : Effort Reply) (s : Traffic × β) :
    let out :=
      resume settings a.moment (decide (a.cancellation = .beforehand)) effort (.coming a') s.1
    out.1.planless = (depart settings a s).1.planless ∧ out.2 = (depart settings a s).2.1 := by
  simp only [resume, depart, hcall, hdraws]
  cases s.1.router.route s.1.connections a.draws.endpoint a.call with
  | error f => exact ⟨rfl, rfl⟩
  | ok out =>
    obtain ⟨r, cs, e⟩ := out
    simp only [conclude_eq _ _ _ _ _ s.2]
    cases a.cancellation with
    | never | beforehand => exact ⟨rfl, rfl⟩
    | after span =>
      obtain ⟨hplanless, htraffic⟩ := conclude_cancelAt a.call e
        (s.1.bank.guard r settings.thresholds e).2 (.start (terms settings a) .never a.moment)
        (some (a.moment + span))
        { router := r, connections := cs, bank := (s.1.bank.guard r settings.thresholds e).1 }
      exact ⟨hplanless.symm, congrArg Prod.fst htraffic.symm⟩

theorem resume_underway (settings : Settings) (now : Span) (revoked : Bool) (effort : Effort Reply)
    (call : Call) (e : Endpoint) (id : BreakerId) (i : Invocation Reply) (s : Traffic) :
    let out := (if revoked then i.revoke now else i).wake effort now (s.bank.breaker id)
    let s' := conclude call e id out.1 ({ s with bank := s.bank.setBreaker id out.2 }, ())
    resume settings now revoked effort (.underway call e id i) s = (s'.1, s'.2.1) := rfl

theorem act_underway (settings : Settings) (backend : Backend β) (call : Call) (e : Endpoint)
    (id : BreakerId) (i : Invocation Reply) (s : Traffic × β) :
    (underway call e id i).act settings backend s =
      conclude call e id (i.act (site backend call e id) s).1
        (i.act (site backend call e id) s).2 := rfl

/-- A call under way can do what it is due to do. -/
theorem exists_resume_underway (settings : Settings) (backend : Backend β) {call : Call}
    {e : Endpoint} {id : BreakerId} {i : Invocation Reply} {d : Span} (hd : i.due = some d)
    (s : Traffic × β) :
    ∃ revoked,
      let out := resume settings d revoked (effort backend call e d s)
        (.underway call e id { i with cancelAt := none }) s.1
      out.1.planless = ((underway call e id i).act settings backend s).1.planless ∧
        out.2 = ((underway call e id i).act settings backend s).2.1 := by
  -- Either the caller cancels at this moment, or the invocation takes its step.
  rcases Invocation.act_cases (site backend call e id) s hd with
    ⟨-, hresult, hact⟩ | ⟨hnext, -, hact⟩
  · refine ⟨true, ?_⟩
    rw [resume_underway, act_underway, hact, if_pos rfl, Invocation.wake_of_revoke hresult,
      Bank.setBreaker_breaker, conclude_eq _ _ _ _ _ s.2]
    obtain ⟨hplanless, htraffic⟩ := conclude_cancelAt call e id (i.abandon d) (some d) s.1
    exact ⟨hplanless, congrArg Prod.fst htraffic⟩
  · have hsome : i.next.isSome := by simp [hnext]
    obtain ⟨inner, hstep⟩ := step_site backend call e id hsome d s
    refine ⟨false, ?_⟩
    rw [resume_underway, act_underway, hact, hstep, if_neg (by simp), Invocation.wake_of_next hnext,
      conclude_eq _ _ _ _ _ inner]
    obtain ⟨hplanless, htraffic⟩ := conclude_cancelAt call e id _ none _
    exact ⟨hplanless, congrArg Prod.fst htraffic⟩

/-- What a call is due to do can be done by one that has no plans. -/
theorem exists_resume (settings : Settings) (backend : Backend β) {x y : Errand}
    (hsame : y.planless = x.planless) (hlive : y.Live) {d : Span} (hd : x.due = some d)
    (s : Traffic × β) :
    ∃ revoked effort, (effort.Yields fun r ↦ backend.Gives r ∧ r.success = true) ∧
      (y.resume settings d revoked effort s.1).1.planless =
        (x.act settings backend s).1.planless ∧
      (y.resume settings d revoked effort s.1).2 = (x.act settings backend s).2.1 := by
  cases x with
  | ended t r => cases hd
  | coming a =>
    cases hd
    cases y with
    | underway | ended => cases hsame
    | coming a' =>
      simp only [planless, coming.injEq, Arrival.mk.injEq] at hsame
      refine ⟨_, { outcome := .error cancelled }, ?_, resume_coming settings hsame.2.1 hsame.2.2.2 _ s⟩
      intro r hr
      cases hr
  | underway call e id i =>
    cases y with
    | coming | ended => cases hsame
    | underway call' e' id' j =>
      obtain ⟨terms, cancelAt, calls, stage⟩ := j
      cases hlive.2
      cases hsame
      obtain ⟨revoked, h⟩ := exists_resume_underway settings backend hd s
      exact ⟨revoked, _, yields_effort backend call e d s, h⟩

/-- What comes after an act does not come before it. -/
theorem le_due_act (settings : Settings) (backend : Backend β) {x : Errand} {d d' : Span}
    (s : Traffic × β) (hd : x.due = some d) (hd' : (x.act settings backend s).1.due = some d') :
    d ≤ d' := by
  have hconclude {call : Call} {e : Endpoint} {id : BreakerId} {i : Invocation Reply}
      {t : Traffic × β} (h : (conclude call e id i t).1.due = some d') : i.due = some d' := by
    unfold conclude at h
    split at h
    · exact h
    · cases h
  cases x with
  | ended t r => cases hd
  | coming a =>
    cases hd
    simp only [act, depart] at hd'
    split at hd'
    · cases hd'
    · exact Invocation.le_due_start (hconclude hd')
  | underway call e id i => exact Invocation.le_due_act hd (hconclude hd')

end Errand

namespace Concourse

variable {settings : Settings} {backend : Backend β}

/-- A concourse is where these calls are, but for their plans. -/
structure Follows (w : Concourse) (xs : List Errand) (t : Traffic) : Prop where
  traffic_eq : w.toTraffic = t
  same : w.errands.map Errand.planless = xs.map Errand.planless
  live : w.Live
  le_due (x : Errand) : x ∈ xs → ∀ d, x.due = some d → w.now ≤ d

/-- Nobody but calls does anything. -/
def Event.Undisturbed : Event → Prop
  | .pass _ | .come _ | .resume .. => True
  | .change _ | .create .. | .seed .. | .acquire _ | .release _ | .route .. | .look | .ask _ => False

/-- Go on with a call at a moment to come. -/
theorem run_resume {w : Concourse} {k : Nat} {x : Errand} (h : w.errands[k]? = some x) {d : Span}
    (hd : w.now ≤ d) (revoked : Bool) (effort : Effort Reply) :
    w.run settings [.pass (d - w.now), .resume k revoked effort] =
      { w with
        toTraffic := (x.resume settings d revoked effort w.toTraffic).2
        now := d
        errands := w.errands.set k (x.resume settings d revoked effort w.toTraffic).1 } := by
  have hnow : w.now + (d - w.now) = d := Nat.add_sub_of_le hd
  simp [step, h, hnow]

/-- One act of the schedule is followed. -/
theorem Follows.act {w : Concourse} {xs before behind : List Errand} {x : Errand} {s : Traffic × β}
    (h : w.Follows xs s.1)
    (hs : (Errand.process settings backend).soonest xs = some (before, x, behind)) :
    ∃ es : List Event, (∀ z ∈ es, z.Undisturbed) ∧
      (w.run settings es).Follows (before ++ (x.act settings backend s).1 :: behind)
        (x.act settings backend s).2.1 := by
  obtain ⟨hxs, hdue⟩ := Process.soonest_eq_some hs
  obtain ⟨d, hd⟩ := Option.isSome_iff_exists.mp hdue
  have hx : x ∈ xs := by simp [hxs]
  have hsame := congrArg (·[before.length]?) h.same
  simp only [List.getElem?_map, hxs, List.getElem?_append_right (Nat.le_refl _), Nat.sub_self,
    List.getElem?_cons_zero, Option.map_some, Option.map_eq_some_iff] at hsame
  obtain ⟨y, hy, hyx⟩ := hsame
  obtain ⟨revoked, effort, -, hplanless, htraffic⟩ :=
    Errand.exists_resume settings backend hyx (h.live _ y hy) hd s
  have hset (z : Errand) : before ++ z :: behind = xs.set before.length z := by simp [hxs]
  refine ⟨[.pass (d - w.now), .resume before.length revoked effort],
    by simp [Event.Undisturbed], ?_⟩
  have hlive : (w.run settings [.pass (d - w.now), .resume before.length revoked effort]).Live :=
    h.live.run _
  rw [run_resume hy (h.le_due x hx d hd), h.traffic_eq] at hlive ⊢
  refine ⟨htraffic, ?_, hlive, fun z hz d' hd' ↦ ?_⟩
  · rw [hset, List.map_set, List.map_set, hplanless, h.same]
  · rw [hset] at hz
    rcases List.mem_or_eq_of_mem_set hz with hz | rfl
    · exact Process.due_le_of_soonest hs hd z hz d' hd'
    · exact Errand.le_due_act settings backend s hd hd'

/-- The whole schedule is followed. -/
theorem Follows.run {w : Concourse} {xs : List Errand} {s : Traffic × β} (h : w.Follows xs s.1) :
    ∃ es : List Event, (∀ z ∈ es, z.Undisturbed) ∧
      (w.run settings es).Follows ((Errand.process settings backend).run xs s).1
        ((Errand.process settings backend).run xs s).2.1 := by
  induction xs, s using Process.run.induct (Errand.process settings backend) generalizing w with
  | case1 xs s hs =>
    rw [Process.run_of_soonest_none hs]
    exact ⟨[], by simp, h⟩
  | case2 xs s before x behind hs ih =>
    obtain ⟨es, hes, hfollows⟩ := h.act hs
    obtain ⟨fs, hfs, hfollows'⟩ := ih hfollows
    rw [Process.run_of_soonest_some hs]
    exact ⟨es ++ fs, List.forall_mem_append.mpr ⟨hes, hfs⟩, by rwa [run_append]⟩

/-- The calls of a concourse have the results of those that it follows. -/
theorem Follows.results_eq {w : Concourse} {xs : List Errand} {t : Traffic} (h : w.Follows xs t) :
    w.errands.map Errand.result? = xs.map Errand.result? := by
  have := congrArg (List.map Errand.result?) h.same
  simpa only [List.map_map, Function.comp_def, Errand.result?_planless] using this

/-- Where nothing is due all calls have ended. -/
theorem Follows.ended {w : Concourse} {xs : List Errand} {t : Traffic} (h : w.Follows xs t)
    (hdue : ∀ x ∈ xs, x.due = none) {y : Errand} (hy : y ∈ w.errands) :
    ∃ t r, y = .ended t r := by
  obtain ⟨k, hk⟩ := List.mem_iff_getElem?.mp hy
  have hsame := congrArg (·[k]?) h.same
  simp only [List.getElem?_map, hk, Option.map_some] at hsame
  obtain ⟨x, hx, hxy⟩ := Option.map_eq_some_iff.mp hsame.symm
  have hxdue := hdue x (List.mem_of_getElem? hx)
  cases y with
  | ended t r => exact ⟨t, r, rfl⟩
  | coming =>
    cases x with
    | coming => cases hxdue
    | underway | ended => cases hxy
  | underway call e id j =>
    cases x with
    | coming | ended => cases hxy
    | underway call' e' id' i =>
      obtain ⟨-, -, -, hij⟩ := Errand.underway.inj hxy
      have hnext : i.next = j.next :=
        congrArg (fun k : Invocation Reply ↦ ({ k with cancelAt := none }).next) hij
      have hsome : j.next.isSome := Invocation.isSome_next.mpr (h.live k _ hk).1
      rw [← hnext] at hsome
      have hnone : i.next = none := by simpa [Errand.due, Invocation.due] using hxdue
      simp [hnone] at hsome

/-- All calls are over, or wait for a moment to come. -/
def Waiting (w : Concourse) : Prop :=
  ∀ x ∈ w.errands, x.slot? = none ∧ ∀ d, x.due = some d → w.now ≤ d

theorem Waiting.follows {w : Concourse} (h : w.Waiting) : w.Follows w.errands w.toTraffic := by
  refine ⟨rfl, rfl, fun k x hx ↦ ?_, fun x hx ↦ (h x hx).2⟩
  cases x with
  | coming | ended => trivial
  | underway => cases (h _ (List.mem_of_getElem? hx)).1

/-- Whatever comes of calls that are dispatched together comes of a run of a concourse in which nobody
else does anything. -/
theorem Waiting.exists_run {w : Concourse} (h : w.Waiting) (settings : Settings)
    (backend : Backend β) (inner : β) :
    ∃ es : List Event, (∀ z ∈ es, z.Undisturbed) ∧
      let out := (Errand.process settings backend).run w.errands (w.toTraffic, inner)
      (w.run settings es).toTraffic = out.2.1 ∧
        (w.run settings es).errands.map Errand.result? = out.1.map Errand.result? ∧
        ∀ y ∈ (w.run settings es).errands, ∃ t r, y = .ended t r := by
  have hfollows : w.Follows w.errands (w.toTraffic, inner).1 := h.follows
  obtain ⟨es, hes, hend⟩ := hfollows.run
  have hdue := Process.due_of_mem_run (Errand.process settings backend) w.errands (w.toTraffic, inner)
  exact ⟨es, hes, hend.traffic_eq, hend.results_eq, fun y hy ↦ hend.ended hdue hy⟩

/-- Calls by themselves set no counter, and hold nothing for others. -/
theorem held_step (settings : Settings) {x : Event} (hx : x.Undisturbed) (w : Concourse) :
    (w.step settings x).held = w.held ∧ (w.step settings x).seeds = w.seeds := by
  cases x with
  | pass | come => exact ⟨rfl, rfl⟩
  | change | create | seed | acquire | release | route | look | ask => exact hx.elim
  | resume k revoked effort =>
    cases hk : w.errands[k]? with
    | none => simp [step, hk]
    | some x =>
      obtain ⟨y, s, ns, -, hstep, -⟩ := step_resume hk settings revoked effort
      rw [hstep]
      exact ⟨rfl, rfl⟩

theorem Accounted.run_undisturbed {w : Concourse} (h : w.Accounted) (settings : Settings)
    {es : List Event} (hes : ∀ z ∈ es, z.Undisturbed) :
    (w.run settings es).Accounted ∧ (w.run settings es).held = w.held ∧
      (w.run settings es).seeds = w.seeds := by
  induction es generalizing w with
  | nil => exact ⟨h, rfl, rfl⟩
  | cons z es ih =>
    obtain ⟨hz, hrest⟩ := List.forall_mem_cons.mp hes
    have hsteady : w.Steady z := by
      cases z with
      | pass | come | resume => trivial
      | change | create | seed | acquire | release | route | look | ask => exact hz.elim
    obtain ⟨haccounted, hheld, hseeds⟩ := ih (h.step settings hsteady) hrest
    obtain ⟨hheld', hseeds'⟩ := held_step settings hz w
    exact ⟨haccounted, hheld.trans hheld', hseeds.trans hseeds'⟩

end Concourse

/-- Where nobody holds anything every count is what it was set to. -/
theorem Tally.eq_of_unheld {cs seeds : Connections} {holders : CounterId → Nat}
    (h : Tally cs seeds holders) (hnone : ∀ id, holders id = 0) : cs = seeds := by
  obtain ⟨counts⟩ := cs
  obtain ⟨initial⟩ := seeds
  refine congrArg Connections.mk (List.ext_getElem h.length_eq.symm fun id hid hid' ↦ ?_)
  have := h.count_eq id hid
  simpa [Connections.count, hnone, hid, hid'] using this

/-- When calls that were dispatched together have ended, every count is what it was. -/
theorem Errand.connections_run (settings : Settings) (backend : Backend β) {xs : List Errand}
    (hxs : ∀ x ∈ xs, x.slot? = none) (s : Traffic × β)
    (hreal : ∀ e ∈ s.1.router.instances, e.Real s.1.connections) :
    ((process settings backend).run xs s).2.1.connections = s.1.connections := by
  let w : Concourse := { toTraffic := s.1, errands := xs, seeds := s.1.connections }
  have hwaiting : w.Waiting := fun x hx ↦ ⟨hxs x hx, fun d _ ↦ Nat.zero_le d⟩
  obtain ⟨es, hes, htraffic, -, hended⟩ := hwaiting.exists_run settings backend s.2
  have hw : w.Accounted := by
    refine ⟨⟨rfl, fun id _ ↦ ?_⟩, by simp [w], fun x hx e he ↦ ?_, hreal⟩
    · have hnone : xs.countP (Errand.isOn id) = 0 :=
        List.countP_eq_zero.mpr fun x hx ↦ by simp [Errand.isOn, hxs x hx]
      simp [w, Concourse.holders, hnone]
    · cases (hxs x hx).symm.trans he
  obtain ⟨haccounted, hheld, hseeds⟩ := hw.run_undisturbed settings hes
  have hconnections : (w.run settings es).connections = (w.run settings es).seeds := by
    refine haccounted.tally.eq_of_unheld fun id ↦ ?_
    rw [Concourse.holders, hheld]
    refine Nat.add_eq_zero_iff.mpr ⟨rfl, List.countP_eq_zero.mpr fun y hy ↦ ?_⟩
    obtain ⟨t, r, rfl⟩ := hended y hy
    simp [Errand.isOn, Errand.slot?]
  rw [← htraffic, hconnections, hseeds]

namespace Gateway

theorem connections_dispatchAll (g : Gateway) (backend : Backend β) (arrivals : List Arrival)
    (s : Traffic × β) (hreal : ∀ e ∈ s.1.router.instances, e.Real s.1.connections) :
    (g.dispatchAll backend arrivals s).2.1.connections = s.1.connections := by
  refine Errand.connections_run g.settings backend (fun x hx ↦ ?_) s hreal
  obtain ⟨a, -, rfl⟩ := List.mem_map.mp hx
  rfl

theorem connections_handleAll (g : Gateway) (backend : Backend β) (messages : List Incoming)
    (s : Traffic × β) (hreal : ∀ e ∈ s.1.router.instances, e.Real s.1.connections) :
    (g.handleAll backend messages s).2.1.connections = s.1.connections := by
  refine Errand.connections_run g.settings backend (fun x hx ↦ ?_) s hreal
  rw [← List.map_uncurry_zip_eq_zipWith] at hx
  obtain ⟨⟨i, call⟩, -, rfl⟩ := List.mem_map.mp hx
  cases call <;> rfl

end Gateway

end Interchange
