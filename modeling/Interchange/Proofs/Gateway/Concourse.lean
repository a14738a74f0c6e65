import Interchange.Gateway.Dispatch
import Interchange.Proofs.Attempt.Course
import Interchange.Proofs.Routing.Selection

/-!
# Gateways at work

A concourse is a gateway with all that goes on there: calls under way, endpoints
that are held for a while, somebody who rewrites the routing table or asks for
breakers.  Like a crowd it moves by events, in any order whatever.  A call may go
on late, it may be cancelled between any two events, and what its attempts come
to is decided by the events, so a run ranges over all services behind the gateway
and over all schedules.

What one event does to a call is said once, case by case (`Errand.Resumes`).  The
*chronicle* of a run lists which endpoint and which breaker a call was given, and
what was done to the breakers after that, by whom and when.  It is read off the
run and not consulted by it.
-/

namespace Interchange

/-- Endpoints that are one instance of a service: they go by the same service and id, and share a
counter. -/
structure Endpoint.SameInstance (a b : Endpoint) : Prop where
  service_eq : a.service = b.service
  id_eq : a.id = b.id
  counter_eq : a.counter = b.counter

namespace Endpoint.SameInstance

variable {a b c : Endpoint}

@[refl] theorem refl (a : Endpoint) : a.SameInstance a := ⟨rfl, rfl, rfl⟩

theorem symm (h : a.SameInstance b) : b.SameInstance a :=
  ⟨h.service_eq.symm, h.id_eq.symm, h.counter_eq.symm⟩

theorem trans (h : a.SameInstance b) (h' : b.SameInstance c) : a.SameInstance c :=
  ⟨h.service_eq.trans h'.service_eq, h.id_eq.trans h'.id_eq, h.counter_eq.trans h'.counter_eq⟩

end Endpoint.SameInstance

/-- What a chronicle tells of. -/
inductive Note where
  /-- An endpoint was assigned a breaker, for a call or for somebody who asked. -/
  | assigned (author : Option Nat) (e : Endpoint) (id : BreakerId)
  /-- Something was done to the breaker of an endpoint. -/
  | did (e : Endpoint) (id : BreakerId) (entry : Entry Reply)

/-! ## One call -/

namespace Errand

/-- Go on with a call at a moment: route it, or resume its invocation. Its caller may have cancelled
it by then. If it begins an attempt, this is its effort. -/
def resume (settings : Settings) (now : Span) (revoked : Bool) (effort : Effort Reply) :
    Errand → Traffic → Errand × Traffic
  | .coming a, s =>
    let cancellation : Cancellation := if revoked then .beforehand else .never
    let (x, s, _) := depart settings { a with moment := now, cancellation } (s, ())
    (x, s)
  | .underway call e id i, s =>
    let (i, b) := (if revoked then i.revoke now else i).wake effort now (s.bank.breaker id)
    let (x, s, _) := conclude call e id i ({ s with bank := s.bank.setBreaker id b }, ())
    (x, s)
  | .ended t r, s => (.ended t r, s)

/-- What is to be told of a call that goes on. -/
def notes (settings : Settings) (now : Span) (revoked : Bool) (effort : Effort Reply) (k : Nat) :
    Errand → Traffic → List Note
  | .coming a, s =>
    match s.router.route s.connections a.draws.endpoint a.call with
    | .error _ => []
    | .ok (router, _, e) =>
      [.assigned (some k) e (s.bank.guard router settings.thresholds e).2]
  | .underway _ e id i, s =>
    ((if revoked then i.revoke now else i).deeds effort now (s.bank.breaker id)).map
      fun d ↦ .did e id ⟨now, some k, d⟩
  | .ended .., _ => []

/-- The terms of a call. -/
def terms (settings : Settings) (a : Arrival) : Terms :=
  settings.backoff.terms a.draws.jitter a.call.timeout

/-- All that can happen when a call goes on: what becomes of it, what becomes of the things it acts on,
and what is to be told. -/
inductive Resumes (settings : Settings) (now : Span) (revoked : Bool) (effort : Effort Reply)
    (k : Nat) : Errand → Traffic → Errand → Traffic → List Note → Prop
  | refused {a : Arrival} {s : Traffic} {f : Failure} :
      s.router.route s.connections a.draws.endpoint a.call = .error f →
      Resumes settings now revoked effort k (.coming a) s (.ended now (.error f)) s []
  | withdrawn {a : Arrival} {s : Traffic} {r : Router} {cs : Connections} {e : Endpoint} :
      revoked = true → s.router.route s.connections a.draws.endpoint a.call = .ok (r, cs, e) →
      Resumes settings now revoked effort k (.coming a) s (.ended now (.error cancelled))
        { router := r, connections := cs.release e, bank := (s.bank.guard r settings.thresholds e).1 }
        [.assigned (some k) e (s.bank.guard r settings.thresholds e).2]
  | departed {a : Arrival} {s : Traffic} {r : Router} {cs : Connections} {e : Endpoint} :
      revoked = false → s.router.route s.connections a.draws.endpoint a.call = .ok (r, cs, e) →
      Resumes settings now revoked effort k (.coming a) s
        (.underway a.call e (s.bank.guard r settings.thresholds e).2
          (.start (terms settings a) .never now))
        { router := r, connections := cs, bank := (s.bank.guard r settings.thresholds e).1 }
        [.assigned (some k) e (s.bank.guard r settings.thresholds e).2]
  | continued {call : Call} {e : Endpoint} {id : BreakerId} {i j : Invocation Reply} {s : Traffic}
      {b : Breaker} {ds : List (Deed Reply)} :
      (if revoked then i.revoke now else i).Wakes effort now (s.bank.breaker id) ds j b →
      j.result? = none →
      Resumes settings now revoked effort k (.underway call e id i) s (.underway call e id j)
        { s with bank := s.bank.setBreaker id b } (ds.map fun d ↦ .did e id ⟨now, some k, d⟩)
  | concluded {call : Call} {e : Endpoint} {id : BreakerId} {i j : Invocation Reply} {s : Traffic}
      {b : Breaker} {ds : List (Deed Reply)} {t : Span} {r : Except Failure Reply} :
      (if revoked then i.revoke now else i).Wakes effort now (s.bank.breaker id) ds j b →
      j.result? = some (t, r) →
      Resumes settings now revoked effort k (.underway call e id i) s
        (.ended t (r.map (·.correlate call)))
        { s with bank := s.bank.setBreaker id b, connections := s.connections.release e }
        (ds.map fun d ↦ .did e id ⟨now, some k, d⟩)
  | still {t : Span} {r : Except Failure Reply} {s : Traffic} :
      Resumes settings now revoked effort k (.ended t r) s (.ended t r) s []

/-- The step of a call, case by case. Nothing below opens `resume` again. -/
theorem resumes (settings : Settings) (now : Span) (revoked : Bool) (effort : Effort Reply) (k : Nat)
    (x : Errand) (s : Traffic) :
    Resumes settings now revoked effort k x s (x.resume settings now revoked effort s).1
      (x.resume settings now revoked effort s).2 (x.notes settings now revoked effort k s) := by
  cases x with
  | ended t r => exact .still
  | coming a =>
    cases hroute : s.router.route s.connections a.draws.endpoint a.call with
    | error f =>
      simp only [resume, notes, depart, hroute]
      exact .refused hroute
    | ok out =>
      obtain ⟨r, cs, e⟩ := out
      simp only [resume, notes, depart, hroute]
      cases revoked with
      | true => exact .withdrawn rfl hroute
      | false => exact .departed rfl hroute
  | underway call e id i =>
    have hwakes := (if revoked then i.revoke now else i).wakes effort now (s.bank.breaker id)
    simp only [resume, notes, conclude]
    split
    · next hnone => exact .continued hwakes hnone
    · next hsome => exact .concluded hwakes hsome

/-- A call under way waits for something, and has not been cancelled. -/
def Live : Errand → Prop
  | .underway _ _ _ i => i.result? = none ∧ i.cancelAt = none
  | .coming _ | .ended .. => True

namespace Resumes

variable {settings : Settings} {now : Span} {revoked : Bool} {effort : Effort Reply} {k : Nat}
  {x y : Errand} {s s' : Traffic} {ns : List Note}

/-- A call that was cancelled does not go on. -/
theorem result?_of_revoked {i j : Invocation Reply} {b b' : Breaker} {ds : List (Deed Reply)}
    (hi : i.result? = none) (h : (i.revoke now).Wakes effort now b ds j b') :
    ds = [] ∧ b' = b ∧ j.result? = some (now, .error cancelled) := by
  have hrevoked := i.revoked_revoke hi now
  have hresult : (i.revoke now).result? = none := by
    rw [Invocation.revoke, if_pos (Invocation.isSome_next.mpr hi)]
    exact hi
  cases h with
  | revoked => exact ⟨rfl, rfl, Invocation.result?_abandon hresult now⟩
  | idle h | rejected h | admitted h | succeeded h | failed h | stopped h | retried h =>
    rw [hrevoked] at h
    cases h

theorem live (h : Resumes settings now revoked effort k x s y s' ns) (hx : x.Live) : y.Live := by
  cases h with
  | refused | withdrawn | concluded | still => trivial
  | departed => exact ⟨rfl, rfl⟩
  | continued hwakes hnone =>
    refine ⟨hnone, ?_⟩
    cases revoked with
    | true => simp [(result?_of_revoked hx.1 hwakes).2.2] at hnone
    | false => exact hwakes.fixed.2.trans hx.2

end Resumes

end Errand

/-! ## The concourse -/

/-- A gateway at work. -/
structure Concourse extends Traffic where
  now : Span := 0
  errands : List Errand := []
  /-- The endpoints that somebody other than a call holds, once for each connection. -/
  held : List Endpoint := []
  /-- What the counters were set to when they were last set. -/
  seeds : Connections := {}

namespace Concourse

/-- What happens in a concourse. -/
inductive Event where
  /-- Time passes. -/
  | pass (span : Span)
  /-- Somebody writes to the router. -/
  | change (c : Change)
  /-- Somebody makes an endpoint. -/
  | create (r : Registration) (n : UInt64)
  /-- Somebody sets the counter of an endpoint. -/
  | seed (e : Endpoint) (n : UInt64)
  /-- Somebody takes hold of an endpoint. -/
  | acquire (e : Endpoint)
  /-- Somebody lets go of an endpoint. -/
  | release (k : Nat)
  /-- Somebody takes hold of the endpoint to which a call is routed. -/
  | route (draw : Nat) (c : Call)
  /-- A call comes. -/
  | come (a : Arrival)
  /-- A call goes on. Its caller may have cancelled it by now. If it begins an attempt, this is its
  effort. -/
  | resume (k : Nat) (revoked : Bool) (effort : Effort Reply)
  /-- Somebody looks at the breakers. -/
  | look
  /-- Somebody asks for the breaker of an endpoint. -/
  | ask (e : Endpoint)

variable (settings : Settings)

/-- What an event makes of a concourse. -/
def step (w : Concourse) : Event → Concourse
  | .pass span => { w with now := w.now + span }
  | .change c =>
    { w with
      router := (w.router.apply w.connections c).1
      connections := (w.router.apply w.connections c).2
      seeds := (w.router.apply w.seeds c).2 }
  | .create r n =>
    { w with connections := (w.connections.register r n).1, seeds := (w.seeds.register r n).1 }
  | .seed e n => { w with connections := w.connections.seed e n, seeds := w.seeds.seed e n }
  | .acquire e => { w with connections := w.connections.acquire e, held := w.held ++ [e] }
  | .release k =>
    match w.held[k]? with
    | none => w
    | some e => { w with connections := w.connections.release e, held := w.held.eraseIdx k }
  | .route draw c =>
    match w.router.route w.connections draw c with
    | .error _ => w
    | .ok (router, connections, e) => { w with router, connections, held := w.held ++ [e] }
  | .come a => { w with errands := w.errands ++ [.coming a] }
  | .resume k revoked effort =>
    match w.errands[k]? with
    | none => w
    | some x =>
      let (x, s) := x.resume settings w.now revoked effort w.toTraffic
      { w with toTraffic := s, errands := w.errands.set k x }
  | .look => { w with bank := (w.bank.stats w.router w.now).1 }
  | .ask e => { w with bank := (w.bank.guard w.router settings.thresholds e).1 }

/-- What is to be told of an event. -/
def notes (w : Concourse) : Event → List Note
  | .resume k revoked effort =>
    match w.errands[k]? with
    | none => []
    | some x => x.notes settings w.now revoked effort k w.toTraffic
  | .look =>
    (w.bank.prune w.router).guards.map fun g ↦
      .did g.endpoint g.breaker
        ⟨w.now, none, .look ((w.bank.breaker g.breaker).refresh w.now).circuit⟩
  | .ask e => [.assigned none e (w.bank.guard w.router settings.thresholds e).2]
  | .pass _ | .change _ | .create .. | .seed .. | .acquire _ | .release _ | .route .. | .come _ => []

/-- What several events make of a concourse. -/
def run (w : Concourse) : List Event → Concourse
  | [] => w
  | x :: es => (w.step settings x).run es

/-- What is to be told of several events. -/
def chronicle (w : Concourse) : List Event → List Note
  | [] => []
  | x :: es => w.notes settings x ++ (w.step settings x).chronicle es

/-- Something holds of every event of a run, and of the concourse that it finds. -/
def Along (P : Concourse → Event → Prop) (w : Concourse) : List Event → Prop
  | [] => True
  | x :: es => P w x ∧ (w.step settings x).Along P es

/-- The gateway opens: with some balancer and some endpoints, but before anything is registered. -/
def opening (balancer : Balancer) (cs : Connections) : Concourse where
  router := { balancer }
  connections := cs
  seeds := cs

variable {settings}

@[simp] theorem run_nil (w : Concourse) : w.run settings [] = w := rfl

@[simp] theorem run_cons (w : Concourse) (x : Event) (es : List Event) :
    w.run settings (x :: es) = (w.step settings x).run settings es := rfl

@[simp] theorem run_append (w : Concourse) (es fs : List Event) :
    w.run settings (es ++ fs) = (w.run settings es).run settings fs := by
  induction es generalizing w with
  | nil => rfl
  | cons x es ih => exact ih _

@[simp] theorem chronicle_nil (w : Concourse) : w.chronicle settings [] = [] := rfl

@[simp] theorem chronicle_cons (w : Concourse) (x : Event) (es : List Event) :
    w.chronicle settings (x :: es) =
      w.notes settings x ++ (w.step settings x).chronicle settings es := rfl

@[simp] theorem chronicle_append (w : Concourse) (es fs : List Event) :
    w.chronicle settings (es ++ fs) =
      w.chronicle settings es ++ (w.run settings es).chronicle settings fs := by
  induction es generalizing w with
  | nil => rfl
  | cons x es ih => simp [ih]

theorem along_append {P : Concourse → Event → Prop} {w : Concourse} {es fs : List Event} :
    w.Along settings P (es ++ fs) ↔
      w.Along settings P es ∧ (w.run settings es).Along settings P fs := by
  induction es generalizing w with
  | nil => simp [Along]
  | cons x es ih => simp [Along, ih, and_assoc]

theorem Along.imp {P Q : Concourse → Event → Prop} (h : ∀ w x, P w x → Q w x) {w : Concourse}
    {es : List Event} (hes : w.Along settings P es) : w.Along settings Q es := by
  induction es generalizing w with
  | nil => trivial
  | cons x es ih => exact ⟨h w x hes.1, ih hes.2⟩

/-- What becomes of each call. -/
theorem errands_step (settings : Settings) (w : Concourse) (x : Event) (k : Nat) :
    (w.step settings x).errands[k]? =
      match x with
      | .come a => if k = w.errands.length then some (.coming a) else w.errands[k]?
      | .resume m revoked effort =>
        if m = k then
          w.errands[k]?.map fun y ↦ (y.resume settings w.now revoked effort w.toTraffic).1
        else w.errands[k]?
      | .pass _ | .change _ | .create .. | .seed .. | .acquire _ | .release _ | .route .. | .look
      | .ask _ => w.errands[k]? := by
  cases x with
  | pass | change | create | seed | acquire | look | ask => rfl
  | release m => simp only [step]; split <;> rfl
  | route draw c => simp only [step]; split <;> rfl
  | come a =>
    simp only [step]
    rcases Nat.lt_trichotomy k w.errands.length with hk | rfl | hk
    · rw [List.getElem?_append_left hk, if_neg (Nat.ne_of_lt hk)]
    · simp
    · rw [if_neg (Nat.ne_of_gt hk), List.getElem?_eq_none (Nat.le_of_lt hk),
        List.getElem?_eq_none (by simpa using Nat.succ_le_of_lt hk)]
  | resume m revoked effort =>
    simp only [step]
    cases hy : w.errands[m]? with
    | none =>
      by_cases hm : m = k
      · subst hm
        simp [hy]
      · simp [hm]
    | some y =>
      by_cases hm : m = k
      · subst hm
        have hlt : m < w.errands.length := (List.getElem?_eq_some_iff.mp hy).1
        rw [if_pos rfl, hy, List.getElem?_set_self hlt]
        rfl
      · rw [if_neg hm, List.getElem?_set_ne hm]

/-- A call that goes on. -/
theorem step_resume {w : Concourse} {k : Nat} {x : Errand} (h : w.errands[k]? = some x)
    (settings : Settings) (revoked : Bool) (effort : Effort Reply) :
    ∃ y s ns, Errand.Resumes settings w.now revoked effort k x w.toTraffic y s ns ∧
      w.step settings (.resume k revoked effort) =
        { w with toTraffic := s, errands := w.errands.set k y } ∧
      w.notes settings (.resume k revoked effort) = ns := by
  refine ⟨_, _, _, x.resumes settings w.now revoked effort k w.toTraffic, ?_, ?_⟩
  · simp only [step, h]
  · simp only [notes, h]

/-- What an event writes to the router. -/
def Event.change? : Event → Option Change
  | .change c => some c
  | .pass _ | .create .. | .seed .. | .acquire _ | .release _ | .route .. | .come _ | .resume .. | .look
  | .ask _ => none

/-- Every call that is under way waits for something, and has not been cancelled. -/
def Live (w : Concourse) : Prop := ∀ (k : Nat) (x : Errand), w.errands[k]? = some x → x.Live

theorem Live.step {w : Concourse} (h : w.Live) (x : Event) : (w.step settings x).Live := by
  intro k y hy
  rw [errands_step] at hy
  cases x with
  | come a =>
    simp only at hy
    split at hy
    · cases hy
      trivial
    · exact h k y hy
  | resume m revoked effort =>
    simp only at hy
    split at hy
    · obtain ⟨z, hz, rfl⟩ := Option.map_eq_some_iff.mp hy
      exact (z.resumes settings w.now revoked effort k w.toTraffic).live (h k z hz)
    · exact h k y hy
  | pass | change | create | seed | acquire | release | route | look | ask => exact h k y hy

theorem Live.run {w : Concourse} (h : w.Live) (es : List Event) : (w.run settings es).Live := by
  induction es generalizing w with
  | nil => exact h
  | cons x es ih => exact ih (h.step x)

theorem live_opening (balancer : Balancer) (cs : Connections) : (opening balancer cs).Live := by
  intro k x hx
  cases hx

/-- What every event preserves, if something holds of it, a whole run preserves. -/
theorem invariant {P : Concourse → Event → Prop} {I : Concourse → List Note → Prop}
    (hstep : ∀ w l x, I w l → P w x → I (w.step settings x) (l ++ w.notes settings x))
    {w : Concourse} {l : List Note} {es : List Event} (h : I w l) (hes : w.Along settings P es) :
    I (w.run settings es) (l ++ w.chronicle settings es) := by
  induction es generalizing w l with
  | nil => simpa using h
  | cons x es ih =>
    rw [run_cons, chronicle_cons, ← List.append_assoc]
    exact ih (hstep w l x h hes.1) hes.2

end Concourse

end Interchange
