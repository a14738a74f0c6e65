import Interchange.Attempt.Invocation
import Interchange.Gateway.Bank
import Interchange.Gateway.Settings
import Interchange.Message.Response

/-! # Dispatching calls

A call is routed to an endpoint, on which a connection stays open until the last attempt has ended. The
attempts stand behind the endpoint's breaker; an answer that reports a failure is a failed attempt. Any
number of calls may be under way at once, acting on the same router, connections and breakers.
-/

namespace Interchange

/-- What calls under way act on. -/
structure Traffic where
  router : Router := {}
  connections : Connections := {}
  bank : Bank := {}

/-- A call to an endpoint as the services behind the gateway see it. -/
structure Visit where
  moment : Span
  endpoint : Endpoint
  /-- The connections that are open to the endpoint. -/
  active : UInt64
  call : Call

/-- The services behind the gateway: what a call comes to, and what it changes there. -/
abbrev Backend (β : Type) := Visit → β → β × Effort Reply

/-- What chance decides for a call: an endpoint, and the jitter of the delays. -/
structure Draws where
  endpoint : Nat := 0
  jitter : Nat → Float := fun _ ↦ 1.0

/-- A call to come. -/
structure Arrival where
  moment : Span
  call : Call
  cancellation : Cancellation := .never
  draws : Draws := {}

/-- How far a call has come. -/
inductive Errand where
  | coming (a : Arrival)
  | underway (call : Call) (endpoint : Endpoint) (breaker : BreakerId)
      (invocation : Invocation Reply)
  | ended (moment : Span) (result : Except Failure Reply)

namespace Errand

variable {β : Type}

/-- The call to an endpoint behind a breaker, as a site of attempts. -/
def site (backend : Backend β) (call : Call) (e : Endpoint) (id : BreakerId) :
    Site (Traffic × β) Reply where
  breaker s := s.1.bank.breaker id
  setBreaker s b := ({ s.1 with bank := s.1.bank.setBreaker id b }, s.2)
  attempt s now _ :=
    let active := s.1.connections.active e
    let (inner, effort) := backend { moment := now, endpoint := e, active, call } s.2
    ((s.1, inner), { after := effort.after, outcome := effort.outcome.bind Reply.result })

/-- Close the connection of a call whose last attempt has ended. -/
def conclude (call : Call) (e : Endpoint) (id : BreakerId) (i : Invocation Reply)
    (s : Traffic × β) : Errand × Traffic × β :=
  match i.result? with
  | none => (.underway call e id i, s)
  | some (t, result) =>
    (.ended t (result.map (·.correlate call)),
      { s.1 with connections := s.1.connections.release e }, s.2)

/-- Send a call on its way. -/
def depart (settings : Settings) (a : Arrival) (s : Traffic × β) : Errand × Traffic × β :=
  match s.1.router.route s.1.connections a.draws.endpoint a.call with
  | .error f => (.ended a.moment (.error f), s)
  | .ok (router, connections, e) =>
    let (bank, id) := s.1.bank.guard router settings.thresholds e
    let terms := settings.backoff.terms a.draws.jitter a.call.timeout
    conclude a.call e id (.start terms a.cancellation a.moment)
      ({ router, connections, bank }, s.2)

/-- The moment at which something happens to a call. -/
def due : Errand → Option Span
  | .coming a => some a.moment
  | .underway _ _ _ i => i.due
  | .ended .. => none

/-- What happens then. -/
def act (settings : Settings) (backend : Backend β) : Errand → Traffic × β → Errand × Traffic × β
  | .coming a, s => depart settings a s
  | .underway call e id i, s =>
    let (i, s) := i.act (site backend call e id) s
    conclude call e id i s
  | .ended t r, s => (.ended t r, s)

/-- A bound on the number of events to come. -/
def rank (settings : Settings) : Errand → Nat
  | .coming _ => 2 * settings.backoff.attempts + 3
  | .underway _ _ _ i => i.rank
  | .ended .. => 0

theorem rank_conclude (settings : Settings) (call : Call) (e : Endpoint) (id : BreakerId)
    (i : Invocation Reply) (s : Traffic × β) :
    rank settings (conclude call e id i s).1 ≤ i.rank := by
  unfold conclude
  split
  · exact Nat.le_refl _
  · exact Nat.zero_le _

theorem rank_start (terms : Terms) (c : Cancellation) (now : Span) :
    (Invocation.start (α := Reply) terms c now).rank ≤ 2 * terms.attempts + 2 := by
  cases c <;> simp [Invocation.start, Invocation.rank]

theorem rank_act (settings : Settings) (backend : Backend β) (x : Errand) (s : Traffic × β)
    (h : x.due.isSome) : rank settings (x.act settings backend s).1 < rank settings x := by
  cases x with
  | coming a =>
    simp only [act, depart]
    split
    · simp [rank]
    · refine Nat.lt_of_le_of_lt (rank_conclude ..) (Nat.lt_of_le_of_lt (rank_start ..) ?_)
      simp [rank, Backoff.terms]
  | underway call e id i =>
    refine Nat.lt_of_le_of_lt (rank_conclude ..) ?_
    exact Invocation.rank_act _ i s h
  | ended t r => simp [due] at h

/-- Calls under way as processes. -/
def process (settings : Settings) (backend : Backend β) : Process (Traffic × β) Errand where
  due := due
  act := act settings backend
  rank := rank settings
  rank_act := rank_act settings backend

/-- The result of a call and its moment. One that is not over yet has none. -/
def result? : Errand → Option (Span × Except Failure Reply)
  | .ended t r => some (t, r)
  | .coming _ | .underway .. => none

end Errand

end Interchange
