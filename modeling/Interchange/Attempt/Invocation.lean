import Interchange.Attempt.Backoff
import Interchange.Attempt.Breaker
import Interchange.Attempt.Process

/-! # Invocations

An invocation attempts an operation behind a breaker. Every attempt asks for admission first, and a
rejection ends the invocation. An attempt that was let in is bounded by a limit, and its outcome is
recorded; a failure that may be repeated is repeated after a delay, unless the breaker has opened. Limits
and delays are waited for with timers. A cancelled invocation ends at once and records nothing.
-/

namespace Interchange

/-- What an attempt comes to, and how long it takes. -/
structure Effort (α : Type) where
  after : Span := 0
  outcome : Except Failure α

namespace Effort

variable {α : Type}

/-- The failure of an attempt that is not done within its limit. -/
def overdue (limit : Span) : Failure :=
  { code := .timeout, message := s!"downstream attempt exceeded {limit.millis}ms"
    cause := some "deadline has elapsed" }

/-- An attempt that begins now ends when its limit has been waited for. One that is done by then is in
time. -/
def bounded (e : Effort α) (now : Span) : Option Span → Effort α
  | some limit =>
    let stop := Span.wake now limit
    if stop < now + e.after then ⟨stop - now, .error (overdue limit)⟩ else e
  | none => e

end Effort

/-- The terms on which an operation is attempted. -/
structure Terms where
  attempts : Nat
  retries : Code → Bool
  /-- The delay after each failed attempt. -/
  delay : Nat → Span
  /-- How long an attempt may take. -/
  limit : Option Span := none

/-- The terms that backoff settings lay down. The draws decide where delays have jitter. -/
def Backoff.terms (p : Backoff) (draws : Nat → Float) (limit : Option Span) : Terms where
  attempts := p.attempts
  retries := p.retries
  delay n := p.delay (draws n) n
  limit := limit

/-- Whether and when a caller takes back what it asked for. -/
inductive Cancellation where
  | never
  | beforehand
  | after (span : Span)
deriving DecidableEq, Repr

/-- How far an invocation has come. -/
inductive Stage (α : Type) where
  /-- An attempt will ask for admission at a moment to come. -/
  | pending (attempt : Nat) (start : Span)
  /-- An attempt will have this outcome at a moment to come. -/
  | calling (attempt : Nat) (stop : Span) (outcome : Except Failure α)
  /-- The invocation has ended. -/
  | finished (stop : Span) (result : Except Failure α)

/-- An invocation under way. -/
structure Invocation (α : Type) where
  terms : Terms
  cancelAt : Option Span := none
  /-- The attempts that were let in so far, with their moments. -/
  calls : List (Nat × Span) := []
  stage : Stage α

/-- Where invocations take place: the breaker that guards them, and what beginning an attempt does. -/
structure Site (σ α : Type) where
  breaker : σ → Breaker
  setBreaker : σ → Breaker → σ
  attempt : σ → Span → Nat → σ × Effort α

/-- The failure of what its caller has cancelled. -/
def cancelled : Failure := { code := .timeout, message := "request cancelled by caller" }

/-- Record the outcome of an attempt, and see whether another one follows. -/
def Terms.settle {α : Type} (t : Terms) (attempt : Nat) (now : Span) (b : Breaker) :
    Except Failure α → Breaker × Stage α
  | .ok x => (b.succeed, .finished now (.ok x))
  | .error f =>
    let b := b.fail now
    if !t.retries f.code || t.attempts ≤ attempt + 1 then (b, .finished now (.error f))
    else
      let b := b.refresh now
      if b.circuit = .opened then (b, .finished now (.error f))
      else (b, .pending (attempt + 1) (Span.wake now (t.delay attempt)))

namespace Invocation

variable {σ α : Type}

/-- An invocation that begins at a moment. -/
def start (terms : Terms) (c : Cancellation) (now : Span) : Invocation α :=
  match c with
  | .never => { terms, stage := .pending 0 now }
  | .after span => { terms, cancelAt := some (now + span), stage := .pending 0 now }
  | .beforehand => { terms, stage := .finished now (.error cancelled) }

/-- The moment of the next event of the invocation's own. -/
def next (i : Invocation α) : Option Span :=
  match i.stage with
  | .pending _ t | .calling _ t _ => some t
  | .finished .. => none

/-- The moment of cancellation, if it lies before this one. -/
def cancelledBefore (i : Invocation α) (t : Span) : Option Span := i.cancelAt.filter (· < t)

/-- The moment at which something happens to the invocation. -/
def due (i : Invocation α) : Option Span := i.next.map fun t ↦ (i.cancelledBefore t).getD t

/-- End as cancelled, unless it has ended already. -/
def abandon (now : Span) (i : Invocation α) : Invocation α :=
  match i.stage with
  | .finished .. => i
  | .pending .. | .calling .. => { i with stage := .finished now (.error cancelled) }

/-- Ask for admission and begin an attempt, or let an attempt end. -/
def step (site : Site σ α) (now : Span) (i : Invocation α) (s : σ) : Invocation α × σ :=
  match i.stage with
  | .finished .. => (i, s)
  | .pending n _ =>
    match (site.breaker s).enter now with
    | (b, .error f) => ({ i with stage := .finished now (.error f) }, site.setBreaker s b)
    | (b, .ok ()) =>
      let (s, effort) := site.attempt (site.setBreaker s b) now n
      let effort := effort.bounded now i.terms.limit
      ({ i with
          calls := i.calls ++ [(n, now)]
          stage := .calling n (now + effort.after) effort.outcome }, s)
  | .calling n _ outcome =>
    let (b, stage) := i.terms.settle n now (site.breaker s) outcome
    ({ i with stage }, site.setBreaker s b)

/-- Go on at a moment. Whether the caller has cancelled is looked at before anything else. -/
def resume (site : Site σ α) (now : Span) (revoked : Bool) (i : Invocation α) (s : σ) :
    Invocation α × σ :=
  if revoked then (i.abandon now, s) else i.step site now s

/-- What happens then. -/
def act (site : Site σ α) (i : Invocation α) (s : σ) : Invocation α × σ :=
  match i.next with
  | none => (i, s)
  | some t =>
    match i.cancelledBefore t with
    | some c => i.resume site c true s
    | none => i.resume site t false s

/-- The result and its moment. -/
def result? (i : Invocation α) : Option (Span × Except Failure α) :=
  match i.stage with
  | .finished t r => some (t, r)
  | .pending .. | .calling .. => none

/-- A bound on the number of events to come. -/
def rank (i : Invocation α) : Nat :=
  match i.stage with
  | .pending n _ => 2 * (i.terms.attempts - n) + 2
  | .calling n _ _ => 2 * (i.terms.attempts - n) + 1
  | .finished .. => 0

theorem rank_settle (t : Terms) (n : Nat) (now : Span) (b : Breaker) (outcome : Except Failure α)
    (i : Invocation α) (h : i.terms = t) :
    rank { i with stage := (t.settle n now b outcome).2 } < 2 * (t.attempts - n) + 1 := by
  subst h
  unfold Terms.settle
  split
  · simp [rank]
  · dsimp only
    split
    · simp [rank]
    · next hn =>
      split
      · simp [rank]
      · simp at hn
        simp only [rank]
        omega

theorem rank_abandon (now : Span) {i : Invocation α} (h : i.next.isSome) :
    (i.abandon now).rank < i.rank := by
  unfold abandon
  split
  · next hs => simp [next, hs] at h
  · next hs => simp [rank, hs]
  · next hs => simp [rank, hs]

theorem rank_step (site : Site σ α) (now : Span) {i : Invocation α} (s : σ) (h : i.next.isSome) :
    (i.step site now s).1.rank < i.rank := by
  unfold step
  split
  · next hs => simp [next, hs] at h
  · next n t hs =>
    split
    · simp [rank, hs]
    · simp [rank, hs]
  · next n t o hs =>
    have := rank_settle i.terms n now (site.breaker s) o i rfl
    simpa [rank, hs] using this

theorem rank_act (site : Site σ α) (i : Invocation α) (s : σ) (h : i.due.isSome) :
    (i.act site s).1.rank < i.rank := by
  have hn : i.next.isSome := by simpa [due] using h
  unfold act
  split
  · next hs => simp [hs] at hn
  · split
    · exact rank_abandon _ hn
    · exact rank_step site _ s hn

/-- Invocations at a site as processes. -/
def process (site : Site σ α) : Process σ (Invocation α) where
  due := due
  act := act site
  rank := rank
  rank_act := rank_act site

end Invocation

end Interchange
