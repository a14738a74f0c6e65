import Interchange.Failure
import Interchange.Json.Shape
import Interchange.Time.Span

/-! # Circuit breakers

A closed breaker admits every call and opens after a number of failures in a row. An open one rejects
every call until its timeout is over, when the next look at it finds it half-open. Half-open it admits
calls again: enough successes close it, any failure opens it once more. An outcome that is recorded
while it is open counts in the totals only.
-/

namespace Interchange

/-- Whether calls get through. -/
inductive Circuit where
  | closed
  | opened
  | halfOpen
deriving DecidableEq, Repr

namespace Circuit

/-- Every state. -/
def all : List Circuit := [.closed, .opened, .halfOpen]

/-- The name of a state. -/
def name : Circuit → String
  | .closed => "closed"
  | .opened => "open"
  | .halfOpen => "half_open"

/-- The name of a state as it is displayed. -/
def display : Circuit → String
  | .closed => "CLOSED"
  | .opened => "OPEN"
  | .halfOpen => "HALF_OPEN"

/-- The name of a state in a listing. -/
def label : Circuit → String
  | .closed => "Closed"
  | .opened => "Open"
  | .halfOpen => "HalfOpen"

/-- A state by its name. -/
def shape : Json.Shape Circuit := .tag (all.map fun s ↦ (s.name, s))

end Circuit

/-- When a breaker changes its state. -/
structure Thresholds where
  /-- The failures in a row that open a closed breaker. -/
  failures : Nat := 5
  /-- The successes that close a half-open breaker. -/
  successes : Nat := 2
  /-- How long a breaker stays open. -/
  timeout : Span := .ofSeconds 60
deriving DecidableEq, Repr

namespace Thresholds

/-- How thresholds are read. -/
def shape : Json.Shape Thresholds :=
  .record "CircuitBreakerConfig" {}
    [.of "failure_threshold" .anywhere (.unsigned 32) fun x t ↦ { t with failures := x },
      .of "success_threshold" .anywhere (.unsigned 32) fun x t ↦ { t with successes := x },
      .of "timeout_secs" .anywhere (.unsigned 64) fun x t ↦ { t with timeout := .ofSeconds x }]

/-- Thresholds as an object. The timeout is cut to whole seconds. -/
def toJson (t : Thresholds) : Json :=
  .ofMembers
    [("failure_threshold", .int t.failures), ("success_threshold", .int t.successes),
      ("timeout_secs", .int (t.timeout / 1000000000 : Nat))]

/-- Thresholds as a record of their parts. -/
def describe (t : Thresholds) : String :=
  Text.recordText "CircuitBreakerConfig"
    [("failure_threshold", toString t.failures), ("success_threshold", toString t.successes),
      ("timeout", t.timeout.describe)]

end Thresholds

/-- A breaker. -/
structure Breaker where
  name : String
  thresholds : Thresholds := {}
  circuit : Circuit := .closed
  /-- The failures in a row while closed. -/
  failures : Nat := 0
  /-- The successes since the breaker is half-open. -/
  successes : Nat := 0
  openedAt : Option Span := none
  totalSuccesses : Nat := 0
  totalFailures : Nat := 0
  totalRejections : Nat := 0
deriving DecidableEq, Repr

namespace Breaker

/-- The time since the breaker opened. -/
def elapsed (b : Breaker) (now : Span) : Span := (b.openedAt.map (now - ·)).getD 0

/-- An open breaker becomes half-open when its timeout is over. -/
def refresh (b : Breaker) (now : Span) : Breaker :=
  if b.circuit = .opened ∧ b.thresholds.timeout ≤ b.elapsed now then
    { b with circuit := .halfOpen, successes := 0 }
  else b

/-- Open the breaker. -/
def trip (b : Breaker) (now : Span) : Breaker :=
  { b with circuit := .opened, openedAt := some now, successes := 0 }

/-- Close the breaker, which forgets all but the totals. -/
def reset (b : Breaker) : Breaker :=
  { b with circuit := .closed, failures := 0, successes := 0, openedAt := none }

/-- The failure with which an open breaker rejects a call. -/
def rejection (b : Breaker) : Failure :=
  { code := .unavailable, message := s!"circuit breaker '{b.name}' is open" }

/-- Ask for the admission of a call. -/
def enter (b : Breaker) (now : Span) : Breaker × Except Failure Unit :=
  let b := b.refresh now
  if b.circuit = .opened then
    ({ b with totalRejections := b.totalRejections + 1 }, .error b.rejection)
  else (b, .ok ())

/-- Record a success. -/
def succeed (b : Breaker) : Breaker :=
  let b := { b with totalSuccesses := b.totalSuccesses + 1 }
  match b.circuit with
  | .closed => { b with failures := 0 }
  | .halfOpen =>
    let b := { b with successes := b.successes + 1 }
    if b.thresholds.successes ≤ b.successes then b.reset else b
  | .opened => b

/-- Record a failure. -/
def fail (b : Breaker) (now : Span) : Breaker :=
  let b := { b with totalFailures := b.totalFailures + 1 }
  match b.circuit with
  | .closed =>
    let b := { b with failures := b.failures + 1 }
    if b.thresholds.failures ≤ b.failures then b.trip now else b
  | .halfOpen => { b with failures := b.failures + 1 }.trip now
  | .opened => b

/-- What a breaker tells about itself. -/
def toJson (b : Breaker) : Json :=
  .ofMembers
    [("name", .string b.name), ("state", .string b.circuit.name),
      ("failure_count", .int b.failures), ("success_count", .int b.successes),
      ("total_successes", .int b.totalSuccesses), ("total_failures", .int b.totalFailures),
      ("total_rejections", .int b.totalRejections)]

/-- The breaker as a record of its parts, in the state in which it was last seen. -/
def describe (b : Breaker) : String :=
  Text.recordText "CircuitBreaker"
    [("name", Text.quoted b.name), ("config", b.thresholds.describe), ("state", b.circuit.label)]

@[simp] theorem name_refresh (b : Breaker) (now : Span) : (b.refresh now).name = b.name := by
  unfold refresh; split <;> rfl

@[simp] theorem thresholds_refresh (b : Breaker) (now : Span) :
    (b.refresh now).thresholds = b.thresholds := by
  unfold refresh; split <;> rfl

theorem refresh_of_ne_opened {b : Breaker} (h : b.circuit ≠ .opened) (now : Span) :
    b.refresh now = b := by simp [refresh, h]

/-- Looking twice at the same time finds nothing new. -/
@[simp] theorem refresh_refresh (b : Breaker) (now : Span) :
    (b.refresh now).refresh now = b.refresh now := by
  by_cases h : b.circuit = .opened ∧ b.thresholds.timeout ≤ b.elapsed now
  · exact refresh_of_ne_opened (by simp [refresh, h]) now
  · simp [refresh, h]

theorem enter_of_ne_opened {b : Breaker} {now : Span} (h : (b.refresh now).circuit ≠ .opened) :
    b.enter now = (b.refresh now, .ok ()) := by simp [enter, h]

end Breaker

end Interchange
