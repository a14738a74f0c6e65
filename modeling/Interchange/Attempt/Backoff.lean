import Interchange.Code
import Interchange.Json.Written
import Interchange.Text.Quoted
import Interchange.Time.Seconds

/-! # Backoff

A failed attempt is repeated if its code is among those retried, after a delay that grows by a factor
from attempt to attempt up to a ceiling.
-/

namespace Interchange

/-- How often an operation is attempted, and how long to wait in between. -/
structure Backoff where
  /-- How many attempts are made, the first one included. Zero counts as one. -/
  maxAttempts : Nat := 3
  /-- The delay after the first attempt. -/
  initialDelay : Span := .ofMillis 100
  /-- The ceiling of every delay. -/
  maxDelay : Span := .ofMillis 5000
  multiplier : Float := 2.0
  /-- The codes that are retried, in increasing order. -/
  retried : List Code := [.timeout, .connection]
  /-- Whether a delay is scaled by a random factor from one half to one and a half. -/
  jitter : Bool := false
deriving DecidableEq

namespace Backoff

/-- A single attempt. -/
def none : Backoff := { maxAttempts := 1 }

/-- Retry these codes and no others. -/
def withCodes (p : Backoff) (codes : List Code) : Backoff :=
  { p with retried := Code.all.filter codes.contains }

/-- How backoff settings are read. -/
def shape : Json.Shape Backoff :=
  .record "RetryPolicy" {}
    [.of "max_attempts" .anywhere (.unsigned 32) fun x p ↦ { p with maxAttempts := x },
      .of "initial_delay_ms" .anywhere (.unsigned 64) fun x p ↦
        { p with initialDelay := .ofMillis x },
      .of "max_delay_ms" .anywhere (.unsigned 64) fun x p ↦ { p with maxDelay := .ofMillis x },
      .of "multiplier" .anywhere .float fun x p ↦ { p with multiplier := x },
      .of "retryable_codes" .anywhere (.list Code.numberShape Code.check) fun x p ↦ p.withCodes x,
      .of "jitter" .anywhere .bool fun x p ↦ { p with jitter := x }]

/-- Backoff settings as an object. Delays are cut to whole milliseconds. -/
def toJson (p : Backoff) : Json :=
  .ofMembers
    [("max_attempts", .int p.maxAttempts), ("initial_delay_ms", .int p.initialDelay.millis),
      ("max_delay_ms", .int p.maxDelay.millis), ("multiplier", .float p.multiplier),
      ("retryable_codes", .array (p.retried.map fun c ↦ .int c.toNat)),
      ("jitter", .bool p.jitter)]

/-- How many attempts are made. -/
def attempts (p : Backoff) : Nat := max p.maxAttempts 1

/-- Whether a failure with this code is retried. -/
def retries (p : Backoff) (c : Code) : Bool := p.retried.contains c

/-! ## Delays -/

/-- The product of `r` and a power of `a` with a positive exponent, by repeated squaring from the last
binary digit of the exponent on. -/
def timesPower (r a : Float) (n : Nat) : Float :=
  let r := if n % 2 = 1 then r * a else r
  if n / 2 = 0 then r else timesPower r (a * a) (n / 2)
termination_by n
decreasing_by omega

/-- The smaller of two numbers. One that is not a number loses. -/
def lesser (x y : Float) : Float :=
  if x.isNaN then y else if y.isNaN then x else if y < x then y else x

/-- The greatest exponent of the multiplier. -/
def maxExponent : Nat := 0x7fffffff

/-- The seconds to wait after a failed attempt, before jitter. Attempts are counted from zero. -/
def plainSeconds (p : Backoff) (attempt : Nat) : Float :=
  let factor := timesPower 1.0 p.multiplier (min attempt maxExponent)
  lesser (p.initialDelay.seconds * factor) p.maxDelay.seconds

/-- A number of seconds as a span; nothing is shorter than no time at all. -/
def nonNegative (seconds : Float) : Span :=
  if 0.0 < seconds then .ofFractional seconds else 0

/-- How long to wait after a failed attempt. The draw scales the delay if there is jitter. -/
def delay (p : Backoff) (draw : Float) (attempt : Nat) : Span :=
  let seconds := p.plainSeconds attempt
  nonNegative (if p.jitter then lesser (seconds * draw) p.maxDelay.seconds else seconds)

/-- Whether jittered delays stay between one half and one and a half of the plain delay, and under the
ceiling. -/
def within (p : Backoff) (draws : List Float) (attempt : Nat) : Bool :=
  let plain := nonNegative (p.plainSeconds attempt)
  draws.all fun draw ↦
    let d := p.delay draw attempt
    plain ≤ 2 * d + 2 && 2 * d ≤ 3 * plain + 2 && d ≤ p.maxDelay

/-! ## Listing -/

/-- In listings, positional notation from a ten-thousandth on, no sign in front of a positive exponent,
and ties away from zero. -/
def layout : Decimal.Layout := ⟨-4, 15, [], .up⟩

/-- A number as a listing shows it. -/
def numberText (x : Float) : String :=
  if x.isNaN then "NaN"
  else if x.isInf then if x < 0.0 then "-inf" else "inf"
  else String.ofList (layout.finiteChars x)

/-- The settings as a record of their parts. -/
def describe (p : Backoff) : String :=
  let codes := "\x7b" ++ ", ".intercalate (p.retried.map Code.label) ++ "\x7d"
  Text.recordText "RetryPolicy"
    [("max_attempts", toString p.maxAttempts), ("initial_delay", p.initialDelay.describe),
      ("max_delay", p.maxDelay.describe), ("multiplier", numberText p.multiplier),
      ("retryable_codes", codes), ("jitter", toString p.jitter)]

theorem attempts_pos (p : Backoff) : 0 < p.attempts :=
  Nat.lt_of_lt_of_le Nat.zero_lt_one (Nat.le_max_right ..)

end Backoff

end Interchange
