import Interchange.Decimal.Shortest
import Interchange.Time.Span

/-! # Spans as fractional seconds

A span becomes a number of seconds in double precision, and such a number becomes a span again by
rounding to the nearest nanosecond, half a nanosecond to the even neighbour.
-/

namespace Interchange

/-- The natural number nearest to a ratio, a tie going to the even one. -/
def roundEven (num den : Nat) : Nat :=
  let below := num / den
  let twice := 2 * (num % den)
  if twice < den ∨ (twice = den ∧ below % 2 = 0) then below else below + 1

namespace Span

/-- The seconds in a span: the whole ones plus the fraction of the last. -/
def seconds (s : Span) : Float :=
  (s / 1000000000).toUInt64.toFloat + (s % 1000000000).toUInt64.toFloat / 1000000000.0

/-- The span of a finite number of seconds that is not negative. -/
def ofFractional (seconds : Float) : Span :=
  let b := Decimal.Binary.ofBits seconds.toBits
  roundEven (b.significand * Nat.pow 2 b.exponent.toNat * 1000000000)
    (Nat.pow 2 (-b.exponent).toNat)

end Span

@[simp] theorem roundEven_one (n : Nat) : roundEven n 1 = n := by simp [roundEven, Nat.mod_one]

end Interchange
