import Interchange.Decimal.Layout

/-! # The text of a number with a fraction

Such a number is written with the fewest digits that read back.
-/

namespace Interchange.Json

/-- Positional notation from a hundred-thousandth up to sixteen digits before the point, a sign in front
of every exponent, and ties to even. -/
def layout : Decimal.Layout := ⟨-5, 15, ['+'], .toEven⟩

/-- The text of a number, or `null` for one that is not finite. -/
def floatChars (x : Float) : List Char :=
  if x.isFinite then layout.finiteChars x else ['n', 'u', 'l', 'l']

end Interchange.Json
