import Interchange.Decimal.Shortest

/-! # How a decimal is laid out

A format says for which scientific exponents a decimal is written in positional notation, how the
exponent is written elsewhere, and which way ties go. Positional notation always has a point, so that it is never taken for
an integer.
-/

namespace Interchange.Decimal

/-- A choice of layout. -/
structure Layout where
  /-- The least scientific exponent in positional notation. -/
  lowest : Int
  /-- The greatest scientific exponent in positional notation. -/
  highest : Int
  /-- What stands in front of an exponent that is not negative. -/
  plus : List Char
  /-- What is taken for a number halfway between two decimals of the fewest digits. -/
  tie : Tie
deriving DecidableEq, Repr

/-- The decimal digits of a natural number. -/
def digitChars (n : Nat) : List Char := Nat.toDigits 10 n

namespace Layout

/-- The text of a positive decimal. -/
def decimalChars (l : Layout) (d : Decimal) : List Char :=
  let ds := digitChars d.digits
  let e := d.exponent + ds.length - 1
  if l.lowest ≤ e ∧ e ≤ l.highest then
    if e < 0 then '0' :: '.' :: List.replicate (-e - 1).toNat '0' ++ ds
    else if d.exponent < 0 then
      ds.take (e + 1).toNat ++ '.' :: ds.drop (e + 1).toNat
    else ds ++ List.replicate d.exponent.toNat '0' ++ ['.', '0']
  else
    let fraction := match ds.drop 1 with
      | [] => []
      | rest => '.' :: rest
    ds.take 1 ++ fraction ++ 'e' :: (if e < 0 then ['-'] else l.plus) ++ digitChars e.natAbs

/-- Holds of a number with its sign bit set, zero included. -/
def hasSign (x : Float) : Bool := x.toBits >>> 63 == 1

/-- The shortest text of a finite number. -/
def finiteChars (l : Layout) (x : Float) : List Char :=
  let d := shortest l.tie x
  let size := if d.digits = 0 then ['0', '.', '0'] else l.decimalChars d
  if hasSign x then '-' :: size else size

end Layout

end Interchange.Decimal
