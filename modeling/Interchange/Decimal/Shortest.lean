/-! # The shortest decimal that reads back as a given binary number

A finite number is taken apart into a whole significand and a power of two. Every real between the
midpoints to its two neighbours reads back as that number, the midpoints themselves when the
significand is even. For one, two, … seventeen digits, the two decimals next to the number are tried
on that grid; the first grid that has one wins, of two the nearer, of two equally near the one that the
format asks for.
-/

namespace Interchange

/-- A decimal `digits · 10 ^ exponent`. -/
structure Decimal where
  digits : Nat
  exponent : Int
deriving DecidableEq, Repr

namespace Decimal

/-- Which of two decimals next to each other is taken for a number halfway between them. -/
inductive Tie where
  /-- The one whose last digit is even. -/
  | toEven
  /-- The larger. -/
  | up
deriving DecidableEq, Repr

/-- Whether a tie above `below` goes to its successor. -/
def Tie.goesUp (below : Nat) : Tie → Bool
  | .toEven => below % 2 == 1
  | .up => true

/-- The size of a binary number, and the width of the interval that reads back as it, in units of a
quarter of its last place. -/
structure Binary where
  significand : Nat
  exponent : Int
  /-- The predecessor is nearer than the successor. -/
  narrowBelow : Bool
deriving DecidableEq, Repr

namespace Binary

/-- The parts of a finite double, without its sign. -/
def ofBits (bits : UInt64) : Binary :=
  let field := ((bits >>> 52) &&& 0x7ff).toNat
  let fraction := (bits &&& 0xfffffffffffff).toNat
  if field = 0 then ⟨fraction, -1074, false⟩
  else ⟨fraction + 0x10000000000000, (field : Int) - 1075, fraction = 0 && 1 < field⟩

/-- A ratio of naturals, kept apart from the three numerators that share its denominator. -/
structure Window where
  low : Nat
  value : Nat
  high : Nat
  denominator : Nat
  closed : Bool

/-- The number and the ends of its interval over one denominator. -/
def window (b : Binary) : Window :=
  let up := Nat.pow 2 (b.exponent - 2).toNat
  { low := (4 * b.significand - (if b.narrowBelow then 1 else 2)) * up
    value := 4 * b.significand * up
    high := (4 * b.significand + 2) * up
    denominator := Nat.pow 2 (2 - b.exponent).toNat
    closed := b.significand % 2 = 0 }

end Binary

/-- How many decimal digits a number has. -/
def digitCount (n : Nat) : Nat := (Nat.toDigits 10 n).length

/-- The largest `k` with `10 ^ k ≤ num / den`, for positive numbers. -/
def magnitude (num den : Nat) : Int :=
  let guess : Int := (digitCount num : Int) - digitCount den
  if den * Nat.pow 10 guess.toNat ≤ num * Nat.pow 10 (-guess).toNat then guess else guess - 1

/-- Drop the zeros at the end of the digits. -/
def stripped : Nat → Decimal → Decimal
  | 0, d => d
  | fuel + 1, d =>
    if d.digits % 10 = 0 ∧ d.digits ≠ 0 then stripped fuel ⟨d.digits / 10, d.exponent + 1⟩ else d

/-- The decimal on the grid of spacing `10 ^ place` that reads back and is nearest, if any. -/
def Binary.Window.onGrid (w : Window) (tie : Tie) (place : Int) : Option Decimal :=
  let scale := Nat.pow 10 (-place).toNat
  let unit := w.denominator * Nat.pow 10 place.toNat
  let below := w.value * scale / unit
  let fits (d : Nat) : Bool :=
    let x := d * unit
    if w.closed then w.low * scale ≤ x && x ≤ w.high * scale
    else w.low * scale < x && x < w.high * scale
  let past := w.value * scale - below * unit
  let short := (below + 1) * unit - w.value * scale
  match fits below, fits (below + 1) with
  | false, false => none
  | true, false => some ⟨below, place⟩
  | false, true => some ⟨below + 1, place⟩
  | true, true =>
    if past < short || (past == short && !tie.goesUp below) then some ⟨below, place⟩
    else some ⟨below + 1, place⟩

/-- The shortest decimal for a positive binary number. -/
def shortestOf (tie : Tie) (b : Binary) : Decimal :=
  let w := b.window
  let top := magnitude w.value w.denominator
  let found := (List.range 17).findSome? fun n : Nat ↦ w.onGrid tie (top - n)
  (found.getD ⟨b.significand, b.exponent⟩).stripped 20

/-- The shortest decimal that reads back as the size of a finite number. -/
def shortest (tie : Tie) (x : Float) : Decimal :=
  let b := Binary.ofBits x.toBits
  if b.significand = 0 then ⟨0, 0⟩ else shortestOf tie b

end Decimal

end Interchange
