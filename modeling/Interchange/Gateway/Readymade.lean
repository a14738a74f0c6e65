import Interchange.Gateway.Handlers
import Interchange.Message.Form

/-! # Ready-made handlers

Small handlers with which a gateway can be tried out.
-/

namespace Interchange.Handler

/-- Give the payload back. -/
def echo : Handler := immediate fun c ↦ .ok c.payload

/-- Give the form of the call itself. -/
def showing : Handler := immediate fun c ↦ .ok c.toJson.bytes

/-- Give the same bytes to every call. -/
def fixed (bytes : Bytes) : Handler := immediate fun _ ↦ .ok bytes

/-- A function of parameters and result in JSON. -/
def function {π : Type} (shape : Json.Shape π) (f : π → Except Failure Json) : Handler :=
  typed shape fun x ↦ { outcome := f x }

/-- Give the same value for any parameters. -/
def constant (value : Json) : Handler := function .any fun _ ↦ .ok value

/-- Give the parameters back. -/
def identity : Handler := function .any .ok

/-- Give nothing. -/
def nothing : Handler := function .any fun _ ↦ .ok .null

/-- Fail for any parameters. -/
def failing (f : Failure) : Handler := function .any fun _ ↦ .error f

/-- A request that cannot be served. -/
def badRequest (message : String) : Failure := { code := .badRequest, message }

/-- An integer of 64 bits, if the number is one. -/
def word (n : Int) : Except Failure Json :=
  if -0x8000000000000000 ≤ n ∧ n < 0x8000000000000000 then .ok (.int n) else .error (badRequest "overflow")

/-- Two integers. -/
def operands : Json.Shape (Int × Int) := .pair (.signed 64) (.signed 64)

/-- The sum of two integers. -/
def add : Handler := function operands fun (a, b) ↦ word (a + b)

/-- The quotient of two integers, cut towards zero. -/
def divide : Handler := function operands fun (a, b) ↦
  if b = 0 then .error (badRequest "division by zero") else word (a.tdiv b)

/-- Two integers by name. -/
def namedOperands : Json.Shape (Int × Int) :=
  .record "AddParams" (0, 0)
    [.of "a" .never (.signed 64) fun x p ↦ (x, p.2),
      .of "b" .never (.signed 64) fun x p ↦ (p.1, x)]

/-- The sum of two integers by name. -/
def addNamed : Handler := function namedOperands fun (a, b) ↦ do
  .ok (.ofMembers [("sum", ← word (a + b))])

/-- A text with its ASCII letters in upper case. -/
def upper : Handler := function .text fun s ↦ .ok (.string s.toUpper)

/-- The sum of a list of bytes. -/
def total : Handler := function (.list (.unsigned 8) .ok) fun xs ↦
  .ok (.int (xs.foldl (· + ·) 0 : Nat))

/-- A truth value or `null`, in an array. -/
def boxed : Handler := function (.nullable .bool) fun b ↦
  .ok (.array [(b.map .bool).getD .null])

/-- Wait for a number of milliseconds, and give it back. -/
def sleep : Handler := typed (.unsigned 64) fun ms ↦
  { after := (Span.ofMillis ms).pause, outcome := .ok (.int ms) }

end Interchange.Handler
