import Interchange.Attempt.Invocation

/-! # Invocations that follow a script

A script lays down what the attempts of an invocation come to. When it is over, its last line is
repeated.
-/

namespace Interchange

/-- The efforts of the attempts in order. -/
abbrev Script (α : Type) := List (Effort α)

/-- The effort of an attempt. Without any lines it succeeds at once. -/
def Script.effort {α : Type} (script : Script α) (silence : α) (attempt : Nat) : Effort α :=
  ((script[attempt]?).or script.getLast?).getD { outcome := .ok silence }

/-- An invocation that follows a script. -/
structure Performance (α : Type) where
  script : Script α
  silence : α
  invocation : Invocation α

namespace Performance

variable {α : Type}

/-- A breaker on its own, before which a script is performed. -/
def site (p : Performance α) : Site Breaker α where
  breaker b := b
  setBreaker _ b := b
  attempt b _ n := (b, p.script.effort p.silence n)

/-- Performances as processes that share a breaker. -/
def process : Process Breaker (Performance α) where
  due p := p.invocation.due
  act p b :=
    let (i, b) := p.invocation.act p.site b
    ({ p with invocation := i }, b)
  rank p := p.invocation.rank
  rank_act p b h := Invocation.rank_act p.site p.invocation b h

/-- Give several performances at once, and tell how each of them ended. -/
def runAll (ps : List (Performance α)) (b : Breaker) : List (Invocation α) × Breaker :=
  let (ps, b) := process.run ps b
  (ps.map invocation, b)

end Performance

end Interchange
