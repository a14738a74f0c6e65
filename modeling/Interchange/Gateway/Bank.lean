import Interchange.Attempt.Breaker
import Interchange.Routing.Router

/-! # The breakers of a gateway

Every endpoint that was called has a breaker of its own, found by service and id. It is kept as long as
that very instance of the endpoint stays in the routing table, which is looked at again whenever the
table has a new generation.
-/

namespace Interchange

/-- The name of a breaker in the bank. -/
abbrev BreakerId := Nat

/-- The breaker that guards an endpoint. -/
structure Guard where
  endpoint : Endpoint
  breaker : BreakerId
deriving DecidableEq, Repr

/-- All breakers ever made, and the endpoints that are guarded now. -/
structure Bank where
  breakers : List Breaker := []
  guards : List Guard := []
  /-- The generation of the table at the last look. -/
  generation : Nat := 0

namespace Bank

/-- A breaker by its name. -/
def breaker (b : Bank) (id : BreakerId) : Breaker := b.breakers.getD id { name := "" }

/-- Set a breaker. -/
def setBreaker (b : Bank) (id : BreakerId) (new : Breaker) : Bank :=
  { b with breakers := b.breakers.set id new }

/-- Drop the guards of endpoints that have left the table. -/
def prune (b : Bank) (r : Router) : Bank :=
  if b.generation = r.generation then b
  else
    { b with
      guards := b.guards.filter fun g ↦ r.instances.any (·.sharesCounter g.endpoint)
      generation := r.generation }

/-- Endpoints that go by the same service and id. -/
def sameName (a b : Endpoint) : Bool := a.service = b.service && a.id = b.id

/-- Guard an endpoint with a new breaker. -/
def create (b : Bank) (thresholds : Thresholds) (e : Endpoint) : Bank × BreakerId :=
  let new : Breaker := { name := s!"{e.service}/{e.id}", thresholds }
  let others := b.guards.filter fun g ↦ !sameName g.endpoint e
  ({ b with
      breakers := b.breakers ++ [new]
      guards := others ++ [{ endpoint := e, breaker := b.breakers.length }] },
    b.breakers.length)

/-- The breaker of an endpoint. One that has none yet gets a new one. -/
def guard (b : Bank) (r : Router) (thresholds : Thresholds) (e : Endpoint) : Bank × BreakerId :=
  let b := b.prune r
  match b.guards.find? fun g ↦ sameName g.endpoint e with
  | some g => if g.endpoint.sharesCounter e then (b, g.breaker) else b.create thresholds e
  | none => b.create thresholds e

/-- The breakers on guard as they are seen now, in the order of their names. -/
def stats (b : Bank) (r : Router) (now : Span) : Bank × List Breaker :=
  let b := b.prune r
  let b := b.guards.foldl (fun b g ↦ b.setBreaker g.breaker ((b.breaker g.breaker).refresh now)) b
  (b, (b.guards.map fun g ↦ b.breaker g.breaker).mergeSort fun x y ↦ x.name ≤ y.name)

@[simp] theorem generation_prune (b : Bank) (r : Router) :
    (b.prune r).generation = r.generation := by
  unfold prune; split
  · assumption
  · rfl

theorem prune_of_generation_eq {b : Bank} {r : Router} (h : b.generation = r.generation) :
    b.prune r = b := if_pos h

@[simp] theorem prune_prune (b : Bank) (r : Router) : (b.prune r).prune r = b.prune r :=
  prune_of_generation_eq (generation_prune b r)

@[simp] theorem breakers_prune (b : Bank) (r : Router) : (b.prune r).breakers = b.breakers := by
  unfold prune; split <;> rfl

end Bank

end Interchange
