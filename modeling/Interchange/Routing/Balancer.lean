import Interchange.Endpoint.Connections
import Interchange.Dictionary
import Interchange.Failure

/-! # Load balancing

A balancer chooses one endpoint from the list of a service. The two strategies that go round keep a
cursor for each service, which counts the choices made for it; the others keep nothing. Choosing opens
a connection on the chosen endpoint, so the next choice sees it.
-/

namespace Interchange

/-- How endpoints are chosen. -/
inductive Strategy where
  | roundRobin
  | random
  | weightedRoundRobin
  | leastConnections
deriving DecidableEq, Repr

namespace Strategy

instance : Inhabited Strategy := ⟨.roundRobin⟩

/-- Every strategy. -/
def all : List Strategy := [.roundRobin, .random, .weightedRoundRobin, .leastConnections]

/-- The name of a strategy. -/
def name : Strategy → String
  | .roundRobin => "round_robin"
  | .random => "random"
  | .weightedRoundRobin => "weighted_round_robin"
  | .leastConnections => "least_connections"

/-- The name of a strategy in a listing of settings. -/
def label : Strategy → String
  | .roundRobin => "RoundRobin"
  | .random => "Random"
  | .weightedRoundRobin => "WeightedRoundRobin"
  | .leastConnections => "LeastConnections"

/-- A strategy by its name. -/
def shape : Json.Shape Strategy := .tag (all.map fun s ↦ (s.name, s))

/-- Whether a strategy counts its choices. -/
def counts : Strategy → Bool
  | .roundRobin | .weightedRoundRobin => true
  | .random | .leastConnections => false

end Strategy

/-- A failure to find a way for a request. -/
def routingFailure (message : String) : Failure := { code := .routing, message }

/-- A strategy with the cursors of the services. -/
structure Balancer where
  strategy : Strategy
  cursors : Dictionary UInt64 := []
deriving DecidableEq

namespace Balancer

/-- How many choices were made for a service. -/
def cursor (b : Balancer) (service : String) : UInt64 := (b.cursors.get? service).getD 0

/-- Count a choice, if the strategy counts. -/
def advance (b : Balancer) (service : String) : Balancer :=
  if b.strategy.counts then
    { b with cursors := b.cursors.insert service (b.cursor service + 1) }
  else b

/-- Forget a service, whose next choice is then the first again. -/
def forget (b : Balancer) (service : String) : Balancer :=
  { b with cursors := b.cursors.erase service }

/-- The sum of the weights. -/
def totalWeight : List Endpoint → Nat
  | [] => 0
  | e :: es => e.effectiveWeight + totalWeight es

/-- The endpoint that owns a slot, if each owns as many in a row as it has weight. -/
def atSlot : List Endpoint → Nat → Option Endpoint
  | [], _ => none
  | e :: es, slot =>
    if slot < e.effectiveWeight then some e else atSlot es (slot - e.effectiveWeight)

/-- The first of several endpoints with the fewest open connections. -/
def leastBusy (cs : Connections) : Endpoint → List Endpoint → Endpoint
  | best, [] => best
  | best, e :: es => leastBusy cs (if cs.active e < cs.active best then e else best) es

/-- The endpoint that is chosen next from a list. The draw decides where choice is random. -/
def choose (b : Balancer) (cs : Connections) (draw : Nat) (service : String) :
    List Endpoint → Except Failure Endpoint
  | [] => .error (routingFailure s!"no endpoints available for service '{service}'")
  | e :: es =>
    have pos : 0 < (e :: es).length := Nat.zero_lt_succ _
    match b.strategy with
    | .roundRobin =>
      .ok ((e :: es).get ⟨(b.cursor service).toNat % (e :: es).length, Nat.mod_lt _ pos⟩)
    | .random => .ok ((e :: es).get ⟨draw % (e :: es).length, Nat.mod_lt _ pos⟩)
    | .weightedRoundRobin =>
      match atSlot (e :: es) ((b.cursor service).toNat % totalWeight (e :: es)) with
      | some chosen => .ok chosen
      | none => .error { code := .internal, message := "weighted slot out of range" }
    | .leastConnections => .ok (leastBusy cs e es)

/-- Choose an endpoint from a list and open a connection on it. -/
def select (b : Balancer) (cs : Connections) (draw : Nat) (service : String)
    (es : List Endpoint) : Except Failure (Balancer × Connections × Endpoint) := do
  let chosen ← b.choose cs draw service es
  .ok (b.advance service, cs.acquire chosen, chosen)

@[simp] theorem strategy_advance (b : Balancer) (service : String) :
    (b.advance service).strategy = b.strategy := by
  unfold advance; split <;> rfl

@[simp] theorem strategy_forget (b : Balancer) (service : String) :
    (b.forget service).strategy = b.strategy := rfl

@[simp] theorem cursor_forget (b : Balancer) (service : String) :
    (b.forget service).cursor service = 0 := by simp [cursor, forget]

theorem cursor_advance {b : Balancer} (h : b.strategy.counts = true) (service : String) :
    (b.advance service).cursor service = b.cursor service + 1 := by
  simp [cursor, advance, h]

theorem cursor_advance_of_ne {service other : String} (h : other ≠ service) (b : Balancer) :
    (b.advance service).cursor other = b.cursor other := by
  unfold advance
  split
  · simp [cursor, Dictionary.get?_insert_of_ne h]
  · rfl

@[simp] theorem totalWeight_nil : totalWeight [] = 0 := rfl

@[simp] theorem totalWeight_cons (e : Endpoint) (es : List Endpoint) :
    totalWeight (e :: es) = e.effectiveWeight + totalWeight es := rfl

/-- Every slot below the total weight has an owner. -/
theorem exists_atSlot {es : List Endpoint} {slot : Nat} (h : slot < totalWeight es) :
    ∃ e ∈ es, atSlot es slot = some e := by
  induction es generalizing slot with
  | nil => simp at h
  | cons e es ih =>
    by_cases hs : slot < e.effectiveWeight
    · exact ⟨e, by simp, by simp [atSlot, hs]⟩
    · obtain ⟨x, hx, hx'⟩ := @ih (slot - e.effectiveWeight) (by
        rw [totalWeight_cons] at h; omega)
      exact ⟨x, by simp [hx], by simp [atSlot, hs, hx']⟩

end Balancer

end Interchange
