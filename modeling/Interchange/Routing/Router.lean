import Interchange.Endpoint.Registry
import Interchange.Routing.Balancer
import Interchange.Routing.Rule

/-! # The router

The router knows the endpoints of each service. A call goes to the service that the first rule applying
to it chooses, or else to the one it names, and there to the endpoint that the balancer chooses. Writing
an endpoint that is registered already keeps the instance in the table, and with it the connections
that are counted there. Every write makes a new generation of the table.
-/

namespace Interchange

/-- The endpoints of each service. -/
abbrev RoutingTable := Dictionary (List Endpoint)

/-- Table, rules and balancer. -/
structure Router where
  table : RoutingTable := []
  rules : List Rule := []
  balancer : Balancer := { strategy := default }
  generation : Nat := 0

namespace Router

/-- A router without endpoints and rules. -/
def ofStrategy (strategy : Strategy) : Router := { balancer := { strategy } }

/-! ## Reading -/

/-- The endpoints of a service. -/
def endpoints (r : Router) (service : String) : List Endpoint := (r.table.get? service).getD []

/-- The names of the services that have endpoints. -/
def services (r : Router) : List String := r.table.keys

/-- All endpoints. -/
def instances (r : Router) : List Endpoint := r.table.flatMap Prod.snd

/-- The service that a call goes to. -/
def resolve (r : Router) (c : Call) : String :=
  match r.rules.find? (·.applies c) with
  | some rule => rule.target c
  | none => c.service

/-! ## Writing -/

/-- Put an endpoint in the place of the one with its id, or at the end. An equal one stays. -/
def place (e : Endpoint) : List Endpoint → List Endpoint
  | [] => [e]
  | x :: xs => if x.id = e.id then (if x.equal e then x else e) :: xs else x :: place e xs

/-- Add an endpoint to a service. -/
def add (r : Router) (service : String) (e : Endpoint) : Router :=
  { r with
    table := r.table.insert service (place e (r.endpoints service))
    generation := r.generation + 1 }

/-- Remove an id from a service, and tell whether it was there. -/
def remove (r : Router) (service id : String) : Router × Bool :=
  let here := r.endpoints service
  let others := here.filter fun e ↦ e.id ≠ id
  if others.length = here.length then (r, false)
  else if others.isEmpty then
    ({ r with
        table := r.table.erase service
        balancer := r.balancer.forget service
        generation := r.generation + 1 }, true)
  else
    ({ r with
        table := r.table.insert service others
        generation := r.generation + 1 }, true)

/-- The first of the endpoints so far that equals a new one, or else the new one. -/
def retained (former : List Endpoint) (e : Endpoint) : Endpoint :=
  (former.find? (·.equal e)).getD e

/-- Replace the whole table. Services without endpoints are left out. -/
def update (r : Router) (table : RoutingTable) : Router :=
  let next := (table.filter fun s ↦ !s.2.isEmpty).map fun s ↦
    (s.1, s.2.map (retained (r.endpoints s.1)))
  let dropped := r.services.filter fun s ↦ !Dictionary.contains next s
  { r with
    table := next
    balancer := dropped.foldl Balancer.forget r.balancer
    generation := r.generation + 1 }

/-- Replace the table by what the registry lists for some services. -/
def sync (r : Router) (registry : Registry) (cs : Connections) (services : List String) :
    Router × Connections :=
  let (table, cs) := services.foldl
    (fun (table, cs) service ↦
      let (cs, es) := registry.discover cs service
      (Dictionary.insert table service es, cs))
    (([] : RoutingTable), cs)
  (r.update table, cs)

/-- Put a rule before the first one of lower priority. -/
def placeRule (rule : Rule) : List Rule → List Rule
  | [] => [rule]
  | x :: xs => if x.priority < rule.priority then rule :: x :: xs else x :: placeRule rule xs

/-- Add a rule. -/
def registerRule (r : Router) (rule : Rule) : Router :=
  { r with rules := placeRule rule r.rules }

/-- Remove all rules of a name, and tell whether there were any. -/
def unregisterRule (r : Router) (name : String) : Router × Bool :=
  let others := r.rules.filter fun rule ↦ rule.name ≠ name
  ({ r with rules := others }, others.length ≠ r.rules.length)

/-! ## Routing -/

/-- Choose the endpoint for a call and open a connection on it. A failure changes nothing. -/
def route (r : Router) (cs : Connections) (draw : Nat) (c : Call) :
    Except Failure (Router × Connections × Endpoint) :=
  let service := r.resolve c
  if service.isEmpty then .error (routingFailure "request does not name a service")
  else
    match r.endpoints service with
    | [] => .error (routingFailure s!"no endpoints registered for service '{service}'")
    | e :: es => do
      let (balancer, cs, chosen) ← r.balancer.select cs draw service (e :: es)
      .ok ({ r with balancer }, cs, chosen)

@[simp] theorem generation_add (r : Router) (service : String) (e : Endpoint) :
    (r.add service e).generation = r.generation + 1 := rfl

@[simp] theorem generation_update (r : Router) (table : RoutingTable) :
    (r.update table).generation = r.generation + 1 := rfl

@[simp] theorem endpoints_add_self (r : Router) (service : String) (e : Endpoint) :
    (r.add service e).endpoints service = place e (r.endpoints service) := by
  simp [endpoints, add]

theorem endpoints_add_of_ne {service other : String} (h : other ≠ service) (r : Router)
    (e : Endpoint) : (r.add service e).endpoints other = r.endpoints other := by
  simp [endpoints, add, Dictionary.get?_insert_of_ne h]

end Router

end Interchange
