import Interchange.Dictionary
import Interchange.Endpoint.Connections
import Interchange.Failure

/-! # The registry

The registry lists the registrations of each service in the order in which they were made. Registering
an id again moves it to the end.
-/

namespace Interchange

/-- The registrations of each service that has any. -/
structure Registry where
  services : Dictionary (List Registration) := []
deriving DecidableEq, Repr

namespace Registry

/-- The registrations of a service. -/
def registrations (r : Registry) (service : String) : List Registration :=
  (r.services.get? service).getD []

/-- Add a registration in place of an earlier one with its id. -/
def register (r : Registry) (e : Registration) : Except Failure Registry :=
  if e.service.isEmpty || e.id.isEmpty then
    .error { code := .badRequest
             message := "endpoint registration requires a service name and an endpoint id" }
  else
    let others := (r.registrations e.service).filter fun x ↦ x.id ≠ e.id
    .ok ⟨r.services.insert e.service (others ++ [e])⟩

/-- Remove an id of a service, and tell whether it was there. -/
def deregister (r : Registry) (service id : String) : Registry × Bool :=
  let here := r.registrations service
  let others := here.filter fun x ↦ x.id ≠ id
  (⟨if others.isEmpty then r.services.erase service else r.services.insert service others⟩,
    others.length ≠ here.length)

/-- The names of the services that have registrations. -/
def names (r : Registry) : List String := r.services.keys

/-- New endpoints for the registrations of a service. -/
def discover (r : Registry) (cs : Connections) (service : String) : Connections × List Endpoint :=
  (r.registrations service).foldl
    (fun (cs, es) e ↦
      let (cs, new) := cs.register e 0
      (cs, es ++ [new]))
    (cs, [])

end Registry

end Interchange
