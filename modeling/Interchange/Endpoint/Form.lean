import Interchange.Endpoint.Connections
import Interchange.Json.Member

/-! # The JSON forms of endpoints -/

namespace Interchange

/-- The registration of a form that may leave out all but the id. -/
def Registration.ofJson (service : String) (j : Json) : Registration :=
  { service := (j.text? "service").getD service
    id := j.text "id"
    address := (j.text? "address").getD "local"
    port := (j.nat? "port").getD 0
    transport := (j.shaped? "protocol" Transport.shape).getD default
    weight := (j.nat? "weight").getD 1 }

namespace Endpoint

/-- A new endpoint for a form, with the open connections that it tells of. -/
def ofJson (cs : Connections) (service : String) (j : Json) : Connections × Endpoint :=
  cs.register (.ofJson service j) ((j.nat? "active").getD 0).toUInt64

/-- New endpoints for a list of forms. -/
def listOfJson (cs : Connections) (service : String) (js : List Json) :
    Connections × List Endpoint :=
  js.foldl
    (fun (cs, es) j ↦
      let (cs, e) := ofJson cs service j
      (cs, es ++ [e]))
    (cs, [])

/-- The form of an endpoint. -/
def toJson (cs : Connections) (e : Endpoint) : Json :=
  .ofMembers
    [("id", .string e.id), ("service", .string e.service), ("authority", .string e.authority),
      ("protocol", .string e.transport.name), ("weight", .int e.weight),
      ("active", .int (cs.active e).toNat)]

end Endpoint

end Interchange
