import Interchange.Protocol.Tag

/-! # Registrations -/

namespace Interchange

/-- What is known of one instance of a service. -/
structure Registration where
  service : String
  id : String
  address : String
  port : Nat
  transport : Transport := .internalJsonRpc
  weight : Nat := 1
deriving DecidableEq, Repr

namespace Registration

/-- How a registration is read. -/
def shape : Json.Shape Registration :=
  .record "EndpointDescriptor" { service := "", id := "", address := "", port := 0 }
    [.of "service" .never .text fun x r ↦ { r with service := x },
      .of "id" .never .text fun x r ↦ { r with id := x },
      .of "address" .never .text fun x r ↦ { r with address := x },
      .of "port" .never (.unsigned 16) fun x r ↦ { r with port := x },
      .of "protocol" .anywhere Transport.shape fun x r ↦ { r with transport := x },
      .of "weight" .anywhere (.unsigned 32) fun x r ↦ { r with weight := x }]

/-- Address and port. -/
def authority (r : Registration) : String := s!"{r.address}:{r.port}"

/-- The weight in balancing, which is never below one. -/
def effectiveWeight (r : Registration) : Nat := max r.weight 1

theorem effectiveWeight_pos (r : Registration) : 0 < r.effectiveWeight :=
  Nat.lt_of_lt_of_le Nat.zero_lt_one (Nat.le_max_right ..)

end Registration

end Interchange
