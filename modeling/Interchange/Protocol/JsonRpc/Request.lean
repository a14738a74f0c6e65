import Interchange.Json.Shape
import Interchange.Json.Written

/-! # JSON-RPC requests

A request without an id is a notification. An id that is `null` is an id.
-/

namespace Interchange.JsonRpc

/-- The version of the protocol. -/
def version : String := "2.0"

/-- A request or notification. -/
structure Request where
  version : String := JsonRpc.version
  method : String
  params : Json := .null
  id : Option Json := none
deriving DecidableEq

namespace Request

/-- Holds of a request that wants no answer. -/
def isNotification (r : Request) : Bool := r.id.isNone

/-- How a request is read. -/
def shape : Json.Shape Request :=
  .record "JsonRpcRequest" { method := "" }
    [.of "jsonrpc" .anywhere .text fun x r ↦ { r with version := x },
      .of "method" .never .text fun x r ↦ { r with method := x },
      .of "params" .anywhere .any fun x r ↦ { r with params := x },
      .of "id" .anywhere .any fun x r ↦ { r with id := some x }]

/-- A request as an object. -/
def toJson (r : Request) : Json :=
  .object <|
    [("jsonrpc", .string r.version), ("method", .string r.method), ("params", r.params)] ++
      r.id.toList.map fun id ↦ ("id", id)

end Request

end Interchange.JsonRpc
