import Interchange.Failure
import Interchange.Protocol.JsonRpc.Request

/-! # JSON-RPC responses

A response holds a result or an error, and repeats the id of the request. When it is read, a member
that is `null` counts as absent.
-/

namespace Interchange.JsonRpc

/-- An error object. -/
structure ErrorObject where
  code : Int
  message : String
  data : Option Json := none
deriving DecidableEq

namespace ErrorObject

/-- The error object for a method that does not exist. -/
def methodNotFound : ErrorObject := { code := -32601, message := "Method not found" }

/-- The error object of a failure. It keeps the failure's own code. -/
def ofFailure (f : Failure) : ErrorObject :=
  { code := f.code.toNat, message := f.message, data := f.details }

/-- How an error object is read. -/
def shape : Json.Shape ErrorObject :=
  .record "JsonRpcError" { code := 0, message := "" }
    [.of "code" .never (.signed 32) fun x e ↦ { e with code := x },
      .of "message" .never .text fun x e ↦ { e with message := x },
      .of "data" .anywhere (.nullable .any) fun x e ↦ { e with data := x }]

/-- An error object as JSON. -/
def toJson (e : ErrorObject) : Json :=
  .object <|
    [("code", .int e.code), ("message", .string e.message)] ++
      e.data.toList.map fun d ↦ ("data", d)

/-- The failure code that a service behind the interchange means by a number. The numbers that the
protocol reserves have a meaning of their own, and others are taken as failure codes. -/
def failureCode (e : ErrorObject) : Code :=
  if e.code = -32601 then .notFound
  else if e.code = -32700 ∨ e.code = -32600 ∨ e.code = -32602 then .badRequest
  else if e.code = -32603 then .internal
  else (Code.ofNat? e.code.toNat).getD .internal

end ErrorObject

/-- A response. -/
structure Response where
  version : String := JsonRpc.version
  result : Option Json := none
  error : Option ErrorObject := none
  id : Json
deriving DecidableEq

namespace Response

/-- The response that reports a result. -/
def ofResult (id result : Json) : Response := { result := some result, id }

/-- The response that reports an error. -/
def ofError (id : Json) (error : ErrorObject) : Response := { error := some error, id }

/-- How a response is read. -/
def shape : Json.Shape Response :=
  .record "JsonRpcResponse" { id := .null }
    [.of "jsonrpc" .never .text fun x r ↦ { r with version := x },
      .of "result" .anywhere (.nullable .any) fun x r ↦ { r with result := x },
      .of "error" .anywhere (.nullable ErrorObject.shape) fun x r ↦ { r with error := x },
      .of "id" .never .any fun x r ↦ { r with id := x }]

/-- A response as an object. -/
def toJson (r : Response) : Json :=
  .object <|
    [("jsonrpc", .string r.version)] ++ r.result.toList.map (fun x ↦ ("result", x)) ++
      r.error.toList.map (fun e ↦ ("error", e.toJson)) ++ [("id", r.id)]

end Response

end Interchange.JsonRpc
