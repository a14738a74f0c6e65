import Interchange.Json.Shape

/-! # Protocols, transports and interaction patterns -/

namespace Interchange

/-- The protocols that clients speak. -/
inductive Protocol where
  | rest
  | webSocket
  | jsonRpc
  | mqtt
deriving DecidableEq, Repr

namespace Protocol

/-- Every protocol. -/
def all : List Protocol := [.rest, .webSocket, .jsonRpc, .mqtt]

/-- The name of a protocol. -/
def name : Protocol → String
  | .rest => "REST"
  | .webSocket => "WEBSOCKET"
  | .jsonRpc => "JSONRPC"
  | .mqtt => "MQTT"

/-- A protocol by its name. -/
def shape : Json.Shape Protocol := .tag (all.map fun p ↦ (p.name, p))

end Protocol

/-- The protocols between the interchange and the services behind it. -/
inductive Transport where
  | grpc
  | internalJsonRpc
  | customBinary
deriving DecidableEq, Repr

namespace Transport

instance : Inhabited Transport := ⟨.internalJsonRpc⟩

/-- Every transport. -/
def all : List Transport := [.grpc, .internalJsonRpc, .customBinary]

/-- The name of a transport. -/
def name : Transport → String
  | .grpc => "GRPC"
  | .internalJsonRpc => "INTERNAL_JSONRPC"
  | .customBinary => "CUSTOM_BINARY"

/-- A transport by its name. -/
def shape : Json.Shape Transport := .tag (all.map fun t ↦ (t.name, t))

end Transport

/-- How the two ends of a message interact. It survives the way through the interchange and back. -/
inductive Pattern where
  | requestResponse
  | publishSubscribe
  | stream
deriving DecidableEq, Repr

namespace Pattern

instance : Inhabited Pattern := ⟨.requestResponse⟩

/-- Every pattern. -/
def all : List Pattern := [.requestResponse, .publishSubscribe, .stream]

/-- The name of a pattern. -/
def name : Pattern → String
  | .requestResponse => "request_response"
  | .publishSubscribe => "publish_subscribe"
  | .stream => "stream"

/-- Whether the sender waits for an answer. -/
def expectsResponse (p : Pattern) : Bool := p ≠ .publishSubscribe

/-- A pattern by its name. -/
def shape : Json.Shape Pattern := .tag (all.map fun p ↦ (p.name, p))

end Pattern

end Interchange
