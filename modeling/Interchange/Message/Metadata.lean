import Interchange.Json.Value

/-! # Metadata -/

namespace Interchange

/-- What transports and adapters note on a message. -/
abbrev Metadata := Dictionary Json

namespace Metadata

/-- The HTTP verb of a request. -/
def httpMethod : String := "http_method"

/-- The path of a request. -/
def path : String := "path"

/-- The id of a JSON-RPC request, to be repeated in its answer. -/
def jsonRpcId : String := "jsonrpc_id"

/-- Whether a frame holds text or arbitrary bytes. -/
def framing : String := "framing"

/-- The topic of a published message. -/
def topic : String := "topic"

end Metadata

end Interchange
