import Interchange.Attempt.Backoff
import Interchange.Attempt.Breaker
import Interchange.Failure
import Interchange.Protocol.PathTemplate
import Interchange.Routing.Balancer

/-! # Settings of a gateway -/

namespace Interchange

/-- What can be set for a gateway. -/
structure Settings where
  strategy : Strategy := default
  backoff : Backoff := {}
  thresholds : Thresholds := {}
  /-- The limit of an attempt, in milliseconds, for requests that bring none. -/
  defaultTimeoutMs : Nat := 30000
  /-- The path template for REST, checked when the gateway is built. -/
  template : Option String := none
deriving DecidableEq

namespace Settings

/-- How settings are read. -/
def shape : Json.Shape Settings :=
  .record "BridgeConfig" {}
    [.of "balancer" .anywhere Strategy.shape fun x s ↦ { s with strategy := x },
      .of "retry" .anywhere Backoff.shape fun x s ↦ { s with backoff := x },
      .of "circuit_breaker" .anywhere Thresholds.shape fun x s ↦ { s with thresholds := x },
      .of "default_timeout_ms" .anywhere (.unsigned 64) fun x s ↦ { s with defaultTimeoutMs := x },
      .of "path_template" .anywhere (.nullable .text) fun x s ↦ { s with template := x }]

/-- The settings that a text spells. -/
def parse (text : Bytes) : Except Failure Settings :=
  (shape.parse text).mapError fun fault ↦
    { code := .badRequest, message := "invalid bridge configuration: " ++ fault.message text
      cause := some (fault.message text) }

/-- The settings as an object. -/
def toJson (s : Settings) : Json :=
  .ofMembers
    [("balancer", .string s.strategy.name), ("retry", s.backoff.toJson),
      ("circuit_breaker", s.thresholds.toJson), ("default_timeout_ms", .int s.defaultTimeoutMs),
      ("path_template", (s.template.map Json.string).getD .null)]

/-- Set the default limit, cut to whole milliseconds and to the greatest number that can be set. -/
def withDefaultTimeout (s : Settings) (timeout : Span) : Settings :=
  { s with defaultTimeoutMs := min timeout.millis 0xffffffffffffffff }

/-- The limit of an attempt for requests that bring none. -/
def defaultTimeout (s : Settings) : Span := .ofMillis s.defaultTimeoutMs

/-- The path template, if one is set. -/
def pathTemplate (s : Settings) : Except Failure (Option PathTemplate) :=
  match s.template with
  | none => .ok none
  | some text => (PathTemplate.parse text).map some

/-- The settings as a record of their parts. -/
def describe (s : Settings) : String :=
  let template := match s.template with
    | some text => s!"Some({Text.quoted text})"
    | none => "None"
  Text.recordText "BridgeConfig"
    [("balancer", s.strategy.label), ("retry", s.backoff.describe),
      ("circuit_breaker", s.thresholds.describe),
      ("default_timeout_ms", toString s.defaultTimeoutMs), ("path_template", template)]

end Settings

end Interchange
