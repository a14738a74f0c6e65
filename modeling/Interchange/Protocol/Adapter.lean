import Interchange.Protocol.Envelope
import Interchange.Protocol.JsonRpc.Crossing
import Interchange.Protocol.Rest

/-! # Adapters

An adapter takes requests of its protocols in and lets their answers out. A set of adapters has at most
one for each protocol.
-/

namespace Interchange

/-- One of the three kinds of adapter. -/
inductive Adapter where
  | rest (a : Rest)
  | jsonRpc (a : JsonRpc)
  | envelope (a : Envelope)

namespace Adapter

/-- The protocols that an adapter handles. -/
def protocols : Adapter → List Protocol
  | .rest _ => Rest.protocols
  | .jsonRpc _ => JsonRpc.protocols
  | .envelope _ => Envelope.protocols

/-- Whether an adapter handles a protocol. -/
def supports (a : Adapter) (p : Protocol) : Bool := a.protocols.contains p

/-- The call that a request becomes. -/
def accept : Adapter → TraceId → Inbound → Except Failure Call
  | .rest a => a.accept
  | .jsonRpc a => a.accept
  | .envelope a => a.accept

/-- The message that an answer becomes. -/
def render : Adapter → Reply → Option Inbound → Except Failure Outbound
  | .rest a => a.render
  | .jsonRpc a => a.render
  | .envelope a => a.render

end Adapter

/-- The adapter of each protocol that has one. -/
abbrev Adapters := List (Protocol × Adapter)

namespace Adapters

/-- Use an adapter for every protocol that it handles, in place of earlier ones. -/
def register (s : Adapters) (a : Adapter) : Adapters :=
  a.protocols.foldl (fun acc p ↦ (p, a) :: acc.filter fun e ↦ e.1 ≠ p) s

/-- A set of these adapters; of several for one protocol the last counts. -/
def ofList (as : List Adapter) : Adapters := as.foldl register []

/-- The three adapters, with the given one for REST. -/
def withRest (a : Rest) : Adapters := ofList [.rest a, .jsonRpc {}, .envelope {}]

/-- The three adapters. -/
def standard : Adapters := withRest {}

/-- The adapter of a protocol. -/
def find? (s : Adapters) (p : Protocol) : Option Adapter := List.lookup p s

/-- Whether a protocol has an adapter. -/
def supports (s : Adapters) (p : Protocol) : Bool := (s.find? p).isSome

/-- The adapter of a protocol, which must have one. -/
def get (s : Adapters) (p : Protocol) : Except Failure Adapter :=
  match s.find? p with
  | some a => .ok a
  | none => .error (protocolFailure s!"no adapter registered for {p.name}")

/-- The call that a request becomes. -/
def accept (s : Adapters) (fresh : TraceId) (m : Inbound) : Except Failure Call := do
  (← s.get m.protocol).accept fresh m

/-- The message that an answer becomes. -/
def render (s : Adapters) (r : Reply) (asked : Option Inbound) : Except Failure Outbound := do
  (← s.get (← r.target asked)).render r asked

/-- The names of the protocols with an adapter, in order. -/
def describe (s : Adapters) : String :=
  let names := (s.map fun e ↦ e.1.name).mergeSort (· ≤ ·)
  Text.recordText "AdapterSet" [("protocols", Text.bracketed (names.map Text.quoted))]

end Adapters

end Interchange
