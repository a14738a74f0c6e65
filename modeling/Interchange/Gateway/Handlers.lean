import Interchange.Gateway.Dispatch
import Interchange.Protocol.Codec

/-! # Handlers

Services may run inside the gateway itself. A handler is found by service and method, the service being
that of the endpoint to which the call was routed. What goes wrong in it is an answer like any other.
-/

namespace Interchange

/-- What a call comes to. -/
abbrev Handler := Call → Effort Bytes

namespace Handler

/-- A handler that ends at once. -/
def immediate (f : Call → Except Failure Bytes) : Handler := fun c ↦ { outcome := f c }

/-- The parameters of a call, taken out of its JSON payload. -/
def params {π : Type} (shape : Json.Shape π) (c : Call) : Except Failure π := do
  let value ← Codec.json.decode c.payload
  (shape.ofJson value).mapError fun m ↦
    { code := .badRequest
      message := s!"invalid params for {c.qualifiedMethod}: {m.message}" }

/-- A handler of parameters and result in JSON. -/
def typed {π : Type} (shape : Json.Shape π) (f : π → Effort Json) : Handler := fun c ↦
  match params shape c with
  | .error failure => { outcome := .error failure }
  | .ok x => { after := (f x).after, outcome := (f x).outcome.map Json.bytes }

end Handler

/-- Handlers by service and method. -/
abbrev Handlers := List ((String × String) × Handler)

namespace Handlers

/-- Register a handler in place of an earlier one of its name. -/
def register (t : Handlers) (service method : String) (h : Handler) : Handlers :=
  ((service, method), h) :: t.filter fun e ↦ e.1 ≠ (service, method)

/-- The handler of a method. -/
def find? (t : Handlers) (service method : String) : Option Handler := t.lookup (service, method)

/-- Whether a method has a handler. -/
def contains (t : Handlers) (service method : String) : Bool := (t.find? service method).isSome

/-- The full names of the methods in order. -/
def methods (t : Handlers) : List String :=
  (t.map fun e ↦ s!"{e.1.1}.{e.1.2}").mergeSort (· ≤ ·)

/-- Let the handler of a service answer a call. -/
def dispatch (t : Handlers) (service : String) (c : Call) : Effort Bytes :=
  match t.find? service c.method with
  | some h => h c
  | none =>
    { outcome := .error
        { code := .notFound, message := s!"method {service}.{c.method} is not registered" } }

/-- The answer of a service to a call. -/
def reply (t : Handlers) (service : String) (c : Call) : Effort Reply :=
  let effort := t.dispatch service c
  { after := effort.after
    outcome := .ok <|
      match effort.outcome with
      | .ok payload => .ofPayload payload
      | .error f => .ofFailure f }

/-- The handlers as the services behind the gateway. -/
def backend {β : Type} (t : Handlers) : Backend β := fun v s ↦
  (s, t.reply v.endpoint.service v.call)

/-- The table as a record of its methods. -/
def describe (t : Handlers) : String :=
  Text.recordText "HandlerTable" [("methods", Text.bracketed (t.methods.map Text.quoted))]

theorem find?_register_self (t : Handlers) (service method : String) (h : Handler) :
    (t.register service method h).find? service method = some h := by
  simp [find?, register]

end Handlers

end Interchange
