import Interchange.Gateway.Dispatch

/-! # Backends for rehearsals

A backend that follows a list of turns, and one that notes who called.
-/

namespace Interchange.Backend

/-- What one call comes to. A turn without an answer of its own gives the payload back. -/
abbrev Turn := Effort (Option Reply)

/-- Give the payload back. -/
def returned (c : Call) : Reply := .ofPayload c.payload

/-- Every call takes the next turn. When there is none left, it gets its payload back at once. -/
def ofTurns : Backend (List Turn) := fun v turns ↦
  match turns with
  | [] => ([], { outcome := .ok (returned v.call) })
  | turn :: rest =>
    (rest, { after := turn.after, outcome := turn.outcome.map (·.getD (returned v.call)) })

/-- A backend that also notes every visit, the latest last. -/
def noting {β : Type} (b : Backend β) : Backend (β × List Visit) := fun v (s, visits) ↦
  let (s, effort) := b v s
  ((s, visits ++ [v]), effort)

end Interchange.Backend
