import Interchange.Endpoint.Registration

/-! # Endpoints and their connections

An endpoint is a registration with a counter of the connections that are open to it. Copies of an
endpoint share its counter; endpoints registered apart have their own, however equal they are.
-/

namespace Interchange

/-- The name of a counter. -/
abbrev CounterId := Nat

/-- An instance of a service that can be called. -/
structure Endpoint extends Registration where
  counter : CounterId
deriving DecidableEq, Repr

namespace Endpoint

/-- Endpoints with the same registration. -/
def equal (a b : Endpoint) : Bool := a.toRegistration = b.toRegistration

/-- Endpoints that are copies of one another. -/
def sharesCounter (a b : Endpoint) : Bool := a.counter = b.counter

end Endpoint

/-- How many connections each counter counts. -/
structure Connections where
  counts : List UInt64 := []
deriving DecidableEq, Repr

namespace Connections

/-- The count of a counter. -/
def count (cs : Connections) (id : CounterId) : UInt64 := cs.counts.getD id 0

/-- Set a counter. -/
def set (cs : Connections) (id : CounterId) (n : UInt64) : Connections :=
  ⟨cs.counts.set id n⟩

/-- The open connections of an endpoint. -/
def active (cs : Connections) (e : Endpoint) : UInt64 := cs.count e.counter

/-- A new endpoint for a registration, with a counter of its own. -/
def register (cs : Connections) (r : Registration) (n : UInt64) : Connections × Endpoint :=
  (⟨cs.counts ++ [n]⟩, { r with counter := cs.counts.length })

/-- Set the count of an endpoint. -/
def seed (cs : Connections) (e : Endpoint) (n : UInt64) : Connections := cs.set e.counter n

/-- Open a connection. -/
def acquire (cs : Connections) (e : Endpoint) : Connections :=
  cs.set e.counter (cs.count e.counter + 1)

/-- Close a connection. -/
def release (cs : Connections) (e : Endpoint) : Connections :=
  cs.set e.counter (cs.count e.counter - 1)

/-- Holds of an endpoint whose counter exists. -/
def Knows (cs : Connections) (e : Endpoint) : Prop := e.counter < cs.counts.length

theorem count_set_self {cs : Connections} {id : CounterId} (h : id < cs.counts.length)
    (n : UInt64) : (cs.set id n).count id = n := by
  simp [count, set, h]

theorem count_set_of_ne (cs : Connections) {id other : CounterId} (h : other ≠ id) (n : UInt64) :
    (cs.set id n).count other = cs.count other := by
  simp [count, set, List.getElem?_set_ne (Ne.symm h)]

theorem active_acquire {cs : Connections} {e : Endpoint} (h : cs.Knows e) :
    (cs.acquire e).active e = cs.active e + 1 := count_set_self h _

theorem active_release {cs : Connections} {e : Endpoint} (h : cs.Knows e) :
    (cs.release e).active e = cs.active e - 1 := count_set_self h _

@[simp] theorem length_set (cs : Connections) (id : CounterId) (n : UInt64) :
    (cs.set id n).counts.length = cs.counts.length := by simp [set]

/-- What is opened is closed again. -/
theorem release_acquire {cs : Connections} {e : Endpoint} (h : cs.Knows e) :
    ((cs.acquire e).release e).active e = cs.active e := by
  have h' : (cs.acquire e).Knows e := by simpa [Knows, acquire] using h
  rw [active_release h', active_acquire h, UInt64.add_sub_cancel]

end Connections

end Interchange
