import Interchange.Proofs.Routing.Selection

/-!
# Routers at work

A router routes calls and is written to, in any order.  An event is one of the
two; it brings along the connections that it finds, since others open and close
connections in the meantime.  `Router.Step` says once what an event can come to:
a write takes place, a call is routed, and then nothing but its cursor moves, or
the call is refused, and nothing moves at all.

What every event preserves is kept by every run: there are no services without
endpoints (`filled_run`), ids are kept apart as far as they are given apart
(`distinct_run`), and the generation tells how often the table was written
(`generation_run`).
-/

namespace Interchange.Router

/-- What a router is asked for, with the connections that are open at the time. -/
inductive Event where
  | change (cs : Connections) (c : Change)
  | route (cs : Connections) (draw : Nat) (c : Call)

/-- The service and the endpoint that a call is routed to, if it is. -/
def leased (r : Router) : Event → Option (String × Endpoint)
  | .change .. => none
  | .route cs draw c => (r.route cs draw c).toOption.map fun x ↦ (r.resolve c, x.2.2)

/-- The router that an event leaves behind. -/
def step (r : Router) : Event → Router
  | .change cs c => (r.apply cs c).1
  | .route cs draw c => ((r.route cs draw c).toOption.map Prod.fst).getD r

/-- The router that a list of events leaves behind. -/
def run (r : Router) : List Event → Router
  | [] => r
  | x :: xs => (r.step x).run xs

/-- The events of a run, each with the router that it finds. -/
def moments (r : Router) : List Event → List (Router × Event)
  | [] => []
  | x :: xs => (r, x) :: (r.step x).moments xs

variable {r : Router} {x : Event} {xs ys : List Event} {s : String} {e : Endpoint}

@[simp] theorem run_nil (r : Router) : r.run [] = r := rfl

@[simp] theorem run_cons (r : Router) (x : Event) (xs : List Event) :
    r.run (x :: xs) = (r.step x).run xs := rfl

@[simp] theorem run_append (r : Router) (xs ys : List Event) :
    r.run (xs ++ ys) = (r.run xs).run ys := by
  induction xs generalizing r with
  | nil => rfl
  | cons x xs ih => exact ih _

@[simp] theorem moments_nil (r : Router) : r.moments [] = [] := rfl

@[simp] theorem moments_cons (r : Router) (x : Event) (xs : List Event) :
    r.moments (x :: xs) = (r, x) :: (r.step x).moments xs := rfl

@[simp] theorem moments_append (r : Router) (xs ys : List Event) :
    r.moments (xs ++ ys) = r.moments xs ++ (r.run xs).moments ys := by
  induction xs generalizing r with
  | nil => rfl
  | cons x xs ih => exact congrArg ((r, x) :: ·) (ih _)

/-! ## What an event comes to -/

theorem leased_eq_some_iff :
    r.leased x = some (s, e) ↔
      ∃ cs draw c, x = .route cs draw c ∧ r.resolve c = s ∧ s ≠ "" ∧
        r.balancer.choose cs draw s (r.endpoints s) = .ok e := by
  cases x with
  | change => simp [leased]
  | route cs draw c =>
    constructor
    · intro h
      obtain ⟨⟨r', cs', e'⟩, hroute, heq⟩ := Option.map_eq_some_iff.mp h
      obtain ⟨rfl, rfl⟩ := Prod.mk.inj heq
      cases hr : r.route cs draw c with
      | error => simp [hr, Except.toOption] at hroute
      | ok y =>
        cases (show y = (r', cs', e') by simpa [hr, Except.toOption] using hroute)
        obtain ⟨hservice, hchoose, -⟩ := route_eq_ok_iff.mp hr
        exact ⟨cs, draw, c, rfl, rfl, hservice, hchoose⟩
    · rintro ⟨_, _, _, ⟨⟩, rfl, hservice, hchoose⟩
      simp [leased, route_eq_ok_iff.mpr ⟨hservice, hchoose, rfl, rfl⟩, Except.toOption]

/-- All that an event can come to. -/
inductive Step (r : Router) : Event → Prop
  | changed (cs : Connections) (c : Change) : r.leased (.change cs c) = none →
      r.step (.change cs c) = (r.apply cs c).1 → Step r (.change cs c)
  | routed {cs : Connections} {draw : Nat} {c : Call} (s : String) (e : Endpoint) :
      r.leased (.route cs draw c) = some (s, e) → r.resolve c = s → e ∈ r.endpoints s →
      r.step (.route cs draw c) = { r with balancer := r.balancer.advance s } →
      Step r (.route cs draw c)
  | refused {cs : Connections} {draw : Nat} {c : Call} : r.leased (.route cs draw c) = none →
      r.step (.route cs draw c) = r → Step r (.route cs draw c)

theorem step_cases (r : Router) (x : Event) : r.Step x := by
  cases x with
  | change cs c => exact .changed cs c rfl rfl
  | route cs draw c =>
    cases hroute : r.route cs draw c with
    | error f =>
      exact .refused (by simp [leased, hroute, Except.toOption])
        (by simp [step, hroute, Except.toOption])
    | ok y =>
      obtain ⟨r', cs', e⟩ := y
      obtain ⟨-, hchoose, rfl, -⟩ := route_eq_ok_iff.mp hroute
      exact .routed (r.resolve c) e (by simp [leased, hroute, Except.toOption]) rfl
        (Balancer.mem_of_choose hchoose) (by simp [step, hroute, Except.toOption])

theorem mem_endpoints_of_leased (h : r.leased x = some (s, e)) : e ∈ r.endpoints s := by
  obtain ⟨cs, draw, c, -, -, -, hchoose⟩ := leased_eq_some_iff.mp h
  exact Balancer.mem_of_choose hchoose

/-- Only a service in the table is routed to. -/
theorem mem_services_of_leased (h : r.leased x = some (s, e)) : s ∈ r.services := by
  obtain ⟨es, hes, -⟩ := mem_table_of_mem_endpoints (mem_endpoints_of_leased h)
  exact List.mem_map_of_mem hes

/-! ## What every event preserves -/

@[simp] theorem rules_remove (r : Router) (service id : String) :
    (r.remove service id).1.rules = r.rules := by
  simp only [remove]
  split
  · rfl
  · split <;> rfl

/-- Holds of an event that does not write endpoints with the same id to one service. -/
def Event.Distinct : Event → Prop
  | .change _ c => c.Distinct
  | .route .. => True

theorem filled_step (h : r.table.Filled) (x : Event) : (r.step x).table.Filled := by
  cases r.step_cases x with
  | changed cs c _ hstep => exact hstep ▸ filled_apply h cs c
  | routed _ _ _ _ _ hstep => rwa [hstep]
  | refused _ hstep => rwa [hstep]

theorem filled_run (h : r.table.Filled) (xs : List Event) : (r.run xs).table.Filled := by
  induction xs generalizing r with
  | nil => exact h
  | cons x xs ih => exact ih (filled_step h x)

theorem distinct_step (h : r.table.Distinct) (hx : x.Distinct) : (r.step x).table.Distinct := by
  cases r.step_cases x with
  | changed cs c _ hstep => exact hstep ▸ distinct_apply h cs hx
  | routed _ _ _ _ _ hstep => rwa [hstep]
  | refused _ hstep => rwa [hstep]

theorem distinct_run (h : r.table.Distinct) (hxs : ∀ x ∈ xs, x.Distinct) :
    (r.run xs).table.Distinct := by
  induction xs generalizing r with
  | nil => exact h
  | cons x xs ih =>
    obtain ⟨hx, hxs⟩ := List.forall_mem_cons.mp hxs
    exact ih (distinct_step h hx) hxs

/-! ## Generations -/

/-- Holds of an event that writes the table. -/
def writes (r : Router) : Event → Bool
  | .change _ c => r.rewrites c
  | .route .. => false

/-- How often the table is written in a run. -/
def written (r : Router) (xs : List Event) : Nat := (r.moments xs).countP fun m ↦ m.1.writes m.2

theorem written_cons (r : Router) (x : Event) (xs : List Event) :
    r.written (x :: xs) = (r.step x).written xs + if r.writes x then 1 else 0 := List.countP_cons

theorem generation_step (r : Router) (x : Event) :
    (r.step x).generation = r.generation + (if r.writes x then 1 else 0) ∧
      (r.writes x = false → (r.step x).table = r.table) := by
  cases r.step_cases x with
  | changed cs c _ hstep => rw [hstep]; exact r.generation_apply cs c
  | routed _ _ _ _ _ hstep => rw [hstep]; exact ⟨rfl, fun _ ↦ rfl⟩
  | refused _ hstep => rw [hstep]; exact ⟨rfl, fun _ ↦ rfl⟩

theorem generation_run (r : Router) (xs : List Event) :
    (r.run xs).generation = r.generation + r.written xs := by
  induction xs generalizing r with
  | nil => rfl
  | cons x xs ih => rw [run_cons, ih, written_cons, (r.generation_step x).1]; omega

/-- A run in which the table is not written leaves it as it is. -/
theorem table_run_of_written (h : r.written xs = 0) : (r.run xs).table = r.table := by
  induction xs generalizing r with
  | nil => rfl
  | cons x xs ih =>
    rw [written_cons] at h
    rw [run_cons, ih (by omega)]
    exact (r.generation_step x).2 (by grind)

end Interchange.Router
