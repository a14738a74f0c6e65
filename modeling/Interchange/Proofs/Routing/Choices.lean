import Interchange.Proofs.Routing.Selection
import Mathlib.Data.List.Induction

/-!
# Balancers at work

A balancer is asked for endpoints, for any services and from any lists, and is told
to forget services; in between others open and close connections.  Each request for
an endpoint takes its course in place, with what it leaves behind, and is done before
the next event.

This file says what an event comes to (`step_select`, and of the others their
definition) and what a cursor shows: how often an endpoint of the service was asked
for since the service was last forgotten (`turn`, `cursor_run`).
-/

namespace Interchange

namespace Balancer

/-- A list from which a choice does not overflow. -/
structure Fits (es : List Endpoint) : Prop where
  length_lt : es.length < 2 ^ 32
  weight_lt : ∀ e ∈ es, e.weight < 2 ^ 32

/-- What happens to a balancer and to the connections. -/
inductive Event where
  | select (draw : Nat) (service : String) (es : List Endpoint)
  | forget (service : String)
  /-- Others open a connection. -/
  | acquire (e : Endpoint)
  /-- A connection is closed, whoever opened it. -/
  | release (e : Endpoint)

/-- What an event leaves behind. -/
def step (s : Balancer × Connections) : Event → Balancer × Connections
  | .select draw service es => ((s.1.selectInPlace s.2 draw service es).map Prod.fst).getD s
  | .forget service => (s.1.forget service, s.2)
  | .acquire e => (s.1, s.2.acquire e)
  | .release e => (s.1, s.2.release e)

/-- What a list of events leaves behind. -/
def run (s : Balancer × Connections) : List Event → Balancer × Connections
  | [] => s
  | x :: xs => run (step s x) xs

/-- The service and the endpoint that are brought together by an event, if any are. -/
def picked (s : Balancer × Connections) : Event → Option (String × Endpoint)
  | .select draw service es => do
    let (_, result) ← s.1.selectInPlace s.2 draw service es
    result.toOption.map fun e ↦ (service, e)
  | _ => none

/-- The events of a run, each with what it finds. -/
def moments (s : Balancer × Connections) : List Event → List ((Balancer × Connections) × Event)
  | [] => []
  | x :: xs => (s, x) :: moments (step s x) xs

/-- The choices of a run in their order. -/
def picks (s : Balancer × Connections) (xs : List Event) : List (String × Endpoint) :=
  (moments s xs).filterMap fun m ↦ picked m.1 m.2

/-- The choices of a run for one service. -/
def picksFor (service : String) (s : Balancer × Connections) (xs : List Event) : List Endpoint :=
  ((picks s xs).filter (·.1 = service)).map Prod.snd

namespace Event

/-- Holds of an event that chooses from no list that does not fit. -/
def Fits : Event → Prop
  | .select _ _ es => Balancer.Fits es
  | _ => True

/-- Holds of an event that asks for an endpoint of a service where there are any. -/
def asks (service : String) : Event → Bool
  | .select _ s es => s = service && !es.isEmpty
  | _ => false

/-- Holds of an event that forgets a service. -/
def forgets (service : String) : Event → Bool
  | .forget s => s = service
  | _ => false

end Event

/-- How often a run asks for an endpoint of a service since it last forgot the service. -/
def turn (service : String) (xs : List Event) : Nat :=
  (xs.reverse.takeWhile (!·.forgets service)).countP (·.asks service)

variable {s : Balancer × Connections} {x : Event} {xs ys : List Event} {service : String}
  {es : List Endpoint}

@[simp] theorem run_nil (s : Balancer × Connections) : run s [] = s := rfl

@[simp] theorem run_cons (s : Balancer × Connections) (x : Event) (xs : List Event) :
    run s (x :: xs) = run (step s x) xs := rfl

@[simp] theorem run_append (s : Balancer × Connections) (xs ys : List Event) :
    run s (xs ++ ys) = run (run s xs) ys := by
  induction xs generalizing s with
  | nil => rfl
  | cons x xs ih => exact ih _

theorem picks_cons (s : Balancer × Connections) (x : Event) (xs : List Event) :
    picks s (x :: xs) = (picked s x).toList ++ picks (step s x) xs := by
  rw [picks, moments, List.filterMap_cons]
  cases picked s x <;> rfl

/-! ## What an event comes to -/

/-- A choice that is made in place is the event's. -/
theorem step_of_selectInPlace {draw : Nat} {e : Endpoint} {after : Balancer × Connections}
    (h : s.1.selectInPlace s.2 draw service es = some (after, .ok e)) :
    picked s (.select draw service es) = some (service, e) ∧
      step s (.select draw service es) = after := by
  rw [picked, step, h]
  exact ⟨rfl, rfl⟩

/-- An endpoint is chosen wherever there are any. -/
theorem step_select (s : Balancer × Connections) (draw : Nat) (service : String) (hne : es ≠ [])
    (hfits : Fits es) :
    ∃ e ∈ es, s.1.choose s.2 draw service es = .ok e ∧
      s.1.selectInPlace s.2 draw service es = some ((s.1.advance service, s.2.acquire e), .ok e) ∧
      picked s (.select draw service es) = some (service, e) ∧
      step s (.select draw service es) = (s.1.advance service, s.2.acquire e) := by
  obtain ⟨e, he, hchoose, hselect⟩ :=
    s.1.selectInPlace_eq s.2 draw service hne hfits.length_lt hfits.weight_lt
  exact ⟨e, he, hchoose, hselect, step_of_selectInPlace hselect⟩

/-- What is chosen was asked for. -/
theorem asks_of_picked {service : String} {e : Endpoint} (h : picked s x = some (service, e)) :
    x.asks service = true := by
  cases x with
  | forget | acquire | release => cases h
  | select draw other es =>
    obtain ⟨⟨after, result⟩, hselect, h⟩ := Option.bind_eq_some_iff.mp h
    obtain ⟨e', hresult, h⟩ := Option.map_eq_some_iff.mp h
    cases h
    cases es with
    | nil =>
      cases hselect
      cases hresult
    | cons => simp [Event.asks]

/-- Whatever happens, the strategy stays, and so do the counters that there are. -/
theorem step_fixed (s : Balancer × Connections) (x : Event) :
    (step s x).1.strategy = s.1.strategy ∧ (step s x).2.counts.length = s.2.counts.length := by
  cases x with
  | forget service => exact ⟨rfl, rfl⟩
  | acquire e => exact ⟨rfl, s.2.length_set ..⟩
  | release e => exact ⟨rfl, s.2.length_set ..⟩
  | select draw service es =>
    rw [step]
    cases h : s.1.selectInPlace s.2 draw service es with
    | none => exact ⟨rfl, rfl⟩
    | some after =>
      refine ⟨?_, length_selectInPlace h⟩
      rcases (selectInPlace_cases h).1 with hb | hb
      · exact congrArg strategy hb
      · exact (congrArg strategy hb).trans (strategy_advance ..)

theorem run_fixed (s : Balancer × Connections) (xs : List Event) :
    (run s xs).1.strategy = s.1.strategy ∧ (run s xs).2.counts.length = s.2.counts.length := by
  induction xs generalizing s with
  | nil => exact ⟨rfl, rfl⟩
  | cons x xs ih =>
    obtain ⟨hstrategy, hlen⟩ := step_fixed s x
    exact ⟨(ih _).1.trans hstrategy, (ih _).2.trans hlen⟩

/-! ## Cursors -/

theorem turn_concat (service : String) (xs : List Event) (x : Event) :
    turn service (xs ++ [x]) =
      if x.forgets service then 0 else turn service xs + if x.asks service then 1 else 0 := by
  rw [turn, List.reverse_concat, List.takeWhile_cons]
  by_cases hx : x.forgets service = true
  · simp [hx]
  · simp only [hx, Bool.not_false, if_true, List.countP_cons, Bool.false_eq_true, if_false]
    rfl

/-- A choice that is asked for moves the cursor on, and to forget takes it back. -/
theorem cursor_step (hcounts : s.1.strategy.counts = true) (hx : x.Fits) (service : String) :
    (step s x).1.cursor service =
      if x.forgets service then 0 else s.1.cursor service + if x.asks service then 1 else 0 := by
  cases x with
  | acquire | release => exact (UInt64.add_zero _).symm
  | forget other =>
    change (s.1.forget other).cursor service = _
    by_cases h : other = service
    · simp [h, Event.forgets]
    · simp [h, Event.forgets, Event.asks, forget, cursor, Dictionary.get?_erase_of_ne (Ne.symm h)]
  | select draw other es =>
    cases es with
    | nil =>
      change s.1.cursor service = _
      simp [Event.forgets, Event.asks]
    | cons first rest =>
      obtain ⟨e, -, -, -, -, hstep⟩ := step_select s draw other (List.cons_ne_nil first rest) hx
      rw [hstep]
      by_cases h : other = service
      · simp [h, Event.forgets, Event.asks, cursor_advance hcounts]
      · simp [h, Event.forgets, Event.asks, cursor_advance_of_ne (Ne.symm h)]

/-- The cursor of a service shows its turn, in 64 bits. -/
theorem cursor_run (hcounts : s.1.strategy.counts = true) (hnew : s.1.cursors = [])
    (hxs : ∀ x ∈ xs, x.Fits) (service : String) :
    (run s xs).1.cursor service = UInt64.ofNat (turn service xs) := by
  induction xs using List.reverseRecOn with
  | nil => simp [cursor, hnew, turn]
  | append_singleton xs x ih =>
    have hxs' : ∀ y ∈ xs, y.Fits := fun y hy ↦ hxs y (List.mem_append_left _ hy)
    have hcounts' : (run s xs).1.strategy.counts = true := by rw [(run_fixed s xs).1, hcounts]
    rw [run_append, run_cons, run_nil, cursor_step hcounts' (hxs x (by simp)), turn_concat, ih hxs']
    split
    · rfl
    · split
      · rw [UInt64.ofNat_add]
        rfl
      · exact UInt64.add_zero _

end Balancer

end Interchange
