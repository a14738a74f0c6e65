import Interchange.Gateway.Handlers
import Interchange.Proofs.Attempt.Omission
import Interchange.Proofs.Gateway.Answers
import Interchange.Proofs.Gateway.Chronicle

/-!
# Whoever is turned away leaves no trace

A message may be refused by an adapter, or become a call for which there is no way:
the service to which it goes has no name, or no endpoint at that moment
(`Router.Unroutable`).  Such messages may come to a gateway at any time and in any
number.  Without them everything else is what it was: the router with its cursors,
the connections, the breakers, the callers that are left with their answers, and all
that the chronicle tells, which does not tell of them
(`Gateway.refused_unnoticed`).

Callers are known by the order in which they come, so whoever comes after one that
is left out has another number without it.  `Gaps` says who is left out, and
`Gaps.place` is the new number.
-/

namespace Interchange

variable {β : Type}

/-! ## Calls for which there is no way -/

/-- The service to which a call goes has no name, or no endpoints. -/
def Router.Unroutable (r : Router) (c : Call) : Prop :=
  r.resolve c = "" ∨ r.endpoints (r.resolve c) = []

namespace Router

variable {r : Router} {c : Call}

theorem unroutable_of_notMem (h : r.resolve c ∉ r.services) : r.Unroutable c := by
  right
  rw [endpoints, Dictionary.get?_eq_none_iff.mpr h]
  rfl

theorem route_of_unroutable (h : r.Unroutable c) (cs : Connections) (draw : Nat) :
    ∃ f, r.route cs draw c = .error f := by
  unfold route
  dsimp only
  rcases h with hname | hes
  · rw [if_pos (by rw [hname]; rfl)]
    exact ⟨_, rfl⟩
  · split
    · exact ⟨_, rfl⟩
    · rw [hes]
      exact ⟨_, rfl⟩

/-- Whether there is a way does not depend on the balancer. -/
theorem unroutable_of_route {r' : Router} {cs cs' : Connections} {draw : Nat} {c' : Call}
    {e : Endpoint} (h : r.Unroutable c) (hroute : r.route cs draw c' = .ok (r', cs', e)) :
    r'.Unroutable c := by
  obtain ⟨-, -, balancer, rfl⟩ := eq_of_route hroute
  exact h

end Router

namespace Errand

variable {settings : Settings} {backend : Backend β} {x y : Errand}

/-- A call that is over, or for which there is no way. -/
def Idle (r : Router) : Errand → Prop
  | .coming a => r.Unroutable a.call
  | .underway .. => False
  | .ended .. => True

/-- What an idle call does changes nothing but itself. -/
theorem Idle.act {s : Traffic × β} (h : x.Idle s.1.router) (hdue : x.due.isSome) :
    (x.act settings backend s).2 = s ∧ (x.act settings backend s).1.Idle s.1.router := by
  cases x with
  | underway => cases h
  | ended => cases hdue
  | coming a =>
    obtain ⟨f, hf⟩ := Router.route_of_unroutable h s.1.connections a.draws.endpoint
    simp only [Errand.act, depart, hf]
    exact ⟨trivial, trivial⟩

theorem Idle.of_unroutable {r r' : Router} (h : x.Idle r)
    (hr : ∀ c, r.Unroutable c → r'.Unroutable c) : x.Idle r' := by
  cases x with
  | coming a => exact hr a.call h
  | underway => cases h
  | ended => trivial

/-- The step of another call makes no way. -/
theorem Resumes.unroutable {now : Span} {revoked : Bool} {effort : Effort Reply} {k : Nat}
    {s s' : Traffic} {ns : List Note} (h : Resumes settings now revoked effort k x s y s' ns)
    {c : Call} (hc : s.router.Unroutable c) : s'.router.Unroutable c := by
  cases h with
  | refused | continued | concluded | still => exact hc
  | withdrawn _ hroute | departed _ hroute => exact Router.unroutable_of_route hc hroute

/-- No more does its act. -/
theorem unroutable_act {s : Traffic × β} (hdue : y.due.isSome) {c : Call}
    (hc : s.1.router.Unroutable c) : (y.act settings backend s).2.1.router.Unroutable c := by
  obtain ⟨d, hd⟩ := Option.isSome_iff_exists.mp hdue
  obtain ⟨revoked, effort, -, -, htraffic⟩ :=
    exists_resume settings backend y.planless_planless (live_planless hdue) hd s
  rw [← htraffic]
  exact (resumes settings d revoked effort 0 y.planless s.1).unroutable hc

end Errand

/-! ## Messages that are handled together -/

namespace Gateway

/-- If a message becomes a call at all, there is no way for it. -/
def Refuses (g : Gateway) (r : Router) (i : Incoming) : Prop :=
  ∀ c, g.accept i.fresh i.message = .ok c → r.Unroutable c

theorem slot?_errand (i : Incoming) (accepted : Except Failure Call) :
    (errand i accepted).slot? = none := by
  cases accepted <;> rfl

theorem Refuses.idle {g : Gateway} {r : Router} {i : Incoming} (h : g.Refuses r i) :
    (errand i (g.accept i.fresh i.message)).Idle r := by
  cases haccept : g.accept i.fresh i.message with
  | error f => trivial
  | ok c => exact h c haccept

/-- Messages that are refused make no difference to the others, nor to the gateway and the services. -/
theorem handleAll_close (g : Gateway) (backend : Backend β) {G : Gaps} {messages : List Incoming}
    {s : Traffic × β}
    (h : ∀ k i, G k = true → messages[k]? = some i → g.Refuses s.1.router i) :
    g.handleAll backend (G.close messages) s =
      (G.close (g.handleAll backend messages s).1, (g.handleAll backend messages s).2) := by
  have hclose : (Errand.process g.settings backend).run (g.errands (G.close messages)) s =
      (G.close ((Errand.process g.settings backend).run (g.errands messages) s).1,
        ((Errand.process g.settings backend).run (g.errands messages) s).2) := by
    rw [errands, ← Gaps.close_map]
    refine Process.run_close (I := fun s x ↦ x.Idle s.1.router) ?_ ?_ ?_
    · intro s x hx hdue
      exact hx.act hdue
    · intro s x y hx hdue
      exact hx.of_unroutable fun c hc ↦ Errand.unroutable_act hdue hc
    · intro k x hk hx
      rw [List.getElem?_map, Option.map_eq_some_iff] at hx
      obtain ⟨i, hi, rfl⟩ := hx
      exact (h k i hk hi).idle
  have hended := g.isSome_result_of_mem_run backend messages s
  have hendings : g.endings backend (G.close messages) s = G.close (g.endings backend messages s) := by
    rw [endings, hclose, endings, Gaps.close_filterMap hended]
  rw [handleAll_eq, handleAll_eq, hendings, hclose, Gaps.close_zipWith]

end Gateway

/-! ## Messages that come to a gateway at work -/

/-- A note whose author has another number. -/
def Note.renumber (f : Nat → Nat) : Note → Note
  | .assigned author e id => .assigned (author.map f) e id
  | .did e id x => .did e id { x with author := x.author.map f }

namespace Concourse

/-- What happens at a gateway to which messages come. -/
inductive Occasion where
  | message (i : Incoming)
  | event (z : Event)

namespace Occasion

/-- The caller who has an occasion, where so many have come before. -/
def caller? (n : Nat) : Occasion → Option Nat
  | .message _ | .event (.come _) => some n
  | .event (.resume k ..) => some k
  | .event (.pass _) | .event (.change _) | .event (.create ..) | .event (.seed ..)
  | .event (.acquire _) | .event (.release _) | .event (.route ..) | .event .look
  | .event (.ask _) => none

/-- How many callers come. -/
def arrivals : Occasion → Nat
  | .message _ | .event (.come _) => 1
  | .event _ => 0

/-- The occasion of a caller who has another number. -/
def renumber (f : Nat → Nat) : Occasion → Occasion
  | .event (.resume k revoked effort) => .event (.resume (f k) revoked effort)
  | o => o

/-- A caller to be left out, if its call is still to be routed, finds no way for it. -/
def Vain (G : Gaps) (w : Concourse) : Occasion → Prop
  | .event (.resume k ..) =>
    G k = true → ∀ a, w.errands[k]? = some (.coming a) → w.router.Unroutable a.call
  | _ => True

end Occasion

/-- What an occasion makes of a concourse. -/
def meet (g : Gateway) (w : Concourse) : Occasion → Concourse
  | .message i => w.receive g i
  | .event z => w.step g.settings z

/-- What is to be told of an occasion. -/
def tell (g : Gateway) (w : Concourse) : Occasion → List Note
  | .message _ => []
  | .event z => w.notes g.settings z

/-- What several occasions make of a concourse. -/
def meetAll (g : Gateway) (w : Concourse) : List Occasion → Concourse
  | [] => w
  | o :: os => (w.meet g o).meetAll g os

/-- What is to be told of several occasions. -/
def tellAll (g : Gateway) (w : Concourse) : List Occasion → List Note
  | [] => []
  | o :: os => w.tell g o ++ (w.meet g o).tellAll g os

/-- All callers to be left out, who come on these occasions, are turned away. -/
def TurnsAway (g : Gateway) (G : Gaps) (w : Concourse) : List Occasion → Prop
  | [] => True
  | o :: os => o.Vain G w ∧ (w.meet g o).TurnsAway g G os

end Concourse

/-- What happens if some callers do not come, where so many have come before. -/
def Gaps.closeAll (G : Gaps) (n : Nat) : List Concourse.Occasion → List Concourse.Occasion
  | [] => []
  | o :: os =>
    if (o.caller? n).any G then G.closeAll (n + o.arrivals) os
    else o.renumber G.place :: G.closeAll (n + o.arrivals) os

namespace Errand

variable {settings : Settings} {now : Span} {revoked : Bool} {effort : Effort Reply} {k : Nat}

/-- A call tells the same under another number. -/
theorem notes_renumber (f : Nat → Nat) (x : Errand) (s : Traffic) :
    x.notes settings now revoked effort (f k) s =
      (x.notes settings now revoked effort k s).map (Note.renumber f) := by
  cases x with
  | ended => rfl
  | coming a =>
    simp only [notes]
    split <;> rfl
  | underway call e id i =>
    simp only [notes, List.map_map]
    rfl

end Errand

namespace Concourse

variable {settings : Settings} {g : Gateway} {G : Gaps} {w : Concourse}

/-- A concourse without some of its callers. -/
def sparing (G : Gaps) (w : Concourse) : Concourse := { w with errands := G.close w.errands }

/-- Some callers have got nothing. -/
def Barred (G : Gaps) (w : Concourse) : Prop :=
  ∀ k x, G k = true → w.errands[k]? = some x → x.slot? = none

/-! ### One occasion -/

/-- A caller comes. -/
theorem sparing_concat (G : Gaps) (w : Concourse) (x : Errand) :
    ({ w with errands := w.errands ++ [x] } : Concourse).sparing G =
      if G w.errands.length then w.sparing G
      else { w.sparing G with errands := (w.sparing G).errands ++ [x] } := by
  simp only [sparing, Gaps.close_concat]
  split <;> rfl

theorem Barred.concat (h : w.Barred G) {x : Errand} (hx : x.slot? = none) :
    ({ w with errands := w.errands ++ [x] } : Concourse).Barred G := by
  intro k y hk hy
  change (w.errands ++ [x])[k]? = some y at hy
  by_cases hlt : k < w.errands.length
  · rw [List.getElem?_append_left hlt] at hy
    exact h k y hk hy
  · rw [List.getElem?_append_right (Nat.le_of_not_lt hlt)] at hy
    rwa [← List.mem_singleton.mp (List.mem_of_getElem? hy)] at hx

theorem Barred.set (h : w.Barred G) {k : Nat} {y : Errand} (hy : G k = true → y.slot? = none)
    (s : Traffic) :
    ({ w with toTraffic := s, errands := w.errands.set k y } : Concourse).Barred G := by
  intro j x hj hx
  change (w.errands.set k y)[j]? = some x at hx
  by_cases hne : k = j
  · subst hne
    rw [List.getElem?_set, if_pos rfl] at hx
    split at hx
    · cases hx
      exact hy hj
    · cases hx
  · rw [List.getElem?_set_ne hne] at hx
    exact h j x hj hx

/-- Where no caller is concerned, none makes a difference. -/
theorem sparing_step_of_others (settings : Settings) (G : Gaps) (w : Concourse) {z : Event}
    (hz : (Occasion.event z).caller? 0 = none) :
    (w.step settings z).sparing G = (w.sparing G).step settings z ∧
      (w.step settings z).errands = w.errands ∧
      (w.sparing G).notes settings z = (w.notes settings z).map (Note.renumber G.place) := by
  cases z with
  | come | resume => cases hz
  | pass | change | create | seed | acquire | ask => exact ⟨rfl, rfl, rfl⟩
  | release k => cases hk : w.held[k]? <;> simp [step, sparing, notes, hk]
  | route draw c =>
    cases hroute : w.router.route w.connections draw c <;> simp [step, sparing, notes, hroute]
  | look =>
    refine ⟨rfl, rfl, ?_⟩
    simp only [notes, sparing, List.map_map]
    rfl

theorem step_resume_eq {k : Nat} {x : Errand} (h : w.errands[k]? = some x) (settings : Settings)
    (revoked : Bool) (effort : Effort Reply) :
    w.step settings (.resume k revoked effort) =
      { w with
        toTraffic := (x.resume settings w.now revoked effort w.toTraffic).2
        errands := w.errands.set k (x.resume settings w.now revoked effort w.toTraffic).1 } := by
  simp only [step, h]

theorem step_resume_none {k : Nat} (h : w.errands[k]? = none) (settings : Settings) (revoked : Bool)
    (effort : Effort Reply) : w.step settings (.resume k revoked effort) = w := by
  simp only [step, h]

/-- A caller to be left out goes on, and is turned away. -/
theorem sparing_resume_of_gap {k : Nat} {revoked : Bool} {effort : Effort Reply} (hk : G k = true)
    (h : w.Barred G) (hvain : (Occasion.event (.resume k revoked effort)).Vain G w) :
    (w.step settings (.resume k revoked effort)).sparing G = w.sparing G ∧
      (w.step settings (.resume k revoked effort)).Barred G ∧
      w.notes settings (.resume k revoked effort) = [] := by
  cases hx : w.errands[k]? with
  | none => exact ⟨by rw [step_resume_none hx], by rwa [step_resume_none hx], by simp only [notes, hx]⟩
  | some x =>
    have hslot := h k x hk hx
    obtain ⟨y, s, ns, hresumes, hstep, hnotes⟩ := step_resume hx settings revoked effort
    have hidle : s = w.toTraffic ∧ y.slot? = none ∧ ns = [] := by
      cases hresumes with
      | refused | still => exact ⟨rfl, rfl, rfl⟩
      | continued | concluded => cases hslot
      | @withdrawn a _ _ _ _ _ hroute | @departed a _ _ _ _ _ hroute =>
        obtain ⟨f, hf⟩ := Router.route_of_unroutable (hvain hk a hx) w.connections a.draws.endpoint
        cases hf.symm.trans hroute
    obtain ⟨rfl, hy, rfl⟩ := hidle
    rw [hstep]
    refine ⟨?_, h.set (fun _ ↦ hy) _, hnotes⟩
    simp only [sparing, Gaps.close_set_of_gap hk]

/-- Any other caller goes on. -/
theorem sparing_resume {k : Nat} {revoked : Bool} {effort : Effort Reply} (hk : G k = false)
    (h : w.Barred G) :
    (w.step settings (.resume k revoked effort)).sparing G =
        (w.sparing G).step settings (.resume (G.place k) revoked effort) ∧
      (w.step settings (.resume k revoked effort)).Barred G ∧
      (w.sparing G).notes settings (.resume (G.place k) revoked effort) =
        (w.notes settings (.resume k revoked effort)).map (Note.renumber G.place) := by
  have hplace : (w.sparing G).errands[G.place k]? = w.errands[k]? := Gaps.getElem?_close hk
  cases hx : w.errands[k]? with
  | none =>
    rw [hx] at hplace
    rw [step_resume_none hx, step_resume_none hplace]
    exact ⟨rfl, h, by simp only [notes, hx, hplace, List.map_nil]⟩
  | some x =>
    rw [hx] at hplace
    rw [step_resume_eq hx, step_resume_eq hplace]
    refine ⟨?_, h.set (fun hk' ↦ ?_) _, ?_⟩
    · simp only [sparing, Gaps.close_set hk]
    · rw [hk] at hk'
      cases hk'
    · simp only [notes, hplace, hx]
      exact x.notes_renumber G.place w.toTraffic

/-- The occasion of a caller to be left out. -/
theorem sparing_meet_of_gap {o : Occasion} (ho : (o.caller? w.errands.length).any G = true)
    (h : w.Barred G) (hvain : o.Vain G w) :
    (w.meet g o).sparing G = w.sparing G ∧ (w.meet g o).Barred G ∧ w.tell g o = [] := by
  have harrives {x : Errand} (hx : x.slot? = none) (hG : G w.errands.length = true) :
      ({ w with errands := w.errands ++ [x] } : Concourse).sparing G = w.sparing G ∧
        ({ w with errands := w.errands ++ [x] } : Concourse).Barred G :=
    ⟨by rw [sparing_concat, if_pos hG], h.concat hx⟩
  cases o with
  | message i =>
    obtain ⟨hsparing, hbarred⟩ := harrives (Gateway.slot?_errand i _) ho
    exact ⟨hsparing, hbarred, rfl⟩
  | event z =>
    cases z with
    | come a =>
      obtain ⟨hsparing, hbarred⟩ := harrives (x := .coming a) rfl ho
      exact ⟨hsparing, hbarred, rfl⟩
    | resume k => exact sparing_resume_of_gap ho h hvain
    | pass | change | create | seed | acquire | release | route | look | ask => cases ho

/-- Any other occasion. -/
theorem sparing_meet {o : Occasion} (ho : (o.caller? w.errands.length).any G = false)
    (h : w.Barred G) :
    (w.meet g o).sparing G = (w.sparing G).meet g (o.renumber G.place) ∧ (w.meet g o).Barred G ∧
      (w.sparing G).tell g (o.renumber G.place) = (w.tell g o).map (Note.renumber G.place) := by
  have harrives {x : Errand} (hx : x.slot? = none) (hG : G w.errands.length = false) :
      ({ w with errands := w.errands ++ [x] } : Concourse).sparing G =
          { w.sparing G with errands := (w.sparing G).errands ++ [x] } ∧
        ({ w with errands := w.errands ++ [x] } : Concourse).Barred G :=
    ⟨by rw [sparing_concat, if_neg (by simp [hG])], h.concat hx⟩
  have hothers {z : Event} (hz : (Occasion.event z).caller? 0 = none) :
      (w.meet g (.event z)).sparing G = (w.sparing G).step g.settings z ∧
        (w.meet g (.event z)).Barred G ∧
        (w.sparing G).notes g.settings z = (w.notes g.settings z).map (Note.renumber G.place) := by
    obtain ⟨hsparing, herrands, hnotes⟩ := sparing_step_of_others g.settings G w hz
    refine ⟨hsparing, ?_, hnotes⟩
    intro k x hk hx
    rw [meet, herrands] at hx
    exact h k x hk hx
  cases o with
  | message i =>
    obtain ⟨hsparing, hbarred⟩ := harrives (Gateway.slot?_errand i _) ho
    exact ⟨hsparing, hbarred, rfl⟩
  | event z =>
    cases z with
    | come a =>
      obtain ⟨hsparing, hbarred⟩ := harrives (x := .coming a) rfl ho
      exact ⟨hsparing, hbarred, rfl⟩
    | resume k => exact sparing_resume ho h
    | pass | change | create | seed | acquire | release | route | look | ask => exact hothers rfl

theorem length_meet (g : Gateway) (w : Concourse) (o : Occasion) :
    (w.meet g o).errands.length = w.errands.length + o.arrivals := by
  cases o with
  | message i => simp [meet, receive, Occasion.arrivals]
  | event z =>
    cases z with
    | come a => simp [meet, step, Occasion.arrivals]
    | resume k revoked effort =>
      cases hk : w.errands[k]? with
      | none => rw [meet, step_resume_none hk]; rfl
      | some x => rw [meet, step_resume_eq hk]; simp [Occasion.arrivals]
    | pass | change | create | seed | acquire | look | ask => rfl
    | release k => cases hk : w.held[k]? <;> simp [meet, step, hk, Occasion.arrivals]
    | route draw c =>
      cases hroute : w.router.route w.connections draw c <;>
        simp [meet, step, hroute, Occasion.arrivals]

/-- Who is told of has the occasion. -/
theorem author_of_mem_tell {o : Occasion} {n : Note} (hn : n ∈ w.tell g o) {k : Nat}
    (hk : n.author? = some k) (m : Nat) : o.caller? m = some k := by
  cases o with
  | message i => cases hn
  | event z =>
    obtain ⟨revoked, effort, rfl⟩ := author?_of_mem_notes hn hk
    rfl

/-! ### Many occasions -/

/-- If callers who are turned away do not come, all the others do and get the same. -/
theorem sparing_meetAll {os : List Occasion} (h : w.Barred G) (hos : w.TurnsAway g G os) :
    (w.meetAll g os).sparing G = (w.sparing G).meetAll g (G.closeAll w.errands.length os) ∧
      (w.sparing G).tellAll g (G.closeAll w.errands.length os) =
        (w.tellAll g os).map (Note.renumber G.place) ∧
      ∀ n ∈ w.tellAll g os, ∀ k, n.author? = some k → G k = false := by
  induction os generalizing w with
  | nil => exact ⟨rfl, rfl, List.forall_mem_nil _⟩
  | cons o os ih =>
    obtain ⟨hvain, hrest⟩ := hos
    rw [meetAll, tellAll, Gaps.closeAll, ← length_meet g w o]
    cases ho : (o.caller? w.errands.length).any G with
    | true =>
      obtain ⟨hsparing, hbarred, htell⟩ := sparing_meet_of_gap (g := g) ho h hvain
      rw [if_pos rfl, htell, List.nil_append, ← hsparing]
      exact ih hbarred hrest
    | false =>
      obtain ⟨hsparing, hbarred, htell⟩ := sparing_meet (g := g) ho h
      obtain ⟨hmeet, htells, hauthors⟩ := ih hbarred hrest
      rw [if_neg Bool.false_ne_true, meetAll, tellAll, ← hsparing, htell, htells, List.map_append]
      refine ⟨hmeet, rfl, fun n hn k hk ↦ ?_⟩
      rcases List.mem_append.mp hn with hn | hn
      · rw [author_of_mem_tell hn hk] at ho
        exact ho
      · exact hauthors n hn k hk

end Concourse

namespace Gateway

/-- Messages that are refused, or for whose calls there is no way, leave no trace: if messages are handled
together, and if they come to a gateway at work, whatever else goes on there. -/
theorem refused_unnoticed (g : Gateway) (G : Gaps) :
    (∀ {β : Type} (backend : Backend β) (messages : List Incoming) (s : Traffic × β),
      (∀ k i, G k = true → messages[k]? = some i → g.Refuses s.1.router i) →
        g.handleAll backend (G.close messages) s =
          (G.close (g.handleAll backend messages s).1, (g.handleAll backend messages s).2)) ∧
    ∀ (w : Concourse) (os : List Concourse.Occasion), (∀ k < w.errands.length, G k = false) →
      w.TurnsAway g G os →
        let all := w.meetAll g os
        let rest := w.meetAll g (G.closeAll w.errands.length os)
        rest = { all with errands := G.close all.errands } ∧
          (∀ k i, G k = false → rest.answer? g i (G.place k) = all.answer? g i k) ∧
          w.tellAll g (G.closeAll w.errands.length os) =
            (w.tellAll g os).map (Note.renumber G.place) ∧
          ∀ n ∈ w.tellAll g os, ∀ k, n.author? = some k → G k = false := by
  constructor
  · intro β backend messages s h
    exact g.handleAll_close backend h
  · intro w os hnone hos all rest
    have hsparing : w.sparing G = w := by
      rw [Concourse.sparing, Gaps.close_eq_self hnone]
    have hbarred : w.Barred G := by
      intro k x hk hx
      rw [hnone k (List.getElem?_eq_some_iff.mp hx).1] at hk
      cases hk
    obtain ⟨hmeet, htell, hauthors⟩ := Concourse.sparing_meetAll hbarred hos
    rw [hsparing] at hmeet htell
    refine ⟨hmeet.symm, fun k i hk ↦ ?_, htell, hauthors⟩
    have hrest : rest.errands = G.close all.errands := congrArg Concourse.errands hmeet.symm
    rw [Concourse.answer?, hrest, Gaps.getElem?_close hk, Concourse.answer?]

/-- A message goes to a service that is served.  Before it comes one for a service of which nothing is
known, and after it one that names no service. -/
theorem refused_unnoticed_lost :
    let g : Gateway := {}
    let incoming (service : Option String) : Incoming :=
      { moment := 0, message := { protocol := .mqtt, body := [], service, method := some "b" }
        fresh := ⟨"t", by decide⟩ }
    let served := incoming (some "a")
    let messages := [incoming (some "z"), served, incoming none]
    let G : Gaps := fun k ↦ k != 1
    let handlers : Handlers := [(("a", "b"), .immediate fun _ ↦ .ok [0])]
    let e : Endpoint := { service := "a", id := "1", address := "", port := 0, counter := 0 }
    let s : Traffic × Unit := ({ router := { table := [("a", [e])] }, connections := ⟨[0]⟩ }, ())
    let resume (k : Nat) : Concourse.Occasion := .event (.resume k false { outcome := .ok (.ofPayload [0]) })
    let os : List Concourse.Occasion :=
      messages.map .message ++ [resume 1, resume 0, resume 1, resume 2, resume 1]
    let w : Concourse := { toTraffic := s.1 }
    (∀ k i, G k = true → messages[k]? = some i → g.Refuses s.1.router i) ∧ w.TurnsAway g G os ∧
      g.handleAll handlers.backend [served] s =
        (G.close (g.handleAll handlers.backend messages s).1, (g.handleAll handlers.backend messages s).2) ∧
      ((w.meetAll g os).answer? g served 1).isSome = true ∧
      (w.meetAll g (.message served :: List.replicate 3 (resume 0))).answer? g served 0 =
        (w.meetAll g os).answer? g served 1 := by
  intro g incoming served messages G handlers e s resume os w
  let c : Call :=
    { service := "z", method := "b", payload := [], traceId := ⟨"t", by decide⟩
      timeout := some (Span.ofMillis 30000), source := some .mqtt
      metadata := [("framing", .string "text")] }
  have hlost : g.accept ⟨"t", by decide⟩ (incoming (some "z")).message = .ok c := by decide +kernel
  have hrefuses : ∀ k i, G k = true → messages[k]? = some i → g.Refuses s.1.router i := by
    intro k i hk hi c' hc'
    match k with
    | 0 =>
      cases hi
      cases hlost.symm.trans hc'
      exact Router.unroutable_of_notMem (by decide)
    | 1 => cases hk
    | 2 =>
      cases hi
      have hrefused : (g.accept ⟨"t", by decide⟩ (incoming none).message).isOk = false := by decide +kernel
      cases hrefused.symm.trans (congrArg Except.isOk hc')
    | k + 3 => cases hi
  have haway : w.TurnsAway g G os := by
    let call? : Errand → Option Call
      | .coming a => some a.call
      | .underway .. | .ended .. => none
    have hcoming : ((w.meetAll g (os.take 4)).errands[0]?.bind call?) = some c := by decide +kernel
    have hended : ((w.meetAll g (os.take 6)).errands[2]?.bind call?) = none := by decide +kernel
    refine ⟨trivial, trivial, trivial, nofun, fun _ a ha ↦ ?_, nofun, fun _ a ha ↦ ?_, nofun, trivial⟩
    · have ha : (w.meetAll g (os.take 4)).errands[0]? = some (.coming a) := ha
      rw [ha] at hcoming
      have hcall : a.call = c := Option.some.inj hcoming
      rw [hcall]
      exact Router.unroutable_of_notMem (by decide +kernel)
    · have ha : (w.meetAll g (os.take 6)).errands[2]? = some (.coming a) := ha
      rw [ha] at hended
      cases hended
  obtain ⟨hhandled, hcame⟩ := refused_unnoticed g G
  have hanswered : ((w.meetAll g os).answer? g served 1).isSome = true := by decide +kernel
  obtain ⟨-, hanswers, -⟩ := hcame w os (fun k hk ↦ absurd hk (Nat.not_lt_zero k)) haway
  exact ⟨hrefuses, haway, hhandled handlers.backend messages s hrefuses, hanswered, hanswers 1 served rfl⟩

end Gateway

end Interchange
