import Interchange.Attempt.Script
import Interchange.Proofs.Attempt.History

/-!
# Invocations that share a breaker

A crowd is any number of invocations behind one breaker, together with anybody
else who has a hand on that breaker, on one clock.  It moves by events, in any
order whatever: time passes, somebody acts on the breaker directly, an
invocation begins, its caller cancels it, it is resumed.  What an attempt comes
to and how long it takes is decided by the event that resumes its invocation, so
a run ranges over all operations, adaptive ones included.

Two things make a run as free as a scheduler can be.  An invocation may be
resumed late: the moment that it waits for is only the earliest one.  And a
cancellation is an event of its own, which may fall between any two others of
the same moment.  What an invocation does when it is resumed is one step, since
it never waits in between.  Performances that are scheduled to run together
follow one of these runs (`Performance.run_of_runAll`).

The *log* of a run lists what was done to the breaker and which attempts were
begun, by whom and when.  It is read off the run and not consulted by it; that
it leaves nothing out and invents nothing is `breaker_run`, `faithful_log` and
`callsOf_run`.
-/

namespace Interchange

variable {α : Type}

/-- A breaker on its own, where whatever attempt begins takes this effort. -/
def Site.lone (e : Effort α) : Site Breaker α where
  breaker b := b
  setBreaker _ b := b
  attempt b _ _ := (b, e)

/-! ## Deeds -/

/-- What one party does, with the answer it gets. -/
inductive Deed (α : Type) where
  /-- Admission is asked for. -/
  | enter (answer : Except Failure Unit)
  /-- An attempt begins, which will come to this outcome. -/
  | call (attempt : Nat) (outcome : Except Failure α)
  /-- An outcome is recorded. -/
  | record (success : Bool)
  /-- The state is looked at. -/
  | look (seen : Circuit)
  | reset

namespace Deed

/-- What a deed does to the breaker. Beginning an attempt does nothing to it. -/
def operation? : Deed α → Option Operation
  | .enter _ => some .enter
  | .call .. => none
  | .record success => some (.record success)
  | .look _ => some .look
  | .reset => some .reset

/-- The number of the attempt that begins. -/
def attempt? : Deed α → Option Nat
  | .call n _ => some n
  | .enter _ | .record _ | .look _ | .reset => none

/-- What an operation is to the party that performs it at a moment. -/
def direct (b : Breaker) (now : Span) : Operation → Deed α
  | .enter => .enter (b.enter now).2
  | .record success => .record success
  | .look => .look (b.refresh now).circuit
  | .reset => .reset

@[simp] theorem operation?_direct (b : Breaker) (now : Span) (o : Operation) :
    (direct b now o : Deed α).operation? = some o := by
  cases o <;> rfl

end Deed

/-- A deed with its moment, and the invocation whose deed it is, if it is one's. -/
structure Entry (α : Type) where
  moment : Span
  author : Option Nat
  deed : Deed α

/-- The attempt that an entry begins, if it is this member's. -/
def Entry.callOf? (k : Nat) (x : Entry α) : Option (Nat × Span) :=
  if x.author = some k then x.deed.attempt?.map (·, x.moment) else none

/-- What the entries of a log do to the breaker. -/
def history (l : List (Entry α)) : History :=
  l.filterMap fun x ↦ x.deed.operation?.map (x.moment, ·)

@[simp] theorem history_append (l l' : List (Entry α)) :
    history (l ++ l') = history l ++ history l' := List.filterMap_append

/-- What an entry says is true of the breaker that it meets. An attempt begins directly after its own
admission, and an invocation looks at the breaker directly after it has recorded a failure. -/
def Entry.Fits (b : Breaker) (before : Option (Entry α)) (x : Entry α) : Prop :=
  match x.deed with
  | .enter answer => answer = (b.enter x.moment).2
  | .look seen =>
    seen = (b.refresh x.moment).circuit ∧
      (x.author ≠ none → before = some { x with deed := .record false })
  | .call .. => before = some { x with deed := .enter (.ok ()) }
  | .record _ | .reset => True

/-- Every entry of a log fits where it stands. -/
def Faithful (b : Breaker) (before : Option (Entry α)) : List (Entry α) → Prop
  | [] => True
  | x :: l => x.Fits b before ∧ Faithful (b.replay (history [x])) (some x) l

namespace Faithful

variable {b : Breaker} {before : Option (Entry α)} {l l' : List (Entry α)}

theorem append (h : Faithful b before l)
    (h' : ∀ before, Faithful (b.replay (history l)) before l') : Faithful b before (l ++ l') := by
  induction l generalizing b before with
  | nil => exact h' before
  | cons x l ih =>
    refine ⟨h.1, ih h.2 fun before ↦ ?_⟩
    rw [← Breaker.replay_append, ← history_append]
    exact h' before

theorem fits {x : Entry α} (h : Faithful b before (l ++ x :: l')) :
    x.Fits (b.replay (history l)) (l.getLast?.or before) := by
  induction l generalizing b before with
  | nil => exact h.1
  | cons y l ih =>
    have := ih h.2
    rw [← Breaker.replay_append, ← history_append] at this
    cases l with
    | nil => exact this
    | cons z l => rwa [List.getLast?_cons_cons]

end Faithful

/-! ## One invocation -/

namespace Invocation

/-- Something is to come until there is a result. -/
theorem isSome_next {i : Invocation α} : i.next.isSome ↔ i.result? = none := by
  cases hs : i.stage <;> simp [next, result?, hs]

/-- Whether the caller has cancelled by now. -/
def revoked (now : Span) (i : Invocation α) : Bool := i.cancelAt.any (· ≤ now)

/-- Whether what the invocation waits for is there. -/
def ready (now : Span) (i : Invocation α) : Bool := i.next.any (· ≤ now)

/-- Cancel the invocation, unless it has ended. It learns of it when it is resumed. -/
def revoke (now : Span) (i : Invocation α) : Invocation α :=
  if i.next.isSome then { i with cancelAt := some now } else i

/-- What has ended is beyond the reach of its caller. -/
theorem revoke_of_result {i : Invocation α} (h : i.result? ≠ none) (now : Span) :
    i.revoke now = i := if_neg (by rwa [isSome_next])

theorem result?_abandon {i : Invocation α} (h : i.result? = none) (now : Span) :
    (i.abandon now).result? = some (now, .error cancelled) := by
  cases hs : i.stage <;> simp [abandon, result?, hs] at h ⊢

/-- A cancellation is not taken back. -/
theorem revoked_mono {i : Invocation α} {now now' : Span} (h : i.revoked now = true)
    (hle : now ≤ now') : i.revoked now' = true := by
  rw [revoked, Option.any_eq_true] at h ⊢
  obtain ⟨c, hc, hlt⟩ := h
  exact ⟨c, hc, decide_eq_true (Nat.le_trans (of_decide_eq_true hlt) hle)⟩

theorem revoked_revoke {i : Invocation α} (h : i.result? = none) (now : Span) :
    (i.revoke now).revoked now = true := by
  rw [revoke, if_pos (isSome_next.mpr h)]
  exact decide_eq_true (Nat.le_refl _)

/-- Resume the invocation. Nothing happens if there is nothing to go on with. -/
def wake (e : Effort α) (now : Span) (i : Invocation α) (b : Breaker) : Invocation α × Breaker :=
  if i.revoked now then i.resume (.lone e) now true b
  else if i.ready now then i.resume (.lone e) now false b
  else (i, b)

theorem wake_of_revoked {now : Span} {i : Invocation α} (h : i.revoked now = true) (e : Effort α)
    (b : Breaker) : i.wake e now b = (i.abandon now, b) := by
  rw [wake, if_pos h]
  rfl

/-- What the invocation does when it is resumed. -/
def deeds (e : Effort α) (now : Span) (i : Invocation α) (b : Breaker) : List (Deed α) :=
  if i.revoked now || !i.ready now then [] else
  match i.stage with
  | .finished .. => []
  | .pending n _ =>
    match (b.enter now).2 with
    | .error f => [.enter (.error f)]
    | .ok () => [.enter (.ok ()), .call n (e.bounded now i.terms.limit).outcome]
  | .calling _ _ (.ok _) => [.record true]
  | .calling n _ (.error f) =>
    if !i.terms.retries f.code || i.terms.attempts ≤ n + 1 then [.record false]
    else [.record false, .look ((b.fail now).refresh now).circuit]

/-- All that can happen when an invocation is resumed: what it does, what becomes of it, and what
becomes of the breaker. -/
inductive Wakes (e : Effort α) (now : Span) (i : Invocation α) (b : Breaker) :
    List (Deed α) → Invocation α → Breaker → Prop
  | idle : i.revoked now = false → i.ready now = false → Wakes e now i b [] i b
  | revoked : i.revoked now = true → Wakes e now i b [] (i.abandon now) b
  | rejected {n : Nat} {t : Span} {f : Failure} : i.revoked now = false →
      i.stage = .pending n t → (b.enter now).2 = .error f →
      Wakes e now i b [.enter (.error f)] { i with stage := .finished now (.error f) }
        (b.enter now).1
  | admitted {n : Nat} {t : Span} : i.revoked now = false →
      i.stage = .pending n t → (b.enter now).2 = .ok () →
      Wakes e now i b [.enter (.ok ()), .call n (e.bounded now i.terms.limit).outcome]
        { i with
          calls := i.calls ++ [(n, now)]
          stage := .calling n (now + (e.bounded now i.terms.limit).after)
            (e.bounded now i.terms.limit).outcome }
        (b.enter now).1
  | succeeded {n : Nat} {t : Span} {x : α} : i.revoked now = false →
      i.stage = .calling n t (.ok x) →
      Wakes e now i b [.record true] { i with stage := .finished now (.ok x) } b.succeed
  | failed {n : Nat} {t : Span} {f : Failure} : i.revoked now = false →
      i.stage = .calling n t (.error f) →
      i.terms.retries f.code = false ∨ i.terms.attempts ≤ n + 1 →
      Wakes e now i b [.record false] { i with stage := .finished now (.error f) } (b.fail now)
  | stopped {n : Nat} {t : Span} {f : Failure} : i.revoked now = false →
      i.stage = .calling n t (.error f) → i.terms.retries f.code = true →
      n + 1 < i.terms.attempts → ((b.fail now).refresh now).circuit = .opened →
      Wakes e now i b [.record false, .look .opened]
        { i with stage := .finished now (.error f) } ((b.fail now).refresh now)
  | retried {n : Nat} {t : Span} {f : Failure} : i.revoked now = false →
      i.stage = .calling n t (.error f) → i.terms.retries f.code = true →
      n + 1 < i.terms.attempts → ((b.fail now).refresh now).circuit ≠ .opened →
      Wakes e now i b [.record false, .look ((b.fail now).refresh now).circuit]
        { i with stage := .pending (n + 1) (Span.wake now (i.terms.delay n)) }
        ((b.fail now).refresh now)

/-- The step of an invocation, case by case. Nothing below opens `step` again. -/
theorem wakes (e : Effort α) (now : Span) (i : Invocation α) (b : Breaker) :
    Wakes e now i b (i.deeds e now b) (i.wake e now b).1 (i.wake e now b).2 := by
  cases hrevoked : i.revoked now with
  | true =>
    simp only [wake, deeds, resume, hrevoked, Bool.true_or, if_true]
    exact .revoked hrevoked
  | false =>
    cases hready : i.ready now with
    | false =>
      simp only [wake, deeds, hrevoked, hready, Bool.not_false, Bool.or_true, if_true,
        Bool.false_eq_true, if_false]
      exact .idle hrevoked hready
    | true =>
      simp only [wake, deeds, resume, step, Site.lone, hrevoked, hready, Bool.not_true, Bool.or_self,
        Bool.false_eq_true, if_true, if_false]
      cases hstage : i.stage with
      | finished t r => simp [ready, next, hstage] at hready
      | pending n t =>
        cases hanswer : (b.enter now).2 with
        | error f =>
          have henter : b.enter now = ((b.enter now).1, .error f) := by rw [← hanswer]
          rw [henter]
          exact .rejected hrevoked hstage hanswer
        | ok u =>
          have henter : b.enter now = ((b.enter now).1, .ok ()) := by rw [← hanswer]
          rw [henter]
          exact .admitted hrevoked hstage hanswer
      | calling n t o =>
        cases o with
        | ok x => exact .succeeded hrevoked hstage
        | error f =>
          simp only [Terms.settle]
          by_cases hlast : (!i.terms.retries f.code || decide (i.terms.attempts ≤ n + 1)) = true
          · simp only [hlast, if_true]
            exact .failed hrevoked hstage (by simpa using hlast)
          · simp only [hlast]
            obtain ⟨hretries, hn⟩ : i.terms.retries f.code = true ∧ n + 1 < i.terms.attempts := by
              simpa using hlast
            by_cases hopened : ((b.fail now).refresh now).circuit = .opened
            · simp only [hopened, if_true]
              exact .stopped hrevoked hstage hretries hn hopened
            · simp only [hopened, if_false]
              exact .retried hrevoked hstage hretries hn hopened

namespace Wakes

variable {e : Effort α} {now : Span} {i j : Invocation α} {b b' : Breaker} {ds : List (Deed α)}

/-- What an invocation does is all that it does to the breaker. -/
theorem replay_eq (h : Wakes e now i b ds j b') (author : Option Nat) :
    b.replay (history (ds.map (⟨now, author, ·⟩))) = b' := by
  cases h <;> rfl

theorem faithful (h : Wakes e now i b ds j b') (author : Option Nat) (before : Option (Entry α)) :
    Faithful b before (ds.map (⟨now, author, ·⟩)) := by
  cases h with
  | idle | revoked => trivial
  | rejected _ _ hanswer => exact ⟨hanswer.symm, trivial⟩
  | admitted _ _ hanswer => exact ⟨hanswer.symm, rfl, trivial⟩
  | succeeded | failed => exact ⟨trivial, trivial⟩
  | stopped _ _ _ _ hopened => exact ⟨trivial, ⟨hopened.symm, fun _ ↦ rfl⟩, trivial⟩
  | retried => exact ⟨trivial, ⟨rfl, fun _ ↦ rfl⟩, trivial⟩

/-- The attempts that an invocation notes are those that it begins. -/
theorem calls_eq (h : Wakes e now i b ds j b') :
    j.calls = i.calls ++ ds.filterMap fun d ↦ d.attempt?.map (·, now) := by
  cases h with
  | revoked => unfold abandon; split <;> simp
  | _ => simp [Deed.attempt?]

/-- Neither the terms nor what the caller has said is up to the invocation. -/
theorem fixed (h : Wakes e now i b ds j b') : j.terms = i.terms ∧ j.cancelAt = i.cancelAt := by
  cases h with
  | revoked => unfold abandon; split <;> exact ⟨rfl, rfl⟩
  | _ => exact ⟨rfl, rfl⟩

end Wakes

end Invocation

/-- Invocations that share a breaker, and their clock. -/
structure Crowd (α : Type) where
  now : Span := 0
  breaker : Breaker
  members : List (Invocation α) := []

namespace Crowd

/-- What happens in a crowd. -/
inductive Event (α : Type) where
  /-- Time passes. -/
  | pass (span : Span)
  /-- Somebody acts on the breaker. -/
  | direct (o : Operation)
  /-- An invocation begins. Its caller may have cancelled beforehand. -/
  | start (terms : Terms) (revoked : Bool)
  /-- The caller of an invocation cancels it. -/
  | cancel (k : Nat)
  /-- An invocation is resumed. If it begins an attempt, this is its effort. -/
  | resume (k : Nat) (e : Effort α)

/-- What an event makes of a crowd. -/
def step (w : Crowd α) : Event α → Crowd α
  | .pass span => { w with now := w.now + span }
  | .direct o => { w with breaker := w.breaker.perform w.now o }
  | .start terms revoked =>
    let c : Cancellation := if revoked then .beforehand else .never
    { w with members := w.members ++ [.start terms c w.now] }
  | .cancel k => { w with members := w.members.modify k (·.revoke w.now) }
  | .resume k e =>
    match w.members[k]? with
    | none => w
    | some i =>
      let (i, b) := i.wake e w.now w.breaker
      { w with breaker := b, members := w.members.set k i }

/-- What an event has done, as entries of the log. -/
def entries (w : Crowd α) : Event α → List (Entry α)
  | .pass _ | .start .. | .cancel _ => []
  | .direct o => [⟨w.now, none, .direct w.breaker w.now o⟩]
  | .resume k e =>
    match w.members[k]? with
    | none => []
    | some i => (i.deeds e w.now w.breaker).map (⟨w.now, some k, ·⟩)

/-- What several events make of a crowd. -/
def run (w : Crowd α) : List (Event α) → Crowd α
  | [] => w
  | x :: es => (w.step x).run es

/-- What several events have done. -/
def log (w : Crowd α) : List (Event α) → List (Entry α)
  | [] => []
  | x :: es => w.entries x ++ (w.step x).log es

@[simp] theorem run_nil (w : Crowd α) : w.run [] = w := rfl

@[simp] theorem run_cons (w : Crowd α) (x : Event α) (es : List (Event α)) :
    w.run (x :: es) = (w.step x).run es := rfl

@[simp] theorem log_nil (w : Crowd α) : w.log [] = [] := rfl

@[simp] theorem log_cons (w : Crowd α) (x : Event α) (es : List (Event α)) :
    w.log (x :: es) = w.entries x ++ (w.step x).log es := rfl

@[simp] theorem run_append (w : Crowd α) (es fs : List (Event α)) :
    w.run (es ++ fs) = (w.run es).run fs := by
  induction es generalizing w with
  | nil => rfl
  | cons x es ih => exact ih _

/-- What becomes of each member. -/
theorem members_step (w : Crowd α) (x : Event α) (k : Nat) :
    (w.step x).members[k]? =
      match x with
      | .pass _ | .direct _ => w.members[k]?
      | .start terms revoked =>
        if k = w.members.length then
          some (.start terms (if revoked then .beforehand else .never) w.now)
        else w.members[k]?
      | .cancel m => if m = k then w.members[k]?.map (·.revoke w.now) else w.members[k]?
      | .resume m e =>
        if m = k then w.members[k]?.map fun i ↦ (i.wake e w.now w.breaker).1
        else w.members[k]? := by
  cases x with
  | pass span => rfl
  | direct o => rfl
  | start terms revoked =>
    simp only [step, List.getElem?_append]
    by_cases hlt : k < w.members.length
    · rw [if_pos hlt, if_neg (Nat.ne_of_lt hlt)]
    · by_cases hk : k = w.members.length
      · simp [hk]
      · rw [if_neg hlt, if_neg hk, List.getElem?_eq_none (by simp; omega),
          List.getElem?_eq_none (by omega)]
  | cancel m => by_cases hm : m = k <;> simp [step, hm]
  | resume m e =>
    simp only [step]
    cases hi : w.members[m]? with
    | none =>
      by_cases hm : m = k
      · subst hm
        simp [hi]
      · simp [hm]
    | some i =>
      by_cases hm : m = k
      · subst hm
        have hlt : m < w.members.length := (List.getElem?_eq_some_iff.mp hi).1
        rw [if_pos rfl, hi, List.getElem?_set_self hlt]
        rfl
      · rw [if_neg hm, List.getElem?_set_ne hm]

theorem breaker_step (w : Crowd α) (x : Event α) :
    (w.step x).breaker = w.breaker.replay (history (w.entries x)) := by
  cases x with
  | pass | start | cancel => rfl
  | direct o => simp [step, entries, history]
  | resume k e =>
    simp only [step, entries]
    cases w.members[k]? with
    | none => rfl
    | some i => exact ((i.wakes e w.now w.breaker).replay_eq (some k)).symm

/-- The breaker is left as the log says. -/
theorem breaker_run (w : Crowd α) (es : List (Event α)) :
    (w.run es).breaker = w.breaker.replay (history (w.log es)) := by
  induction es generalizing w with
  | nil => rfl
  | cons x es ih =>
    rw [run_cons, ih, breaker_step, log_cons, history_append, Breaker.replay_append]

theorem faithful_entries (w : Crowd α) (x : Event α) (before : Option (Entry α)) :
    Faithful w.breaker before (w.entries x) := by
  cases x with
  | pass | start | cancel => trivial
  | direct o =>
    refine ⟨?_, trivial⟩
    cases o with
    | enter => exact rfl
    | look => exact ⟨rfl, fun h ↦ absurd rfl h⟩
    | record | reset => trivial
  | resume k e =>
    simp only [entries]
    cases w.members[k]? with
    | none => trivial
    | some i => exact (i.wakes e w.now w.breaker).faithful (some k) before

theorem faithful_log (w : Crowd α) (es : List (Event α)) (before : Option (Entry α)) :
    Faithful w.breaker before (w.log es) := by
  induction es generalizing w before with
  | nil => trivial
  | cons x es ih =>
    refine (w.faithful_entries x before).append fun before ↦ ?_
    rw [← breaker_step]
    exact ih (w.step x) before

/-- An entry of the log fits where it stands. -/
theorem fits_of_log {w : Crowd α} {es : List (Event α)} {past rest : List (Entry α)} {x : Entry α}
    (h : w.log es = past ++ x :: rest) : x.Fits (w.breaker.replay (history past)) past.getLast? := by
  have hfaithful := w.faithful_log es none
  rw [h] at hfaithful
  simpa using hfaithful.fits

theorem now_le_step (w : Crowd α) (x : Event α) : w.now ≤ (w.step x).now := by
  cases x with
  | pass span => exact Nat.le_add_right ..
  | resume k e => simp only [step]; split <;> exact Nat.le_refl _
  | _ => exact Nat.le_refl _

theorem moment_of_mem_entries {w : Crowd α} {x : Event α} {y : Entry α} (h : y ∈ w.entries x) :
    y.moment = w.now := by
  cases x with
  | pass | start | cancel => simp [entries] at h
  | direct o => simp only [entries, List.mem_singleton] at h; rw [h]
  | resume k e =>
    simp only [entries] at h
    split at h
    · simp at h
    · obtain ⟨d, -, rfl⟩ := List.mem_map.mp h
      rfl

theorem now_le_of_mem_log {w : Crowd α} {es : List (Event α)} {y : Entry α} (h : y ∈ w.log es) :
    w.now ≤ y.moment := by
  induction es generalizing w with
  | nil => simp at h
  | cons x es ih =>
    rcases List.mem_append.mp h with h | h
    · exact Nat.le_of_eq (moment_of_mem_entries h).symm
    · exact Nat.le_trans (now_le_step w x) (ih h)

/-- Entries stand in the order of their moments. -/
theorem log_sorted (w : Crowd α) (es : List (Event α)) :
    (w.log es).Pairwise (·.moment ≤ ·.moment) := by
  induction es generalizing w with
  | nil => exact .nil
  | cons x es ih =>
    refine List.pairwise_append.mpr ⟨?_, ih _, fun y hy z hz ↦ ?_⟩
    · refine List.pairwise_of_forall_mem_list fun y hy z hz ↦ ?_
      exact Nat.le_of_eq ((moment_of_mem_entries hy).trans (moment_of_mem_entries hz).symm)
    · rw [moment_of_mem_entries hy]
      exact Nat.le_trans (now_le_step w x) (now_le_of_mem_log hz)

/-- The attempts that a member has begun so far. -/
def callsOf (w : Crowd α) (k : Nat) : List (Nat × Span) :=
  (w.members[k]?.map Invocation.calls).getD []

theorem callsOf_step (w : Crowd α) (x : Event α) (k : Nat) :
    (w.step x).callsOf k = w.callsOf k ++ (w.entries x).filterMap (Entry.callOf? k) := by
  simp only [callsOf, members_step]
  cases x with
  | pass span => simp [entries]
  | direct o => simp [entries, Entry.callOf?]
  | start terms revoked =>
    by_cases hk : k = w.members.length
    · cases revoked <;> simp [entries, hk, Invocation.start]
    · simp [entries, hk]
  | cancel m =>
    by_cases hm : m = k
    · have hrevoke (i : Invocation α) : (i.revoke w.now).calls = i.calls := by
        unfold Invocation.revoke
        split <;> rfl
      simp [entries, hm, Function.comp_def, hrevoke]
    · simp [entries, hm]
  | resume m e =>
    simp only [entries]
    by_cases hm : m = k
    · subst hm
      cases w.members[m]? with
      | none => simp
      | some i =>
        have := (i.wakes e w.now w.breaker).calls_eq
        simp [this, List.filterMap_map, Function.comp_def, Entry.callOf?]
    · cases w.members[m]? with
      | none => simp [hm]
      | some i => simp [hm, List.filterMap_map, Function.comp_def, Entry.callOf?]

/-- The attempts that a member has begun are those that the log says. -/
theorem callsOf_run (w : Crowd α) (es : List (Event α)) (k : Nat) :
    (w.run es).callsOf k = w.callsOf k ++ (w.log es).filterMap (Entry.callOf? k) := by
  induction es generalizing w with
  | nil => simp
  | cons x es ih => simp [ih, callsOf_step]

/-- A member that has come during a run has begun the attempts in the log of that run. -/
theorem calls_of_new {w : Crowd α} {es : List (Event α)} {i : Invocation α}
    (h : (w.run es).members[w.members.length]? = some i) :
    i.calls = (w.log es).filterMap (Entry.callOf? w.members.length) := by
  have := w.callsOf_run es w.members.length
  rw [callsOf, callsOf, h] at this
  simpa using this

end Crowd

end Interchange
