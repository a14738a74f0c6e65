import Interchange.Proofs.Attempt.Crowd

/-!
# The course of an invocation

What one invocation does, from its beginning to its end, whatever the others who
share its breaker do in between.  So far as it has come, its deeds are a row of
*rounds*: it asks for admission and is let in, an attempt begins, its outcome is
recorded.  Every round but the last one has failed with a code that is retried.

`Conforms` says this for each stage of an invocation that nobody has cancelled,
and is kept by every step of it (`Conforms.wake`) and hence by every run of the
crowd (`Crowd.Runs.run`).  The main statement, `course_of_finished`, is what it
comes to for an invocation that has ended: which attempts it made and in which
order, why it went on after each but the last and why it stopped there, and what
it has left on the breaker.
-/

namespace Interchange

variable {α : Type}

/-! ## Deeds by author -/

/-- What one member did. -/
def deedsOf (k : Nat) (l : List (Entry α)) : List (Deed α) :=
  l.filterMap fun x ↦ if x.author = some k then some x.deed else none

/-- What everybody else did. -/
def deedsBeside (k : Nat) (l : List (Entry α)) : List (Deed α) :=
  l.filterMap fun x ↦ if x.author = some k then none else some x.deed

@[simp] theorem deedsOf_append (k : Nat) (l l' : List (Entry α)) :
    deedsOf k (l ++ l') = deedsOf k l ++ deedsOf k l' := List.filterMap_append

theorem deedsOf_map (k : Nat) (now : Span) (author : Option Nat) (ds : List (Deed α)) :
    deedsOf k (ds.map (⟨now, author, ·⟩)) = if author = some k then ds else [] := by
  induction ds with
  | nil => simp [deedsOf]
  | cons d ds ih =>
    rw [List.map_cons, deedsOf, List.filterMap_cons, ← deedsOf, ih]
    by_cases h : author = some k
    · simp only [h, if_true]
    · simp only [h, if_false]

theorem countP_deeds (p : Deed α → Bool) (k : Nat) (l : List (Entry α)) :
    l.countP (fun x ↦ p x.deed) = (deedsBeside k l).countP p + (deedsOf k l).countP p := by
  induction l with
  | nil => rfl
  | cons x l ih =>
    by_cases h : x.author = some k
    · simp only [deedsOf, deedsBeside, List.countP_cons, List.filterMap_cons, h, if_true] at ih ⊢
      omega
    · simp only [deedsOf, deedsBeside, List.countP_cons, List.filterMap_cons, h, if_false] at ih ⊢
      omega

namespace Deed

/-- A success is recorded. -/
def succeeds : Deed α → Bool
  | .record success => success
  | .enter _ | .call .. | .look _ | .reset => false

/-- A failure is recorded. -/
def fails : Deed α → Bool
  | .record success => !success
  | .enter _ | .call .. | .look _ | .reset => false

/-- Admission is refused. -/
def rejects : Deed α → Bool
  | .enter (.error _) => true
  | .enter (.ok _) | .call .. | .record _ | .look _ | .reset => false

/-- The state is looked at. -/
def looks : Deed α → Bool
  | .look _ => true
  | .enter _ | .call .. | .record _ | .reset => false

end Deed

/-- An entry that fits moves the total that it is named for. -/
theorem Entry.Fits.totals {b : Breaker} {before : Option (Entry α)} {x : Entry α}
    (h : x.Fits b before) :
    (b.replay (history [x])).totalSuccesses = b.totalSuccesses + x.deed.succeeds.toNat ∧
      (b.replay (history [x])).totalFailures = b.totalFailures + x.deed.fails.toNat ∧
      (b.replay (history [x])).totalRejections = b.totalRejections + x.deed.rejects.toNat := by
  obtain ⟨now, author, d⟩ := x
  cases d with
  | call n o => exact ⟨rfl, rfl, rfl⟩
  | enter answer =>
    have h : answer = (b.enter now).2 := h
    have hok := b.enter_eq_ok_iff now
    rw [← h] at hok
    obtain ⟨hs, hf, hr⟩ := b.totals_perform now .enter
    refine ⟨hs, hf, hr.trans ?_⟩
    cases answer with
    | ok u => simpa [Deed.rejects] using hok
    | error f => simpa [Deed.rejects] using hok
  | record success =>
    obtain ⟨hs, hf, hr⟩ := b.totals_perform now (.record success)
    refine ⟨hs.trans ?_, hf.trans ?_, hr⟩ <;> cases success <;> rfl
  | look seen => exact b.totals_perform now .look
  | reset => exact ⟨rfl, rfl, rfl⟩

/-- The totals of a breaker count the entries of a faithful log. -/
theorem Faithful.totals {b : Breaker} {before : Option (Entry α)} {l : List (Entry α)}
    (h : Faithful b before l) :
    (b.replay (history l)).totalSuccesses =
        b.totalSuccesses + l.countP (fun x ↦ x.deed.succeeds) ∧
      (b.replay (history l)).totalFailures =
        b.totalFailures + l.countP (fun x ↦ x.deed.fails) ∧
      (b.replay (history l)).totalRejections =
        b.totalRejections + l.countP (fun x ↦ x.deed.rejects) := by
  induction l generalizing b before with
  | nil => exact ⟨rfl, rfl, rfl⟩
  | cons x l ih =>
    obtain ⟨hs, hf, hr⟩ := h.1.totals
    obtain ⟨ihs, ihf, ihr⟩ := ih h.2
    have hcount (p : Deed α → Bool) (n : Nat) :
        n + (p x.deed).toNat + l.countP (fun y ↦ p y.deed) =
          n + (x :: l).countP (fun y ↦ p y.deed) := by
      cases hp : p x.deed with
      | false => simp [hp]
      | true => simp [hp]; omega
    rw [← List.singleton_append, history_append, Breaker.replay_append, ihs, ihf, ihr, hs, hf, hr]
    exact ⟨hcount .., hcount .., hcount ..⟩

/-! ## Rounds -/

/-- An attempt from its admission to the record of its outcome. -/
def round (n : Nat) (o : Except Failure α) : List (Deed α) :=
  [.enter (.ok ()), .call n o, .record o.isOk]

/-- Attempts that come to these outcomes, one after the other. -/
def rounds (os : List (Except Failure α)) : List (Deed α) :=
  os.zipIdx.flatMap fun x ↦ round x.2 x.1

@[simp] theorem rounds_nil : rounds ([] : List (Except Failure α)) = [] := rfl

theorem rounds_append_singleton (os : List (Except Failure α)) (o : Except Failure α) :
    rounds (os ++ [o]) = rounds os ++ round os.length o := by
  simp [rounds, List.zipIdx_append]

/-- All that the deeds of an invocation amount to, but for its looks. -/
def acts (ds : List (Deed α)) : List (Deed α) := ds.filter (!·.looks)

@[simp] theorem acts_append (ds ds' : List (Deed α)) : acts (ds ++ ds') = acts ds ++ acts ds' :=
  List.filter_append ..

@[simp] theorem acts_round (n : Nat) (o : Except Failure α) : acts (round n o) = round n o := rfl

/-- The outcome of an attempt after which another one may follow. -/
def Terms.Repeats (t : Terms) (o : Except Failure α) : Prop :=
  ∃ f, o = .error f ∧ t.retries f.code = true

/-- The attempts so far have come to these outcomes, and another one is to follow. -/
structure Underway (t : Terms) (ds : List (Deed α)) (os : List (Except Failure α)) : Prop where
  acts_eq : acts ds = rounds os
  repeated : ∀ o ∈ os, t.Repeats o
  lt : os.length < t.attempts

theorem Underway.acts_append_round {t : Terms} {ds : List (Deed α)} {os : List (Except Failure α)}
    (h : Underway t ds os) (o : Except Failure α) :
    acts (ds ++ round os.length o) = rounds (os ++ [o]) := by
  rw [acts_append, h.acts_eq, acts_round, rounds_append_singleton]

/-- How an invocation ends after this many attempts: with which deeds, and with which result. Whoever
is refused is told so by this failure. -/
inductive Ending (t : Terms) (refusal : Failure) (n : Nat) :
    List (Deed α) → Except Failure α → Prop
  | refused : Ending t refusal n [.enter (.error refusal)] (.error refusal)
  | succeeded (x : α) : Ending t refusal n (round n (.ok x)) (.ok x)
  | failed (f : Failure) : t.retries f.code = false ∨ t.attempts ≤ n + 1 →
      Ending t refusal n (round n (.error f)) (.error f)
  | stopped (f : Failure) : Ending t refusal n (round n (.error f) ++ [.look .opened]) (.error f)

/-- The deeds of an invocation match its stage. -/
def Conforms (t : Terms) (refusal : Failure) (ds : List (Deed α)) : Stage α → Prop
  | .pending n _ => ∃ os, os.length = n ∧ Underway t ds os
  | .calling n _ o =>
    ∃ ds' os, os.length = n ∧ Underway t ds' os ∧ ds = ds' ++ [.enter (.ok ()), .call n o]
  | .finished _ r =>
    ∃ ds' os ds'', Underway t ds' os ∧ Ending t refusal os.length ds'' r ∧ ds = ds' ++ ds''

/-- Every step of an invocation that nobody has cancelled keeps its deeds in line with its stage. -/
theorem Conforms.wake {e : Effort α} {now : Span} {i j : Invocation α} {b b' : Breaker}
    {ds ds' : List (Deed α)} (h : Conforms i.terms b.rejection ds i.stage)
    (hw : Invocation.Wakes e now i b ds' j b') (hi : i.revoked now = false) :
    Conforms i.terms b.rejection (ds ++ ds') j.stage := by
  cases hw with
  | idle => simpa using h
  | revoked hrevoked => rw [hi] at hrevoked; cases hrevoked
  | rejected _ hstage hanswer =>
    rw [hstage] at h
    obtain ⟨os, -, hos⟩ := h
    cases Breaker.eq_rejection_of_enter hanswer
    exact ⟨ds, os, _, hos, .refused, rfl⟩
  | admitted _ hstage =>
    rw [hstage] at h
    obtain ⟨os, hn, hos⟩ := h
    exact ⟨ds, os, hn, hos, rfl⟩
  | succeeded _ hstage =>
    rw [hstage] at h
    obtain ⟨ds₀, os, rfl, hos, rfl⟩ := h
    exact ⟨ds₀, os, _, hos, .succeeded _, by simp [round, Except.isOk, Except.toBool]⟩
  | failed _ hstage hlast =>
    rw [hstage] at h
    obtain ⟨ds₀, os, rfl, hos, rfl⟩ := h
    exact ⟨ds₀, os, _, hos, .failed _ hlast, by simp [round, Except.isOk, Except.toBool]⟩
  | stopped _ hstage =>
    rw [hstage] at h
    obtain ⟨ds₀, os, rfl, hos, rfl⟩ := h
    exact ⟨ds₀, os, _, hos, .stopped _, by simp [round, Except.isOk, Except.toBool]⟩
  | @retried n t f _ hstage hretries hlt =>
    rw [hstage] at h
    obtain ⟨ds₀, os, rfl, hos, rfl⟩ := h
    refine ⟨os ++ [.error f], by simp, ?_, ?_, by simpa using hlt⟩
    · rw [rounds_append_singleton, ← hos.acts_eq]
      simp [acts, round, Deed.looks, Except.isOk, Except.toBool]
    · intro o ho
      rcases List.mem_append.mp ho with ho | ho
      · exact hos.repeated o ho
      · exact ⟨f, List.mem_singleton.mp ho, hretries⟩

/-! ## Along a run -/

namespace Crowd

/-- A member acts only when it is resumed. -/
theorem deedsOf_entries (w : Crowd α) (x : Event α) (k : Nat) :
    deedsOf k (w.entries x) =
      match x with
      | .resume m e =>
        if m = k then (w.members[k]?.map fun i ↦ i.deeds e w.now w.breaker).getD [] else []
      | .pass _ | .direct _ | .start .. | .cancel _ => [] := by
  cases x with
  | pass | start | cancel => rfl
  | direct o => simp [entries, deedsOf]
  | resume m e =>
    simp only [entries]
    cases hi : w.members[m]? with
    | none =>
      by_cases hm : m = k
      · rw [if_pos hm, ← hm, hi]
        rfl
      · rw [if_neg hm]
        rfl
    | some i =>
      rw [deedsOf_map]
      by_cases hm : m = k
      · rw [if_pos hm, if_pos (congrArg some hm), ← hm, hi]
        rfl
      · rw [if_neg hm, if_neg (mt Option.some.inj hm)]

/-- A member has begun on these terms and done these deeds, and nobody has cancelled it. -/
structure Runs (w : Crowd α) (k : Nat) (t : Terms) (ds : List (Deed α)) (i : Invocation α) :
    Prop where
  member : w.members[k]? = some i
  terms : i.terms = t
  cancelAt : i.cancelAt = none
  conforms : Conforms t w.breaker.rejection ds i.stage

theorem Runs.step {w : Crowd α} {k : Nat} {t : Terms} {ds : List (Deed α)} {i : Invocation α}
    (h : w.Runs k t ds i) {x : Event α} (hx : x ≠ .cancel k) :
    ∃ j, (w.step x).Runs k t (ds ++ deedsOf k (w.entries x)) j := by
  have hk : k ≠ w.members.length := Nat.ne_of_lt (List.getElem?_eq_some_iff.mp h.member).1
  have hrejection : (w.step x).breaker.rejection = w.breaker.rejection := by
    rw [breaker_step, Breaker.rejection_replay]
  have hidle (hmember : (w.step x).members[k]? = w.members[k]?) : (w.step x).Runs k t (ds ++ []) i :=
    ⟨hmember.trans h.member, h.terms, h.cancelAt, by simpa [hrejection] using h.conforms⟩
  have hmember := w.members_step x k
  rw [deedsOf_entries]
  cases x with
  | pass | direct => exact ⟨i, hidle hmember⟩
  | start => exact ⟨i, hidle (by simpa [hk] using hmember)⟩
  | cancel m =>
    have hm : m ≠ k := fun hm ↦ hx (hm ▸ rfl)
    exact ⟨i, hidle (by simpa [hm] using hmember)⟩
  | resume m e =>
    by_cases hm : m = k
    · have hwakes := i.wakes e w.now w.breaker
      refine ⟨(i.wake e w.now w.breaker).1, by simpa [hm, h.member] using hmember,
        hwakes.fixed.1.trans h.terms, hwakes.fixed.2.trans h.cancelAt, ?_⟩
      have hrevoked : i.revoked w.now = false := by simp [Invocation.revoked, h.cancelAt]
      have hconforms : Conforms i.terms w.breaker.rejection ds i.stage := h.terms ▸ h.conforms
      rw [hrejection, ← h.terms]
      simpa [hm, h.member] using hconforms.wake hwakes hrevoked
    · simp only [hm, if_false]
      exact ⟨i, hidle (by simpa [hm] using hmember)⟩

theorem Runs.run {w : Crowd α} {k : Nat} {t : Terms} {ds : List (Deed α)} {i : Invocation α}
    (h : w.Runs k t ds i) {es : List (Event α)} (hes : ∀ x ∈ es, x ≠ .cancel k) :
    ∃ j, (w.run es).Runs k t (ds ++ deedsOf k (w.log es)) j := by
  induction es generalizing w ds i with
  | nil => exact ⟨i, by simpa [deedsOf] using h⟩
  | cons x es ih =>
    obtain ⟨j, hj⟩ := h.step (hes x List.mem_cons_self)
    obtain ⟨j', hj'⟩ := ih hj fun y hy ↦ hes y (List.mem_cons_of_mem _ hy)
    exact ⟨j', by simpa using hj'⟩

/-- An invocation conforms from its beginning on, as long as nobody cancels it. -/
theorem runs_start (w : Crowd α) {t : Terms} (ht : 0 < t.attempts) {es : List (Event α)}
    (hes : ∀ x ∈ es, x ≠ .cancel w.members.length) :
    ∃ i, (w.run (.start t false :: es)).Runs w.members.length t
      (deedsOf w.members.length (w.log (.start t false :: es))) i := by
  have h : (w.step (.start t false)).Runs w.members.length t [] (.start t .never w.now) :=
    ⟨by simp [members_step], rfl, rfl, [], rfl, rfl, by simp, ht⟩
  simpa [deedsOf_entries] using h.run hes

end Crowd

/-! ## What the deeds come to -/

/-- The attempts in the log of a member, in order. -/
theorem map_fst_callsIn (k : Nat) (l : List (Entry α)) :
    (l.filterMap (Entry.callOf? k)).map Prod.fst = (deedsOf k l).filterMap Deed.attempt? := by
  rw [deedsOf, List.map_filterMap, List.filterMap_filterMap]
  refine congrArg (List.filterMap · l) (funext fun x ↦ ?_)
  by_cases hx : x.author = some k
  · simp [Entry.callOf?, hx, Option.map_map, Function.comp_def]
  · simp [Entry.callOf?, hx]

theorem attempts_acts (ds : List (Deed α)) :
    (acts ds).filterMap Deed.attempt? = ds.filterMap Deed.attempt? := by
  rw [acts, List.filterMap_filter]
  refine congrArg (List.filterMap · ds) (funext fun d ↦ ?_)
  cases d <;> rfl

theorem attempts_rounds (os : List (Except Failure α)) :
    (rounds os).filterMap Deed.attempt? = List.range os.length := by
  induction os using List.reverseRecOn with
  | nil => rfl
  | append_singleton os o ih =>
    rw [rounds_append_singleton, List.filterMap_append, ih, List.length_append, List.length_singleton,
      List.range_succ]
    rfl

theorem countP_rounds (os : List (Except Failure α)) :
    (rounds os).countP Deed.succeeds = os.countP Except.isOk ∧
      (rounds os).countP Deed.fails = os.countP (!Except.isOk ·) ∧
      (rounds os).countP Deed.rejects = 0 := by
  induction os using List.reverseRecOn with
  | nil => exact ⟨rfl, rfl, rfl⟩
  | append_singleton os o ih =>
    obtain ⟨hs, hf, hr⟩ := ih
    rw [rounds_append_singleton]
    simp only [List.countP_append, hs, hf, hr, round]
    cases o <;> exact ⟨rfl, rfl, rfl⟩

theorem countP_acts (ds : List (Deed α)) :
    (acts ds).countP Deed.succeeds = ds.countP Deed.succeeds ∧
      (acts ds).countP Deed.fails = ds.countP Deed.fails ∧
      (acts ds).countP Deed.rejects = ds.countP Deed.rejects := by
  simp only [acts, List.countP_filter]
  refine ⟨?_, ?_, ?_⟩ <;>
    · refine List.countP_congr fun d _ ↦ ?_
      cases d <;> simp [Deed.succeeds, Deed.fails, Deed.rejects, Deed.looks]

/-- The attempts that a member has begun are numbered in their order. -/
theorem attempts_of_acts {k : Nat} {l : List (Entry α)} {os : List (Except Failure α)}
    {tail : List (Deed α)} (h : acts (deedsOf k l) = rounds os ++ tail) :
    (l.filterMap (Entry.callOf? k)).map Prod.fst =
      List.range os.length ++ tail.filterMap Deed.attempt? := by
  rw [map_fst_callsIn, ← attempts_acts, h, List.filterMap_append, attempts_rounds]

/-- The totals of the breaker are what the others and the attempts of one member have made them. -/
theorem Crowd.totals_of_acts {w : Crowd α} {es : List (Crowd.Event α)} {k : Nat}
    {os : List (Except Failure α)} {tail : List (Deed α)}
    (h : acts (deedsOf k (w.log es)) = rounds os ++ tail) (hs : tail.countP Deed.succeeds = 0)
    (hf : tail.countP Deed.fails = 0) :
    let b := (w.run es).breaker
    let others := deedsBeside k (w.log es)
    b.totalSuccesses =
        w.breaker.totalSuccesses + others.countP Deed.succeeds + os.countP Except.isOk ∧
      b.totalFailures =
        w.breaker.totalFailures + others.countP Deed.fails + os.countP (!Except.isOk ·) ∧
      b.totalRejections =
        w.breaker.totalRejections + others.countP Deed.rejects + tail.countP Deed.rejects := by
  intro b others
  obtain ⟨ts, tf, tr⟩ := (w.faithful_log es none).totals
  obtain ⟨os', of', or'⟩ := countP_rounds os
  obtain ⟨as, af, ar⟩ := countP_acts (deedsOf k (w.log es))
  rw [h, List.countP_append] at as af ar
  simp only [b, others, Crowd.breaker_run, ts, tf, tr, countP_deeds _ k, ← as, ← af, ← ar, os', of',
    or', hs, hf]
  omega

/-! ## The end of an invocation -/

/-- What an ended invocation has done: an attempt for each of these outcomes, and then, possibly, a
request for admission that was refused.  Its settings allow so many attempts and repeat a failure with
these codes. -/
structure Course (attempts : Nat) (retries : Code → Bool) (refusal : Failure) (own : List (Deed α))
    (r : Except Failure α) (os : List (Except Failure α)) (refused : Option Failure) : Prop where
  /-- Apart from the looks at the breaker there is one round for each outcome, so each attempt was let
  in and its outcome was recorded once, and then the refusal. -/
  acts_eq : acts own = rounds os ++ refused.toList.map (fun f ↦ .enter (.error f))
  length_le : os.length ≤ attempts
  /-- Each attempt but the last has failed with a code that is retried. -/
  repeated : ∀ o ∈ os.dropLast, ∃ f, o = .error f ∧ retries f.code = true
  succeeds_iff : ∀ x, r = .ok x ↔ os.getLast? = some (.ok x) ∧ refused = none
  /-- Nothing comes after the record of a success. -/
  ends_with_record : ∀ x, r = .ok x → own.getLast? = some (.record true)
  /-- Who was not refused fails with the failure of the last attempt.  That is not retried, or it was
  the last one allowed, or the breaker was open when it was looked at after the record. -/
  gave_up : ∀ f, refused = none → r = .error f → os.getLast? = some (.error f) ∧
    (retries f.code = false ∨ os.length = attempts ∨ [.record false, .look .opened] <:+ own)
  /-- Who was refused fails with the rejection, and every attempt has failed with a code that is
  retried. -/
  turned_away : ∀ f, refused = some f → r = .error f ∧ f = refusal ∧
    ∀ o ∈ os, ∃ f, o = .error f ∧ retries f.code = true

theorem Ending.course {t : Terms} {refusal : Failure} {ds ds' : List (Deed α)}
    {os : List (Except Failure α)} {r : Except Failure α} (hos : Underway t ds os)
    (h : Ending t refusal os.length ds' r) :
    ∃ all refused, Course t.attempts t.retries refusal (ds ++ ds') r all refused := by
  have hround (o : Except Failure α) : (os ++ [o]).length ≤ t.attempts := by
    simpa using Nat.succ_le_of_lt hos.lt
  have hrepeated (o : Except Failure α) : ∀ o' ∈ (os ++ [o]).dropLast, t.Repeats o' := by
    simpa using hos.repeated
  cases h with
  | refused =>
    refine ⟨os, some refusal,
      { acts_eq := ?_
        length_le := Nat.le_of_lt hos.lt
        repeated := fun o ho ↦ hos.repeated o (List.dropLast_subset _ ho)
        succeeds_iff := by simp
        ends_with_record := by simp
        gave_up := by simp
        turned_away := fun f hf ↦ ?_ }⟩
    · rw [acts_append, hos.acts_eq]
      rfl
    · cases hf
      exact ⟨rfl, rfl, hos.repeated⟩
  | succeeded x =>
    exact ⟨os ++ [.ok x], none,
      { acts_eq := by simpa using hos.acts_append_round (.ok x)
        length_le := hround _
        repeated := hrepeated _
        succeeds_iff := by simp
        ends_with_record := by simp [round, Except.isOk, Except.toBool]
        gave_up := by simp
        turned_away := by simp }⟩
  | failed f hlast =>
    refine ⟨os ++ [.error f], none,
      { acts_eq := by simpa using hos.acts_append_round (.error f)
        length_le := hround _
        repeated := hrepeated _
        succeeds_iff := by simp
        ends_with_record := by simp
        gave_up := fun g _ hg ↦ ⟨by simpa using hg, ?_⟩
        turned_away := by simp }⟩
    cases hg
    rcases hlast with hretries | hle
    · exact .inl hretries
    · exact .inr (.inl (by simpa using Nat.le_antisymm hos.lt hle))
  | stopped f =>
    refine ⟨os ++ [.error f], none,
      { acts_eq := ?_
        length_le := hround _
        repeated := hrepeated _
        succeeds_iff := by simp
        ends_with_record := by simp
        gave_up := fun g _ hg ↦ ⟨by simpa using hg, .inr (.inr ?_)⟩
        turned_away := by simp }⟩
    · rw [← List.append_assoc, acts_append, hos.acts_append_round]
      simp [acts, Deed.looks]
    · exact ⟨ds ++ [.enter (.ok ()), .call os.length (.error f)], by
        simp [round, Except.isOk, Except.toBool]⟩

/-- The course of an invocation on these settings in a log that begins with it, where a breaker was
found like this and left like that. -/
structure CourseIn (p : Backoff) (k : Nat) (l : List (Entry α)) (found left : Breaker)
    (i : Invocation α) (r : Except Failure α) (os : List (Except Failure α))
    (refused : Option Failure) : Prop
    extends Course (max p.maxAttempts 1) p.retries found.rejection (deedsOf k l) r os refused where
  numbered : i.calls.map Prod.fst = List.range os.length
  unavailable : ∀ f ∈ refused, f.code = .unavailable
  /-- Every entry fits where it stands: each attempt begins directly after its admission by the breaker
  as it was then. -/
  fits : ∀ past x rest, l = past ++ x :: rest →
    x.Fits (found.replay (history past)) past.getLast?
  /-- The totals grow by what the others did, by one for each outcome and by one for the refusal. -/
  totalSuccesses : left.totalSuccesses =
    found.totalSuccesses + (deedsBeside k l).countP Deed.succeeds + os.countP Except.isOk
  totalFailures : left.totalFailures =
    found.totalFailures + (deedsBeside k l).countP Deed.fails + os.countP (!Except.isOk ·)
  totalRejections : left.totalRejections =
    found.totalRejections + (deedsBeside k l).countP Deed.rejects + refused.toList.length

/-- An invocation that has ended without being cancelled has run its course, whoever else acted on its
breaker in the meantime and whatever they did. -/
theorem course_of_finished (w : Crowd α) (p : Backoff) (draws : Nat → Float) (limit : Option Span)
    (es : List (Crowd.Event α)) (hes : ∀ x ∈ es, x ≠ .cancel w.members.length)
    {i : Invocation α}
    (hi : (w.run (.start (p.terms draws limit) false :: es)).members[w.members.length]? = some i)
    {stop : Span} {r : Except Failure α} (hr : i.stage = .finished stop r) :
    ∃ os refused, CourseIn p w.members.length (w.log (.start (p.terms draws limit) false :: es))
      w.breaker (w.run (.start (p.terms draws limit) false :: es)).breaker i r os refused := by
  obtain ⟨j, hj⟩ := w.runs_start (t := p.terms draws limit) p.attempts_pos hes
  obtain rfl : j = i := Option.some.inj (hj.member.symm.trans hi)
  have hconforms := hj.conforms
  rw [Crowd.breaker_run, Breaker.rejection_replay, hr] at hconforms
  obtain ⟨ds, os, ds', hos, hend, hown⟩ := hconforms
  obtain ⟨all, refused, hcourse⟩ := hend.course hos
  rw [← hown] at hcourse
  obtain ⟨hs, hf, hrej⟩ := Crowd.totals_of_acts hcourse.acts_eq (by cases refused <;> rfl)
    (by cases refused <;> rfl)
  refine ⟨all, refused,
    { hcourse with
      numbered := ?_
      unavailable := fun f hf ↦ ?_
      fits := fun past x rest hl ↦ Crowd.fits_of_log hl
      totalSuccesses := hs
      totalFailures := hf
      totalRejections := ?_ }⟩
  · rw [Crowd.calls_of_new hi, attempts_of_acts hcourse.acts_eq]
    cases refused <;> simp [Deed.attempt?]
  · rw [(hcourse.turned_away f hf).2.1]
    rfl
  · rw [hrej]
    cases refused <;> rfl

/-- An invocation fails once and waits.  Before it may try again somebody else's failure opens the
breaker, and it is turned away. -/
def interrupted (delay : Span) : List (Crowd.Event Unit) :=
  let effort : Effort Unit := { outcome := .error { code := .connection, message := "refused" } }
  [.resume 0 effort, .resume 0 effort, .pass delay, .direct (.record false), .resume 0 effort]

theorem course_of_interrupted :
    let w : Crowd Unit := { breaker := { name := "b", thresholds := ⟨2, 1, 10⟩ } }
    let p : Backoff := { maxAttempts := 3, retried := [.connection] }
    let t := p.terms (fun _ ↦ 1) none
    let es := interrupted (Span.wake 0 (t.delay 0))
    (∀ x ∈ es, x ≠ .cancel w.members.length) ∧
      ∃ i, (w.run (.start t false :: es)).members[w.members.length]? = some i ∧
        i.stage = .finished (Span.wake 0 (t.delay 0)) (.error w.breaker.rejection) ∧
        ∃ os : List (Except Failure Unit),
          i.calls.map Prod.fst = List.range os.length ∧ os.length ≤ 3 ∧
            (w.run (.start t false :: es)).breaker.totalFailures =
              0 + (deedsBeside 0 (w.log (.start t false :: es))).countP Deed.fails +
                os.countP (!Except.isOk ·) := by
  intro w p t es
  have hes : ∀ x ∈ es, x ≠ .cancel w.members.length := by simp [es, interrupted]
  have hrun : ∃ i, (w.run (.start t false :: es)).members[w.members.length]? = some i ∧
      i.stage = .finished (Span.wake 0 (t.delay 0)) (.error w.breaker.rejection) := by
    simp [w, p, t, es, interrupted, Crowd.step, Crowd.run, Invocation.start, Invocation.wake,
      Invocation.revoked, Invocation.ready, Invocation.next, Invocation.resume, Invocation.step,
      Site.lone, Effort.bounded, Backoff.terms, Backoff.retries, Backoff.attempts, Terms.settle,
      Breaker.enter, Breaker.refresh, Breaker.elapsed, Breaker.perform, Breaker.fail, Breaker.trip,
      Breaker.rejection]
  obtain ⟨i, hi, hr⟩ := hrun
  obtain ⟨os, refused, hcourse⟩ := course_of_finished w p (fun _ ↦ 1) none es hes hi hr
  exact ⟨hes, i, hi, hr, os, hcourse.numbered, hcourse.length_le, hcourse.totalFailures⟩

end Interchange
