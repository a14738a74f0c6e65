import Interchange.Proofs.Attempt.History
import Mathlib.Data.List.DropRight

/-!
# Watching a breaker

Whoever looks at the state or the statistics of a breaker wants to learn how
things stand, not to change them.  But a look is an operation: it finds the
timeout of an open breaker over, and leaves the breaker half-open.  Recording an
outcome does not do that, so an outcome that comes late, when the timeout is over
and nobody has asked for admission yet, is ignored if nobody has looked, and
counts on trial if somebody has.

This file compares a history with the same history without its looks
(`History.unwatched`).  The totals of successes and failures never tell the two
apart.  Nothing else tells them apart either, at any point of the history, if and
only if each outcome finds the breaker as it was before the looks that directly
precede it (`Breaker.Unobtrusive`); this is `watching_unnoticed_iff`.  The reason
is that the next admission would have found the timeout over by itself, so after
any operation other than a look the two breakers are the same one
(`replay_settled`).
-/

namespace Interchange

namespace History

/-- The history without the looks of those who only watch. -/
def unwatched (h : History) : History := h.filter fun x ↦ x.2 ≠ .look

/-- The history up to its last operation other than a look. -/
def settled (h : History) : History := h.rdropWhile fun x ↦ x.2 = .look

variable {h : History} {now : Span} {o : Operation}

@[simp] theorem unwatched_append_look :
    History.unwatched (h ++ [(now, .look)]) = h.unwatched := by
  simp [unwatched]

theorem unwatched_append (ho : o ≠ .look) :
    History.unwatched (h ++ [(now, o)]) = h.unwatched ++ [(now, o)] := by
  simp [unwatched, ho]

@[simp] theorem settled_append_look : History.settled (h ++ [(now, .look)]) = h.settled :=
  List.rdropWhile_concat_pos _ _ _ (by simp)

theorem settled_append (ho : o ≠ .look) :
    History.settled (h ++ [(now, o)]) = h ++ [(now, o)] :=
  List.rdropWhile_concat_neg _ _ _ (by simpa using ho)

end History

/-- What is reported of a breaker. -/
structure Statistics where
  circuit : Circuit
  failures : Nat
  successes : Nat
  totalSuccesses : Nat
  totalFailures : Nat
  totalRejections : Nat
deriving DecidableEq, Repr

namespace Breaker

/-- What is reported of a breaker that is looked at. -/
def statistics (b : Breaker) (now : Span) : Statistics :=
  let b := b.refresh now
  { circuit := b.circuit
    failures := b.failures
    successes := b.successes
    totalSuccesses := b.totalSuccesses
    totalFailures := b.totalFailures
    totalRejections := b.totalRejections }

/-- What the calls of a history are told, in the order in which they ask for admission. -/
def answers (b : Breaker) : History → List (Except Failure Unit)
  | [] => []
  | (now, o) :: h =>
    (if o = .enter then [(b.enter now).2] else []) ++ (b.perform now o).answers h

theorem answers_append (b : Breaker) (h h' : History) :
    b.answers (h ++ h') = b.answers h ++ (b.replay h).answers h' := by
  induction h generalizing b with
  | nil => rfl
  | cons x h ih => simp [answers, ih]

/-- Each outcome finds the breaker as it was before the looks that directly precede it. -/
def Unobtrusive (b : Breaker) (h : History) : Prop :=
  ∀ past now success rest, h = past ++ (now, .record success) :: rest →
    b.replay past = b.replay past.settled

/-! ## One look -/

section Look

variable {b c : Breaker} {t now : Span}

/-- A timeout that is over stays over. -/
theorem elapsed_mono (b : Breaker) (h : t ≤ now) : b.elapsed t ≤ b.elapsed now := by
  unfold elapsed
  cases b.openedAt with
  | none => exact Nat.le_refl _
  | some opened => exact Nat.sub_le_sub_right h opened

/-- A look that moves the breaker moves it to where a later look would. -/
theorem refresh_eq_or (b : Breaker) (h : t ≤ now) :
    b.refresh t = b ∨ b.refresh t = b.refresh now := by
  by_cases ht : b.circuit = .opened ∧ b.thresholds.timeout ≤ b.elapsed t
  · right
    have hnow : b.circuit = .opened ∧ b.thresholds.timeout ≤ b.elapsed now :=
      ⟨ht.1, Nat.le_trans ht.2 (b.elapsed_mono h)⟩
    simp [refresh, ht, hnow]
  · left
    simp [refresh, ht]

/-- A later look finds the same, whether or not there was an earlier one. -/
theorem refresh_refresh_of_le (b : Breaker) (h : t ≤ now) :
    (b.refresh t).refresh now = b.refresh now := by
  rcases b.refresh_eq_or h with ht | ht
  · rw [ht]
  · rw [ht, refresh_refresh]

@[simp] theorem reset_refresh (b : Breaker) (t : Span) : (b.refresh t).reset = b.reset := by
  unfold refresh
  split <;> rfl

/-- Asking for admission is looking first. -/
theorem enter_congr (h : b.refresh now = c.refresh now) : b.enter now = c.enter now := by
  unfold enter
  rw [h]

theorem statistics_congr (h : b.refresh now = c.refresh now) :
    b.statistics now = c.statistics now := by
  unfold statistics
  rw [h]

end Look

/-! ## The looks at the end of a history -/

section Settled

variable {b : Breaker} {h : History} {now : Span}

theorem refresh_settled (b : Breaker) (hnow : ∀ x ∈ h, x.1 ≤ now) :
    (b.replay h.settled).refresh now = (b.replay h).refresh now := by
  induction h using List.reverseRecOn with
  | nil => rfl
  | append_singleton h x ih =>
    obtain ⟨t, o⟩ := x
    by_cases ho : o = .look
    · subst ho
      have ht : t ≤ now := hnow (t, .look) (by simp)
      rw [History.settled_append_look, ih fun y hy ↦ hnow y (List.mem_append_left _ hy),
        replay_append]
      exact (refresh_refresh_of_le _ ht).symm
    · rw [History.settled_append ho]

theorem reset_settled (b : Breaker) (h : History) :
    (b.replay h.settled).reset = (b.replay h).reset := by
  induction h using List.reverseRecOn with
  | nil => rfl
  | append_singleton h x ih =>
    obtain ⟨t, o⟩ := x
    by_cases ho : o = .look
    · subst ho
      rw [History.settled_append_look, ih, replay_append]
      exact (reset_refresh _ t).symm
    · rw [History.settled_append ho]

/-- Several looks do what one look at their end would do, if they do anything. -/
theorem replay_eq_settled_or (b : Breaker) (hnow : ∀ x ∈ h, x.1 ≤ now) :
    b.replay h = b.replay h.settled ∨ b.replay h = (b.replay h.settled).refresh now := by
  induction h using List.reverseRecOn with
  | nil => exact .inl rfl
  | append_singleton h x ih =>
    obtain ⟨t, o⟩ := x
    by_cases ho : o = .look
    · subst ho
      have ht : t ≤ now := hnow (t, .look) (by simp)
      have hreplay : b.replay (h ++ [(t, .look)]) = (b.replay h).refresh t := by
        rw [replay_append]
        rfl
      rw [History.settled_append_look, hreplay]
      rcases ih fun y hy ↦ hnow y (List.mem_append_left _ hy) with hh | hh
      · rw [hh]
        exact refresh_eq_or _ ht
      · right
        rw [hh]
        -- The breaker is as a look at `now` leaves it, so an earlier one does nothing.
        rcases ((b.replay (History.settled h)).refresh now).refresh_eq_or ht with hidle | hidle
        · exact hidle
        · rw [hidle, refresh_refresh]
    · rw [History.settled_append ho]
      exact .inl rfl

end Settled

/-! ## With and without looks -/

namespace Unobtrusive

variable {b : Breaker} {h : History} {x : Span × Operation}

@[simp] theorem nil : b.Unobtrusive [] := by
  intro past now success rest hpast
  simp at hpast

theorem append_singleton_iff {now : Span} {o : Operation} :
    b.Unobtrusive (h ++ [(now, o)]) ↔
      b.Unobtrusive h ∧ ∀ success, o = .record success → b.replay h = b.replay h.settled := by
  constructor
  · intro hb
    constructor
    · intro past t success rest hpast
      exact hb past t success (rest ++ [(now, o)]) (by simp [hpast])
    · rintro success rfl
      exact hb h now success [] rfl
  · rintro ⟨hb, hlast⟩ past t success rest hpast
    rcases List.eq_nil_or_concat rest with rfl | ⟨rest, y, rfl⟩
    · obtain ⟨rfl, hx⟩ := List.append_inj' hpast rfl
      cases hx
      exact hlast success rfl
    · have hinner : h ++ [(now, o)] = (past ++ (t, .record success) :: rest) ++ [y] := by
        simp [hpast]
      exact hb past t success rest (List.append_inj' hinner rfl).1

theorem of_append {h' : History} (hb : b.Unobtrusive (h ++ h')) : b.Unobtrusive h := by
  intro past now success rest hpast
  apply hb past now success (rest ++ h')
  simp [hpast]

/-- The last operation, if it is not a look, does what it would do without the looks before it. -/
theorem perform_settled {now : Span} {o : Operation} (hb : b.Unobtrusive (h ++ [(now, o)]))
    (hnow : ∀ y ∈ h, y.1 ≤ now) (ho : o ≠ .look) :
    (b.replay h.settled).perform now o = (b.replay h).perform now o := by
  cases o with
  | enter =>
    show (enter _ now).1 = (enter _ now).1
    rw [enter_congr (b.refresh_settled hnow)]
  | record success => rw [hb h now success [] rfl]
  | look => exact absurd rfl ho
  | reset => exact b.reset_settled h

/-- After every operation other than a look, the breaker that is watched and the one that is not are
the same. -/
theorem replay_settled (hb : b.Unobtrusive h) (hsorted : h.Pairwise (·.1 ≤ ·.1)) :
    b.replay h.settled = b.replay h.unwatched := by
  induction h using List.reverseRecOn with
  | nil => rfl
  | append_singleton h x ih =>
    obtain ⟨t, o⟩ := x
    obtain ⟨hinit, -, hlast⟩ := List.pairwise_append.mp hsorted
    have hnow : ∀ y ∈ h, y.1 ≤ t := fun y hy ↦ hlast y hy (t, o) (by simp)
    have hsettled := ih hb.of_append hinit
    by_cases ho : o = .look
    · subst ho
      rw [History.settled_append_look, History.unwatched_append_look, hsettled]
    · rw [History.settled_append ho, History.unwatched_append ho, replay_append, replay_append,
        ← hsettled]
      exact (hb.perform_settled hnow ho).symm

theorem refresh_unwatched {now : Span} (hb : b.Unobtrusive h)
    (hsorted : h.Pairwise (·.1 ≤ ·.1)) (hnow : ∀ y ∈ h, y.1 ≤ now) :
    (b.replay h).refresh now = (b.replay h.unwatched).refresh now := by
  rw [← hb.replay_settled hsorted, b.refresh_settled hnow]

theorem answers_unwatched (hb : b.Unobtrusive h) (hsorted : h.Pairwise (·.1 ≤ ·.1)) :
    b.answers h = b.answers h.unwatched := by
  induction h using List.reverseRecOn with
  | nil => rfl
  | append_singleton h x ih =>
    obtain ⟨t, o⟩ := x
    obtain ⟨hinit, -, hlast⟩ := List.pairwise_append.mp hsorted
    have hnow : ∀ y ∈ h, y.1 ≤ t := fun y hy ↦ hlast y hy (t, o) (by simp)
    have hanswers := ih hb.of_append hinit
    by_cases ho : o = .look
    · subst ho
      simp [answers_append, answers, hanswers]
    · have henter := enter_congr (hb.of_append.refresh_unwatched hinit hnow)
      simp [answers_append, answers, hanswers, History.unwatched_append ho, henter]

end Unobtrusive

/-! ## What gives a look away -/

@[simp] theorem failures_statistics (b : Breaker) (now : Span) :
    (b.statistics now).failures = b.failures := by
  unfold statistics refresh
  split <;> rfl

theorem statistics_of_halfOpen {b : Breaker} (h : b.circuit = .halfOpen) (now : Span) :
    (b.statistics now).circuit = .halfOpen ∧ (b.statistics now).successes = b.successes := by
  rw [statistics, refresh_of_ne_opened (by simp [h])]
  exact ⟨h, rfl⟩

theorem refresh_tally (b : Breaker) (now : Span) (o : Operation) :
    (b.tally o).refresh now = (b.refresh now).tally o := by
  have htally : (b.tally o).circuit = b.circuit ∧ (b.tally o).thresholds = b.thresholds ∧
      (b.tally o).elapsed now = b.elapsed now := by
    rcases o with - | (- | -) | - | - <;> exact ⟨rfl, rfl, rfl⟩
  by_cases h : b.circuit = .opened ∧ b.thresholds.timeout ≤ b.elapsed now
  · rw [refresh, refresh, if_pos h, if_pos (by rwa [htally.1, htally.2.1, htally.2.2])]
    rcases o with - | (- | -) | - | - <;> rfl
  · rw [refresh, refresh, if_neg h, if_neg (by rwa [htally.1, htally.2.1, htally.2.2])]

/-- An outcome that counts on trial shows. -/
theorem statistics_record_ne {b : Breaker} (hb : b.circuit = .halfOpen) (hs : b.successes = 0)
    (now : Span) (success : Bool) :
    (b.perform now (.record success)).statistics now ≠ (b.tally (.record success)).statistics now := by
  intro hsame
  cases success with
  | true =>
    have hidle : ((b.tally (.record true)).statistics now).circuit = .halfOpen ∧
        ((b.tally (.record true)).statistics now).successes = 0 := by
      have := statistics_of_halfOpen (b := b.tally (.record true)) hb now
      exact ⟨this.1, this.2.trans hs⟩
    rw [← hsame, perform, succeed_of_halfOpen hb] at hidle
    split at hidle
    · simp [statistics, refresh, reset] at hidle
    · have hcount := (statistics_of_halfOpen
        (b := { b with totalSuccesses := b.totalSuccesses + 1, successes := b.successes + 1 }) hb
        now).2
      rw [hidle.2] at hcount
      simp at hcount
  | false =>
    have hcount := congrArg Statistics.failures hsame
    rw [failures_statistics, failures_statistics, perform, fail_of_halfOpen hb] at hcount
    simp [trip, tally] at hcount

/-- If a look has moved the breaker, an outcome that is recorded then gives it away. -/
theorem statistics_record_refresh_ne {b : Breaker} {now : Span} (h : b.refresh now ≠ b)
    (success : Bool) :
    ((b.refresh now).perform now (.record success)).statistics now ≠
      (b.perform now (.record success)).statistics now := by
  have hb : b.circuit = .opened ∧ b.thresholds.timeout ≤ b.elapsed now := by
    by_contra hb
    exact h (by simp [refresh, hb])
  have hrefresh : b.refresh now = { b with circuit := .halfOpen, successes := 0 } := by
    simp [refresh, hb]
  have hperform : b.perform now (.record success) = b.tally (.record success) := by
    cases success with
    | true => exact succeed_of_opened hb.1
    | false => exact fail_of_opened hb.1 now
  -- Unwatched the outcome shows in the totals only, as if it had been noted after the look.
  have hstatistics : (b.perform now (.record success)).statistics now =
      ((b.refresh now).tally (.record success)).statistics now := by
    apply statistics_congr
    rw [hperform, refresh_tally, refresh_tally, refresh_refresh]
  rw [hstatistics]
  apply statistics_record_ne
  · rw [hrefresh]
  · rw [hrefresh]

/-- If the looks of a history go unnoticed, each outcome finds the breaker as it was before the looks
that directly precede it. -/
theorem unobtrusive_of_statistics {b : Breaker} {h : History} (hsorted : h.Pairwise (·.1 ≤ ·.1))
    (hsame : ∀ l, l <+: h → ∀ now, (∀ x ∈ l, x.1 ≤ now) →
      (b.replay l).statistics now = (b.replay (History.unwatched l)).statistics now) :
    b.Unobtrusive h := by
  induction h using List.reverseRecOn with
  | nil => exact .nil
  | append_singleton h x ih =>
    obtain ⟨t, o⟩ := x
    obtain ⟨hinit, -, hlast⟩ := List.pairwise_append.mp hsorted
    have hnow : ∀ y ∈ h, y.1 ≤ t := fun y hy ↦ hlast y hy (t, o) (by simp)
    have hb : b.Unobtrusive h := ih hinit fun l hl ↦ hsame l (hl.trans (List.prefix_append _ _))
    apply Unobtrusive.append_singleton_iff.mpr
    refine ⟨hb, ?_⟩
    rintro success rfl
    by_contra hmoved
    have hrefresh : b.replay h = (b.replay (History.settled h)).refresh t :=
      (b.replay_eq_settled_or hnow).resolve_left hmoved
    have hne : (b.replay (History.settled h)).refresh t ≠ b.replay (History.settled h) := by
      rw [← hrefresh]
      exact hmoved
    apply statistics_record_refresh_ne hne success
    rw [← hrefresh, hb.replay_settled hinit]
    have hreport := hsame _ (List.prefix_refl _) t (by
      intro z hz
      rcases List.mem_append.mp hz with hz | hz
      · exact hnow z hz
      · rw [List.mem_singleton.mp hz])
    rw [History.unwatched_append (by simp), replay_append, replay_append] at hreport
    exact hreport

/-- The totals of successes and failures are the same with and without looks. -/
theorem totals_unwatched (b : Breaker) (h : History) :
    (b.replay h).totalSuccesses = (b.replay h.unwatched).totalSuccesses ∧
      (b.replay h).totalFailures = (b.replay h.unwatched).totalFailures := by
  induction h using List.reverseRecOn with
  | nil => exact ⟨rfl, rfl⟩
  | append_singleton h x ih =>
    obtain ⟨t, o⟩ := x
    obtain ⟨hs, hf, -⟩ := (b.replay h).totals_perform t o
    by_cases ho : o = .look
    · subst ho
      rw [History.unwatched_append_look, replay_append]
      exact ⟨hs.trans ih.1, hf.trans ih.2⟩
    · obtain ⟨hs', hf', -⟩ := (b.replay (History.unwatched h)).totals_perform t o
      rw [History.unwatched_append ho, replay_append, replay_append]
      constructor
      · exact hs.trans ((congrArg (· + _) ih.1).trans hs'.symm)
      · exact hf.trans ((congrArg (· + _) ih.2).trans hf'.symm)

/-- Whether anybody looks at a breaker never shows in the totals of successes and failures.  It shows
nowhere else either, neither in what a call is told nor in what is reported at any point of a history,
if and only if every outcome finds the breaker as it was before the looks that directly precede it:
if no outcome is recorded after a look has found the timeout over and before the next call asks for
admission. -/
theorem watching_unnoticed_iff (name : String) (t : Thresholds) {h : History}
    (hsorted : h.Pairwise (·.1 ≤ ·.1)) :
    let b : Breaker := { name, thresholds := t }
    (∀ l : History, l <+: h →
      (b.replay l).totalSuccesses = (b.replay l.unwatched).totalSuccesses ∧
        (b.replay l).totalFailures = (b.replay l.unwatched).totalFailures) ∧
      ((∀ l : History, l <+: h →
        b.answers l = b.answers l.unwatched ∧
          ∀ now, (∀ x ∈ l, x.1 ≤ now) →
            (b.replay l).statistics now = (b.replay l.unwatched).statistics now) ↔
        b.Unobtrusive h) := by
  intro b
  constructor
  · intro l _
    exact b.totals_unwatched l
  constructor
  · intro hsame
    exact unobtrusive_of_statistics hsorted fun l hl ↦ (hsame l hl).2
  · rintro hb l ⟨rest, rfl⟩
    have hinit := (List.pairwise_append.mp hsorted).1
    constructor
    · exact hb.of_append.answers_unwatched hinit
    · intro now hnow
      exact statistics_congr (hb.of_append.refresh_unwatched hinit hnow)

/-- Somebody looks, and a call asks for admission before an outcome is recorded. -/
theorem watching_unnoticed_on_trial :
    let b : Breaker := { name := "cb", thresholds := { failures := 1, timeout := .ofSeconds 1 } }
    let h : History :=
      [(0, .enter), (0, .record false), (.ofSeconds 1, .look), (.ofSeconds 1, .enter),
        (.ofSeconds 2, .record true)]
    h.Pairwise (·.1 ≤ ·.1) ∧ b.Unobtrusive h ∧ b.answers h = b.answers h.unwatched := by
  intro b h
  have hsorted : h.Pairwise (·.1 ≤ ·.1) := by decide
  have hb : b.Unobtrusive h := by
    show b.Unobtrusive ([] ++ [_] ++ [_] ++ [_] ++ [_] ++ [_])
    simp only [Unobtrusive.append_singleton_iff, Unobtrusive.nil]
    decide
  have hsame := (watching_unnoticed_iff "cb" b.thresholds hsorted).2.mpr hb
  exact ⟨hsorted, hb, (hsame h (List.prefix_refl h)).1⟩

/-- Two calls are let in, and one of them fails, which opens the breaker.  The other one ends when the
timeout is over.  If nobody has looked its outcome is ignored; if somebody has just looked, its
success closes the breaker, and its failure opens it once more, so that the next call is rejected. -/
theorem watching_noticed :
    let b : Breaker :=
      { name := "cb", thresholds := { failures := 1, successes := 1, timeout := .ofSeconds 1 } }
    let shared : History := [(0, .enter), (0, .enter), (0, .record false), (.ofSeconds 1, .look)]
    let recovered : History := shared ++ [(.ofSeconds 1, .record true)]
    let relapsed : History := shared ++ [(.ofSeconds 1, .record false), (.ofSeconds 1, .enter)]
    (recovered.Pairwise (·.1 ≤ ·.1) ∧ b.answers recovered = [.ok (), .ok ()] ∧
        ((b.replay recovered).statistics (.ofSeconds 1)).circuit = .closed ∧
        ((b.replay recovered.unwatched).statistics (.ofSeconds 1)).circuit = .halfOpen) ∧
      relapsed.Pairwise (·.1 ≤ ·.1) ∧
        b.answers relapsed = [.ok (), .ok (), .error b.rejection] ∧
        b.answers relapsed.unwatched = [.ok (), .ok (), .ok ()] := by
  decide

end Breaker

end Interchange
