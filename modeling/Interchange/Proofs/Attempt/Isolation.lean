import Interchange.Proofs.Attempt.Crowd

/-!
# A breaker that is open keeps everybody out

The log of a crowd is cut at two entries: `x` opens the breaker, and `y` is any
later one before which nobody has reset it.  Whatever stands between the two —
deeds of invocations that were let in before, direct operations, anything in any
order — the breaker that `y` meets is the one that `x` left, but for the totals,
as long as the timeout is not over (`Window.replay_of_lt`).  That is the invariant
of the window; the main theorem reads off what it means for `y`, and what `y`
finds if it is the first to ask or to look when the timeout is over.

The clock enters in one place only: entries stand in the order of their moments,
so nothing between `x` and `y` took place before `x` or after `y`.
-/

namespace Interchange

variable {α : Type}

theorem mem_history {l : List (Entry α)} {p : Span × Operation} :
    p ∈ history l ↔ ∃ x ∈ l, x.moment = p.1 ∧ x.deed.operation? = some p.2 := by
  obtain ⟨now, o⟩ := p
  simp only [history, List.mem_filterMap, Option.map_eq_some_iff, Prod.mk.injEq]
  constructor
  · rintro ⟨x, hx, o', ho, rfl, rfl⟩
    exact ⟨x, hx, rfl, ho⟩
  · rintro ⟨x, hx, rfl, ho⟩
    exact ⟨x, hx, o, ho, rfl, rfl⟩

/-- Nothing but a recorded failure opens a breaker. -/
theorem Entry.openSince_of_opens {b : Breaker} {x : Entry α} (hb : b.circuit ≠ .opened)
    (hx : (b.replay (history [x])).circuit = .opened) :
    x.deed = .record false ∧ (b.replay (history [x])).OpenSince x.moment := by
  obtain ⟨now, author, d⟩ := x
  cases ho : d.operation? with
  | none =>
    have : history [(⟨now, author, d⟩ : Entry α)] = [] := by simp [history, ho]
    rw [this] at hx
    exact absurd hx hb
  | some o =>
    have : history [(⟨now, author, d⟩ : Entry α)] = [(now, o)] := by simp [history, ho]
    rw [this] at hx ⊢
    obtain ⟨rfl, hopen⟩ := Breaker.openSince_of_opens hb hx
    refine ⟨?_, hopen⟩
    cases d <;> simp [Deed.operation?] at ho ⊢
    exact ho

/-- The entries `mid` come after a breaker has opened at the moment `t`, which it has left as `b₀`, and
not after the moment `now`.  None of them resets it. -/
structure Window (b₀ : Breaker) (t : Span) (mid : List (Entry α)) (now : Span) : Prop where
  openSince : b₀.OpenSince t
  within : ∀ z ∈ mid, t ≤ z.moment ∧ z.moment ≤ now
  not_reset : ∀ z ∈ mid, z.deed ≠ .reset

namespace Window

variable {b₀ : Breaker} {t now : Span} {mid : List (Entry α)}

/-- As long as nobody asks or looks after the timeout, the window shows in the totals only. -/
theorem replay_of_quiet (h : Window b₀ t mid now)
    (hquiet : ∀ z ∈ mid, t + b₀.thresholds.timeout ≤ z.moment →
      z.deed.operation? ≠ some .enter ∧ z.deed.operation? ≠ some .look) :
    b₀.replay (history mid) = b₀.noted (history mid) := by
  refine h.openSince.replay_eq fun p hp ↦ ?_
  obtain ⟨now, o⟩ := p
  obtain ⟨z, hz, rfl, ho⟩ := mem_history.mp hp
  have hne : o ≠ .reset := by
    rintro rfl
    apply h.not_reset z hz
    cases hd : z.deed <;> simp [hd, Deed.operation?] at ho ⊢
  refine ⟨(h.within z hz).1, hne, ?_⟩
  by_cases hlt : z.moment < t + b₀.thresholds.timeout
  · exact .inl hlt
  · obtain ⟨hn, hl⟩ := hquiet z hz (Nat.le_of_not_lt hlt)
    rw [ho] at hn hl
    rcases o with - | success | - | -
    · exact absurd rfl hn
    · exact .inr ⟨success, rfl⟩
    · exact absurd rfl hl
    · exact absurd rfl hne

/-- Before the timeout is over the window shows in the totals only. -/
theorem replay_of_lt (h : Window b₀ t mid now) (hnow : now < t + b₀.thresholds.timeout) :
    b₀.replay (history mid) = b₀.noted (history mid) := by
  apply h.replay_of_quiet
  intro z hz hle
  exact absurd (Nat.lt_of_le_of_lt (Nat.le_trans hle (h.within z hz).2) hnow) (Nat.lt_irrefl _)

theorem of_append {mid' : List (Entry α)} (h : Window b₀ t (mid ++ mid') now) :
    Window b₀ t mid now where
  openSince := h.openSince
  within z hz := h.within z (List.mem_append_left _ hz)
  not_reset z hz := h.not_reset z (List.mem_append_left _ hz)

end Window

namespace Crowd

variable {w : Crowd α} {es : List (Event α)} {past mid rest : List (Entry α)} {x y : Entry α}

/-- Between two entries of a log there are those of the moments in between. -/
theorem between_of_log (hlog : w.log es = past ++ x :: (mid ++ y :: rest)) :
    x.moment ≤ y.moment ∧ ∀ z ∈ mid, x.moment ≤ z.moment ∧ z.moment ≤ y.moment := by
  have hsorted := w.log_sorted es
  rw [hlog] at hsorted
  obtain ⟨hx, hlater⟩ := List.pairwise_cons.mp (List.pairwise_append.mp hsorted).2.1
  refine ⟨hx y (by simp), fun z hz ↦ ⟨hx z (by simp [hz]), ?_⟩⟩
  exact (List.pairwise_append.mp hlater).2.2 z hz y (by simp)

/-- After the entry that opens the breaker there is a window. -/
theorem window_of_log (hlog : w.log es = past ++ x :: (mid ++ y :: rest))
    (hbefore : (w.breaker.replay (history past)).circuit ≠ .opened)
    (hopens : (w.breaker.replay (history (past ++ [x]))).circuit = .opened)
    (hreset : ∀ z ∈ mid, z.deed ≠ .reset) :
    x.deed = .record false ∧
      Window (w.breaker.replay (history (past ++ [x]))) x.moment mid y.moment := by
  rw [history_append, Breaker.replay_append] at hopens ⊢
  obtain ⟨hdeed, hopen⟩ := Entry.openSince_of_opens hbefore hopens
  exact ⟨hdeed, hopen, (between_of_log hlog).2, hreset⟩

/-- The breaker after some more entries. -/
theorem replay_cons_log (b : Breaker) (past : List (Entry α)) (x : Entry α) (l : List (Entry α)) :
    b.replay (history (past ++ x :: l)) = (b.replay (history (past ++ [x]))).replay (history l) := by
  rw [← Breaker.replay_append, ← history_append]
  simp

/-- Before the timeout is over nobody begins an attempt. -/
theorem not_call_of_window (hlog : w.log es = past ++ x :: (mid ++ y :: rest))
    (hx : x.deed = .record false)
    (h : Window (w.breaker.replay (history (past ++ [x]))) x.moment mid y.moment)
    (hstop : y.moment < x.moment + w.breaker.thresholds.timeout) (n : Nat)
    (o : Except Failure α) : y.deed ≠ .call n o := by
  intro hy
  have hy' : w.log es = (past ++ x :: mid) ++ y :: rest := by simpa using hlog
  have hfits := fits_of_log hy'
  rw [Entry.Fits, hy] at hfits
  -- What comes right before an attempt is an admission: it is not `x`, and in between none is had.
  rcases List.eq_nil_or_concat mid with rfl | ⟨pre, z, rfl⟩
  · simp only [List.getLast?_append, List.getLast?_singleton, Option.some_or,
      Option.some.injEq] at hfits
    rw [hfits] at hx
    cases hx
  · have hz : z = { y with deed := .enter (.ok ()) } := by
      simpa [List.getLast?_append, List.getLast?_cons] using hfits
    have hz' : w.log es = (past ++ x :: pre) ++ z :: (y :: rest) := by simpa using hlog
    have hzfits := fits_of_log hz'
    have hdeed : z.deed = .enter (.ok ()) := by rw [hz]
    have hmoment := h.within z (by simp)
    rw [List.concat_eq_append] at h
    have hpre := h.of_append.replay_of_lt (by simpa using hstop)
    rw [Entry.Fits, hdeed, replay_cons_log, hpre, (h.openSince.noted _).enter_of_lt hmoment.1
      (by simpa using Nat.lt_of_le_of_lt hmoment.2 hstop)] at hzfits
    cases hzfits

end Crowd

/-- What a breaker that opens means for everybody who shares it, from the entry `x` that opens it to
any later entry `y` before which it is not reset.  With `stop` for the moment at which its timeout is
over, `b₀` for the breaker that `x` leaves and `b` for the one that `y` meets:

* Before `stop`, `b` is `b₀` but for the totals, which have grown by what was done in between.  So
  its state, its counts and the moment at which it opened are as they were.  Whatever `y` is, it
  begins no attempt; if it asks for admission it is turned away as unavailable, and one rejection
  more is counted; if it records an outcome, that outcome alone is counted.
* From `stop` on, the first who asks or looks finds the breaker half-open with no successes on
  trial, and whoever asks is let in.

Every attempt that any member begins is an entry of the log (`Crowd.callsOf_run`), so before `stop`
none begins any, whether it was waiting out a delay or has only just come. -/
theorem isolated_while_open {w : Crowd α} {es : List (Crowd.Event α)}
    {past mid rest : List (Entry α)} {x y : Entry α}
    (hlog : w.log es = past ++ x :: (mid ++ y :: rest))
    (hbefore : (w.breaker.replay (history past)).circuit ≠ .opened)
    (hopens : (w.breaker.replay (history (past ++ [x]))).circuit = .opened)
    (hreset : ∀ z ∈ mid, z.deed ≠ .reset) :
    let b₀ := w.breaker.replay (history (past ++ [x]))
    let b := w.breaker.replay (history (past ++ x :: mid))
    let stop := x.moment + w.breaker.thresholds.timeout
    x.moment ≤ y.moment ∧
      (y.moment < stop →
        b = b₀.noted (history mid) ∧
          b.circuit = .opened ∧ b.openedAt = some x.moment ∧
          b.failures = b₀.failures ∧ b.successes = b₀.successes ∧
          (∀ n o, y.deed ≠ .call n o) ∧
          (∀ a, y.deed = .enter a →
            a = .error b.rejection ∧ b.rejection.code = .unavailable ∧
              b.perform y.moment .enter = { b with totalRejections := b.totalRejections + 1 }) ∧
          ∀ success, y.deed = .record success →
            b.perform y.moment (.record success) =
              if success then { b with totalSuccesses := b.totalSuccesses + 1 }
              else { b with totalFailures := b.totalFailures + 1 }) ∧
      (stop ≤ y.moment →
        (∀ z ∈ mid, stop ≤ z.moment →
          z.deed.operation? ≠ some .enter ∧ z.deed.operation? ≠ some .look) →
        (∀ a, y.deed = .enter a →
          a = .ok () ∧
            b.perform y.moment .enter = { b with circuit := .halfOpen, successes := 0 }) ∧
        ∀ seen, y.deed = .look seen →
          seen = .halfOpen ∧
            b.perform y.moment .look = { b with circuit := .halfOpen, successes := 0 }) := by
  intro b₀ b stop
  obtain ⟨hxy, -⟩ := Crowd.between_of_log hlog
  obtain ⟨hx, hwindow⟩ := Crowd.window_of_log hlog hbefore hopens hreset
  have hy : w.log es = (past ++ x :: mid) ++ y :: rest := by simpa using hlog
  have hfits : y.Fits b _ := Crowd.fits_of_log hy
  have hb : b = b₀.replay (history mid) := Crowd.replay_cons_log ..
  have htimeout₀ : b₀.thresholds = w.breaker.thresholds := Breaker.thresholds_replay ..
  have htimeout : b.thresholds = w.breaker.thresholds := Breaker.thresholds_replay ..
  refine ⟨hxy, fun hstop ↦ ?_, fun hstop hquiet ↦ ?_⟩
  · have hnoted : b = b₀.noted (history mid) :=
      hb.trans (hwindow.replay_of_lt (by rwa [htimeout₀]))
    have hsince : b.OpenSince x.moment := hnoted ▸ hwindow.openSince.noted _
    have henter := hsince.enter_of_lt hxy (by rwa [htimeout])
    refine ⟨hnoted, hsince.circuit, hsince.openedAt, by rw [hnoted]; rfl, by rw [hnoted]; rfl,
      Crowd.not_call_of_window hlog hx hwindow hstop, fun a ha ↦ ?_, fun success _ ↦ ?_⟩
    · rw [Entry.Fits, ha, henter] at hfits
      refine ⟨hfits, rfl, ?_⟩
      rw [Breaker.perform, henter]
      rfl
    · rw [hsince.perform_record]
      cases success <;> rfl
  · have hnoted : b = b₀.noted (history mid) :=
      hb.trans (hwindow.replay_of_quiet (htimeout₀ ▸ hquiet))
    have hsince : b.OpenSince x.moment := hnoted ▸ hwindow.openSince.noted _
    have hstop' : x.moment + b.thresholds.timeout ≤ y.moment := by rwa [htimeout]
    refine ⟨fun a ha ↦ ?_, fun seen hseen ↦ ?_⟩
    · rw [Entry.Fits, ha, hsince.enter_of_le hstop'] at hfits
      refine ⟨hfits, ?_⟩
      rw [Breaker.perform, hsince.enter_of_le hstop']
    · rw [Entry.Fits, hseen, hsince.refresh_of_le hstop'] at hfits
      exact ⟨hfits.1, hsince.refresh_of_le hstop'⟩

/-- A breaker opens at its first failure, while an invocation that it has let in is still under way.
That one ends late, and another that comes in the meantime is turned away. -/
def meantime : List (Crowd.Event Unit) :=
  let terms : Terms := { attempts := 3, retries := fun _ ↦ true, delay := fun _ ↦ 1 }
  let effort : Effort Unit := { after := 2, outcome := .ok () }
  [.start terms false, .resume 0 effort, .pass 1, .direct (.record false), .start terms false,
    .pass 1, .resume 0 effort, .resume 1 effort]

theorem isolated_meantime :
    let w : Crowd Unit := { breaker := { name := "b", thresholds := ⟨1, 1, 10⟩ } }
    let past : List (Entry Unit) := [⟨0, some 0, .enter (.ok ())⟩, ⟨0, some 0, .call 0 (.ok ())⟩]
    let x : Entry Unit := ⟨1, none, .record false⟩
    let mid : List (Entry Unit) := [⟨2, some 0, .record true⟩]
    let y : Entry Unit := ⟨2, some 1, .enter (.error w.breaker.rejection)⟩
    let b := w.breaker.replay (history (past ++ x :: mid))
    w.log meantime = past ++ x :: (mid ++ y :: []) ∧
      (w.breaker.replay (history past)).circuit ≠ .opened ∧
      (w.breaker.replay (history (past ++ [x]))).circuit = .opened ∧
      (∀ z ∈ mid, z.deed ≠ .reset) ∧
      b.circuit = .opened ∧ b.openedAt = some 1 ∧ b.totalSuccesses = 1 ∧
      ∀ n o, y.deed ≠ .call n o := by
  intro w past x mid y b
  have hlog : w.log meantime = past ++ x :: (mid ++ y :: []) := rfl
  have hbefore : (w.breaker.replay (history past)).circuit ≠ .opened := by decide
  have hopens : (w.breaker.replay (history (past ++ [x]))).circuit = .opened := by decide
  have hreset : ∀ z ∈ mid, z.deed ≠ .reset := by simp [mid]
  obtain ⟨-, hwindow, -⟩ := isolated_while_open hlog hbefore hopens hreset
  obtain ⟨-, hcircuit, hopened, -, -, hcall, -⟩ := hwindow (by decide)
  exact ⟨hlog, hbefore, hopens, hreset, hcircuit, hopened, rfl, hcall⟩

end Interchange
