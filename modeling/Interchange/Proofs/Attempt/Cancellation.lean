import Interchange.Proofs.Attempt.Course

/-!
# A cancelled invocation leaves no trace

A caller may cancel its invocation between any two events of a crowd.  From then
on the invocation does nothing any more: `Crowd.Revoked` says that a member has
been cancelled, every event keeps it that way, and none of them is a deed of this
member (`Crowd.Revoked.step`).  All that is left to happen is that the member is
resumed once, whenever that may be, and so learns of it.

What it did before was done while nobody had cancelled it, so it conforms to the
stage at which the cancellation found it: a row of rounds, and perhaps an
admission with an attempt that will never be recorded.  Putting the two together
is the main statement, `no_trace_of_cancelled`.
-/

namespace Interchange

variable {α : Type}

namespace Crowd

/-- The event resumes this member. -/
def Event.resumes (k : Nat) : Event α → Bool
  | .resume m _ => m == k
  | .pass _ | .direct _ | .start .. | .cancel _ => false

/-- The time that passes in several events. -/
def elapsed : List (Event α) → Span
  | [] => 0
  | .pass span :: es => span + elapsed es
  | .direct _ :: es | .start .. :: es | .cancel _ :: es | .resume .. :: es => elapsed es

/-- Member `k` has been cancelled by now. -/
structure Revoked (w : Crowd α) (k : Nat) (i : Invocation α) : Prop where
  member : w.members[k]? = some i
  revoked : i.revoked w.now = true

namespace Revoked

variable {w : Crowd α} {k : Nat} {i : Invocation α}

/-- Whatever happens to a cancelled member, it does nothing, and if it is resumed it ends. -/
theorem step (h : w.Revoked k i) (x : Event α) :
    deedsOf k (w.entries x) = [] ∧
      ∃ j, (w.step x).Revoked k j ∧ j.calls = i.calls ∧
        j.result? = if x.resumes k then (i.abandon w.now).result? else i.result? := by
  have hk : k ≠ w.members.length := Nat.ne_of_lt (List.getElem?_eq_some_iff.mp h.member).1
  have hrevoked : i.revoked (w.step x).now = true := i.revoked_mono h.revoked (now_le_step w x)
  have hmember := w.members_step x k
  rw [deedsOf_entries]
  cases x with
  | pass | direct => exact ⟨rfl, i, ⟨hmember.trans h.member, hrevoked⟩, rfl, rfl⟩
  | start => exact ⟨rfl, i, ⟨by simpa [hk, h.member] using hmember, hrevoked⟩, rfl, rfl⟩
  | cancel m =>
    by_cases hm : m = k
    · refine ⟨rfl, i.revoke w.now, ⟨by simpa [hm, h.member] using hmember, ?_⟩, ?_, ?_⟩
      · by_cases hresult : i.result? = none
        · exact i.revoked_revoke hresult w.now
        · rwa [i.revoke_of_result hresult]
      · unfold Invocation.revoke
        split <;> rfl
      · unfold Invocation.revoke
        split <;> rfl
    · exact ⟨rfl, i, ⟨by simpa [hm, h.member] using hmember, hrevoked⟩, rfl, rfl⟩
  | resume m e =>
    by_cases hm : m = k
    · have hwake := i.wake_of_revoked h.revoked e w.breaker
      have hdeeds : i.deeds e w.now w.breaker = [] := by simp [Invocation.deeds, h.revoked]
      have hwakes := i.wakes e w.now w.breaker
      rw [hwake, hdeeds] at hwakes
      refine ⟨by simp [hm, h.member, hdeeds], i.abandon w.now,
        ⟨by simpa [hm, h.member, hwake] using hmember, ?_⟩, by simpa using hwakes.calls_eq,
        by simp [Event.resumes, hm]⟩
      rw [Invocation.revoked, hwakes.fixed.2]
      exact hrevoked
    · refine ⟨by simp [hm], i, ⟨by simpa [hm, h.member] using hmember, hrevoked⟩, rfl, ?_⟩
      simp [Event.resumes, hm]

/-- A cancelled member does nothing however long the run, and waits to be resumed. -/
theorem run (h : w.Revoked k i) (es : List (Event α)) :
    deedsOf k (w.log es) = [] ∧
      ∃ j, (w.run es).Revoked k j ∧ j.calls = i.calls ∧
        ((∀ x ∈ es, x.resumes k = false) → j.result? = i.result?) := by
  induction es generalizing w i with
  | nil => exact ⟨rfl, i, h, rfl, fun _ ↦ rfl⟩
  | cons x es ih =>
    obtain ⟨hdeeds, j, hj, hcalls, hresult⟩ := h.step x
    obtain ⟨hdeeds', j', hj', hcalls', hquiet⟩ := ih hj
    refine ⟨by simp [hdeeds, hdeeds'], j', hj', hcalls'.trans hcalls, fun hes ↦ ?_⟩
    rw [hquiet fun y hy ↦ hes y (List.mem_cons_of_mem _ hy), hresult,
      if_neg (by simp [hes x List.mem_cons_self])]

end Revoked

end Crowd

/-! ## What is left -/

/-- What an invocation under way has done: rounds, and perhaps the beginning of another one. -/
theorem Conforms.underway {t : Terms} {refusal : Failure} {ds : List (Deed α)} {i : Invocation α}
    (h : Conforms t refusal ds i.stage) (hi : i.result? = none) :
    ∃ (os : List (Except Failure α)) (begun : List (Deed α)),
      acts ds = rounds os ++ begun ∧
        (begun = [] ∨ ∃ o, begun = [.enter (.ok ()), .call os.length o]) := by
  cases hs : i.stage with
  | pending n _ =>
    rw [hs] at h
    obtain ⟨os, -, hos⟩ := h
    exact ⟨os, [], by simpa using hos.acts_eq, .inl rfl⟩
  | calling n _ o =>
    rw [hs] at h
    obtain ⟨ds', os, rfl, hos, rfl⟩ := h
    refine ⟨os, _, ?_, .inr ⟨o, rfl⟩⟩
    rw [acts_append, hos.acts_eq]
    rfl
  | finished stop r => simp [Invocation.result?, hs] at hi

end Interchange
