import Interchange.Proofs.Attempt.Schedule
import Mathlib.Data.Nat.Count

/-!
# Leaving out what does nothing

Among processes that run together there may be some that change nothing but
themselves.  If these are left out the others do what they did, and come to the
same end (`Process.run_close`).  What is left out is given by places in the list,
the *gaps*; when they are closed the others move up (`Gaps.place`).
-/

namespace Interchange

variable {α β γ σ τ : Type}

/-- The places of a list that are to be left out. -/
abbrev Gaps := Nat → Bool

namespace Gaps

/-- The gaps as they are seen from a place on. -/
def shift (G : Gaps) (n : Nat) : Gaps := fun k ↦ G (n + k)

/-- Where a place comes to lie when the gaps are closed. -/
def place (G : Gaps) (k : Nat) : Nat := Nat.count (fun j ↦ G j = false) k

/-- A list without what stands in the gaps. -/
def close (G : Gaps) : List α → List α
  | [] => []
  | x :: xs => if G 0 then (G.shift 1).close xs else x :: (G.shift 1).close xs

variable {G : Gaps} {k : Nat} {xs : List α}

theorem shift_shift (G : Gaps) (m n : Nat) : (G.shift m).shift n = G.shift (m + n) := by
  funext k
  exact congrArg G (Nat.add_assoc m n k).symm

theorem shift_one (G : Gaps) (k : Nat) : G.shift 1 k = G (k + 1) := by rw [shift, Nat.add_comm]

@[simp] theorem place_zero (G : Gaps) : G.place 0 = 0 := Nat.count_zero _

theorem place_succ (G : Gaps) (k : Nat) :
    G.place (k + 1) = (G.shift 1).place k + if G 0 then 0 else 1 := by
  rw [place, Nat.count_succ']
  cases G 0 <;> simp [place, shift, Nat.add_comm]

@[simp] theorem close_nil (G : Gaps) : G.close ([] : List α) = [] := rfl

theorem close_append (G : Gaps) (xs ys : List α) :
    G.close (xs ++ ys) = G.close xs ++ (G.shift xs.length).close ys := by
  induction xs generalizing G with
  | nil =>
    have hzero : G.shift 0 = G := funext fun k ↦ congrArg G (Nat.zero_add k)
    simp [hzero]
  | cons x xs ih =>
    have hshift : G.shift (x :: xs).length = (G.shift 1).shift xs.length := by
      rw [shift_shift, List.length_cons, Nat.add_comm]
    rw [List.cons_append, close, close, ih, hshift]
    split <;> rfl

theorem close_append_cons {before : List α} (h : G before.length = false) (x : α)
    (behind : List α) : G.close (before ++ x :: behind) =
      G.close before ++ x :: (G.shift (before.length + 1)).close behind := by
  rw [close_append, close, shift_shift]
  simp [shift, h]

theorem close_concat (G : Gaps) (xs : List α) (x : α) :
    G.close (xs ++ [x]) = if G xs.length then G.close xs else G.close xs ++ [x] := by
  rw [close_append, close]
  cases hG : G xs.length <;> simp [shift, hG]

/-- What stands outside the gaps is kept, and moves up. -/
theorem getElem?_close (hk : G k = false) : (G.close xs)[G.place k]? = xs[k]? := by
  induction xs generalizing G k with
  | nil => simp
  | cons x xs ih =>
    cases k with
    | zero => simp [close, hk]
    | succ k =>
      have hshift : G.shift 1 k = false := (shift_one G k).trans hk
      rw [close, place_succ]
      cases G 0 <;> simpa using ih hshift

theorem close_set (hk : G k = false) (y : α) :
    G.close (xs.set k y) = (G.close xs).set (G.place k) y := by
  induction xs generalizing G k with
  | nil => simp
  | cons x xs ih =>
    cases k with
    | zero => simp [close, hk]
    | succ k =>
      have hshift : G.shift 1 k = false := (shift_one G k).trans hk
      rw [List.set_cons_succ, close, close, place_succ, ih hshift]
      cases G 0 <;> simp

theorem close_set_of_gap (hk : G k = true) (y : α) : G.close (xs.set k y) = G.close xs := by
  induction xs generalizing G k with
  | nil => simp
  | cons x xs ih =>
    cases k with
    | zero => simp [close, hk]
    | succ k =>
      have hshift : G.shift 1 k = true := (shift_one G k).trans hk
      rw [List.set_cons_succ, close, close, ih hshift]

/-- Without gaps a list is what it was. -/
theorem close_eq_self (h : ∀ k < xs.length, G k = false) : G.close xs = xs := by
  induction xs generalizing G with
  | nil => rfl
  | cons x xs ih =>
    have hshift : ∀ k < xs.length, G.shift 1 k = false := by
      intro k hk
      rw [shift_one]
      exact h (k + 1) (Nat.succ_lt_succ hk)
    rw [close, h 0 (Nat.zero_lt_succ _), ih hshift]
    rfl

theorem close_map (G : Gaps) (f : α → β) (xs : List α) :
    G.close (xs.map f) = (G.close xs).map f := by
  induction xs generalizing G with
  | nil => rfl
  | cons x xs ih =>
    rw [List.map_cons, close, close, ih]
    split <;> rfl

theorem close_zipWith (G : Gaps) (f : α → β → γ) (xs : List α) (ys : List β) :
    G.close (List.zipWith f xs ys) = List.zipWith f (G.close xs) (G.close ys) := by
  induction xs generalizing G ys with
  | nil => simp
  | cons x xs ih =>
    cases ys with
    | nil => simp
    | cons y ys =>
      rw [List.zipWith_cons_cons, close, close, close, ih]
      split <;> rfl

theorem close_filterMap {f : α → Option β} (h : ∀ x ∈ xs, (f x).isSome) :
    G.close (xs.filterMap f) = (G.close xs).filterMap f := by
  induction xs generalizing G with
  | nil => rfl
  | cons x xs ih =>
    obtain ⟨hx, hxs⟩ := List.forall_mem_cons.mp h
    obtain ⟨y, hy⟩ := Option.isSome_iff_exists.mp hx
    rw [List.filterMap_cons, hy, close, close, ih hxs]
    split <;> simp [hy]

theorem mem_of_mem_close {x : α} (h : x ∈ G.close xs) : x ∈ xs := by
  induction xs generalizing G with
  | nil => exact h
  | cons y xs ih =>
    rw [close] at h
    split at h
    · exact List.mem_cons_of_mem _ (ih h)
    · rcases List.mem_cons.mp h with rfl | h
      · exact List.mem_cons_self
      · exact List.mem_cons_of_mem _ (ih h)

end Gaps

namespace Process

variable {p : Process σ τ} {G : Gaps} {xs before behind : List τ} {x : τ}

/-- Of those that are due at the same moment the first is chosen. -/
theorem lt_due_of_soonest {d : Span} (h : p.soonest xs = some (before, x, behind))
    (hx : p.due x = some d) : ∀ y ∈ before, ∀ d', p.due y = some d' → d < d' := by
  induction xs generalizing before with
  | nil => cases h
  | cons z xs ih =>
    rw [soonest] at h
    split at h
    · cases h
    · next hz hxs =>
      cases h
      exact List.forall_mem_cons.mpr ⟨by simp [hz], ih hxs⟩
    · cases h
      exact List.forall_mem_nil _
    · next d₀ before' x' behind' hz hxs =>
      split at h
      · next hlt =>
        cases h
        rw [hx, Option.any_some, decide_eq_true_eq] at hlt
        refine List.forall_mem_cons.mpr ⟨fun d' hd' ↦ ?_, ih hxs⟩
        cases hz.symm.trans hd'
        exact hlt
      · cases h
        exact List.forall_mem_nil _

/-- A process is chosen if none is due sooner, and none before it as soon. -/
theorem soonest_of_due {d : Span} (hx : p.due x = some d)
    (hbefore : ∀ y ∈ before, ∀ d', p.due y = some d' → d < d')
    (hbehind : ∀ y ∈ behind, ∀ d', p.due y = some d' → d ≤ d') :
    p.soonest (before ++ x :: behind) = some (before, x, behind) := by
  induction before with
  | nil =>
    rw [List.nil_append, soonest, hx]
    cases hrest : p.soonest behind with
    | none => rfl
    | some found =>
      obtain ⟨before', y, behind'⟩ := found
      obtain ⟨hmem, hdue⟩ := soonest_eq_some hrest
      obtain ⟨d', hd'⟩ := Option.isSome_iff_exists.mp hdue
      have hle : d ≤ d' := hbehind y (by simp [hmem]) d' hd'
      dsimp only
      rw [hd', Option.any_some, if_neg (by simpa using hle)]
  | cons y before ih =>
    obtain ⟨hy, hrest⟩ := List.forall_mem_cons.mp hbefore
    rw [List.cons_append, soonest, ih hrest]
    cases hdue : p.due y with
    | none => rfl
    | some d' =>
      have hlt : d < d' := hy d' hdue
      dsimp only
      rw [hx, Option.any_some, if_pos (by simpa using hlt)]

/-- What is chosen is chosen also if others are left out. -/
theorem soonest_close (h : p.soonest xs = some (before, x, behind)) (hG : G before.length = false) :
    p.soonest (G.close xs) =
      some (G.close before, x, (G.shift (before.length + 1)).close behind) := by
  obtain ⟨rfl, hdue⟩ := soonest_eq_some h
  obtain ⟨d, hd⟩ := Option.isSome_iff_exists.mp hdue
  rw [Gaps.close_append_cons hG]
  refine soonest_of_due hd (fun y hy ↦ ?_) (fun y hy ↦ ?_)
  · exact lt_due_of_soonest h hd y (Gaps.mem_of_mem_close hy)
  · have hmem : y ∈ before ++ x :: behind := by simp [Gaps.mem_of_mem_close hy]
    exact due_le_of_soonest h hd y hmem

/-- If those in the gaps change nothing but themselves, the others do the same without them. -/
theorem run_close {I : σ → τ → Prop}
    (hidle : ∀ s x, I s x → (p.due x).isSome → (p.act x s).2 = s ∧ I s (p.act x s).1)
    (hkeep : ∀ s x y, I s x → (p.due y).isSome → I (p.act y s).2 x) {s : σ}
    (h : ∀ k x, G k = true → xs[k]? = some x → I s x) :
    p.run (G.close xs) s = (G.close (p.run xs s).1, (p.run xs s).2) := by
  induction xs, s using Process.run.induct p with
  | case1 xs s hs =>
    have hdue := due_of_soonest_none hs
    have hnone : p.soonest (G.close xs) = none := by
      cases hclose : p.soonest (G.close xs) with
      | none => rfl
      | some found =>
        obtain ⟨before, x, behind⟩ := found
        obtain ⟨hmem, hx⟩ := soonest_eq_some hclose
        have hx' := hdue x (Gaps.mem_of_mem_close (G := G) (by simp [hmem]))
        rw [hx'] at hx
        cases hx
    rw [run_of_soonest_none hnone, run_of_soonest_none hs]
  | case2 xs s before x behind hs ih =>
    obtain ⟨rfl, hx⟩ := soonest_eq_some hs
    have hat : (before ++ x :: behind)[before.length]? = some x := by simp
    have hset : before ++ (p.act x s).1 :: behind =
        (before ++ x :: behind).set before.length (p.act x s).1 := by simp
    -- What stands in the gaps after the act changes nothing either.
    have hrest : ∀ k y, G k = true → (before ++ (p.act x s).1 :: behind)[k]? = some y →
        I (p.act x s).2 y := by
      intro k y hk hy
      rw [hset] at hy
      by_cases hne : before.length = k
      · subst hne
        rw [List.getElem?_set_self (List.getElem?_eq_some_iff.mp hat).1] at hy
        cases hy
        obtain ⟨hsame, hidle'⟩ := hidle s x (h _ x hk hat) hx
        rwa [hsame]
      · rw [List.getElem?_set_ne hne] at hy
        exact hkeep s y x (h k y hk hy) hx
    rw [run_of_soonest_some hs, ← ih hrest]
    cases hG : G before.length with
    | true => rw [hset, Gaps.close_set_of_gap hG, (hidle s x (h _ x hG hat) hx).1]
    | false => rw [run_of_soonest_some (soonest_close hs hG), Gaps.close_append_cons hG]

end Process

end Interchange
