import Interchange.Time.Span

/-! # Processes on a virtual clock

A process waits for one moment after another and acts on a shared state at each of them. Several
processes run together by letting the one that is due soonest act, the first of those due at the same
moment. Every act lowers the rank of its process, so each run comes to an end, at which nothing is due
any more.
-/

namespace Interchange

/-- When processes of a kind are due, and what they do to the shared state then. -/
structure Process (σ τ : Type) where
  due : τ → Option Span
  act : τ → σ → τ × σ
  rank : τ → Nat
  rank_act : ∀ x s, (due x).isSome → rank (act x s).1 < rank x

namespace Process

variable {σ τ : Type}

/-- The process that is due soonest, between those before and those behind it. -/
def soonest (p : Process σ τ) : List τ → Option (List τ × τ × List τ)
  | [] => none
  | x :: xs =>
    match p.due x, soonest p xs with
    | none, none => none
    | none, some (before, y, behind) => some (x :: before, y, behind)
    | some _, none => some ([], x, xs)
    | some d, some (before, y, behind) =>
      if (p.due y).any (· < d) then some (x :: before, y, behind) else some ([], x, xs)

theorem soonest_eq_some {p : Process σ τ} {xs before behind : List τ} {y : τ}
    (h : p.soonest xs = some (before, y, behind)) :
    xs = before ++ y :: behind ∧ (p.due y).isSome := by
  induction xs generalizing before with
  | nil => simp [soonest] at h
  | cons x xs ih =>
    rw [soonest] at h
    split at h
    · cases h
    · next hs => cases h; simpa using ih hs
    · next hd _ => cases h; simp [hd]
    · next hd hs =>
      split at h
      · cases h; simpa using ih hs
      · cases h; simp [hd]

/-- The ranks of several processes together. -/
def totalRank (p : Process σ τ) : List τ → Nat
  | [] => 0
  | x :: xs => p.rank x + totalRank p xs

theorem totalRank_append (p : Process σ τ) (xs ys : List τ) :
    p.totalRank (xs ++ ys) = p.totalRank xs + p.totalRank ys := by
  induction xs with
  | nil => simp [totalRank]
  | cons x xs ih => simp [totalRank, ih, Nat.add_assoc]

theorem totalRank_act {p : Process σ τ} {xs before behind : List τ} {y : τ}
    (h : p.soonest xs = some (before, y, behind)) (s : σ) :
    p.totalRank (before ++ (p.act y s).1 :: behind) < p.totalRank xs := by
  obtain ⟨rfl, hd⟩ := soonest_eq_some h
  have := p.rank_act y s hd
  simp only [totalRank_append, totalRank]
  omega

/-- Let processes act until none is due. -/
def run (p : Process σ τ) (xs : List τ) (s : σ) : List τ × σ :=
  match _h : p.soonest xs with
  | none => (xs, s)
  | some (before, y, behind) => run p (before ++ (p.act y s).1 :: behind) (p.act y s).2
termination_by p.totalRank xs
decreasing_by exact totalRank_act _h s

end Process

end Interchange
