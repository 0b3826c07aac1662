import GatewayAuth.Lib.Runs
import Mathlib.Order.WellFounded

/-!
Endless runs of a deterministic machine, and what is bound to happen in them.

Progress is a rank that goes down. It is enough that no step moves what is observed without
bringing its rank down, that some events are sure to bring it down, and that the run is fair to
these: what is observed is not left as it is for ever without one of them.
-/

namespace GatewayAuth.Lib.Fairness

open GatewayAuth.Lib.Runs

section Endless

variable {S E : Type*} (step : S → E → S) (s : S) (es : ℕ → E)

/-- The state after the first `n` events. -/
def upTo (n : ℕ) : S := run step s ((List.range n).map es)

@[simp] lemma upTo_zero : upTo step s es 0 = s := rfl

lemma upTo_succ (n : ℕ) : upTo step s es (n + 1) = step (upTo step s es n) (es n) := by
  simp [upTo, run, List.range_succ]

variable {step s es}

/-- The invariant rule from some point on. -/
lemma upTo_inv {I : S → Prop} {n : ℕ} (hstep : ∀ k ≥ n, I (upTo step s es k) →
    I (step (upTo step s es k) (es k))) (h : I (upTo step s es n)) {m : ℕ} (hm : n ≤ m) :
    I (upTo step s es m) := by
  induction m, hm using Nat.le_induction with
  | base => exact h
  | succ k hk ih =>
    rw [upTo_succ]
    exact hstep k hk ih

end Endless

section Progress

variable {X α : Type*} [Preorder α] {σ : ℕ → X} {rank : X → α} {goal : X → Prop} {n : ℕ}

/-- What is observed stays until its rank goes down. -/
lemma exists_lt_or_eq
    (hstep : ∀ k ≥ n, ¬goal (σ k) → σ (k + 1) = σ k ∨ rank (σ (k + 1)) < rank (σ k))
    (hn : ¬goal (σ n)) {m : ℕ} (hm : n ≤ m) :
    (∃ k ≥ n, rank (σ k) < rank (σ n)) ∨ σ m = σ n := by
  induction m, hm using Nat.le_induction with
  | base => exact .inr rfl
  | succ k hk ih =>
    rcases ih with hlt | heq
    · exact .inl hlt
    · rcases hstep k hk (heq ▸ hn) with hsame | hlt
      · exact .inr (hsame.trans heq)
      · exact .inl ⟨k + 1, hk.trans k.le_succ, heq ▸ hlt⟩

/-- **The progress rule.** A run reaches its goal if no step short of it moves what is observed
without bringing its rank down, helpful events bring the rank down, and what is observed is not
left as it is for ever without a helpful event. -/
lemma exists_goal [WellFoundedLT α] (σ : ℕ → X) (rank : X → α) (goal : X → Prop)
    (helps : X → ℕ → Prop)
    (hstep : ∀ k ≥ n, ¬goal (σ k) → σ (k + 1) = σ k ∨ rank (σ (k + 1)) < rank (σ k))
    (hhelp : ∀ k ≥ n, ¬goal (σ k) → helps (σ k) k → rank (σ (k + 1)) < rank (σ k))
    (hfair : ∀ k ≥ n, ¬goal (σ k) → (∀ m ≥ k, σ m = σ k) → ∃ m ≥ k, helps (σ k) m) :
    ∃ m ≥ n, goal (σ m) := by
  induction hr : rank (σ n) using WellFoundedLT.induction generalizing n with
  | ind r ih =>
    subst hr
    by_cases hn : goal (σ n)
    · exact ⟨n, le_rfl, hn⟩
    obtain ⟨k, hk, hlt⟩ : ∃ k ≥ n, rank (σ k) < rank (σ n) := by
      by_contra hnever
      have hstill : ∀ m ≥ n, σ m = σ n := fun m hm =>
        (exists_lt_or_eq hstep hn hm).resolve_left hnever
      obtain ⟨m, hm, hhelps⟩ := hfair n le_rfl hn hstill
      have heq := hstill m hm
      have hlt := hhelp m hm (heq ▸ hn) (heq ▸ hhelps)
      exact hnever ⟨m + 1, hm.trans m.le_succ, heq ▸ hlt⟩
    obtain ⟨m, hm, hgoal⟩ := ih _ hlt (fun j hj => hstep j (hk.trans hj))
      (fun j hj => hhelp j (hk.trans hj)) (fun j hj => hfair j (hk.trans hj)) rfl
    exact ⟨m, hk.trans hm, hgoal⟩

end Progress

end GatewayAuth.Lib.Fairness
