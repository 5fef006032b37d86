-- SUMMARY: Infinite executions of a transition system, weak fairness, and the rule that a decreasing rank ends a wait.
import JotaGateway.Base.Transition

/-!
# Fair executions

An infinite execution of a system and weak fairness for a set of helpful
actions: if some helpful action is enabled from a point on, one is taken. A
state predicate that keeps a helpful action enabled, with a rank that no step
raises and every helpful step lowers, cannot last.
-/

namespace Transition

variable {σ α : Type*}

structure Execution (step : σ → α → Option σ) (s₀ : σ) where
  state : ℕ → σ
  action : ℕ → α
  starts : state 0 = s₀
  steps : ∀ n, step (state n) (action n) = some (state (n + 1))

namespace Execution

variable {step : σ → α → Option σ} {s₀ : σ} (e : Execution step s₀)

theorem reachable (n : ℕ) : Reachable step s₀ (e.state n) := by
  induction n with
  | zero =>
    rw [e.starts]
    exact .start
  | succ n ih => exact .next ih trivial (e.steps n)

/-- What every step keeps holds from then on. -/
theorem stable {p : σ → Prop} (hstep : ∀ s a s', p s → step s a = some s' → p s') {n m : ℕ}
    (hn : p (e.state n)) (hle : n ≤ m) : p (e.state m) := by
  induction hle with
  | refl => exact hn
  | step _ ih => exact hstep _ _ _ ih (e.steps _)

/-- Some action in `helps` can be taken. -/
def Enabled (step : σ → α → Option σ) (helps : α → Prop) (s : σ) : Prop :=
  ∃ a, helps a ∧ (step s a).isSome

/-- An action in `helps` that stays possible is taken in the end. -/
def WeaklyFair (helps : α → Prop) : Prop :=
  ∀ n, (∀ m ≥ n, Enabled step helps (e.state m)) → ∃ m ≥ n, helps (e.action m)

variable {e} {helps : α → Prop}

theorem rank_antitone {wait : σ → Prop} {rank : σ → ℕ} {n : ℕ} (hwait : ∀ m, n ≤ m → wait (e.state m))
    (hrank : ∀ s a s', Reachable step s₀ s → wait s → step s a = some s' → wait s' →
      rank s' ≤ rank s) (k : ℕ) : rank (e.state (n + k)) ≤ rank (e.state n) := by
  induction k with
  | zero => exact Nat.le_refl _
  | succ k ih =>
    have hlater : n ≤ n + k := Nat.le_add_right n k
    have hstep := hrank _ _ _ (e.reachable (n + k)) (hwait _ hlater) (e.steps (n + k))
      (hwait _ (Nat.le_succ_of_le hlater))
    exact Nat.le_trans hstep ih

/-- A wait during which someone can always help, and in which every helpful step lowers a
rank that nothing raises, comes to an end. -/
theorem wait_ends (wait : σ → Prop) (rank : σ → ℕ) (hfair : e.WeaklyFair helps)
    (henabled : ∀ s, Reachable step s₀ s → wait s → Enabled step helps s)
    (hrank : ∀ s a s', Reachable step s₀ s → wait s → step s a = some s' → wait s' →
      rank s' ≤ rank s ∧ (helps a → rank s' < rank s)) (n : ℕ) :
    ∃ m ≥ n, ¬ wait (e.state m) := by
  by_contra hforever
  have hwait : ∀ m, n ≤ m → wait (e.state m) := by
    intro m hm
    by_contra hends
    exact hforever ⟨m, hm, hends⟩
  clear hforever
  -- by strong induction on the rank: a helpful step comes, and what follows it ranks lower
  induction hr : rank (e.state n) using Nat.strongRecOn generalizing n with
  | ind r ih =>
    obtain ⟨m, hm, hhelps⟩ := hfair n fun m hm => henabled _ (e.reachable m) (hwait m hm)
    obtain ⟨k, rfl⟩ := Nat.exists_eq_add_of_le hm
    have hle := rank_antitone hwait (fun s a s' hs hw hstep hw' => (hrank s a s' hs hw hstep hw').1) k
    have hnext : n ≤ n + k + 1 := Nat.le_succ_of_le hm
    have hlt := (hrank _ _ _ (e.reachable (n + k)) (hwait _ hm) (e.steps (n + k))
      (hwait _ hnext)).2 hhelps
    refine ih (rank (e.state (n + k + 1))) ?_ (n + k + 1) (fun m hm => hwait m ?_) rfl
    · omega
    · omega

end Execution

end Transition
