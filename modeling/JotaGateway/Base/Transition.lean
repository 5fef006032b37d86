-- SUMMARY: Executable transition systems: reachability under a condition on the steps, and its invariant rule.
import Mathlib.Tactic.Common

/-!
# Transition systems

A system is a function `step : σ → α → Option σ`: what action `a` does in state
`s`, and `none` where it is not enabled. A run is any sequence of enabled
actions, so a property of all runs covers every interleaving.
-/

namespace Transition

variable {σ α : Type*} {step : σ → α → Option σ} {ok : σ → α → Prop} {s₀ s s' : σ}

/-- Takes `actions` in order. -/
def run (step : σ → α → Option σ) : σ → List α → Option σ
  | s, [] => some s
  | s, a :: rest => (step s a).bind fun s' => run step s' rest

/-- The steps that meet `ok`. -/
def guarded (step : σ → α → Option σ) (ok : σ → α → Bool) (s : σ) (a : α) : Option σ :=
  if ok s a then step s a else none

/-- Reachable from `s₀` by steps that all meet `ok`. -/
inductive ReachableBy (step : σ → α → Option σ) (ok : σ → α → Prop) (s₀ : σ) : σ → Prop where
  | start : ReachableBy step ok s₀ s₀
  | next {s s' : σ} {a : α} (run : ReachableBy step ok s₀ s) (hok : ok s a)
      (hstep : step s a = some s') : ReachableBy step ok s₀ s'

/-- Reachable from `s₀` by any steps. -/
abbrev Reachable (step : σ → α → Option σ) (s₀ : σ) : σ → Prop :=
  ReachableBy step (fun _ _ => True) s₀

namespace ReachableBy

/-- What holds at the start and is kept by every step that meets `ok` holds in every
reachable state. -/
theorem invariant {Inv : σ → Prop} (h : ReachableBy step ok s₀ s) (hstart : Inv s₀)
    (hstep : ∀ s a s', Inv s → ok s a → step s a = some s' → Inv s') : Inv s := by
  induction h with
  | start => exact hstart
  | next _ hok hs ih => exact hstep _ _ _ ih hok hs

/-- A run under a condition is a run under any weaker one. -/
theorem mono {ok' : σ → α → Prop} (h : ReachableBy step ok s₀ s) (hle : ∀ s a, ok s a → ok' s a) :
    ReachableBy step ok' s₀ s := by
  induction h with
  | start => exact .start
  | next _ hok hs ih => exact .next ih (hle _ _ hok) hs

theorem reachable (h : ReachableBy step ok s₀ s) : Reachable step s₀ s :=
  h.mono fun _ _ _ => trivial

theorem trans {s₁ : σ} (h₁ : ReachableBy step ok s₀ s₁) (h₂ : ReachableBy step ok s₁ s) :
    ReachableBy step ok s₀ s := by
  induction h₂ with
  | start => exact h₁
  | next _ hok hs ih => exact .next ih hok hs

end ReachableBy

theorem reachableBy_of_run {ok : σ → α → Bool} {actions : List α}
    (h : run (guarded step ok) s actions = some s') :
    ReachableBy step (fun s a => ok s a = true) s s' := by
  induction actions generalizing s with
  | nil =>
    obtain rfl : s = s' := Option.some.inj h
    exact .start
  | cons a rest ih =>
    simp only [run, Option.bind_eq_some_iff] at h
    obtain ⟨s₁, hstep, hrest⟩ := h
    unfold guarded at hstep
    split at hstep
    · rename_i hok
      have hnext : ReachableBy step (fun s a => ok s a = true) s s₁ := .next .start hok hstep
      exact hnext.trans (ih hrest)
    · cases hstep

/-- Runs are put one after the other. -/
theorem run_append {s₁ : σ} {actions rest : List α} (h : run step s actions = some s₁)
    (hrest : run step s₁ rest = some s') : run step s (actions ++ rest) = some s' := by
  induction actions generalizing s with
  | nil =>
    obtain rfl : s = s₁ := Option.some.inj h
    exact hrest
  | cons a more ih =>
    simp only [run, Option.bind_eq_some_iff] at h
    obtain ⟨s₂, hstep, hmore⟩ := h
    simp only [List.cons_append, run, hstep, Option.bind_some]
    exact ih hmore

theorem reachable_of_run {actions : List α} (h : run step s actions = some s') :
    Reachable step s s' := by
  have hall : guarded step (fun _ _ => true) = step := by
    funext s a
    rfl
  rw [← hall] at h
  exact (reachableBy_of_run h).reachable

/-- A map of the states that commutes with every step commutes with runs. -/
theorem run_map {σ' α' : Type*} {step' : σ' → α' → Option σ'} {f : σ → σ'} {g : α → α'}
    (h : ∀ s a, step' (f s) (g a) = (step s a).map f) (s : σ) (actions : List α) :
    run step' (f s) (actions.map g) = (run step s actions).map f := by
  induction actions generalizing s with
  | nil => rfl
  | cons a rest ih =>
    simp only [List.map_cons, run, h]
    cases step s a with
    | none => rfl
    | some s₁ => exact ih s₁

/-- What no step but those of `A` brings about, and no step takes back, holds at the end of a
run where it held at the start or a step of `A` was taken. -/
theorem run_latch {Inv P : σ → Prop} {A : α → Prop}
    (hinv : ∀ s a s', Inv s → step s a = some s' → Inv s')
    (hstep : ∀ s a s', Inv s → step s a = some s' → (P s' ↔ P s ∨ A a))
    {actions : List α} (hs : Inv s) (h : run step s actions = some s') :
    P s' ↔ P s ∨ ∃ a ∈ actions, A a := by
  induction actions generalizing s with
  | nil =>
    obtain rfl : s = s' := Option.some.inj h
    simp
  | cons a rest ih =>
    simp only [run, Option.bind_eq_some_iff] at h
    obtain ⟨s₁, hs₁, hrest⟩ := h
    rw [ih (hinv _ _ _ hs hs₁) hrest, hstep _ _ _ hs hs₁]
    simp only [List.mem_cons, exists_eq_or_imp, or_assoc]

-- ---------------------------------------------------------------------------
-- What was so before
-- ---------------------------------------------------------------------------

/-- In the run of `actions` from `s₀` there was a state with `P`, or there is now. -/
def Past (step : σ → α → Option σ) (s₀ : σ) (actions : List α) (P : σ → Prop) : Prop :=
  ∃ before after s, actions = before ++ after ∧ run step s₀ before = some s ∧ P s

section Past

variable {P Q : σ → Prop} {actions : List α} {a : α}

theorem Past.now (h : run step s₀ actions = some s) (hP : P s) : Past step s₀ actions P :=
  ⟨actions, [], s, (List.append_nil _).symm, h, hP⟩

theorem Past.later (h : Past step s₀ actions P) : Past step s₀ (actions ++ [a]) P := by
  obtain ⟨before, after, s, rfl, hrun, hP⟩ := h
  exact ⟨before, after ++ [a], s, List.append_assoc _ _ _, hrun, hP⟩

theorem Past.imp (h : Past step s₀ actions P) (himp : ∀ s, Reachable step s₀ s → P s → Q s) :
    Past step s₀ actions Q := by
  obtain ⟨before, after, s, heq, hrun, hP⟩ := h
  exact ⟨before, after, s, heq, hrun, himp s (reachable_of_run hrun) hP⟩

/-- What holds at the start and is kept by every step holds at the end of every run. It may speak of
the steps taken. -/
theorem run_invariant {Inv : List α → σ → Prop} (hstart : Inv [] s₀)
    (hstep : ∀ actions s a s', run step s₀ actions = some s → Inv actions s → step s a = some s' →
      Inv (actions ++ [a]) s') (h : run step s₀ actions = some s) : Inv actions s := by
  have hgoes : ∀ rest done s₁, run step s₀ done = some s₁ → Inv done s₁ →
      run step s₁ rest = some s → Inv (done ++ rest) s := by
    intro rest
    induction rest with
    | nil =>
      intro done s₁ _ hinv hrest
      obtain rfl : s₁ = s := Option.some.inj hrest
      rw [List.append_nil]
      exact hinv
    | cons a rest ih =>
      intro done s₁ hdone hinv hrest
      simp only [run, Option.bind_eq_some_iff] at hrest
      obtain ⟨s₂, hs₂, hrest⟩ := hrest
      have hnext : run step s₁ [a] = some s₂ := by
        rw [run, hs₂]
        rfl
      rw [List.append_cons]
      exact ih (done ++ [a]) s₂ (run_append hdone hnext) (hstep done s₁ a s₂ hdone hinv hs₂) hrest
  exact hgoes actions [] s₀ rfl hstart h

end Past

end Transition
