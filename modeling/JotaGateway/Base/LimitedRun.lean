-- SUMMARY: Runs under limits: a machine that stops at the first step that exceeds one, against the same machine without limits.
import JotaGateway.Base.Transition

/-!
# Limited runs

A machine reads its input one piece at a time, and a piece that it cannot take
stops it. Under limits it also stops after a step that exceeds one. Which error
comes first does not matter to the results here: a limited run ends in a limit
exactly if the machine without limits comes to a step that exceeds it.
-/

namespace LimitedRun

open Transition

variable {σ α ε : Type*} {step : σ → α → Option σ} {exceeds : σ → α → Option ε} {s s' : σ}
  {input : List α}

/-- Why a limited run ends early: the machine cannot go on, or a limit is exceeded. -/
inductive Stop (ε : Type*) where
  | stuck
  | limit (e : ε)
  deriving DecidableEq, Repr

/-- Takes `input` in order, under limits. -/
def limited (step : σ → α → Option σ) (exceeds : σ → α → Option ε) :
    σ → List α → Except (Stop ε) σ
  | s, [] => .ok s
  | s, a :: rest =>
    match step s a with
    | none => .error .stuck
    | some s' =>
      match exceeds s' a with
      | some e => .error (.limit e)
      | none => limited step exceeds s' rest

/-- The machine without limits comes to a step that exceeds one. -/
def Exceeds (step : σ → α → Option σ) (exceeds : σ → α → Option ε) (s : σ) (input : List α) :
    Prop :=
  ∃ before a after s₁ s₂, input = before ++ a :: after ∧ run step s before = some s₁ ∧
    step s₁ a = some s₂ ∧ (exceeds s₂ a).isSome = true

theorem not_exceeds_nil : ¬ Exceeds step exceeds s [] := by
  rintro ⟨before, a, after, s₁, s₂, hinput, -⟩
  cases before <;> cases hinput

/-- Either the first step exceeds a limit, or a later one does. -/
theorem exceeds_cons {a : α} {rest : List α} :
    Exceeds step exceeds s (a :: rest) ↔
      ∃ s', step s a = some s' ∧ ((exceeds s' a).isSome = true ∨ Exceeds step exceeds s' rest) := by
  constructor
  · rintro ⟨before, b, after, s₁, s₂, hinput, hrun, hstep, hexceeds⟩
    cases before with
    | nil =>
      obtain ⟨rfl, rfl⟩ := List.cons_eq_cons.1 hinput
      obtain rfl : s = s₁ := Option.some.inj hrun
      exact ⟨s₂, hstep, .inl hexceeds⟩
    | cons c before =>
      obtain ⟨rfl, rfl⟩ := List.cons_eq_cons.1 hinput
      simp only [run, Option.bind_eq_some_iff] at hrun
      obtain ⟨s', hfirst, hrun⟩ := hrun
      exact ⟨s', hfirst, .inr ⟨before, b, after, s₁, s₂, rfl, hrun, hstep, hexceeds⟩⟩
  · rintro ⟨s', hfirst, hexceeds | ⟨before, b, after, s₁, s₂, rfl, hrun, hstep, hexceeds⟩⟩
    · exact ⟨[], a, rest, s, s', rfl, rfl, hfirst, hexceeds⟩
    · refine ⟨a :: before, b, after, s₁, s₂, rfl, ?_, hstep, hexceeds⟩
      simp only [run, hfirst, Option.bind_some]
      exact hrun

/-- A limited run ends well exactly if the run without limits does and exceeds none. -/
theorem limited_eq_ok :
    limited step exceeds s input = .ok s' ↔
      run step s input = some s' ∧ ¬ Exceeds step exceeds s input := by
  induction input generalizing s with
  | nil =>
    simp only [limited, run, Except.ok.injEq, Option.some.injEq]
    exact ⟨fun h => ⟨h, not_exceeds_nil⟩, And.left⟩
  | cons a rest ih =>
    rw [exceeds_cons]
    simp only [limited, run]
    cases hstep : step s a with
    | none => simp
    | some s₁ =>
      cases hexceeds : exceeds s₁ a with
      | none => simp [ih, hexceeds]
      | some e => simp [hexceeds]

/-- A limited run ends in a limit exactly if the run without limits comes to exceed one. -/
theorem limited_eq_limit :
    (∃ e, limited step exceeds s input = .error (.limit e)) ↔ Exceeds step exceeds s input := by
  induction input generalizing s with
  | nil => simp [limited, not_exceeds_nil]
  | cons a rest ih =>
    rw [exceeds_cons]
    simp only [limited]
    cases hstep : step s a with
    | none => simp
    | some s₁ =>
      cases hexceeds : exceeds s₁ a with
      | none => simp [ih, hexceeds]
      | some e => simp [hexceeds]

/-- What is left: the machine without limits gets stuck, and exceeds no limit before. -/
theorem limited_eq_stuck :
    limited step exceeds s input = .error .stuck ↔
      run step s input = none ∧ ¬ Exceeds step exceeds s input := by
  rw [← limited_eq_limit]
  cases hlimited : limited step exceeds s input with
  | ok s' =>
    obtain ⟨hrun, -⟩ := limited_eq_ok.1 hlimited
    simp [hrun]
  | error stop =>
    cases stop with
    | limit e => simp
    | stuck =>
      cases hrun : run step s input with
      | none => simp
      | some s' =>
        have hexceeds : ¬ Exceeds step exceeds s input := by
          rw [← limited_eq_limit, hlimited]
          simp
        cases (limited_eq_ok.2 ⟨hrun, hexceeds⟩).symm.trans hlimited

end LimitedRun
