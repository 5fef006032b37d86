-- SUMMARY: `reconnect_with_backoff`: its attempts and capped sleeps, where it ends, and the `ServiceHealth` it leaves.
import JotaGateway.Services.BackoffGate
import Mathlib.Algebra.Order.Archimedean.Basic
import Mathlib.Data.Rat.Floor

/-!
# Reconnecting with backoff

The attempts of a service, the clock and the cancellations are a `World`. The
clock goes on by what an attempt takes and, in a sleep, by what was asked and
what it overslept. One iteration of the loop is one `turn`.
-/

namespace Reconnect

open Backoff (Windows)

-- ---------------------------------------------------------------------------
-- The health of a service
-- ---------------------------------------------------------------------------

/-- An `Exception`. -/
structure Raised where
  typeName : PyStr
  stableCode : Option PyStr := none

def describeError (e : Raised) : PyStr := e.stableCode.getD e.typeName

/-- `ServiceHealth` -/
structure Health where
  state : ConnectionState
  connectedAt : Option ℚ := none
  reconnectAttempts : Nat := 0
  lastError : Option PyStr := none
  onStateChange : Option (ConnectionState → Except Raised Unit) := none
  /-- the states the hook was called with -/
  called : List ConnectionState := []
  /-- what was logged of a hook that raised -/
  hookFailures : List PyStr := []

namespace Health

def setState (h : Health) (state : ConnectionState) : Health :=
  if state = h.state then h
  else
    let h := { h with state := state }
    match h.onStateChange with
    | none => h
    | some hook =>
      let h := { h with called := h.called ++ [state] }
      match hook state with
      | .ok () => h
      | .error e => { h with hookFailures := h.hookFailures ++ [describeError e] }

def markConnected (h : Health) (now : ℚ) : Health :=
  { h with connectedAt := some now, reconnectAttempts := 0, lastError := none }.setState .connected

def markAttemptFailed (h : Health) (error : PyStr) : Health :=
  { h with reconnectAttempts := h.reconnectAttempts + 1, lastError := some error }

/-- Without its hook and what came of it. -/
def unhooked (h : Health) : Health :=
  { h with onStateChange := none, called := [], hookFailures := [] }

/-- What the hook is called with for a transition. -/
def calls (h : Health) (state : ConnectionState) : List ConnectionState :=
  if state = h.state ∨ h.onStateChange.isNone then [] else [state]

/-- The state with the transitions its hook saw. -/
def observed (h : Health) : ServiceHealth := { state := h.state, fired := h.called }

variable (h : Health) (state : ConnectionState)

/-- What `set_state` does, whatever the hook does. -/
theorem setState_eq : ∃ failures, h.setState state =
    { h with state := state, called := h.called ++ h.calls state, hookFailures := failures } := by
  unfold setState calls
  by_cases hsame : state = h.state
  · subst hsame
    refine ⟨h.hookFailures, ?_⟩
    simp only [true_or, if_true, List.append_nil]
  · cases hhook : h.onStateChange with
    | none =>
      refine ⟨h.hookFailures, ?_⟩
      simp only [hsame, if_false, Option.isNone_none, or_true, if_true, List.append_nil]
    | some hook =>
      simp only [hsame, if_false, Option.isNone_some, Bool.false_eq_true, or_self]
      cases hook state with
      | ok _ => exact ⟨_, rfl⟩
      | error e => exact ⟨_, rfl⟩

@[simp] theorem setState_state : (h.setState state).state = state := by
  obtain ⟨_, heq⟩ := h.setState_eq state
  rw [heq]

@[simp] theorem setState_called : (h.setState state).called = h.called ++ h.calls state := by
  obtain ⟨_, heq⟩ := h.setState_eq state
  rw [heq]

@[simp] theorem setState_connectedAt : (h.setState state).connectedAt = h.connectedAt := by
  obtain ⟨_, heq⟩ := h.setState_eq state
  rw [heq]

@[simp] theorem setState_reconnectAttempts :
    (h.setState state).reconnectAttempts = h.reconnectAttempts := by
  obtain ⟨_, heq⟩ := h.setState_eq state
  rw [heq]

@[simp] theorem setState_lastError : (h.setState state).lastError = h.lastError := by
  obtain ⟨_, heq⟩ := h.setState_eq state
  rw [heq]

theorem unhooked_setState : (h.setState state).unhooked = h.unhooked.setState state := by
  obtain ⟨_, heq⟩ := h.setState_eq state
  rw [heq]
  unfold setState
  by_cases hsame : state = h.state
  · subst hsame
    exact (if_pos rfl).symm
  · exact (if_neg hsame).symm

theorem unhooked_markConnected (now : ℚ) :
    (h.markConnected now).unhooked = h.unhooked.markConnected now :=
  unhooked_setState _ _

end Health

-- ---------------------------------------------------------------------------
-- The loop
-- ---------------------------------------------------------------------------

/-- How `await attempt()` ends. -/
inductive Outcome where
  | returns
  | raises (e : Raised)
  | cancelled

structure Settings extends Windows where
  maxDuration : ℚ

/-- What the loop meets: attempt `i`, and the sleep after it. -/
structure World where
  start : ℚ
  outcome : Nat → Outcome
  took : Nat → ℚ≥0
  overslept : Nat → ℚ≥0
  /-- the sleep is cancelled -/
  interrupted : Nat → Bool
  /-- `datetime.now(UTC)` -/
  utcNow : Nat → ℚ

structure Loop where
  attempts : Nat := 0
  /-- `time.monotonic()` -/
  now : ℚ
  backoff : ℚ
  health : Health
  /-- the sleeps asked for -/
  sleeps : List ℚ := []

inductive Ended where
  | returned (recovered : Bool)
  | cancelled
  deriving DecidableEq

/-- One iteration of `while True`. -/
def turn (s : Settings) (w : World) (l : Loop) : Loop × Option Ended :=
  let i := l.attempts
  let l := { l with attempts := i + 1, now := l.now + w.took i }
  match w.outcome i with
  | .returns => ({ l with health := l.health.markConnected (w.utcNow i) }, some (.returned true))
  | .cancelled => (l, some .cancelled)
  | .raises e =>
    let l := { l with health := l.health.markAttemptFailed (describeError e) }
    if s.maxDuration ≤ l.now - w.start then
      ({ l with health := l.health.setState .degraded }, some (.returned false))
    else
      let l := { l with sleeps := l.sleeps ++ [l.backoff] }
      if w.interrupted i then (l, some .cancelled)
      else
        ({ l with
          now := l.now + l.backoff + w.overslept i
          backoff := min (l.backoff * 2) s.maxBackoff }, none)

/-- The loop, for at most `fuel` iterations. -/
def loop (s : Settings) (w : World) : Nat → Loop → Option (Loop × Ended)
  | 0, _ => none
  | fuel + 1, l =>
    match turn s w l with
    | (l, some e) => some (l, e)
    | (l, none) => loop s w fuel l

def reconnectWithBackoff (s : Settings) (w : World) (fuel : Nat) (health : Health) :
    Option (Loop × Ended) :=
  loop s w fuel { now := w.start, backoff := s.initialBackoff, health := health }

-- ---------------------------------------------------------------------------
-- What one iteration does
-- ---------------------------------------------------------------------------

/-- The first `k` sleeps. -/
def Settings.sleeps (s : Settings) (k : Nat) : List ℚ := (List.range k).map s.after

theorem Settings.sleeps_succ (s : Settings) (k : Nat) :
    s.sleeps (k + 1) = s.sleeps k ++ [s.after k] := by
  rw [sleeps, List.range_succ, List.map_append]
  rfl

theorem Settings.initial_le_after (s : Settings) (k : Nat) : s.initialBackoff ≤ s.after k := by
  refine le_min ?_ s.le
  exact le_mul_of_one_le_right s.pos.le (one_le_pow₀ one_le_two)

/-- The attempts so far have all failed, and the clock has gone on by their sleeps. -/
structure Trying (s : Settings) (w : World) (h₀ : Health) (l : Loop) : Prop where
  sleeps : l.sleeps = s.sleeps l.attempts
  backoff : l.backoff = s.after l.attempts
  clock : w.start + l.sleeps.sum ≤ l.now
  short : ∀ n, 1 ≤ n → n ≤ l.attempts → (s.sleeps (n - 1)).sum < s.maxDuration
  failed : ∀ i < l.attempts, ∃ e, w.outcome i = .raises e
  health : ∃ error, l.health =
    { h₀ with reconnectAttempts := h₀.reconnectAttempts + l.attempts, lastError := error }

/-- What the loop keeps to when it ends. -/
structure Contract (s : Settings) (w : World) (h₀ : Health) (l : Loop) (ended : Ended) : Prop where
  sleeps : ∃ k, l.sleeps = s.sleeps k ∧ l.attempts ≤ k + 1
  short : ∀ n, 1 ≤ n → n + 1 ≤ l.attempts → (s.sleeps (n - 1)).sum < s.maxDuration
  recovered : ended = .returned true ↔ ∃ i < l.attempts, w.outcome i = .returns
  exhausted : ended = .returned false ↔ ended ≠ .cancelled ∧
    ∀ i < l.attempts, w.outcome i ≠ .returns
  cancelled : ended = .cancelled → ∃ i, l.attempts = i + 1 ∧
    (w.outcome i = .cancelled ∨ w.interrupted i = true)
  connected : ended = .returned true → l.health.state = .connected ∧
    l.health.connectedAt.isSome = true ∧ l.health.reconnectAttempts = 0 ∧ l.health.lastError = none
  degraded : ended = .returned false → l.health.state = .degraded ∧
    l.health.reconnectAttempts = h₀.reconnectAttempts + l.attempts
  called : l.health.called = h₀.called ++ h₀.calls l.health.state

variable {s : Settings} {w : World} {h₀ : Health} {l l' : Loop} {ended : Ended}

theorem Trying.start : Trying s w h₀ { now := w.start, backoff := s.initialBackoff, health := h₀ } := by
  refine ⟨rfl, s.after_zero.symm, ?_, ?_, ?_, h₀.lastError, rfl⟩
  · simp only [List.sum_nil, add_zero, le_refl]
  · intro n hpos hle
    exact absurd hpos (Nat.not_le.mpr (Nat.lt_succ_of_le hle))
  · rintro i ⟨⟩

/-- With this attempt the sleeps before it are within the limit. -/
theorem Trying.within (h : Trying s w h₀ l) {n : Nat} (hpos : 1 ≤ n)
    (hle : n + 1 ≤ l.attempts + 1) : (s.sleeps (n - 1)).sum < s.maxDuration :=
  h.short n hpos (Nat.le_of_succ_le_succ hle)

theorem Trying.noSuccess (h : Trying s w h₀ l) {e : Raised} (he : w.outcome l.attempts = .raises e) :
    ∀ i < l.attempts + 1, ∃ e, w.outcome i = .raises e := by
  intro i hi
  cases Nat.lt_succ_iff_lt_or_eq.mp hi with
  | inl hlt => exact h.failed i hlt
  | inr heq => exact ⟨e, heq ▸ he⟩

theorem ne_returns {i : Nat} (h : ∃ e, w.outcome i = .raises e) : w.outcome i ≠ .returns := by
  obtain ⟨e, he⟩ := h
  rw [he]
  exact nofun

/-- An iteration that ends the loop. -/
theorem Trying.ends (h : Trying s w h₀ l) (hturn : turn s w l = (l', some ended)) :
    Contract s w h₀ l' ended := by
  obtain ⟨error, hhealth⟩ := h.health
  unfold turn at hturn
  dsimp only at hturn
  split at hturn
  case h_1 hout =>
    cases hturn
    refine ⟨⟨_, h.sleeps, Nat.le_refl _⟩, fun n hpos hle => h.within hpos hle, ?_, ?_, nofun, ?_, nofun, ?_⟩
    · exact iff_of_true rfl ⟨l.attempts, Nat.lt_succ_self _, hout⟩
    · refine iff_of_false nofun fun hnone => ?_
      exact hnone.2 l.attempts (Nat.lt_succ_self _) hout
    · intro _
      refine ⟨Health.setState_state _ _, ?_, ?_, ?_⟩
      · simp only [Health.markConnected, Health.setState_connectedAt, Option.isSome_some]
      · simp only [Health.markConnected, Health.setState_reconnectAttempts]
      · simp only [Health.markConnected, Health.setState_lastError]
    · simp only [Health.markConnected, Health.setState_called, Health.setState_state, hhealth]
      rfl
  case h_2 hout =>
    cases hturn
    have hfailed : ¬ ∃ i < l.attempts + 1, w.outcome i = .returns := by
      rintro ⟨i, hi, hsucceeded⟩
      cases Nat.lt_succ_iff_lt_or_eq.mp hi with
      | inl hlt => exact ne_returns (h.failed i hlt) hsucceeded
      | inr heq =>
        subst heq
        rw [hout] at hsucceeded
        cases hsucceeded
    refine ⟨⟨_, h.sleeps, Nat.le_refl _⟩, fun n hpos hle => h.within hpos hle, iff_of_false nofun hfailed, ?_,
      fun _ => ⟨l.attempts, rfl, .inl hout⟩, nofun, nofun, ?_⟩
    · exact iff_of_false nofun fun hnone => hnone.1 rfl
    · simp only [hhealth, Health.calls, true_or, if_true, List.append_nil]
  case h_3 e hout =>
    have hfailed := h.noSuccess hout
    have hnone : ¬ ∃ i < l.attempts + 1, w.outcome i = .returns := by
      rintro ⟨i, hi, hsucceeded⟩
      exact ne_returns (hfailed i hi) hsucceeded
    split at hturn
    · cases hturn
      refine ⟨⟨_, h.sleeps, Nat.le_refl _⟩, fun n hpos hle => h.within hpos hle, iff_of_false nofun hnone, ?_,
        nofun, nofun, ?_, ?_⟩
      · exact iff_of_true rfl ⟨nofun, fun i hi => ne_returns (hfailed i hi)⟩
      · intro _
        refine ⟨Health.setState_state _ _, ?_⟩
        simp only [Health.setState_reconnectAttempts, Health.markAttemptFailed, hhealth, add_assoc]
      · simp only [Health.setState_called, Health.setState_state, Health.markAttemptFailed, hhealth]
        rfl
    · split at hturn
      · rename_i hinterrupted
        cases hturn
        refine ⟨⟨l.attempts + 1, ?_, Nat.le_succ _⟩, fun n hpos hle => h.within hpos hle,
          iff_of_false nofun hnone, ?_, fun _ => ⟨l.attempts, rfl, .inr hinterrupted⟩, nofun, nofun,
          ?_⟩
        · rw [s.sleeps_succ, ← h.sleeps, ← h.backoff]
        · exact iff_of_false nofun fun hgone => hgone.1 rfl
        · simp only [Health.markAttemptFailed, hhealth, Health.calls, true_or, if_true,
            List.append_nil]
      · cases hturn

/-- An iteration that goes on has failed within the limit, and slept. -/
theorem Trying.goes (h : Trying s w h₀ l) (hturn : turn s w l = (l', none)) :
    Trying s w h₀ l' ∧ l'.sleeps.sum = l.sleeps.sum + s.after l.attempts ∧
      l.sleeps.sum < s.maxDuration := by
  obtain ⟨error, hhealth⟩ := h.health
  unfold turn at hturn
  dsimp only at hturn
  split at hturn
  · cases hturn
  · cases hturn
  · rename_i e hout
    split at hturn
    · cases hturn
    · rename_i helapsed
      split at hturn
      · cases hturn
      · cases hturn
        have htook : (0 : ℚ) ≤ w.took l.attempts := NNRat.coe_nonneg _
        have hslept : (0 : ℚ) ≤ w.overslept l.attempts := NNRat.coe_nonneg _
        have hlimit : l.sleeps.sum < s.maxDuration := by
          linarith [h.clock, not_le.mp helapsed]
        have hsum : (l.sleeps ++ [l.backoff]).sum = l.sleeps.sum + s.after l.attempts := by
          rw [List.sum_append, List.sum_singleton, h.backoff]
        refine ⟨⟨?_, ?_, ?_, ?_, h.noSuccess hout, some (describeError e), ?_⟩, hsum, hlimit⟩
        · rw [s.sleeps_succ, ← h.sleeps, ← h.backoff]
        · rw [s.after_succ, h.backoff]
        · rw [hsum, h.backoff]
          linarith [h.clock]
        · intro n hpos hle
          cases Nat.le_succ_iff.mp hle with
          | inl hold => exact h.short n hpos hold
          | inr hnew =>
            subst hnew
            rw [Nat.succ_sub_one, ← h.sleeps]
            exact hlimit
        · simp only [Health.markAttemptFailed, hhealth, add_assoc]

-- ---------------------------------------------------------------------------
-- The whole loop
-- ---------------------------------------------------------------------------

/-- It ends before its sleeps have added up to the limit and one more. -/
theorem Trying.loop_ends (h : Trying s w h₀ l) (fuel : Nat)
    (hfuel : s.maxDuration ≤ l.sleeps.sum + fuel * s.initialBackoff) :
    ∃ l' ended, loop s w (fuel + 1) l = some (l', ended) ∧ Contract s w h₀ l' ended := by
  induction fuel generalizing l with
  | zero =>
    rw [Nat.cast_zero, zero_mul, add_zero] at hfuel
    cases hturn : turn s w l with
    | mk l' next =>
      cases next with
      | some ended => exact ⟨l', ended, by rw [loop, hturn], h.ends hturn⟩
      | none => exact absurd (h.goes hturn).2.2 (not_lt.mpr hfuel)
  | succ fuel ih =>
    cases hturn : turn s w l with
    | mk l' next =>
      cases next with
      | some ended => exact ⟨l', ended, by rw [loop, hturn], h.ends hturn⟩
      | none =>
        obtain ⟨hnext, hsum, -⟩ := h.goes hturn
        have hfuel' : s.maxDuration ≤ l'.sleeps.sum + fuel * s.initialBackoff := by
          rw [hsum]
          push_cast at hfuel
          linarith [s.initial_le_after l.attempts]
        obtain ⟨l'', ended, hloop, hcontract⟩ := ih hnext hfuel'
        refine ⟨l'', ended, ?_, hcontract⟩
        rw [loop, hturn]
        exact hloop

/-- With a hook, the transition is the one the service's state makes. -/
theorem Contract.observed (h : Contract s w h₀ l ended) (hhook : h₀.onStateChange.isSome = true) :
    l.health.observed = h₀.observed.setState l.health.state := by
  have hsome : h₀.onStateChange.isNone = false := by
    rw [← Option.not_isSome, hhook]
    rfl
  unfold Health.observed ServiceHealth.setState
  rw [h.called, Health.calls]
  by_cases hsame : l.health.state = h₀.state
  · simp only [hsame, true_or, if_true, List.append_nil]
  · simp only [hsame, hsome, Bool.false_eq_true, or_self, if_false]

/-- More fuel changes nothing. -/
theorem loop_mono {fuel more : Nat} (hle : fuel ≤ more) {r : Loop × Ended}
    (h : loop s w fuel l = some r) : loop s w more l = some r := by
  induction fuel generalizing l more with
  | zero => cases h
  | succ fuel ih =>
    obtain ⟨more, rfl⟩ : ∃ k, more = k + 1 := ⟨more - 1, by omega⟩
    rw [loop] at h ⊢
    split at h
    · exact h
    · exact ih (Nat.le_of_succ_le_succ hle) h

/-- A loop without the hook of its health. -/
def Loop.unhooked (l : Loop) : Loop := { l with health := l.health.unhooked }

/-- What the hook does is not seen by the loop. -/
theorem turn_unhooked (s : Settings) (w : World) (l : Loop) :
    turn s w l.unhooked = ((turn s w l).1.unhooked, (turn s w l).2) := by
  unfold turn
  dsimp only [Loop.unhooked]
  split
  · rw [Health.unhooked_markConnected]
  · rfl
  · split
    · rw [Health.unhooked_setState]
      rfl
    · split <;> rfl

theorem loop_unhooked {fuel : Nat} (h : loop s w fuel l = some (l', ended)) :
    loop s w fuel l.unhooked = some (l'.unhooked, ended) := by
  induction fuel generalizing l with
  | zero => cases h
  | succ fuel ih =>
    rw [loop] at h ⊢
    rw [turn_unhooked]
    cases hturn : turn s w l with
    | mk l₁ next =>
      rw [hturn] at h
      cases next with
      | some e =>
        cases h
        rfl
      | none => exact ih h

/-- However the attempts end and whatever the hook raises, the loop ends, with as many attempts
as its sleeps allow, and says how; without the hook it does the same. -/
theorem reconnect_contract (s : Settings) (w : World) (health : Health) :
    ∃ l ended n, Contract s w health l ended ∧
      (∀ fuel ≥ n, reconnectWithBackoff s w fuel health = some (l, ended)) ∧
      ∀ fuel ≥ n, reconnectWithBackoff s w fuel health.unhooked = some (l.unhooked, ended) := by
  obtain ⟨k, hk⟩ := Archimedean.arch s.maxDuration s.pos
  rw [nsmul_eq_mul] at hk
  have hstart : Trying s w health { now := w.start, backoff := s.initialBackoff, health := health } :=
    .start
  obtain ⟨l, ended, hloop, hcontract⟩ := hstart.loop_ends k (by simpa using hk)
  refine ⟨l, ended, k + 1, hcontract, fun fuel hle => loop_mono hle hloop, fun fuel hle => ?_⟩
  exact loop_unhooked (loop_mono hle hloop)

end Reconnect
