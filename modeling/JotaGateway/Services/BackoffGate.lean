-- SUMMARY: `LazyBackoffGate` with its clock, as the log of the attempts it let through, and the TTS client whose connects it gates.
import JotaGateway.Base.Transition
import JotaGateway.Python.Value
import JotaGateway.Services.Reconnection
import Mathlib.Algebra.Order.Field.Rat
import Mathlib.Tactic.Linarith
import Mathlib.Tactic.NormNum

/-!
# The backoff gate

Attempts overlap and end in any order. The log says which began, failed and
succeeded, the newest first; a failure that does not count is not in it. The
gate is a function of the log, and the log is lawful: that is what its two
counters are for.
-/

namespace Backoff

open Transition

/-- The settings of a gate. -/
structure Windows where
  initialBackoff : ℚ
  maxBackoff : ℚ
  pos : 0 < initialBackoff
  le : initialBackoff ≤ maxBackoff

/-- The window after `k` failures. -/
def Windows.after (w : Windows) (k : Nat) : ℚ := min (w.initialBackoff * 2 ^ k) w.maxBackoff

theorem Windows.after_zero (w : Windows) : w.after 0 = w.initialBackoff := by
  rw [Windows.after, pow_zero, mul_one, min_eq_left w.le]

theorem Windows.after_succ (w : Windows) (k : Nat) :
    w.after (k + 1) = min (w.after k * 2) w.maxBackoff := by
  have hmax : w.maxBackoff ≤ w.maxBackoff * 2 := by
    linarith [w.pos.trans_le w.le]
  rw [Windows.after, Windows.after, min_mul_of_nonneg _ _ zero_le_two, min_assoc,
    min_eq_right hmax, pow_succ, mul_assoc]

-- ---------------------------------------------------------------------------
-- The gate
-- ---------------------------------------------------------------------------

/-- `LazyBackoffGate` -/
structure Gate where
  windows : Windows
  backoff : ℚ
  lastFailureAt : Option ℚ := none
  /-- tokens handed out so far -/
  started : Nat := 0
  /-- `started` at the last recorded outcome -/
  marker : Nat := 0

namespace Gate

/-- The window from the last failure has not elapsed. -/
def within (g : Gate) (now : ℚ) : Bool :=
  match g.lastFailureAt with
  | some last => now - last < g.backoff
  | none => false

def begin (g : Gate) (now : ℚ) : Gate × Option Nat :=
  if g.within now then (g, none)
  else ({ g with started := g.started + 1 }, some (g.started + 1))

def recordFailure (g : Gate) (token : Nat) (now : ℚ) : Gate × Bool :=
  if token ≤ g.marker then (g, false)
  else
    ({ g with
      marker := g.started
      lastFailureAt := some now
      backoff := min (g.backoff * 2) g.windows.maxBackoff }, true)

def recordSuccess (g : Gate) : Gate :=
  { g with
    marker := max g.marker g.started
    lastFailureAt := none
    backoff := g.windows.initialBackoff }

/-- The gate without its clock. -/
def untimed (g : Gate) : LazyBackoffGate where
  started := g.started
  marker := g.marker
  failed := g.lastFailureAt.isSome

theorem untimed_begin (g : Gate) (now : ℚ) :
    (g.untimed.begin (g.within now)) = ((g.begin now).1.untimed, (g.begin now).2) := by
  unfold begin LazyBackoffGate.begin
  cases hlast : g.lastFailureAt with
  | none =>
    have hwithin : g.within now = false := by
      rw [within, hlast]
    simp only [hwithin, Bool.and_false, Bool.false_eq_true, if_false, untimed, hlast]
  | some last =>
    have hfailed : g.untimed.failed = true := by
      rw [untimed, hlast]
      rfl
    simp only [hfailed, Bool.true_and]
    split <;> rfl

theorem untimed_recordFailure (g : Gate) (token : Nat) (now : ℚ) :
    g.untimed.recordFailure token = (g.recordFailure token now).1.untimed ∧
      g.untimed.applies token = (g.recordFailure token now).2 := by
  unfold recordFailure LazyBackoffGate.recordFailure LazyBackoffGate.applies
  by_cases hle : token ≤ g.marker
  · have hnot : ¬ g.untimed.marker < token := Nat.not_lt.mpr hle
    simp only [hle, hnot, if_true, decide_false, Bool.false_eq_true, if_false, and_self]
  · have hlt : g.untimed.marker < token := Nat.not_le.mp hle
    simp only [hle, hlt, if_false, decide_true, if_true, and_true]
    rfl

/-- The result says whether the token is newer than the last outcome. -/
theorem recordFailure_snd (g : Gate) (token : Nat) (now : ℚ) :
    (g.recordFailure token now).2 = true ↔ g.marker < token := by
  unfold recordFailure
  split
  · exact iff_of_false Bool.false_ne_true (Nat.not_lt.mpr ‹_›)
  · exact iff_of_true rfl (Nat.not_le.mp ‹_›)

theorem untimed_recordSuccess (g : Gate) : g.untimed.recordSuccess = g.recordSuccess.untimed := rfl

end Gate

-- ---------------------------------------------------------------------------
-- The log
-- ---------------------------------------------------------------------------

inductive Event where
  | begun (token : Nat) (time : ℚ)
  /-- a failure that counted, and the window it set -/
  | failed (token : Nat) (time window : ℚ)
  | succeeded (time : ℚ)
  deriving DecidableEq

namespace Event

def time : Event → ℚ
  | .begun _ time | .failed _ time _ | .succeeded time => time

/-- It is a recorded outcome. -/
def outcome : Event → Bool
  | .begun _ _ => false
  | .failed _ _ _ | .succeeded _ => true

end Event

/-- How many attempts have begun. -/
def started : List Event → Nat
  | [] => 0
  | .begun _ _ :: older => started older + 1
  | _ :: older => started older

/-- How many had begun at the last recorded outcome. -/
def marker : List Event → Nat
  | [] => 0
  | .begun _ _ :: older => marker older
  | _ :: older => started older

/-- The failures that counted since the last success. -/
def failures : List Event → Nat
  | [] | .succeeded _ :: _ => 0
  | .failed _ _ _ :: older => failures older + 1
  | .begun _ _ :: older => failures older

/-- When the last of them was. -/
def lastFailure : List Event → Option ℚ
  | [] | .succeeded _ :: _ => none
  | .failed _ time _ :: _ => some time
  | .begun _ _ :: older => lastFailure older

/-- The time of `e` is not before anything in the log. -/
def Latest (log : List Event) (time : ℚ) : Prop := ∀ e ∈ log, e.time ≤ time

/-- What a gate may let happen. -/
inductive Lawful (w : Windows) : List Event → Prop where
  | nil : Lawful w []
  /-- no attempt begins within the window from the last failure -/
  | begun {log : List Event} {time : ℚ} (h : Lawful w log) (hlatest : Latest log time)
      (hwindow : ∀ last, lastFailure log = some last → w.after (failures log) ≤ time - last) :
      Lawful w (.begun (started log + 1) time :: log)
  /-- a failure counts if its attempt began after the last outcome -/
  | failed {log : List Event} {token : Nat} {time : ℚ} (h : Lawful w log)
      (hlatest : Latest log time) (hfresh : marker log < token) (hbegun : token ≤ started log) :
      Lawful w (.failed token time (w.after (failures log + 1)) :: log)
  | succeeded {log : List Event} {time : ℚ} (h : Lawful w log) (hlatest : Latest log time) :
      Lawful w (.succeeded time :: log)

variable {w : Windows} {log newer mid older : List Event} {token : Nat} {time : ℚ}

theorem marker_le (log : List Event) : marker log ≤ started log := by
  induction log with
  | nil => exact Nat.le_refl 0
  | cons e older ih =>
    cases e with
    | begun token time => exact Nat.le_succ_of_le ih
    | failed token time window => exact Nat.le_refl _
    | succeeded time => exact Nat.le_refl _

theorem started_append (newer older : List Event) :
    started older ≤ started (newer ++ older) := by
  induction newer with
  | nil => exact Nat.le_refl _
  | cons e newer ih =>
    cases e with
    | begun token time => exact Nat.le_succ_of_le ih
    | failed token time window => exact ih
    | succeeded time => exact ih

/-- Attempts that only begin change nothing about the outcomes. -/
theorem begun_append (h : ∀ e ∈ newer, e.outcome = false) :
    marker (newer ++ older) = marker older ∧ failures (newer ++ older) = failures older ∧
      lastFailure (newer ++ older) = lastFailure older := by
  induction newer with
  | nil => exact ⟨rfl, rfl, rfl⟩
  | cons e newer ih =>
    cases e with
    | begun token time => exact ih fun e he => h e (List.mem_cons_of_mem _ he)
    | failed token time window => cases h _ List.mem_cons_self
    | succeeded time => cases h _ List.mem_cons_self

/-- An outcome puts it behind all that had begun. -/
theorem started_le_marker (h : ∃ e ∈ newer, e.outcome = true) :
    started older ≤ marker (newer ++ older) := by
  induction newer with
  | nil =>
    obtain ⟨e, he, -⟩ := h
    cases he
  | cons e newer ih =>
    cases e with
    | begun token time =>
      obtain ⟨e, he, houtcome⟩ := h
      rcases List.mem_cons.mp he with rfl | he
      · cases houtcome
      · exact ih ⟨e, he, houtcome⟩
    | failed token time window => exact started_append newer older
    | succeeded time => exact started_append newer older

namespace Lawful

theorem tail {e : Event} (h : Lawful w (e :: log)) : Lawful w log ∧ Latest log e.time := by
  cases h with
  | begun h hlatest => exact ⟨h, hlatest⟩
  | failed h hlatest => exact ⟨h, hlatest⟩
  | succeeded h hlatest => exact ⟨h, hlatest⟩

/-- What was lawful with the newer part of a log was lawful without it. -/
theorem of_append (h : Lawful w (newer ++ older)) : Lawful w older := by
  induction newer with
  | nil => exact h
  | cons e newer ih => exact ih h.tail.1

/-- Each token is the number of attempts that had begun with it. -/
theorem token_eq (h : Lawful w (newer ++ .begun token time :: older)) :
    token = started older + 1 := by
  cases h.of_append
  rfl

/-- Every number up to the attempts that have begun is the token of one. -/
theorem begun_of_le (h : Lawful w log) (hpos : 0 < token) (hle : token ≤ started log) :
    ∃ newer time older, log = newer ++ .begun token time :: older := by
  induction h with
  | nil => exact absurd hpos (Nat.not_lt.mpr hle)
  | @begun log time h _ _ ih =>
    rcases Nat.lt_or_eq_of_le hle with hlt | rfl
    · obtain ⟨newer, time', older, rfl⟩ := ih (Nat.le_of_lt_succ hlt)
      exact ⟨_ :: newer, time', older, rfl⟩
    · exact ⟨[], time, log, rfl⟩
  | failed _ _ _ _ ih =>
    obtain ⟨newer, time', older, rfl⟩ := ih hle
    exact ⟨_ :: newer, time', older, rfl⟩
  | succeeded _ _ ih =>
    obtain ⟨newer, time', older, rfl⟩ := ih hle
    exact ⟨_ :: newer, time', older, rfl⟩

/-- The marker tells the attempts that began after the last outcome. -/
theorem marker_lt_iff (h : Lawful w (newer ++ .begun token time :: older)) :
    marker (newer ++ .begun token time :: older) < token ↔ ∀ e ∈ newer, e.outcome = false := by
  have htoken := h.token_eq
  constructor
  · intro hlt e he
    by_contra houtcome
    have hle : started (.begun token time :: older) ≤ marker (newer ++ .begun token time :: older) :=
      started_le_marker ⟨e, he, by simpa using houtcome⟩
    have hstarted : started (.begun token time :: older) = token := htoken.symm
    omega
  · intro hnone
    have hle := marker_le older
    rw [(begun_append hnone).1]
    change marker older < token
    omega

/-- A failure that counted, with its attempt: no outcome was recorded between them. -/
theorem failed_begun {window : ℚ} (h : Lawful w (.failed token time window :: log)) :
    window = w.after (failures log + 1) ∧ ∃ newer begunAt older,
      log = newer ++ .begun token begunAt :: older ∧ begunAt ≤ time ∧
        ∀ e ∈ newer, e.outcome = false := by
  cases h with
  | failed h hlatest hfresh hbegun =>
    obtain ⟨newer, begunAt, older, rfl⟩ := h.begun_of_le (Nat.zero_lt_of_lt hfresh) hbegun
    refine ⟨rfl, newer, begunAt, older, rfl, ?_, h.marker_lt_iff.mp hfresh⟩
    exact hlatest _ (List.mem_append_right _ List.mem_cons_self)

/-- Two failures that count, with no success between them, are a window apart. -/
theorem failed_apart {token' : Nat} {time' window window' : ℚ}
    (h : Lawful w (.failed token' time' window' :: (mid ++ .failed token time window :: older)))
    (hnone : ∀ e ∈ mid, e.outcome = false) : window ≤ time' - time := by
  obtain ⟨-, newer, begunAt, rest, hlog, hlate, hnewer⟩ := h.failed_begun
  have hmid := h.tail.1
  -- its attempt began after the first failure
  obtain ⟨between, rfl⟩ : ∃ between, rest = between ++ .failed token time window :: older := by
    rcases List.append_eq_append_iff.mp hlog with ⟨more, rfl, hmore⟩ | ⟨more, rfl, hmore⟩
    · cases more with
      | nil => cases hmore
      | cons e more =>
        obtain ⟨rfl, -⟩ := List.cons.inj hmore
        cases hnewer _ (List.mem_append_right _ List.mem_cons_self)
    · cases more with
      | nil => cases hmore
      | cons e more =>
        obtain ⟨-, rfl⟩ := List.cons.inj hmore
        exact ⟨more, rfl⟩
  rw [hlog] at hmid
  have hbegun := hmid.of_append
  have hbetween : ∀ e ∈ between, e.outcome = false := by
    intro e he
    refine hnone e ?_
    have hsplit : mid = newer ++ .begun token' begunAt :: between := by
      have hboth : mid ++ .failed token time window :: older =
          (newer ++ .begun token' begunAt :: between) ++ .failed token time window :: older := by
        rw [hlog, List.append_assoc, List.cons_append]
      exact List.append_cancel_right hboth
    rw [hsplit]
    exact List.mem_append_right _ (List.mem_cons_of_mem _ he)
  obtain ⟨-, hfailures, hlast⟩ :=
    @begun_append between (.failed token time window :: older) hbetween
  cases hbegun with
  | begun hbefore _ hwindow =>
    have hle := hwindow time hlast
    have hset : window = w.after (failures older + 1) := hbefore.of_append.failed_begun.1
    rw [hfailures, failures, ← hset] at hle
    linarith

end Lawful

-- ---------------------------------------------------------------------------
-- Runs of a gate
-- ---------------------------------------------------------------------------

structure State where
  gate : Gate
  now : ℚ
  log : List Event := []

/-- A new gate at time `now`. -/
def State.start (w : Windows) (now : ℚ) : State where
  gate := { windows := w, backoff := w.initialBackoff }
  now := now

inductive Call where
  | begin (time : ℚ)
  | recordFailure (token : Nat) (time : ℚ)
  | recordSuccess (time : ℚ)

/-- A call of the gate by anyone. The clock does not go back, and who records a failure has
its token from `begin`. -/
def step (s : State) : Call → Option State
  | .begin time =>
    if time < s.now then none
    else
      match s.gate.begin time with
      | (gate, none) => some { s with gate := gate, now := time }
      | (gate, some token) => some { gate := gate, now := time, log := .begun token time :: s.log }
  | .recordFailure token time =>
    if time < s.now || token == 0 || s.gate.started < token then none
    else
      match s.gate.recordFailure token time with
      | (gate, false) => some { s with gate := gate, now := time }
      | (gate, true) =>
        some { gate := gate, now := time, log := .failed token time gate.backoff :: s.log }
  | .recordSuccess time =>
    if time < s.now then none
    else some { gate := s.gate.recordSuccess, now := time, log := .succeeded time :: s.log }

/-- The gate that a log leaves behind. -/
def gateOf (w : Windows) (log : List Event) : Gate where
  windows := w
  backoff := w.after (failures log)
  lastFailureAt := lastFailure log
  started := started log
  marker := marker log

/-- The gate is that of its log, and the log is lawful. -/
structure Kept (w : Windows) (s : State) : Prop where
  gate : s.gate = gateOf w s.log
  lawful : Lawful w s.log
  latest : Latest s.log s.now

variable {s s' : State}

theorem Latest.later {now : ℚ} (h : Latest log now) (hle : now ≤ time) : Latest log time :=
  fun e he => (h e he).trans hle

theorem Latest.cons {e : Event} (h : Latest log time) (he : e.time = time) :
    Latest (e :: log) time := by
  intro e' he'
  rcases List.mem_cons.mp he' with rfl | he'
  · exact he.le
  · exact h e' he'

namespace Kept

theorem start (w : Windows) (now : ℚ) : Kept w (.start w now) := by
  refine ⟨?_, .nil, nofun⟩
  rw [State.start, gateOf, failures, w.after_zero]
  rfl

theorem begin (h : Kept w s) (hstep : step s (.begin time) = some s') : Kept w s' := by
  simp only [Backoff.step] at hstep
  split at hstep
  · cases hstep
  · rename_i hlt
    have hlate := h.latest.later (not_lt.mp hlt)
    unfold Gate.begin at hstep
    cases hwithin : s.gate.within time with
    | true =>
      rw [hwithin, if_pos rfl] at hstep
      cases hstep
      exact ⟨h.gate, h.lawful, hlate⟩
    | false =>
      rw [hwithin, if_neg Bool.false_ne_true] at hstep
      cases hstep
      have htoken : s.gate.started = started s.log := by
        rw [h.gate, gateOf]
      refine ⟨?_, ?_, hlate.cons rfl⟩
      · rw [h.gate]
        rfl
      · rw [htoken]
        refine .begun h.lawful hlate ?_
        intro last hlast
        rw [h.gate, Gate.within, gateOf, hlast, decide_eq_false_iff_not, not_lt] at hwithin
        exact hwithin

theorem recordFailure (h : Kept w s) (hstep : step s (.recordFailure token time) = some s') :
    Kept w s' := by
  simp only [Backoff.step] at hstep
  split at hstep
  · cases hstep
  · rename_i hcalled
    simp only [Bool.or_eq_true, decide_eq_true_eq, beq_iff_eq, not_or, not_lt] at hcalled
    obtain ⟨⟨hlt, -⟩, hbegun⟩ := hcalled
    have hlate := h.latest.later hlt
    have hgate := h.gate
    unfold Gate.recordFailure at hstep
    by_cases hstale : token ≤ s.gate.marker
    · rw [if_pos hstale] at hstep
      cases hstep
      exact ⟨h.gate, h.lawful, hlate⟩
    · rw [if_neg hstale] at hstep
      cases hstep
      have hwindow : min (s.gate.backoff * 2) s.gate.windows.maxBackoff =
          w.after (failures s.log + 1) := by
        rw [hgate, gateOf, ← w.after_succ]
      refine ⟨?_, ?_, hlate.cons rfl⟩
      · rw [gateOf, failures, ← hwindow, hgate]
        rfl
      · rw [hwindow]
        rw [hgate] at hstale hbegun
        exact .failed h.lawful hlate (Nat.not_le.mp hstale) hbegun

theorem recordSuccess (h : Kept w s) (hstep : step s (.recordSuccess time) = some s') :
    Kept w s' := by
  simp only [Backoff.step] at hstep
  split at hstep
  · cases hstep
  · rename_i hlt
    cases hstep
    have hlate := h.latest.later (not_lt.mp hlt)
    refine ⟨?_, .succeeded h.lawful hlate, hlate.cons rfl⟩
    rw [gateOf, failures, w.after_zero, h.gate, Gate.recordSuccess, gateOf]
    simp only [lastFailure, started, marker, Nat.max_eq_right (marker_le s.log)]

theorem step {c : Call} (h : Kept w s) (hstep : step s c = some s') : Kept w s' := by
  cases c with
  | begin time => exact h.begin hstep
  | recordFailure token time => exact h.recordFailure hstep
  | recordSuccess time => exact h.recordSuccess hstep

end Kept

theorem kept_of_reachable {now : ℚ} (h : Reachable step (.start w now) s) : Kept w s :=
  h.invariant (.start w now) fun _ _ _ hs _ hstep => hs.step hstep

/-- A failure is recorded only for an attempt that began after the last outcome, each doubles
the window, and those of one outage do not do it twice: each began when the window of the one
before it was over. -/
theorem gate_contract (w : Windows) (now : ℚ) (s : State) (h : Reachable step (.start w now) s) :
    (∀ newer token begunAt older time, s.log = newer ++ .begun token begunAt :: older →
      ((s.gate.recordFailure token time).2 = true ↔ ∀ e ∈ newer, e.outcome = false)) ∧
    s.gate.backoff = min (w.initialBackoff * 2 ^ failures s.log) w.maxBackoff ∧
    (∀ newer mid older token token' time time' window window',
      s.log = newer ++ .failed token' time' window' :: (mid ++ .failed token time window :: older) →
        (∀ e ∈ mid, e.outcome = false) →
          window = min (w.initialBackoff * 2 ^ (failures older + 1)) w.maxBackoff ∧
            window ≤ time' - time) ∧
    (∀ newer time older token begunAt later, s.log = newer ++ .succeeded time :: older →
      .begun token begunAt ∈ older → s.gate.recordFailure token later = (s.gate, false)) := by
  have hkept := kept_of_reachable h
  have hlawful := hkept.lawful
  have happlies : ∀ newer token begunAt older time, s.log = newer ++ .begun token begunAt :: older →
      ((s.gate.recordFailure token time).2 = true ↔ ∀ e ∈ newer, e.outcome = false) := by
    intro newer token begunAt older time hlog
    have hsplit : Lawful w (newer ++ .begun token begunAt :: older) := hlog ▸ hlawful
    rw [← hsplit.marker_lt_iff, ← hlog, Gate.recordFailure_snd, hkept.gate, gateOf]
  refine ⟨happlies, ?_, ?_, ?_⟩
  · rw [hkept.gate, gateOf, Windows.after]
  · intro newer mid older token token' time time' window window' hlog hmid
    rw [hlog] at hlawful
    have hboth := hlawful.of_append
    exact ⟨hboth.tail.1.of_append.failed_begun.1, hboth.failed_apart hmid⟩
  · intro newer time older token begunAt later hlog hbegun
    obtain ⟨more, older, rfl⟩ := List.append_of_mem hbegun
    have hsplit : s.log = (newer ++ .succeeded time :: more) ++ .begun token begunAt :: older := by
      rw [hlog, List.append_assoc, List.cons_append]
    have hstale := (happlies _ _ _ _ later hsplit).not.mpr fun hnone =>
      Bool.noConfusion (hnone (.succeeded time) (List.mem_append_right _ List.mem_cons_self))
    rw [Gate.recordFailure_snd, Nat.not_lt] at hstale
    exact if_pos hstale

/-- From one second to a minute. -/
def upToAMinute : Windows where
  initialBackoff := 1
  maxBackoff := 60
  pos := by norm_num
  le := by norm_num

/-- Two attempts overlap, the second is late, and a third fails when the window is over. -/
def overlapping : List Call :=
  [.begin 0, .begin 1, .recordFailure 2 2, .recordFailure 1 3, .begin 4, .recordFailure 3 5,
    .recordSuccess 6]

theorem gate_contract_overlapping :
    ∃ s, run step (.start upToAMinute 0) overlapping = some s ∧
      s.gate.recordFailure 1 7 = (s.gate, false) ∧ s.gate.backoff = 1 := by
  have hlog : (run step (.start upToAMinute 0) overlapping).map State.log =
      some [.succeeded 6, .failed 3 5 4, .begun 3 4, .failed 2 2 2, .begun 2 1, .begun 1 0] := by
    decide +kernel
  obtain ⟨s, hs, hlog⟩ := Option.map_eq_some_iff.mp hlog
  have hcontract := gate_contract _ _ _ (reachable_of_run hs)
  obtain ⟨-, hbackoff, -, hstale⟩ := hcontract
  refine ⟨s, hs, hstale [] 6 _ 1 0 7 hlog (by decide), ?_⟩
  rw [hbackoff, hlog, failures]
  norm_num [upToAMinute]

-- ---------------------------------------------------------------------------
-- The TTS client
-- ---------------------------------------------------------------------------

/-- `ReconnectingTTSClient`, shared by the turns. -/
structure Client where
  calls : State
  health : ServiceHealth := { state := .connected }
  reconnectAttempts : Nat := 0
  /-- the tokens of the connects under way -/
  connecting : List Nat := []

def Client.start (w : Windows) (now : ℚ) : Client where
  calls := .start w now

inductive Action where
  | connect (time : ℚ)
  | connectFails (token : Nat) (time : ℚ)
  | connected (token : Nat) (time : ℚ)
  /-- the turn is cancelled while it connects: nothing is recorded -/
  | cancelled (token : Nat)

namespace Client

/-- `_record_failure` -/
def recordFailure (c : Client) (token : Nat) (time : ℚ) : Option Client :=
  (Backoff.step c.calls (.recordFailure token time)).map fun calls =>
    if (c.calls.gate.recordFailure token time).2 then
      { c with
        calls
        reconnectAttempts := c.reconnectAttempts + 1
        health := c.health.setState .reconnecting }
    else { c with calls }

/-- `_record_success` -/
def recordSuccess (c : Client) (time : ℚ) : Option Client :=
  (Backoff.step c.calls (.recordSuccess time)).map fun calls =>
    { c with calls, reconnectAttempts := 0, health := c.health.markConnected }

/-- One step of one `connect`. -/
def step (c : Client) : Action → Option Client
  | .connect time =>
    (Backoff.step c.calls (.begin time)).map fun calls =>
      match (c.calls.gate.begin time).2 with
      | none => { c with calls }
      | some token => { c with calls, connecting := token :: c.connecting }
  | .connectFails token time =>
    if token ∈ c.connecting then
      { c with connecting := c.connecting.erase token }.recordFailure token time
    else none
  | .connected token time =>
    if token ∈ c.connecting then
      { c with connecting := c.connecting.erase token }.recordSuccess time
    else none
  | .cancelled token =>
    if token ∈ c.connecting then some { c with connecting := c.connecting.erase token } else none

/-- What `status()` says is what the log of the gate says. -/
structure Reports (w : Windows) (now : ℚ) (c : Client) : Prop where
  calls : Reachable Backoff.step (.start w now) c.calls
  attempts : c.reconnectAttempts = failures c.calls.log
  state : c.health.state =
    if (lastFailure c.calls.log).isSome then .reconnecting else .connected

variable {c c' : Client} {now : ℚ} {calls : State}

/-- A call that records nothing leaves the log as it was. -/
theorem begin_log (h : Backoff.step s (.begin time) = some s') :
    failures s'.log = failures s.log ∧ lastFailure s'.log = lastFailure s.log := by
  simp only [Backoff.step] at h
  split at h
  · cases h
  · split at h <;> cases h <;> exact ⟨rfl, rfl⟩

theorem recordFailure_log (h : Backoff.step s (.recordFailure token time) = some s') :
    if (s.gate.recordFailure token time).2 then
      failures s'.log = failures s.log + 1 ∧ lastFailure s'.log = some time
    else s'.log = s.log := by
  simp only [Backoff.step] at h
  split at h
  · cases h
  · split at h <;> rename_i happlied <;> cases h <;> rw [happlied]
    · exact rfl
    · exact ⟨rfl, rfl⟩

namespace Reports

theorem connecting (h : Reports w now c) (tokens : List Nat) :
    Reports w now { c with connecting := tokens } := ⟨h.calls, h.attempts, h.state⟩

theorem recordFailure (h : Reports w now c) (hc : c.recordFailure token time = some c') :
    Reports w now c' := by
  obtain ⟨calls, hcalls, rfl⟩ := Option.map_eq_some_iff.mp hc
  have hlog := recordFailure_log hcalls
  split at hlog
  · rename_i happlied
    rw [if_pos happlied]
    refine ⟨.next h.calls trivial hcalls, ?_, ?_⟩
    · rw [hlog.1, h.attempts]
    · rw [hlog.2, ServiceHealth.setState_state]
      rfl
  · rename_i happlied
    rw [if_neg happlied]
    refine ⟨.next h.calls trivial hcalls, ?_, ?_⟩
    · rw [hlog, h.attempts]
    · rw [hlog, h.state]

theorem recordSuccess (h : Reports w now c) (hc : c.recordSuccess time = some c') :
    Reports w now c' := by
  obtain ⟨calls, hcalls, rfl⟩ := Option.map_eq_some_iff.mp hc
  refine ⟨.next h.calls trivial hcalls, ?_, ?_⟩
  · simp only [Backoff.step] at hcalls
    split at hcalls <;> cases hcalls
    rfl
  · rw [ServiceHealth.markConnected_state]
    simp only [Backoff.step] at hcalls
    split at hcalls <;> cases hcalls
    rfl

theorem step {a : Action} (h : Reports w now c) (hc : c.step a = some c') : Reports w now c' := by
  cases a with
  | connect time =>
    obtain ⟨calls, hcalls, rfl⟩ := Option.map_eq_some_iff.mp hc
    obtain ⟨hfailures, hlast⟩ := begin_log hcalls
    have hreports : Reports w now { c with calls } := by
      refine ⟨.next h.calls trivial hcalls, ?_, ?_⟩
      · rw [hfailures, h.attempts]
      · rw [hlast, h.state]
    split
    · exact hreports
    · exact hreports.connecting _
  | connectFails token time =>
    simp only [Client.step] at hc
    split at hc
    · exact (h.connecting _).recordFailure hc
    · cases hc
  | connected token time =>
    simp only [Client.step] at hc
    split at hc
    · exact (h.connecting _).recordSuccess hc
    · cases hc
  | cancelled token =>
    simp only [Client.step] at hc
    split at hc <;> cases hc
    exact h.connecting _

end Reports

/-- The client is RECONNECTING from a failure that counts to the next success, and reports the
failures that counted: one for each window that has passed. -/
theorem reports_of_reachable (h : Reachable step (.start w now) c) : Reports w now c := by
  refine h.invariant ⟨.start, rfl, rfl⟩ ?_
  intro c a c' hc _ hstep
  exact hc.step hstep

end Client

end Backoff
