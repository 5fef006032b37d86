-- SUMMARY: `_transcription_watchdog`: the strikes a session collects while its client sends audio and nothing is transcribed, and the close they end in.
import Mathlib.Algebra.Order.Group.Int
import Mathlib.Algebra.Order.Group.Unbundled.Basic
import Mathlib.Order.WithBot
import Mathlib.Data.List.Basic
import JotaGateway.Base.Transition
import JotaGateway.Services.Reconnection

/-!
# The silence watchdog

The watchdog looks at the session every `_WATCHDOG_POLL_S` seconds. Between two
of its looks the client sends audio, the transcriber publishes, drops, recovers
and reports itself busy or ok, and turns come and go. Times are those of
`time.monotonic()`; a time that is not set yet is `⊥`.
-/

open Transition

namespace SilenceWatchdog

variable {τ : Type*} [LinearOrder τ] [AddCommGroup τ]

-- ---------------------------------------------------------------------------
-- What the watchdog reads
-- ---------------------------------------------------------------------------

structure Config (τ : Type*) where
  silenceTimeout : τ
  maxSilenceTurns : Int
  /-- `warmup_s` of the provider -/
  warmup : τ
  /-- `_WATCHDOG_POLL_S` -/
  poll : τ
  /-- the sleep of the wait for the first audio -/
  audioPoll : τ
  pushTtsDrainTimeout : τ
  turnTimeout : τ

namespace Config

/-- `_audio_gap_s`. -/
def audioGap (c : Config τ) : τ := max c.silenceTimeout c.poll

/-- How long after the reference point `last` a tick strikes. -/
def timeout (c : Config τ) (last : τ) (burstStart : WithBot τ) : τ :=
  if last = burstStart then c.silenceTimeout + c.warmup else c.silenceTimeout

end Config

/-- What `_turn_in_flight` reads; a task counts where it is set and not done. -/
structure Turns (τ : Type*) where
  activeTurn : Bool := false
  pushAudioTask : Bool := false
  pushAudioProgressAt : WithBot τ := ⊥
  pushTurnOpen : Bool := false
  pushTurnOpenedAt : WithBot τ := ⊥

/-- `_turn_in_flight` at `now`. -/
def Turns.inFlight (c : Config τ) (now : τ) (t : Turns τ) : Bool :=
  t.activeTurn ||
  (t.pushAudioTask && decide (now - t.pushAudioProgressAt.unbotD 0 < c.pushTtsDrainTimeout)) ||
  (t.pushTurnOpen &&
    match t.pushTurnOpenedAt with
    | ⊥ => true
    | (openedAt : τ) => decide (now - openedAt < c.turnTimeout))

/-- What Python raises where the watchdog reads what is not there. -/
inductive Exn where
  /-- `self.transcriber.last_transcript_at` without a transcriber -/
  | noTranscriber
  /-- `now - last_audio` without an audio frame -/
  | noAudio
  /-- `max()` over no reference point -/
  | emptyMax
deriving DecidableEq

/-- Where the watchdog's task is. -/
inductive Phase where
  | unstarted
  /-- asleep, no audio yet -/
  | waiting
  /-- asleep between two ticks -/
  | watching
  /-- sending the notice of a strike -/
  | notifying
  /-- it closed the session for `silence_timeout` -/
  | closed
  | returned
  | raised (e : Exn)
deriving DecidableEq

def Phase.done : Phase → Bool
  | .closed | .returned | .raised _ => true
  | _ => false

structure State (τ : Type*) where
  now : τ
  lastAudioAt : WithBot τ := ⊥
  audioBurstStart : WithBot τ := ⊥
  /-- the transcriber's connection; `none` for a session without one -/
  transcriber : Option ConnectionState
  lastTranscriptAt : WithBot τ := ⊥
  transcriberBusy : Bool := false
  turns : Turns τ := {}
  phase : Phase := .unstarted
  /-- when the sleep of the task ends -/
  wakeAt : τ
  silenceCount : Nat := 0
  lastSeen : WithBot τ := ⊥
  wasConnected : Bool := true
  recoveryBaseline : WithBot τ := ⊥
  /-- the ticks that struck, the latest first -/
  strikes : List τ := []
  /-- the last tick with a turn in flight -/
  turnTick : WithBot τ := ⊥
  /-- when the transcriber last came back from a drop or a busy period -/
  recovery : WithBot τ := ⊥
  /-- the start of the burst at the last tick that came to the turns -/
  seenBurst : WithBot τ := ⊥

namespace State

/-- Transcriptions are to be expected. -/
def up (s : State τ) : Bool := s.transcriber = some .connected && !s.transcriberBusy

-- ---------------------------------------------------------------------------
-- The session between the ticks
-- ---------------------------------------------------------------------------

/-- Sets what `up` reads, and notes a recovery. -/
def setUp (s : State τ) (transcriber : Option ConnectionState) (busy : Bool) : State τ :=
  let s' := { s with transcriber, transcriberBusy := busy }
  { s' with recovery := if s'.up && !s.up then (s.now : WithBot τ) else s.recovery }

/-- A frame that comes now opens a burst. -/
def opensBurst (c : Config τ) (s : State τ) : Bool :=
  match s.lastAudioAt with
  | ⊥ => true
  | (lastAudio : τ) => decide (c.audioGap < s.now - lastAudio)

/-- A frame of audio in `_client_input_loop`. -/
def audioFrame (c : Config τ) (s : State τ) : State τ :=
  match s.transcriber with
  | none => s
  | some _ =>
    { s with
      audioBurstStart := if s.opensBurst c then (s.now : WithBot τ) else s.audioBurstStart
      lastAudioAt := s.now }

/-- The transcriber publishes a transcription, partial or final. -/
def transcription (s : State τ) : State τ :=
  match s.transcriber with
  | none => s
  | some _ => { s with lastTranscriptAt := s.now }

-- ---------------------------------------------------------------------------
-- The watchdog
-- ---------------------------------------------------------------------------

def sleep (s : State τ) (d : τ) : State τ := { s with wakeAt := s.now + d }

def finish (s : State τ) (phase : Phase) : State τ := { s with phase }

/-- The test of the wait for the first audio, and what comes before the first tick. -/
def awaitAudio (c : Config τ) (s : State τ) : State τ :=
  match s.lastAudioAt with
  | ⊥ => ({ s with phase := .waiting }).sleep c.audioPoll
  | (_ : τ) =>
    match s.transcriber with
    | none => s.finish (.raised .noTranscriber)
    | some _ =>
      ({ s with
        phase := .watching
        silenceCount := 0
        lastSeen := s.lastTranscriptAt
        wasConnected := true
        recoveryBaseline := ⊥ }).sleep c.poll

/-- A new transcription, or else a recovery, starts the count again. -/
def look (s : State τ) : State τ :=
  if s.lastTranscriptAt ≠ s.lastSeen then
    { s with
      silenceCount := 0
      lastSeen := s.lastTranscriptAt
      recoveryBaseline := ⊥
      wasConnected := true }
  else if s.wasConnected = false then
    { s with silenceCount := 0, recoveryBaseline := s.now, wasConnected := true }
  else s

/-- The `max()` of a tick. -/
def last (s : State τ) : WithBot τ :=
  max (max s.recoveryBaseline s.lastTranscriptAt) s.audioBurstStart

def forget (s : State τ) : State τ := { s with silenceCount := 0 }

def strike (s : State τ) : State τ :=
  { s with
    silenceCount := s.silenceCount + 1
    strikes := s.now :: s.strikes
    phase := .notifying }

/-- A tick whose client sends audio, from `max()` on. -/
def judge (c : Config τ) (s : State τ) (lastAudio : τ) : State τ :=
  match s.last with
  | ⊥ => s.finish (.raised .emptyMax)
  | (last : τ) =>
    if lastAudio ≤ last then s.forget.sleep c.poll
    else if c.timeout last s.audioBurstStart < s.now - last then s.strike
    else s.sleep c.poll

/-- A tick after its look at the transcriptions. -/
def consider (c : Config τ) (s : State τ) : State τ :=
  if s.turns.inFlight c s.now then
    ({ s with silenceCount := 0, recoveryBaseline := s.now, turnTick := s.now }).sleep c.poll
  else
    match s.lastAudioAt with
    | ⊥ => s.finish (.raised .noAudio)
    | (lastAudio : τ) =>
      if c.audioGap < s.now - lastAudio then s.forget.sleep c.poll
      else s.judge c lastAudio

def tick (c : Config τ) (s : State τ) : State τ :=
  match s.transcriber with
  | none | some .degraded => s.finish .returned
  | some .reconnecting => ({ s with wasConnected := false }).sleep c.poll
  | some .connected =>
    if s.transcriberBusy then ({ s with wasConnected := false }).sleep c.poll
    else { s.look.consider c with seenBurst := s.audioBurstStart }

/-- The end of a sleep, or the first step of the task. -/
def wake (c : Config τ) (s : State τ) : Option (State τ) :=
  match s.phase with
  | .unstarted => some (s.awaitAudio c)
  | .waiting =>
    if s.wakeAt ≤ s.now then
      match s.transcriber with
      | none | some .degraded => some (s.finish .returned)
      | some _ => some (s.awaitAudio c)
    else none
  | .watching => if s.wakeAt ≤ s.now then some (s.tick c) else none
  | _ => none

/-- The notice of the strike is out. -/
def notified (c : Config τ) (s : State τ) : Option (State τ) :=
  match s.phase with
  | .notifying =>
    if c.maxSilenceTurns ≤ s.silenceCount then some (s.finish .closed)
    else some (({ s with phase := .watching }).sleep c.poll)
  | _ => none

end State

inductive Action (τ : Type*) where
  | elapse (d : τ)
  | audioFrame
  | transcription
  | connection (state : ConnectionState)
  /-- `_on_transcriber_status`: `busy` or `ok` -/
  | status (busy : Bool)
  /-- what `_turn_in_flight` reads changes -/
  | turns (t : Turns τ)
  | wake
  | notified

/-- A run ends with the watchdog. -/
def step (c : Config τ) (s : State τ) (a : Action τ) : Option (State τ) :=
  if s.phase.done then none
  else
    match a with
    | .elapse d => if 0 ≤ d then some { s with now := s.now + d } else none
    | .audioFrame => some (s.audioFrame c)
    | .transcription => some s.transcription
    | .connection state => some (s.setUp (s.transcriber.map fun _ => state) s.transcriberBusy)
    | .status busy => some (s.setUp s.transcriber busy)
    | .turns t => some { s with turns := t }
    | .wake => s.wake c
    | .notified => s.notified c

/-- A session whose watchdog is about to start. -/
def start (now : τ) (transcriber : Option ConnectionState) : State τ :=
  { now, transcriber, wakeAt := now }

-- ---------------------------------------------------------------------------
-- Silence
-- ---------------------------------------------------------------------------

namespace State

/-- What every strike of a close for silence lies after. -/
def latest (s : State τ) : WithBot τ :=
  max (max s.lastSeen s.turnTick) (max s.recovery s.audioBurstStart)

/-- A tick at `t` found the session silent since `latest`. -/
def silentAt (c : Config τ) (s : State τ) (t : τ) : Bool :=
  match s.latest with
  | ⊥ => false
  | (r : τ) => decide (r < t) && decide (c.timeout r s.audioBurstStart < t - r)

/-- The strikes after `latest` are enough to close. -/
def Silent (c : Config τ) (s : State τ) : Prop :=
  c.maxSilenceTurns ≤ (s.strikes.countP (s.silentAt c) : Int)

/-- The reference point the strikes that stand were counted from. -/
def standing (s : State τ) : WithBot τ :=
  max (max s.recoveryBaseline s.lastSeen) s.seenBurst

/-- The tick finds nothing that starts the count again. -/
def goesOn (c : Config τ) (s : State τ) : Bool :=
  s.up && decide (s.lastTranscriptAt = s.lastSeen) && s.wasConnected &&
  !s.turns.inFlight c s.now &&
  match s.lastAudioAt with
  | ⊥ => false
  | (lastAudio : τ) => decide (s.now - lastAudio ≤ c.audioGap) && decide (s.last < lastAudio)

/-- Strikes stand, and a burst opened since the last tick. -/
def burstMissed (s : State τ) : Bool :=
  decide (0 < s.silenceCount) && decide (s.audioBurstStart ≠ s.seenBurst)

/-- The tick strikes by a recovery it noted after the burst had opened, although the recovery
itself came before. -/
def warmupMissed (c : Config τ) (s : State τ) : Bool :=
  decide (c.warmup ≠ 0) && decide (s.audioBurstStart < s.recoveryBaseline) &&
  decide (max s.lastSeen (max s.turnTick s.recovery) ≤ s.audioBurstStart) &&
  match s.last with
  | ⊥ => false
  | (last : τ) => decide (c.timeout last s.audioBurstStart < s.now - last)

/-- No step of the watchdog misses what came between two of its looks. -/
def sees (c : Config τ) (s : State τ) : Action τ → Bool
  | .wake =>
    !(decide (s.phase = .watching) && s.goesOn c && (s.burstMissed || s.warmupMissed c))
  | .notified =>
    decide ((s.silenceCount : Int) < c.maxSilenceTurns) ||
    (decide (s.recovery ≤ s.standing) && decide (s.audioBurstStart = s.seenBurst))
  | _ => true

end State

-- ---------------------------------------------------------------------------
-- The times
-- ---------------------------------------------------------------------------

/-- What the times of a session are to each other. -/
structure Timely (s : State τ) : Prop where
  audio_le : s.lastAudioAt ≤ s.now
  burst_le : s.audioBurstStart ≤ s.now
  burst_ne : s.lastAudioAt ≠ ⊥ → s.audioBurstStart ≠ ⊥
  transcript_le : s.lastTranscriptAt ≤ s.now
  turn_le : s.turnTick ≤ s.now
  recovery_le : s.recovery ≤ s.now
  turn_standing : s.turnTick ≤ max s.recoveryBaseline s.lastSeen
  /-- a transcription the watchdog has not seen came after the last tick -/
  turn_new : s.lastTranscriptAt = s.lastSeen ∨ s.turnTick ≤ s.lastTranscriptAt

/-- The watchdog ticks once there is audio, and raises nothing in a tick. -/
structure Sound (s : State τ) : Prop where
  fresh : s.phase = .unstarted ∨ s.phase = .waiting → s.turnTick = ⊥
  audio : s.phase = .watching ∨ s.phase = .notifying → s.lastAudioAt ≠ ⊥
  not_noAudio : s.phase ≠ .raised .noAudio
  not_emptyMax : s.phase ≠ .raised .emptyMax

variable {c : Config τ} {s s' : State τ} {a : Action τ}

omit [AddCommGroup τ] in
theorem timely_start (now : τ) (transcriber : Option ConnectionState) :
    Timely (start now transcriber) where
  audio_le := bot_le
  burst_le := bot_le
  burst_ne := fun h => absurd rfl h
  transcript_le := bot_le
  turn_le := bot_le
  recovery_le := bot_le
  turn_standing := bot_le
  turn_new := Or.inl rfl

omit [LinearOrder τ] [AddCommGroup τ] in
theorem sound_start (now : τ) (transcriber : Option ConnectionState) :
    Sound (start now transcriber) where
  fresh := fun _ => rfl
  audio := by
    intro h
    cases h with
    | inl h => cases h
    | inr h => cases h
  not_noAudio := nofun
  not_emptyMax := nofun

/-- The first frame opens a burst. -/
theorem State.opensBurst_of_bot (h : s.lastAudioAt = ⊥) : s.opensBurst c = true := by
  unfold State.opensBurst
  rw [h]

namespace Timely

theorem elapse [IsOrderedAddMonoid τ] (h : Timely s) {d : τ} (hd : 0 ≤ d) :
    Timely { s with now := s.now + d } :=
  have hnow : (s.now : WithBot τ) ≤ (s.now + d : τ) :=
    WithBot.coe_le_coe.mpr (le_add_of_nonneg_right hd)
  { h with
    audio_le := h.audio_le.trans hnow
    burst_le := h.burst_le.trans hnow
    transcript_le := h.transcript_le.trans hnow
    turn_le := h.turn_le.trans hnow
    recovery_le := h.recovery_le.trans hnow }

theorem audioFrame (h : Timely s) : Timely (s.audioFrame c) := by
  unfold State.audioFrame
  split
  · exact h
  · refine { h with audio_le := le_refl _, burst_le := ?_, burst_ne := ?_ }
    · dsimp only
      split
      · exact le_refl _
      · exact h.burst_le
    · intro _
      dsimp only
      split
      · exact WithBot.coe_ne_bot
      · rename_i hopens
        apply h.burst_ne
        intro hbot
        exact hopens (State.opensBurst_of_bot hbot)

omit [AddCommGroup τ] in
theorem transcription (h : Timely s) : Timely s.transcription := by
  unfold State.transcription
  split
  · exact h
  · exact { h with transcript_le := le_refl _, turn_new := Or.inr h.turn_le }

omit [AddCommGroup τ] in
theorem setUp (h : Timely s) (transcriber : Option ConnectionState) (busy : Bool) :
    Timely (s.setUp transcriber busy) := by
  refine { h with recovery_le := ?_ }
  unfold State.setUp
  dsimp only
  split
  · exact le_refl _
  · exact h.recovery_le

theorem awaitAudio (h : Timely s) (hturn : s.turnTick = ⊥) : Timely (s.awaitAudio c) := by
  unfold State.awaitAudio
  split
  · exact { h with }
  · split
    · exact { h with }
    · refine { h with turn_standing := ?_, turn_new := Or.inl rfl }
      exact hturn.symm ▸ bot_le

omit [AddCommGroup τ] in
theorem look (h : Timely s) : Timely s.look := by
  unfold State.look
  split
  · rename_i hnew
    refine { h with turn_standing := ?_, turn_new := Or.inl rfl }
    cases h.turn_new with
    | inl hseen => exact absurd hseen hnew
    | inr hturn => exact le_max_of_le_right hturn
  · split
    · exact { h with turn_standing := le_max_of_le_left h.turn_le }
    · exact h

end Timely

namespace State

omit [AddCommGroup τ] in
/-- What the look does; the last case finds nothing new. -/
theorem look_cases (s : State τ) :
    (s.lastTranscriptAt ≠ s.lastSeen ∧
      s.look = { s with
        silenceCount := 0
        lastSeen := s.lastTranscriptAt
        recoveryBaseline := ⊥
        wasConnected := true }) ∨
    (s.lastTranscriptAt = s.lastSeen ∧ s.wasConnected = false ∧
      s.look = { s with silenceCount := 0, recoveryBaseline := s.now, wasConnected := true }) ∨
    (s.lastTranscriptAt = s.lastSeen ∧ s.wasConnected = true ∧ s.look = s) := by
  unfold look
  split
  · exact Or.inl ⟨‹_›, rfl⟩
  · rename_i hseen
    have hseen' : s.lastTranscriptAt = s.lastSeen := not_not.mp hseen
    split
    · exact Or.inr (Or.inl ⟨hseen', ‹_›, rfl⟩)
    · exact Or.inr (Or.inr ⟨hseen', Bool.not_eq_false _ ▸ ‹_›, rfl⟩)

omit [AddCommGroup τ] in
/-- The look changes what the watchdog keeps, not the session. -/
theorem look_frame (s : State τ) :
    s.look.now = s.now ∧ s.look.lastAudioAt = s.lastAudioAt ∧
    s.look.audioBurstStart = s.audioBurstStart ∧ s.look.turns = s.turns ∧
    s.look.phase = s.phase := by
  obtain ⟨_, h⟩ | ⟨_, _, h⟩ | ⟨_, _, h⟩ := s.look_cases <;> rw [h] <;> simp

omit [AddCommGroup τ] in
theorem last_ne_bot (h : s.audioBurstStart ≠ ⊥) : s.last ≠ ⊥ := by
  intro hlast
  apply h
  exact eq_bot_mono (le_max_right _ _) hlast

/-- How a tick that came to the turns ends. -/
theorem consider_cases (haudio : s.lastAudioAt ≠ ⊥) (hburst : s.audioBurstStart ≠ ⊥) :
    (s.turns.inFlight c s.now = true ∧
      s.consider c =
        ({ s with silenceCount := 0, recoveryBaseline := s.now, turnTick := s.now }).sleep c.poll) ∨
    s.consider c = s.forget.sleep c.poll ∨
    ∃ lastAudio last : τ,
      s.turns.inFlight c s.now = false ∧ s.lastAudioAt = lastAudio ∧
      s.now - lastAudio ≤ c.audioGap ∧ s.last = last ∧ last < lastAudio ∧
      ((c.timeout last s.audioBurstStart < s.now - last ∧ s.consider c = s.strike) ∨
        s.consider c = s.sleep c.poll) := by
  obtain ⟨lastAudio, hlastAudio⟩ := WithBot.ne_bot_iff_exists.mp haudio
  obtain ⟨last, hlast⟩ := WithBot.ne_bot_iff_exists.mp (last_ne_bot hburst)
  unfold consider
  split
  · exact Or.inl ⟨‹_›, rfl⟩
  · rename_i hturn
    rw [← hlastAudio]
    dsimp only
    split
    · exact Or.inr (Or.inl rfl)
    · rename_i hgap
      unfold judge
      rw [← hlast]
      dsimp only
      split
      · exact Or.inr (Or.inl rfl)
      · rename_i hquiet
        refine Or.inr (Or.inr ⟨lastAudio, last, Bool.not_eq_true _ ▸ hturn, rfl, not_lt.mp hgap,
          rfl, not_le.mp hquiet, ?_⟩)
        split
        · exact Or.inl ⟨‹_›, rfl⟩
        · exact Or.inr rfl

omit [AddCommGroup τ] in
theorem look_seen (s : State τ) : s.look.lastTranscriptAt = s.look.lastSeen := by
  obtain ⟨_, h⟩ | ⟨hseen, _, h⟩ | ⟨hseen, _, h⟩ := s.look_cases
  · rw [h]
  · rw [h]
    exact hseen
  · rw [h]
    exact hseen

end State

theorem Timely.consider (h : Timely s) (hseen : s.lastTranscriptAt = s.lastSeen)
    (haudio : s.lastAudioAt ≠ ⊥) : Timely (s.consider c) := by
  obtain ⟨_, hturn⟩ | hforget | ⟨_, _, _, _, _, _, _, ⟨_, hstrike⟩ | hsleep⟩ :=
    State.consider_cases (c := c) haudio (h.burst_ne haudio)
  · rw [hturn]
    exact { h with
      turn_le := le_refl _
      turn_standing := le_max_left _ _
      turn_new := Or.inl hseen }
  · rw [hforget]
    exact { h with }
  · rw [hstrike]
    exact { h with }
  · rw [hsleep]
    exact { h with }

theorem Timely.tick (h : Timely s) (haudio : s.lastAudioAt ≠ ⊥) : Timely (s.tick c) := by
  unfold State.tick
  split
  · exact { h with }
  · exact { h with }
  · exact { h with }
  · split
    · exact { h with }
    · have hlook : Timely (s.look.consider c) := by
        apply h.look.consider s.look_seen
        rw [s.look_frame.2.1]
        exact haudio
      exact { hlook with }

namespace Sound

omit [LinearOrder τ] [AddCommGroup τ] in
theorem of_ticking (haudio : s.lastAudioAt ≠ ⊥)
    (hphase : s.phase = .watching ∨ s.phase = .notifying) : Sound s := by
  constructor
  all_goals
    intro h
    cases hphase with
    | inl hphase => simp_all
    | inr hphase => simp_all

omit [LinearOrder τ] [AddCommGroup τ] in
theorem of_returned (h : s.phase = .returned) : Sound s := by
  constructor
  all_goals simp [h]

theorem consider (h : Timely s) (hphase : s.phase = .watching) (haudio : s.lastAudioAt ≠ ⊥) :
    Sound (s.consider c) := by
  obtain ⟨_, hturn⟩ | hforget | ⟨_, _, _, _, _, _, _, ⟨_, hstrike⟩ | hsleep⟩ :=
    State.consider_cases (c := c) haudio (h.burst_ne haudio)
  · rw [hturn]
    exact of_ticking haudio (Or.inl hphase)
  · rw [hforget]
    exact of_ticking haudio (Or.inl hphase)
  · rw [hstrike]
    exact of_ticking haudio (Or.inr rfl)
  · rw [hsleep]
    exact of_ticking haudio (Or.inl hphase)

theorem tick (h : Timely s) (hphase : s.phase = .watching) (haudio : s.lastAudioAt ≠ ⊥) :
    Sound (s.tick c) := by
  obtain ⟨-, hlookAudio, -, -, hlookPhase⟩ := s.look_frame
  unfold State.tick
  split
  · exact of_returned rfl
  · exact of_returned rfl
  · exact of_ticking haudio (Or.inl hphase)
  · split
    · exact of_ticking haudio (Or.inl hphase)
    · have hlook : Sound (s.look.consider c) :=
        consider h.look (hlookPhase.trans hphase) (hlookAudio ▸ haudio)
      exact { hlook with }

omit [LinearOrder τ] in
theorem awaitAudio (hs : Sound s) (hphase : s.phase = .unstarted ∨ s.phase = .waiting) :
    Sound (s.awaitAudio c) := by
  have hturn : s.turnTick = ⊥ := hs.fresh hphase
  unfold State.awaitAudio
  split
  · exact ⟨fun _ => hturn, nofun, nofun, nofun⟩
  · rename_i haudio
    split
    · exact ⟨nofun, nofun, nofun, nofun⟩
    · apply of_ticking
      · exact haudio ▸ WithBot.coe_ne_bot
      · exact Or.inl rfl

end Sound

/-- What the end of a sleep does. -/
theorem State.wake_cases (h : s.wake c = some s') :
    ((s.phase = .unstarted ∨ s.phase = .waiting) ∧ s' = s.awaitAudio c) ∨
    (s.phase = .waiting ∧ s' = s.finish .returned) ∨
    (s.phase = .watching ∧ s' = s.tick c) := by
  unfold wake at h
  split at h
  · exact Or.inl ⟨Or.inl ‹_›, (Option.some.inj h).symm⟩
  · rename_i hphase
    split at h
    · split at h
      · exact Or.inr (Or.inl ⟨hphase, (Option.some.inj h).symm⟩)
      · exact Or.inr (Or.inl ⟨hphase, (Option.some.inj h).symm⟩)
      · exact Or.inl ⟨Or.inr hphase, (Option.some.inj h).symm⟩
    · cases h
  · split at h
    · exact Or.inr (Or.inr ⟨‹_›, (Option.some.inj h).symm⟩)
    · cases h
  · cases h

omit [LinearOrder τ] in
theorem State.notified_cases (h : s.notified c = some s') :
    s.phase = .notifying ∧
    ((c.maxSilenceTurns ≤ s.silenceCount ∧ s' = s.finish .closed) ∨
      ((s.silenceCount : Int) < c.maxSilenceTurns ∧
        s' = ({ s with phase := .watching }).sleep c.poll)) := by
  unfold notified at h
  split at h
  · refine ⟨‹_›, ?_⟩
    split at h
    · exact Or.inl ⟨‹_›, (Option.some.inj h).symm⟩
    · exact Or.inr ⟨not_le.mp ‹_›, (Option.some.inj h).symm⟩
  · cases h

/-- What an action of the session, not of the watchdog, does. -/
theorem step_cases (h : step c s a = some s') :
    s.phase.done = false ∧
    ((∃ d, a = .elapse d ∧ 0 ≤ d ∧ s' = { s with now := s.now + d }) ∨
      (a = .audioFrame ∧ s' = s.audioFrame c) ∨
      (a = .transcription ∧ s' = s.transcription) ∨
      (∃ transcriber busy, s' = s.setUp transcriber busy) ∨
      (∃ t, s' = { s with turns := t }) ∨
      (a = .wake ∧ s.wake c = some s') ∨
      (a = .notified ∧ s.notified c = some s')) := by
  unfold step at h
  split at h
  · cases h
  · rename_i hdone
    refine ⟨Bool.not_eq_true _ ▸ hdone, ?_⟩
    cases a with
    | elapse d =>
      dsimp only at h
      split at h
      · exact Or.inl ⟨d, rfl, ‹_›, (Option.some.inj h).symm⟩
      · cases h
    | audioFrame => exact Or.inr (Or.inl ⟨rfl, (Option.some.inj h).symm⟩)
    | transcription => exact Or.inr (Or.inr (Or.inl ⟨rfl, (Option.some.inj h).symm⟩))
    | connection state =>
      exact Or.inr (Or.inr (Or.inr (Or.inl ⟨_, _, (Option.some.inj h).symm⟩)))
    | status busy =>
      exact Or.inr (Or.inr (Or.inr (Or.inl ⟨_, _, (Option.some.inj h).symm⟩)))
    | turns t =>
      exact Or.inr (Or.inr (Or.inr (Or.inr (Or.inl ⟨t, (Option.some.inj h).symm⟩))))
    | wake => exact Or.inr (Or.inr (Or.inr (Or.inr (Or.inr (Or.inl ⟨rfl, h⟩)))))
    | notified => exact Or.inr (Or.inr (Or.inr (Or.inr (Or.inr (Or.inr ⟨rfl, h⟩)))))

theorem step_sound [IsOrderedAddMonoid τ] (ht : Timely s) (hs : Sound s)
    (h : step c s a = some s') : Timely s' ∧ Sound s' := by
  obtain ⟨_, ⟨d, rfl, hd, rfl⟩ | ⟨rfl, rfl⟩ | ⟨rfl, rfl⟩ | ⟨transcriber, busy, rfl⟩ | ⟨t, rfl⟩ |
    ⟨rfl, hwake⟩ | ⟨rfl, hnotified⟩⟩ := step_cases h
  · exact ⟨ht.elapse hd, { hs with }⟩
  · refine ⟨ht.audioFrame, ?_⟩
    unfold State.audioFrame
    split
    · exact hs
    · exact { hs with audio := fun _ => WithBot.coe_ne_bot }
  · refine ⟨ht.transcription, ?_⟩
    unfold State.transcription
    split
    · exact hs
    · exact { hs with }
  · exact ⟨ht.setUp transcriber busy, { hs with }⟩
  · exact ⟨{ ht with }, { hs with }⟩
  · obtain ⟨hphase, rfl⟩ | ⟨_, rfl⟩ | ⟨hphase, rfl⟩ := State.wake_cases hwake
    · exact ⟨ht.awaitAudio (hs.fresh hphase), hs.awaitAudio hphase⟩
    · exact ⟨{ ht with }, .of_returned rfl⟩
    · have haudio : s.lastAudioAt ≠ ⊥ := hs.audio (Or.inl hphase)
      exact ⟨ht.tick haudio, .tick ht hphase haudio⟩
  · obtain ⟨hphase, ⟨_, rfl⟩ | ⟨_, rfl⟩⟩ := State.notified_cases hnotified
    · exact ⟨{ ht with }, ⟨nofun, nofun, nofun, nofun⟩⟩
    · exact ⟨{ ht with }, .of_ticking (hs.audio (Or.inr hphase)) (Or.inl rfl)⟩

-- ---------------------------------------------------------------------------
-- The strikes that stand
-- ---------------------------------------------------------------------------

/-- The last `silenceCount` strikes were counted from `standing`. -/
structure Struck (c : Config τ) (s : State τ) : Prop where
  enough : s.silenceCount ≤ s.strikes.length
  after : ∀ t ∈ s.strikes.take s.silenceCount,
    ∃ r : τ, s.standing = r ∧ r < t ∧ c.timeout r s.seenBurst < t - r
  /-- the first window of a burst was counted as one -/
  warm : 0 < s.silenceCount → c.warmup = 0 ∨ s.standing = s.seenBurst ∨
    s.seenBurst < max s.lastSeen (max s.turnTick s.recovery)

theorem Struck.of_forgotten (h : s.silenceCount = 0) : Struck c s where
  enough := h ▸ Nat.zero_le _
  after := by simp [h]
  warm := by simp [h]

namespace State

omit [AddCommGroup τ] in
/-- Where the baseline does not lie after the burst, a tick that has seen the last transcription
counts from the burst or from a later transcription. -/
theorem last_eq_or (hseen : s.lastTranscriptAt = s.lastSeen)
    (h : s.recoveryBaseline ≤ s.audioBurstStart) :
    s.last = s.audioBurstStart ∨ s.audioBurstStart < max s.lastSeen (max s.turnTick s.recovery) := by
  cases le_or_gt s.lastTranscriptAt s.audioBurstStart with
  | inl hle => exact Or.inl (max_eq_right (max_le h hle))
  | inr hlt => exact Or.inr (lt_max_of_lt_left (hseen ▸ hlt))

omit [AddCommGroup τ] in
/-- Once the last transcription is seen, a tick counts from what `standing` is after it. -/
theorem last_eq_standing (hseen : s.lastTranscriptAt = s.lastSeen) :
    s.last = ({ s with seenBurst := s.audioBurstStart } : State τ).standing := by
  unfold last standing
  rw [hseen]

end State

namespace Struck

/-- A strike stands beside those before it, where no burst opened since. -/
theorem strike (h : Struck c s) (hseen : s.lastTranscriptAt = s.lastSeen) {last : τ}
    (hlast : s.last = last) (hlt : last < s.now)
    (helapsed : c.timeout last s.audioBurstStart < s.now - last)
    (hburst : 0 < s.silenceCount → s.audioBurstStart = s.seenBurst)
    (hwarm : c.warmup = 0 ∨ s.last = s.audioBurstStart ∨
      s.audioBurstStart < max s.lastSeen (max s.turnTick s.recovery)) :
    Struck c { s.strike with seenBurst := s.audioBurstStart } where
  enough := Nat.succ_le_succ h.enough
  after := by
    intro t ht
    refine ⟨last, (State.last_eq_standing hseen).symm.trans hlast, ?_⟩
    have ht' : t = s.now ∨ t ∈ s.strikes.take s.silenceCount := List.mem_cons.mp ht
    cases ht' with
    | inl hnow =>
      rw [hnow]
      exact ⟨hlt, helapsed⟩
    | inr hold =>
      have hcount : 0 < s.silenceCount := by
        apply Nat.pos_of_ne_zero
        intro hzero
        simp [hzero] at hold
      obtain ⟨r, hr, hlt, helapsed⟩ := h.after t hold
      have hrlast : r = last := by
        have hstanding : s.standing = last := by
          rw [← hlast, State.last_eq_standing hseen, hburst hcount]
          rfl
        exact WithBot.coe_injective (hr.symm.trans hstanding)
      rw [← hrlast]
      rw [← hburst hcount] at helapsed
      exact ⟨hlt, helapsed⟩
  warm := by
    intro _
    rw [State.last_eq_standing hseen] at hwarm
    exact hwarm

/-- A recovery takes nothing from the strikes. -/
theorem setUp (h : Struck c s) (ht : Timely s) (transcriber : Option ConnectionState)
    (busy : Bool) : Struck c (s.setUp transcriber busy) := by
  have hrecovery : s.recovery ≤ (s.setUp transcriber busy).recovery := by
    unfold State.setUp
    dsimp only
    split
    · exact ht.recovery_le
    · exact le_refl _
  refine { h with warm := ?_ }
  intro hcount
  obtain hzero | hburst | hlater := h.warm hcount
  · exact Or.inl hzero
  · exact Or.inr (Or.inl hburst)
  · refine Or.inr (Or.inr (hlater.trans_le ?_))
    exact max_le_max (le_refl _) (max_le_max (le_refl _) hrecovery)

end Struck

namespace State

/-- A tick that goes on looks at the state as it is. -/
theorem goesOn_eq_true (hup : s.up = true) (hseen : s.lastTranscriptAt = s.lastSeen)
    (hconnected : s.wasConnected = true) (hturn : s.turns.inFlight c s.now = false)
    {lastAudio last : τ} (haudio : s.lastAudioAt = lastAudio)
    (hgap : s.now - lastAudio ≤ c.audioGap) (hlast : s.last = last) (hlt : last < lastAudio) :
    s.goesOn c = true := by
  unfold goesOn
  simp [hup, hseen, hconnected, hturn, haudio, hgap, hlast, hlt]

theorem warmupMissed_eq_false (h : s.warmupMissed c = false) {last : τ} (hlast : s.last = last)
    (helapsed : c.timeout last s.audioBurstStart < s.now - last) :
    c.warmup = 0 ∨ s.recoveryBaseline ≤ s.audioBurstStart ∨
    s.audioBurstStart < max s.lastSeen (max s.turnTick s.recovery) := by
  unfold warmupMissed at h
  simp only [hlast, helapsed, decide_true, Bool.and_true, Bool.and_eq_false_iff,
    decide_eq_false_iff_not, not_not, not_lt, not_le] at h
  obtain (hzero | hbaseline) | hlater := h
  · exact Or.inl hzero
  · exact Or.inr (Or.inl hbaseline)
  · exact Or.inr (Or.inr hlater)

end State

/-- A tick that misses nothing keeps what is known of the strikes. -/
theorem Struck.tick (h : Struck c s) (ht : Timely s) (haudio : s.lastAudioAt ≠ ⊥)
    (hsees : s.goesOn c = true → s.burstMissed = false ∧ s.warmupMissed c = false) :
    Struck c (s.tick c) := by
  unfold State.tick
  split
  · exact { h with }
  · exact { h with }
  · exact { h with }
  · rename_i hconnected
    split
    · exact { h with }
    · rename_i hbusy
      have hup : s.up = true := by simp [State.up, hconnected, hbusy]
      obtain ⟨hnow, hlookAudio, hburst, hturns, -⟩ := s.look_frame
      have hburst' : s.look.audioBurstStart ≠ ⊥ := hburst ▸ ht.burst_ne haudio
      obtain ⟨_, hturn⟩ | hforget | ⟨lastAudio, last, hturn, hlastAudio, hgap, hlast, hlt, hend⟩ :=
        State.consider_cases (c := c) (hlookAudio ▸ haudio) hburst'
      · rw [hturn]
        exact .of_forgotten rfl
      · rw [hforget]
        exact .of_forgotten rfl
      · have hpast : last < s.now := by
          rw [hlookAudio] at hlastAudio
          have hle : (lastAudio : WithBot τ) ≤ s.now := hlastAudio ▸ ht.audio_le
          exact hlt.trans_le (WithBot.coe_le_coe.mp hle)
        -- where the look finds something new no strike is left from before
        have hstrike : ∀ hcount : s.look.silenceCount = 0,
            s.look.recoveryBaseline ≤ s.look.audioBurstStart →
            Struck c { s.look.consider c with seenBurst := s.audioBurstStart } := by
          intro hcount hbaseline
          cases hend with
          | inl hend =>
            obtain ⟨helapsed, hend⟩ := hend
            rw [hend, ← hburst]
            exact (Struck.of_forgotten hcount).strike s.look_seen hlast (hnow ▸ hpast) helapsed
              (by simp [hcount]) (Or.inr (State.last_eq_or s.look_seen hbaseline))
          | inr hend =>
            rw [hend]
            exact .of_forgotten hcount
        obtain ⟨_, hlook⟩ | ⟨_, _, hlook⟩ | ⟨hseen, hwas, hlook⟩ := s.look_cases
        · apply hstrike
          · rw [hlook]
          · rw [hlook]
            exact bot_le
        · -- the baseline is now, and no audio is later than now
          have hle : (s.now : WithBot τ) ≤ last := by
            rw [← hlast, hlook]
            exact le_max_of_le_left (le_max_left _ _)
          exact absurd (WithBot.coe_le_coe.mp hle) hpast.not_ge
        · rw [hlook] at hturn hlastAudio hgap hlast hend ⊢
          obtain ⟨hburstSeen, hwarm⟩ :=
            hsees (State.goesOn_eq_true hup hseen hwas hturn hlastAudio hgap hlast hlt)
          have hsame : 0 < s.silenceCount → s.audioBurstStart = s.seenBurst := by
            intro hcount
            simpa [State.burstMissed, hcount] using hburstSeen
          cases hend with
          | inl hend =>
            obtain ⟨helapsed, hend⟩ := hend
            rw [hend]
            apply h.strike hseen hlast hpast helapsed hsame
            obtain hzero | hbaseline | hlater := State.warmupMissed_eq_false hwarm hlast helapsed
            · exact Or.inl hzero
            · exact Or.inr (State.last_eq_or hseen hbaseline)
            · exact Or.inr (Or.inr hlater)
          | inr hend =>
            rw [hend]
            cases Nat.eq_zero_or_pos s.silenceCount with
            | inl hzero => exact .of_forgotten hzero
            | inr hcount =>
              rw [hsame hcount]
              exact { h with }

/-- The step lemma: what a step that misses nothing keeps. -/
theorem step_struck (ht : Timely s) (hs : Sound s) (h : Struck c s) (hsees : s.sees c a = true)
    (hstep : step c s a = some s') : Struck c s' := by
  obtain ⟨_, ⟨d, rfl, hd, rfl⟩ | ⟨rfl, rfl⟩ | ⟨rfl, rfl⟩ | ⟨transcriber, busy, rfl⟩ | ⟨t, rfl⟩ |
    ⟨rfl, hwake⟩ | ⟨rfl, hnotified⟩⟩ := step_cases hstep
  · exact { h with }
  · unfold State.audioFrame
    split
    · exact h
    · exact { h with }
  · unfold State.transcription
    split
    · exact h
    · exact { h with }
  · exact h.setUp ht transcriber busy
  · exact { h with }
  · obtain ⟨_, rfl⟩ | ⟨_, rfl⟩ | ⟨hphase, rfl⟩ := State.wake_cases hwake
    · unfold State.awaitAudio
      split
      · exact { h with }
      · split
        · exact { h with }
        · exact .of_forgotten rfl
    · exact { h with }
    · apply h.tick ht (hs.audio (Or.inl hphase))
      intro hgoes
      simpa [State.sees, hphase, hgoes] using hsees
  · obtain ⟨_, ⟨_, rfl⟩ | ⟨_, rfl⟩⟩ := State.notified_cases hnotified
    · exact { h with }
    · exact { h with }

-- ---------------------------------------------------------------------------
-- The close
-- ---------------------------------------------------------------------------

omit [AddCommGroup τ] in
/-- Where the watchdog has seen all there was, nothing is later than what the strikes were
counted from. -/
theorem State.latest_le (ht : Timely s) (hrecovery : s.recovery ≤ s.standing)
    (hburst : s.audioBurstStart = s.seenBurst) : s.latest ≤ s.standing := by
  have hbase : max s.recoveryBaseline s.lastSeen ≤ s.standing := le_max_left _ _
  apply max_le
  · exact max_le ((le_max_right _ _).trans hbase) (ht.turn_standing.trans hbase)
  · exact max_le hrecovery (hburst.trans_le (le_max_right _ _))

/-- A strike that stands is one of silence since `latest`. -/
theorem Struck.silentAt [IsOrderedAddMonoid τ] (h : Struck c s) (ht : Timely s)
    (haudio : s.lastAudioAt ≠ ⊥) (hrecovery : s.recovery ≤ s.standing)
    (hburst : s.audioBurstStart = s.seenBurst) {t : τ}
    (hmem : t ∈ s.strikes.take s.silenceCount) : s.silentAt c t = true := by
  obtain ⟨r, hr, hlt, helapsed⟩ := h.after t hmem
  have hcount : 0 < s.silenceCount := by
    apply Nat.pos_of_ne_zero
    intro hzero
    simp [hzero] at hmem
  have hburstLe : s.audioBurstStart ≤ s.latest := (le_max_right _ _).trans (le_max_right _ _)
  have hne : s.latest ≠ ⊥ := ne_bot_of_le_ne_bot (ht.burst_ne haudio) hburstLe
  obtain ⟨l, hl⟩ := WithBot.ne_bot_iff_exists.mp hne
  have hlr : l ≤ r := by
    have hle : s.latest ≤ s.standing := State.latest_le ht hrecovery hburst
    rw [← hl, hr] at hle
    exact WithBot.coe_le_coe.mp hle
  have htimeout : c.timeout l s.audioBurstStart = c.timeout r s.seenBurst := by
    rw [hburst]
    unfold Config.timeout
    rw [← hburst]
    by_cases hfirst : (l : WithBot τ) = s.audioBurstStart
    · obtain hzero | hstanding | hlater := h.warm hcount
      · simp [hzero]
      · have hreq : (r : WithBot τ) = s.audioBurstStart := by rw [← hr, hstanding, hburst]
        rw [if_pos hfirst, if_pos hreq]
      · -- the burst is the latest of all, and something is later
        have hlatest : max s.lastSeen (max s.turnTick s.recovery) ≤ s.latest := by
          apply max_le
          · exact (le_max_left _ _).trans (le_max_left _ _)
          · apply max_le
            · exact (le_max_right _ _).trans (le_max_left _ _)
            · exact (le_max_left _ _).trans (le_max_right _ _)
        rw [← hl, hfirst, hburst] at hlatest
        exact absurd hlatest hlater.not_ge
    · have hrne : (r : WithBot τ) ≠ s.audioBurstStart := by
        intro hreq
        apply hfirst
        apply le_antisymm
        · rw [← hreq]
          exact WithBot.coe_le_coe.mpr hlr
        · rw [hl]
          exact hburstLe
      rw [if_neg hfirst, if_neg hrne]
  have hsub : t - r ≤ t - l := sub_le_sub_left hlr t
  unfold State.silentAt
  rw [← hl]
  simp only [Bool.and_eq_true, decide_eq_true_eq]
  refine ⟨hlr.trans_lt hlt, ?_⟩
  rw [htimeout]
  exact helapsed.trans_le hsub

theorem Struck.silent [IsOrderedAddMonoid τ] (h : Struck c s) (ht : Timely s)
    (haudio : s.lastAudioAt ≠ ⊥) (hrecovery : s.recovery ≤ s.standing)
    (hburst : s.audioBurstStart = s.seenBurst) (hturns : c.maxSilenceTurns ≤ s.silenceCount) :
    s.Silent c := by
  have hsome : s.silenceCount ≤ s.strikes.countP (s.silentAt c) :=
    calc s.silenceCount
      _ = (s.strikes.take s.silenceCount).length := (List.length_take_of_le h.enough).symm
      _ = (s.strikes.take s.silenceCount).countP (s.silentAt c) :=
        (List.countP_eq_length.mpr fun _ => h.silentAt ht haudio hrecovery hburst).symm
      _ ≤ s.strikes.countP (s.silentAt c) := (List.take_sublist _ _).countP_le
  exact hturns.trans (Int.ofNat_le.mpr hsome)

/-- No tick closes. -/
theorem State.consider_phase_ne (h : s.phase ≠ .closed) : (s.consider c).phase ≠ .closed := by
  unfold consider judge
  split
  · exact h
  · split
    · exact nofun
    · split
      · exact h
      · split
        · exact nofun
        · split
          · exact h
          · split
            · exact nofun
            · exact h

theorem State.wake_phase_ne (h : s.wake c = some s') : s'.phase ≠ .closed := by
  obtain ⟨_, rfl⟩ | ⟨_, rfl⟩ | ⟨hphase, rfl⟩ := State.wake_cases h
  · unfold awaitAudio
    split
    · exact nofun
    · split
      · exact nofun
      · exact nofun
  · exact nofun
  · have hopen : s.phase ≠ .closed := hphase ▸ nofun
    unfold tick
    split
    · exact nofun
    · exact nofun
    · exact hopen
    · split
      · exact hopen
      · apply consider_phase_ne
        rw [s.look_frame.2.2.2.2]
        exact hopen

/-- The step that closes is the one after the notice of a strike. -/
theorem step_closed (hstep : step c s a = some s') (hclosed : s'.phase = .closed) :
    a = .notified ∧ s.notified c = some s' := by
  obtain ⟨hdone, hcases⟩ := step_cases hstep
  have hopen : s.phase ≠ .closed := by
    intro hphase
    simp [hphase, Phase.done] at hdone
  obtain ⟨d, rfl, hd, rfl⟩ | ⟨rfl, rfl⟩ | ⟨rfl, rfl⟩ | ⟨transcriber, busy, rfl⟩ | ⟨t, rfl⟩ |
    ⟨rfl, hwake⟩ | hnotified := hcases
  · exact absurd hclosed hopen
  · unfold State.audioFrame at hclosed
    split at hclosed <;> exact absurd hclosed hopen
  · unfold State.transcription at hclosed
    split at hclosed <;> exact absurd hclosed hopen
  · exact absurd hclosed hopen
  · exact absurd hclosed hopen
  · exact absurd hclosed (State.wake_phase_ne hwake)
  · exact hnotified

/-- What holds in every state of a run that misses nothing. -/
structure Watched (c : Config τ) (s : State τ) : Prop where
  timely : Timely s
  sound : Sound s
  struck : Struck c s
  silent : s.phase = .closed → s.Silent c

theorem step_watched [IsOrderedAddMonoid τ] (h : Watched c s) (hsees : s.sees c a = true)
    (hstep : step c s a = some s') : Watched c s' := by
  obtain ⟨htimely, hsound⟩ := step_sound h.timely h.sound hstep
  refine ⟨htimely, hsound, step_struck h.timely h.sound h.struck hsees hstep, ?_⟩
  intro hclosed
  obtain ⟨rfl, hnotified⟩ := step_closed hstep hclosed
  obtain ⟨hphase, ⟨hturns, rfl⟩ | ⟨_, rfl⟩⟩ := State.notified_cases hnotified
  · have hseen : s.recovery ≤ s.standing ∧ s.audioBurstStart = s.seenBurst := by
      simpa [State.sees, hturns.not_gt] using hsees
    exact h.struck.silent h.timely (h.sound.audio (Or.inr hphase)) hseen.1 hseen.2 hturns
  · cases hclosed

/-- In no run is `max()` taken over nothing; and in a run whose steps all see what came between
them the session is closed for silence only after enough strikes of silence. -/
theorem silence_contract [IsOrderedAddMonoid τ] (c : Config τ) (now : τ)
    (transcriber : Option ConnectionState) :
    (∀ s, Reachable (step c) (start now transcriber) s → s.phase ≠ .raised .emptyMax) ∧
    (∀ s, ReachableBy (step c) (fun s a => s.sees c a = true) (start now transcriber) s →
      s.phase = .closed → s.Silent c) := by
  constructor
  · intro s hrun
    have hsound : Timely s ∧ Sound s :=
      hrun.invariant ⟨timely_start now transcriber, sound_start now transcriber⟩
        fun s a s' h _ hstep => step_sound h.1 h.2 hstep
    exact hsound.2.not_emptyMax
  · intro s hrun
    have hstart : Watched c (start now transcriber) :=
      ⟨timely_start now transcriber, sound_start now transcriber, .of_forgotten rfl, nofun⟩
    exact (hrun.invariant hstart fun s a s' h hsees hstep => step_watched h hsees hstep).silent

/-- One strike closes; times in milliseconds. -/
def oneStrike : Config Int where
  silenceTimeout := 2000
  maxSilenceTurns := 1
  warmup := 0
  poll := 2000
  audioPoll := 500
  pushTtsDrainTimeout := 30000
  turnTimeout := 60000

/-- Four seconds of audio, and nothing is transcribed. -/
def untranscribed : List (Action Int) :=
  [.audioFrame, .wake, .elapse 2000, .audioFrame, .wake, .elapse 2000, .audioFrame, .wake,
    .notified]

theorem silence_contract_untranscribed :
    ∃ s, run (guarded (step oneStrike) fun s a => s.sees oneStrike a)
        (start 0 (some .connected)) untranscribed = some s ∧
      s.phase = .closed ∧ s.Silent oneStrike := by
  have hrun : ((run (guarded (step oneStrike) fun s a => s.sees oneStrike a)
      (start 0 (some .connected)) untranscribed).map State.phase) = some .closed := by decide
  obtain ⟨s, hs, hclosed⟩ := Option.map_eq_some_iff.mp hrun
  refine ⟨s, hs, hclosed, ?_⟩
  exact (silence_contract oneStrike 0 (some .connected)).2 s (reachableBy_of_run hs) hclosed

/-- A transcription, and before the watchdog has seen it a drop of six seconds; the audio goes
on, and the first tick after the recovery strikes. -/
def outage : List (Action Int) :=
  [.audioFrame, .wake, .elapse 1000, .transcription, .elapse 500, .connection .reconnecting,
    .elapse 500, .audioFrame, .wake, .elapse 2000, .audioFrame, .wake, .elapse 2000, .audioFrame,
    .wake, .elapse 1900, .connection .connected, .elapse 50, .audioFrame, .elapse 50, .wake,
    .notified]

/-- The outage is blamed on the client. -/
theorem outage_blamed :
    ¬ ∀ (c : Config Int) (now : Int) (transcriber : Option ConnectionState) (s : State Int),
      Reachable (step c) (start now transcriber) s → s.phase = .closed → s.Silent c := by
  intro h
  have hrun : ((run (step oneStrike) (start 0 (some .connected)) outage).map fun s =>
      (s.phase, s.strikes.countP (s.silentAt oneStrike))) = some (.closed, 0) := by decide
  obtain ⟨s, hs, hend⟩ := Option.map_eq_some_iff.mp hrun
  obtain ⟨hclosed, hcount⟩ := Prod.mk.inj hend
  have hsilent : s.Silent oneStrike := h _ _ _ s (reachable_of_run hs) hclosed
  unfold State.Silent at hsilent
  rw [hcount] at hsilent
  exact absurd hsilent (by decide)

end SilenceWatchdog
