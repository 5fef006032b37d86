-- SUMMARY: What a session puts out: the messages enqueued for its client, its audio tasks and its TTS streams.
import JotaGateway.OpenClaw.Models
import Mathlib.Logic.Function.Basic
import Mathlib.Tactic.Common

/-!
# Output of a session

A turn id `t-N` is its number `N`. A task runs from one `await` to the next
without interruption, and neither the sender nor the tracker suspends, so such
a stretch is one step. `task.cancel()` only asks: the task gets its
`CancelledError` when it next resumes.
-/

namespace Bridge

structure Config where
  outputText : Bool
  outputAudio : Bool
  pushEnabled : Bool
  toolCallsEnabled : Bool
  bargeInEnabled : Bool
  bargeInMinChars : Nat
  /-- `self._session_key()` -/
  sessionKey : SessionKey
  hasTranscriber : Bool

-- ---------------------------------------------------------------------------
-- Messages
-- ---------------------------------------------------------------------------

/-- What is enqueued for the client. An audio frame shows only its header: the turn it was
made for is not on the wire. -/
inductive Msg where
  | turnStart (n seq : Nat)
  | turnEnd (n : Nat)
  | token (n : Nat) (text : PyStr)
  | toolCall (n : Nat) (call : ToolCallEvent)
  | turnError (n : Nat) (message : PyStr)
  | audio (n header : Nat)
  | interrupted (n : Option Nat)
  | transcription (text : PyStr)
  | transcriptionPartial (text : PyStr)

/-- The turn a text message belongs to. -/
def Msg.replyOf : Msg → Option Nat
  | .token n _ | .toolCall n _ | .turnError n _ => some n
  | _ => none

/-- A turn number as the uint16 of the audio header. -/
def turnSeq16 (n : Nat) : Nat := n % 65536

-- ---------------------------------------------------------------------------
-- Tasks and streams
-- ---------------------------------------------------------------------------

abbrev AudioRef := Nat
abbrev StreamRef := Nat

/-- A task that sends the audio of a TTS stream. -/
structure AudioTask where
  running : Bool := false
  cancelReq : Bool := false
  turn : Nat := 0
  push : Bool := false

/-- It can still send a frame. -/
def AudioTask.sounding (a : AudioTask) : Bool := a.running && !a.cancelReq

structure Output where
  wire : List Msg := []
  senderOpen : Bool := true
  clientGone : Bool := false
  turnSeq : Nat := 0
  audios : AudioRef → AudioTask := fun _ => {}
  audioCount : Nat := 0
  /-- `close()` of a stream has been called -/
  closeInvoked : StreamRef → Bool := fun _ => false
  streamCount : Nat := 0

namespace Output

/-- A closed sender enqueues nothing. -/
def send (out : Output) (m : Msg) : Output :=
  { out with wire := if out.senderOpen then out.wire ++ [m] else out.wire }

/-- `task.cancel()`, which does nothing to a task that is done. -/
def cancelAudio (out : Output) (a : AudioRef) : Output :=
  { out with audios := Function.update out.audios a { out.audios a with cancelReq := true } }

def closeStream (out : Output) (s : StreamRef) : Output :=
  { out with closeInvoked := Function.update out.closeInvoked s true }

/-- `tts.connect` has returned the stream `out.streamCount`. -/
def openStream (out : Output) : Output := { out with streamCount := out.streamCount + 1 }

/-- The audio task `out.audioCount` is created. -/
def spawnAudio (out : Output) (turn : Nat) (push : Bool) : Output :=
  { out with
    audios := Function.update out.audios out.audioCount { running := true, turn, push }
    audioCount := out.audioCount + 1 }

theorem send_of_open {out : Output} (h : out.senderOpen = true) (m : Msg) :
    (out.send m).wire = out.wire ++ [m] := by
  simp only [send, h, if_true]

theorem cancelAudio_silent (out : Output) (a : AudioRef) :
    ((out.cancelAudio a).audios a).sounding = false := by
  simp only [cancelAudio, Function.update_self, AudioTask.sounding, Bool.not_true, Bool.and_false]

theorem closeStream_self (out : Output) (s : StreamRef) :
    (out.closeStream s).closeInvoked s = true := by
  simp only [closeStream, Function.update_self]

-- ---------------------------------------------------------------------------
-- Stopping audio and closing streams
-- ---------------------------------------------------------------------------

/-- From `out₀` on, audio has only been stopped and streams only been closed. The wire may
have grown. -/
structure Settles (out₀ out : Output) : Prop where
  seq : out.turnSeq = out₀.turnSeq
  sender : out.senderOpen = out₀.senderOpen
  audioCount : out.audioCount = out₀.audioCount
  streamCount : out.streamCount = out₀.streamCount
  audios : ∀ a, (out.audios a).sounding = true → out.audios a = out₀.audios a
  closed : ∀ s, out₀.closeInvoked s = true → out.closeInvoked s = true

namespace Settles

variable {out₀ out out' : Output}

theorem refl (out : Output) : Settles out out := ⟨rfl, rfl, rfl, rfl, fun _ _ => rfl, fun _ h => h⟩

theorem trans (h : Settles out₀ out) (h' : Settles out out') : Settles out₀ out' := by
  refine ⟨h'.seq.trans h.seq, h'.sender.trans h.sender, h'.audioCount.trans h.audioCount,
    h'.streamCount.trans h.streamCount, ?_, fun s hs => h'.closed s (h.closed s hs)⟩
  intro a ha
  have heq : out'.audios a = out.audios a := h'.audios a ha
  rw [heq] at ha ⊢
  exact h.audios a ha

theorem silent (h : Settles out₀ out) {a : AudioRef} (ha : (out₀.audios a).sounding = false) :
    (out.audios a).sounding = false := by
  cases hs : (out.audios a).sounding with
  | false => rfl
  | true => rw [h.audios a hs, ha] at hs; cases hs

theorem send (out : Output) (m : Msg) : Settles out (out.send m) :=
  ⟨rfl, rfl, rfl, rfl, fun _ _ => rfl, fun _ h => h⟩

theorem cancelAudio (out : Output) (a : AudioRef) : Settles out (out.cancelAudio a) := by
  refine ⟨rfl, rfl, rfl, rfl, ?_, fun _ h => h⟩
  intro b hb
  by_cases hne : b = a
  · subst hne
    rw [cancelAudio_silent] at hb
    cases hb
  · simp only [Output.cancelAudio, Function.update_of_ne hne]

theorem closeStream (out : Output) (s : StreamRef) : Settles out (out.closeStream s) := by
  refine ⟨rfl, rfl, rfl, rfl, fun _ _ => rfl, ?_⟩
  intro s' hs'
  by_cases hne : s' = s
  · subst hne
    exact closeStream_self out s'
  · simpa only [Output.closeStream, Function.update_of_ne hne] using hs'

theorem gone (out : Output) : Settles out { out with clientGone := true } :=
  ⟨rfl, rfl, rfl, rfl, fun _ _ => rfl, fun _ h => h⟩

end Settles

-- ---------------------------------------------------------------------------
-- As a session goes on
-- ---------------------------------------------------------------------------

/-- What any task may do to the output: an audio task that has fallen silent stays silent, a
closed stream closed, and a closed sender closed. -/
structure Later (out out' : Output) : Prop where
  audioCount : out.audioCount ≤ out'.audioCount
  streamCount : out.streamCount ≤ out'.streamCount
  seq : out.turnSeq ≤ out'.turnSeq
  sender : out'.senderOpen = true → out.senderOpen = true
  silent : ∀ a < out.audioCount, (out.audios a).sounding = false →
    (out'.audios a).sounding = false
  closed : ∀ s, out.closeInvoked s = true → out'.closeInvoked s = true

namespace Later

variable {out out' out'' : Output}

theorem refl (out : Output) : Later out out :=
  ⟨Nat.le_refl _, Nat.le_refl _, Nat.le_refl _, fun h => h, fun _ _ h => h, fun _ h => h⟩

theorem trans (h : Later out out') (h' : Later out' out'') : Later out out'' := by
  refine ⟨h.audioCount.trans h'.audioCount, h.streamCount.trans h'.streamCount,
    h.seq.trans h'.seq, fun hs => h.sender (h'.sender hs), ?_,
    fun s hs => h'.closed s (h.closed s hs)⟩
  intro a ha hsilent
  exact h'.silent a (Nat.lt_of_lt_of_le ha h.audioCount) (h.silent a ha hsilent)

theorem of_settles (h : Settles out out') : Later out out' :=
  ⟨h.audioCount.ge, h.streamCount.ge, h.seq.ge, fun hs => h.sender ▸ hs, fun _ _ hs => h.silent hs,
    h.closed⟩

theorem send (out : Output) (m : Msg) : Later out (out.send m) := of_settles (.send out m)

theorem spawnAudio (out : Output) (turn : Nat) (push : Bool) :
    Later out (out.spawnAudio turn push) := by
  refine ⟨Nat.le_succ _, Nat.le_refl _, Nat.le_refl _, fun h => h, ?_, fun _ h => h⟩
  intro a ha hsilent
  simpa only [Output.spawnAudio, Function.update_of_ne (Nat.ne_of_lt ha)] using hsilent

theorem openStream (out : Output) : Later out out.openStream :=
  ⟨Nat.le_refl _, Nat.le_succ _, Nat.le_refl _, fun h => h, fun _ _ h => h, fun _ h => h⟩

theorem seq_le {n : Nat} (h : out.turnSeq ≤ n) : Later out { out with turnSeq := n } :=
  ⟨Nat.le_refl _, Nat.le_refl _, h, fun h => h, fun _ _ h => h, fun _ h => h⟩

end Later

end Output

end Bridge
