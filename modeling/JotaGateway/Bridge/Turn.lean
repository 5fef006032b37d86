-- SUMMARY: The task of a normal turn: `_call_orchestrator` and `_run_turn`, from one await to the next.
import JotaGateway.Bridge.Output

/-!
# The turn task

A turn is started, pipes the events of the orchestrator to the client and to
the TTS, drains its audio and cleans up. `TurnPc` is the await it is
suspended at; what happens between two awaits is one step. The functions
below are the ways from one to the next, in the order of the source from its
end backwards.
-/

namespace Bridge

/-- An exception on its way out of the turn. -/
inductive Exc where
  | clientGone
  | orchestrator (code : PyStr)
  | runtime
  | other
  | cancelled
deriving DecidableEq

inductive TurnPc where
  /-- created by `_start_turn`, not run yet -/
  | created
  | connect
  /-- the next event of the orchestrator -/
  | next
  | sendChunk
  /-- `_drop_tts` after a failed `send_text_chunk` -/
  | dropChunk
  /-- `aclosing()` closes the stream that `e` has left -/
  | aclose (e : Exc)
  | endTts (e : Option Exc)
  /-- `_drop_tts` after a failed `end` -/
  | dropEnd (e : Option Exc)
  | drain
  /-- `_drop_tts` of an audio without progress -/
  | dropDrain
  /-- the wait for the cancelled audio task, before the stream is closed -/
  | reap (e : Option Exc)
  | closeTts (e : Option Exc)
  | done

structure TurnTask where
  pc : TurnPc := .done
  cancelReq : Bool := false
  /-- the number of its turn id; 0 before it starts -/
  id : Nat := 0
  /-- its stream and the audio task that sends it -/
  tts : Option (StreamRef × AudioRef) := none
  ttsLive : Bool := false

namespace TurnTask

def live (task : TurnTask) : Bool :=
  match task.pc with
  | .done => false
  | _ => true

def started (task : TurnTask) : Bool :=
  match task.pc with
  | .created | .done => false
  | _ => true

theorem live_of_started {task : TurnTask} (h : task.started = true) : task.live = true := by
  unfold started at h
  unfold live
  split at h
  · cases h
  · cases h
  · rename_i hdone
    split
    · rename_i hpc
      exact absurd hpc hdone
    · rfl

end TurnTask

/-- A turn task with what it shares with the rest of the session. -/
structure Running where
  out : Output
  activeTurnId : Option Nat
  task : TurnTask

namespace Running

def goto (r : Running) (pc : TurnPc) : Running := { r with task := { r.task with pc := pc } }

def send (r : Running) (m : Msg) : Running := { r with out := r.out.send m }

/-- The `finally` of `_call_orchestrator`. `endSent` is `_turn_end_sent_at_close`. -/
def leave (endSent : Option Nat) (r : Running) : Running :=
  let n := r.task.id
  { out := if endSent = some n then r.out else r.out.send (.turnEnd n)
    activeTurnId := if r.activeTurnId = some n then none else r.activeTurnId
    task := { r.task with pc := .done } }

/-- `_run_turn` returns, or `e` leaves it. -/
def finish (endSent : Option Nat) (r : Running) : Option Exc → Running
  | none | some .clientGone | some .cancelled => r.leave endSent
  | some _ => (r.send (.turnError r.task.id (py "internal_error"))).leave endSent

/-- `tts.close()`, the end of the `finally` of `_run_turn`. -/
def closeTts (endSent : Option Nat) (r : Running) (e : Option Exc) : Running :=
  match r.task.tts with
  | none => r.finish endSent e
  | some (s, _) => { r with out := r.out.closeStream s }.goto (.closeTts e)

/-- The `finally` of `_run_turn`: the audio task first. Without a stream there is none. -/
def reap (endSent : Option Nat) (r : Running) (e : Option Exc) : Running :=
  match r.task.tts with
  | none => r.finish endSent e
  | some (_, a) =>
    if (r.out.audios a).running then
      { r with out := r.out.cancelAudio a }.goto (.reap e)
    else
      r.closeTts endSent e

/-- `_run_turn` after `pipe_tokens()`. -/
def drain (endSent : Option Nat) (r : Running) : Running :=
  match r.task.tts with
  | none => r.finish endSent none
  | some (_, a) =>
    let r := if r.out.clientGone then { r with out := r.out.cancelAudio a } else r
    if (r.out.audios a).running then r.goto .drain else r.reap endSent none

/-- `pipe_tokens()` is left, by `e` or normally. -/
def afterTokens (endSent : Option Nat) (r : Running) : Option Exc → Running
  | none => r.drain endSent
  | some e => r.reap endSent (some e)

/-- The `finally` of `pipe_tokens`. -/
def endTokens (endSent : Option Nat) (r : Running) (e : Option Exc) : Running :=
  if r.task.ttsLive then r.goto (.endTts e) else r.afterTokens endSent e

/-- The handlers of `pipe_tokens`, for what left `call_orchestrator`. -/
def leaveTokens (endSent : Option Nat) (r : Running) : Option Exc → Running
  | some .clientGone => r.endTokens endSent none
  | some (.orchestrator code) => (r.send (.turnError r.task.id code)).endTokens endSent none
  | some .runtime =>
    (r.send (.turnError r.task.id (py "internal_error"))).endTokens endSent none
  | e => r.endTokens endSent e

/-- `_drop_tts`: at `wait` while the cancelled audio task ends, or straight on to `k`. -/
def dropTts (r : Running) (wait : TurnPc) (k : Running → Running) : Running :=
  match r.task.tts, r.task.ttsLive with
  | some (_, a), true =>
    let r := { r with task := { r.task with ttsLive := false } }
    if (r.out.audios a).running then
      { r with out := r.out.cancelAudio a }.goto wait
    else
      k r
  | _, _ => k r

/-- The client is gone: `_on_token` and `_on_tool_call` raise. -/
def raiseGone (r : Running) : Running :=
  { r with out := { r.out with clientGone := true } }.goto (.aclose .clientGone)

/-- A content message, or `ClientGone` from a closed sender. -/
def sendContent (r : Running) (m : Msg) (k : Running → Running) : Running :=
  if r.out.senderOpen then k (r.send m) else r.raiseGone

def onToken (cfg : Config) (r : Running) (text : PyStr) : Running :=
  let chunk (r : Running) := r.goto (if r.task.ttsLive then .sendChunk else .next)
  if r.out.clientGone then r.raiseGone
  else if cfg.outputText then r.sendContent (.token r.task.id text) chunk
  else chunk r

def onToolCall (cfg : Config) (r : Running) (call : ToolCallEvent) : Running :=
  if r.out.clientGone then r.raiseGone
  else if cfg.toolCallsEnabled then r.sendContent (.toolCall r.task.id call) (·.goto .next)
  else r.goto .next

/-- The start of `_call_orchestrator`. -/
def start (cfg : Config) (r : Running) : Running :=
  let n := r.out.turnSeq + 1
  let r := { r with out := { r.out with turnSeq := n } }
  if r.out.senderOpen then
    { out := r.out.send (.turnStart n (turnSeq16 n))
      activeTurnId := some n
      task := { r.task with id := n, pc := if cfg.outputAudio then .connect else .next } }
  else
    r.goto .done

/-- The TTS of the turn is open, and its audio task created. -/
def connected (r : Running) : Running :=
  { r with
    out := r.out.openStream.spawnAudio r.task.id false
    task := { r.task with
      tts := some (r.out.streamCount, r.out.audioCount), ttsLive := true, pc := .next } }

end Running

/-- What resumes a turn task. -/
inductive TurnAct where
  | start
  /-- `tts.connect` returned a stream, or `None` -/
  | connected (stream : Bool)
  /-- an `Exception` other than the orchestrator's own error event -/
  | raises (runtime : Bool)
  | token (text : PyStr)
  | toolCall (call : ToolCallEvent)
  | streamEnds
  | streamError (code : PyStr)
  /-- a TTS call or `aclose` returned -/
  | returns
  /-- a TTS call failed or timed out -/
  | fails
  /-- `asyncio.wait` of the audio task returned -/
  | waited
  /-- the audio made no progress -/
  | idle
  | cancelled

namespace Running

/-- The task resumes with a `CancelledError`. -/
def onCancelled (endSent : Option Nat) (r : Running) : Option Running :=
  match r.task.pc with
  | .created => some (r.goto .done)
  | .connect => some (r.finish endSent (some .cancelled))
  | .next | .sendChunk | .dropChunk => some (r.goto (.aclose .cancelled))
  | .aclose _ => some (r.leaveTokens endSent (some .cancelled))
  | .endTts _ | .dropEnd _ => some (r.afterTokens endSent (some .cancelled))
  | .drain | .dropDrain => some (r.reap endSent (some .cancelled))
  | .reap _ | .closeTts _ => some (r.finish endSent (some .cancelled))
  | .done => none

def resume (cfg : Config) (endSent : Option Nat) (r : Running) (a : TurnAct) : Option Running :=
  match r.task.pc, a with
  | .created, .start => some (r.start cfg)
  | .connect, .connected true => some r.connected
  | .connect, .connected false => some (r.goto .next)
  | .connect, .raises _ => some (r.finish endSent (some .other))
  | .next, .token text => some (r.onToken cfg text)
  | .next, .toolCall call => some (r.onToolCall cfg call)
  | .next, .streamEnds => some (r.leaveTokens endSent none)
  | .next, .streamError code => some (r.goto (.aclose (.orchestrator code)))
  | .next, .raises runtime => some (r.leaveTokens endSent (some (if runtime then .runtime else .other)))
  | .sendChunk, .returns => some (r.goto .next)
  | .sendChunk, .fails => some (r.dropTts .dropChunk (·.goto .next))
  | .dropChunk, .waited => some (r.goto .next)
  | .aclose e, .returns => some (r.leaveTokens endSent (some e))
  | .endTts e, .returns => some (r.afterTokens endSent e)
  | .endTts e, .fails => some (r.dropTts (.dropEnd e) (·.afterTokens endSent e))
  | .dropEnd e, .waited => some (r.afterTokens endSent e)
  | .drain, .waited =>
    match r.task.tts with
    | some (_, a) => if (r.out.audios a).running then none else some (r.reap endSent none)
    | none => none
  | .drain, .idle => some (r.dropTts .dropDrain (·.reap endSent none))
  | .dropDrain, .waited => some (r.reap endSent none)
  | .reap e, .waited => some (r.closeTts endSent e)
  | .closeTts e, .returns | .closeTts e, .fails => some (r.finish endSent e)
  | _, _ => none

def step (cfg : Config) (endSent : Option Nat) (r : Running) (a : TurnAct) : Option Running :=
  match a with
  | .cancelled =>
    if r.task.cancelReq then
      { r with task := { r.task with cancelReq := false } }.onCancelled endSent
    else none
  | a => if r.task.cancelReq then none else r.resume cfg endSent a

end Running

-- ---------------------------------------------------------------------------
-- What one step of the turn does
-- ---------------------------------------------------------------------------

/-- The exception on its way out. -/
def TurnPc.exc : TurnPc → Option Exc
  | .aclose e => some e
  | .endTts e | .dropEnd e | .reap e | .closeTts e => e
  | _ => none

def TurnPc.cancelled (pc : TurnPc) : Bool := pc.exc = some .cancelled

/-- The audio of the turn may still be sounding. -/
def TurnPc.voiced : TurnPc → Bool
  | .reap _ | .closeTts _ | .done => false
  | _ => true

/-- Cancelled, or about to be: it sends nothing more but its `turn_end`. -/
def TurnTask.doomed (task : TurnTask) : Bool := task.cancelReq || task.pc.cancelled

/-- A second cancellation reaches the turn between its audio task and its stream. -/
def TurnTask.skipsClose (task : TurnTask) : Bool :=
  match task.pc with
  | .reap _ => task.cancelReq
  | _ => false

namespace Running

/-- What a live turn task keeps. -/
structure Ok (r : Running) : Prop where
  unconnected : r.task.pc = .created ∨ r.task.pc = .connect → r.task.tts = none
  bound : ∀ s a, r.task.tts = some (s, a) → a < r.out.audioCount
  silent : ∀ s a, r.task.tts = some (s, a) → r.task.pc.voiced = false →
    (r.out.audios a).sounding = false
  closed : ∀ s a, r.task.tts = some (s, a) → (∃ e, r.task.pc = .closeTts e) →
    r.out.closeInvoked s = true

/-- What the turn does between two awaits: replies of its own, cancelled audio, closed
streams. -/
structure Progress (r₀ r : Running) : Prop where
  id : r.task.id = r₀.task.id
  tts : r.task.tts = r₀.task.tts
  active : r.activeTurnId = r₀.activeTurnId
  out : r₀.out.Settles r.out
  wire : ∃ replies, r.out.wire = r₀.out.wire ++ replies ∧
    (∀ m ∈ replies, m.replyOf = some r₀.task.id) ∧ (r₀.task.doomed = true → replies = []) ∧
    (r₀.out.senderOpen = false → replies = [])

/-- The kinds of step. -/
inductive Effect (cfg : Config) (endSent : Option Nat) (r₀ r : Running) : Prop where
  | start (hpc : r₀.task.pc = .created) (hopen : r₀.out.senderOpen = true)
      (heq : r = r₀.start cfg)
  | unsent (hpc : r₀.task.pc = .created)
      (heq : ∃ n, r₀.out.turnSeq ≤ n ∧ r.out = { r₀.out with turnSeq := n })
      (hactive : r.activeTurnId = r₀.activeTurnId)
      (hdone : r.task.pc = .done) (hid : r.task.id = r₀.task.id) (htts : r.task.tts = r₀.task.tts)
  | connected (hpc : r₀.task.pc = .connect) (hreq : r₀.task.doomed = false)
      (heq : r = r₀.connected)
  | move (hstarted₀ : r₀.task.started = true) (h : Progress r₀ r)
      (hstarted : r.task.started = true) (hok : Ok r)
      (hdoomed : r₀.task.doomed = true → r.task.doomed = true)
  | ended (hstarted₀ : r₀.task.started = true) (r₁ : Running) (h : Progress r₀ r₁)
      (hout : r.out =
        if endSent = some r₀.task.id then r₁.out else r₁.out.send (.turnEnd r₀.task.id))
      (hactive : r.activeTurnId =
        if r₀.activeTurnId = some r₀.task.id then none else r₀.activeTurnId)
      (hdone : r.task.pc = .done) (hid : r.task.id = r₀.task.id) (htts : r.task.tts = r₀.task.tts)
      (hsilent : ∀ s a, r.task.tts = some (s, a) → (r.out.audios a).sounding = false)
      (hclosed : ∀ s a, r.task.tts = some (s, a) →
        r.out.closeInvoked s = true ∨ r₀.task.skipsClose = true)

namespace Progress

variable {r₀ r : Running}

theorem refl (r : Running) : Progress r r :=
  ⟨rfl, rfl, rfl, .refl _, [], by simp, by simp, by simp, by simp⟩

/-- Only the program counter and the flags of the task change. -/
theorem task (h : Progress r₀ r) {task : TurnTask} (hid : task.id = r.task.id)
    (htts : task.tts = r.task.tts) : Progress r₀ { r with task := task } :=
  ⟨hid.trans h.id, htts.trans h.tts, h.active, h.out, h.wire⟩

theorem goto (h : Progress r₀ r) (pc : TurnPc) : Progress r₀ (r.goto pc) := h.task rfl rfl

/-- Nothing is sent. -/
theorem settle (h : Progress r₀ r) {out : Output} (hout : r.out.Settles out)
    (hwire : out.wire = r.out.wire) : Progress r₀ { r with out := out } :=
  ⟨h.id, h.tts, h.active, h.out.trans hout, by rw [hwire]; exact h.wire⟩

theorem send (h : Progress r₀ r) {m : Msg} (hm : m.replyOf = some r₀.task.id)
    (hlive : r₀.task.doomed = false) : Progress r₀ (r.send m) := by
  refine ⟨h.id, h.tts, h.active, h.out.trans (.send _ m), ?_⟩
  obtain ⟨replies, hwire, hreplies, -, hclosed⟩ := h.wire
  cases hopen : r₀.out.senderOpen with
  | true =>
    refine ⟨replies ++ [m], ?_, ?_, ?_, ?_⟩
    · simp only [Running.send, Output.send, h.out.sender, hopen, if_true, hwire,
        List.append_assoc]
    · intro m' hm'
      rcases List.mem_append.mp hm' with hm' | hm'
      · exact hreplies m' hm'
      · rw [List.mem_singleton.mp hm']
        exact hm
    · intro hdoomed
      rw [hlive] at hdoomed
      cases hdoomed
    · intro hno
      cases hno
  | false =>
    refine ⟨replies, ?_, hreplies, ?_, ?_⟩
    · simp only [Running.send, Output.send, h.out.sender, hopen, Bool.false_eq_true, if_false,
        hwire]
    · exact fun _ => hclosed hopen
    · exact fun _ => hclosed hopen

end Progress

/-- What the exits of a turn are entered with. -/
structure Exit (r₀ r : Running) (e : Option Exc) : Prop where
  started : r₀.task.started = true
  progress : Progress r₀ r
  bound : ∀ s a, r.task.tts = some (s, a) → a < r.out.audioCount
  doomed : r₀.task.doomed = true → e = some .cancelled

variable {cfg : Config} {endSent : Option Nat} {r₀ r : Running} {e : Option Exc}

theorem Exit.sent (h : Exit r₀ r e) {m : Msg} (hm : m.replyOf = some r₀.task.id)
    (hlive : r₀.task.doomed = false) : Exit r₀ (r.send m) e :=
  ⟨h.started, h.progress.send hm hlive, h.bound, h.doomed⟩

theorem leave_effect (h : Exit r₀ r e)
    (hsilent : ∀ s a, r.task.tts = some (s, a) → (r.out.audios a).sounding = false)
    (hclosed : ∀ s a, r.task.tts = some (s, a) →
      r.out.closeInvoked s = true ∨ r₀.task.skipsClose = true) :
    Effect cfg endSent r₀ (r.leave endSent) := by
  have hid : r.task.id = r₀.task.id := h.progress.id
  have hactive : r.activeTurnId = r₀.activeTurnId := h.progress.active
  refine .ended h.started r h.progress ?_ ?_ rfl hid h.progress.tts ?_ ?_
  · simp only [leave, hid]
  · simp only [leave, hid, hactive]
  · intro s a htts
    have hs := hsilent s a htts
    unfold leave
    dsimp only
    split <;> exact hs
  · intro s a htts
    have hs := hclosed s a htts
    unfold leave
    dsimp only
    split <;> exact hs

theorem finish_effect (h : Exit r₀ r e)
    (hsilent : ∀ s a, r.task.tts = some (s, a) → (r.out.audios a).sounding = false)
    (hclosed : ∀ s a, r.task.tts = some (s, a) →
      r.out.closeInvoked s = true ∨ r₀.task.skipsClose = true) :
    Effect cfg endSent r₀ (r.finish endSent e) := by
  cases e with
  | none => exact leave_effect h hsilent hclosed
  | some e =>
    cases e with
    | clientGone | cancelled => exact leave_effect h hsilent hclosed
    | orchestrator _ | runtime | other =>
      have hlive : r₀.task.doomed = false := by
        cases hdoomed : r₀.task.doomed with
        | false => rfl
        | true => cases h.doomed hdoomed
      have hsent := h.sent (m := .turnError r.task.id (py "internal_error"))
        (congrArg some h.progress.id) hlive
      exact leave_effect hsent hsilent hclosed

theorem Exit.move {pc : TurnPc} (h : Exit r₀ r e) (hstarted : (r.goto pc).task.started = true)
    (hconnected : pc ≠ .connect)
    (hsilent : ∀ s a, r.task.tts = some (s, a) → pc.voiced = false →
      (r.out.audios a).sounding = false)
    (hclosed : ∀ s a, r.task.tts = some (s, a) → (∃ e, pc = .closeTts e) →
      r.out.closeInvoked s = true)
    (hdoomed : e = some .cancelled → pc.cancelled = true) :
    Effect cfg endSent r₀ (r.goto pc) := by
  refine .move h.started (h.progress.goto pc) hstarted ⟨?_, h.bound, hsilent, hclosed⟩ ?_
  · rintro (hpc | hpc)
    · rw [TurnTask.started, hpc] at hstarted
      cases hstarted
    · exact absurd hpc hconnected
  · intro hd
    have hcancelled : pc.cancelled = true := hdoomed (h.doomed hd)
    simp only [TurnTask.doomed, goto, hcancelled, Bool.or_true]

theorem closeTts_effect (h : Exit r₀ r e)
    (hsilent : ∀ s a, r.task.tts = some (s, a) → (r.out.audios a).sounding = false) :
    Effect cfg endSent r₀ (r.closeTts endSent e) := by
  unfold closeTts
  split
  · rename_i htts
    exact finish_effect h hsilent fun s a hs => by rw [htts] at hs; cases hs
  · rename_i s a htts
    have hexit : Exit r₀ { r with out := r.out.closeStream s } e :=
      ⟨h.started, h.progress.settle (.closeStream _ s) rfl, h.bound, h.doomed⟩
    refine hexit.move rfl TurnPc.noConfusion (fun s a hs _ => hsilent s a hs) ?_ ?_
    · intro s' a' hs' _
      rw [htts] at hs'
      cases hs'
      exact Output.closeStream_self r.out s
    · rintro rfl
      rfl

theorem reap_effect (h : Exit r₀ r e) : Effect cfg endSent r₀ (r.reap endSent e) := by
  unfold reap
  split
  · rename_i htts
    exact finish_effect h (fun s a hs => by rw [htts] at hs; cases hs)
      fun s a hs => by rw [htts] at hs; cases hs
  · rename_i s a htts
    split
    · have hexit : Exit r₀ { r with out := r.out.cancelAudio a } e :=
        ⟨h.started, h.progress.settle (.cancelAudio _ a) rfl, h.bound, h.doomed⟩
      refine hexit.move rfl TurnPc.noConfusion ?_ ?_ ?_
      · intro s' a' hs' _
        rw [htts] at hs'
        cases hs'
        simp only [Output.cancelAudio, Function.update_self, AudioTask.sounding, Bool.not_true,
          Bool.and_false]
      · rintro _ _ _ ⟨e', he'⟩
        cases he'
      · rintro rfl
        rfl
    · rename_i hdone
      refine closeTts_effect h ?_
      intro s' a' hs'
      rw [htts] at hs'
      cases hs'
      simp only [AudioTask.sounding, hdone, Bool.false_and]

/-- To an await where the audio may sound. -/
theorem Exit.voiced {pc : TurnPc} (h : Exit r₀ r e) (hstarted : (r.goto pc).task.started = true)
    (hconnected : pc ≠ .connect) (hvoiced : pc.voiced = true)
    (hdoomed : e = some .cancelled → pc.cancelled = true) :
    Effect cfg endSent r₀ (r.goto pc) := by
  refine h.move hstarted hconnected ?_ ?_ hdoomed
  · intro _ _ _ hsilent
    rw [hvoiced] at hsilent
    cases hsilent
  · rintro _ _ _ ⟨e', rfl⟩
    cases hvoiced

theorem drain_effect (h : Exit r₀ r none) : Effect cfg endSent r₀ (r.drain endSent) := by
  unfold drain
  split
  · rename_i htts
    exact finish_effect h (fun s a hs => by rw [htts] at hs; cases hs)
      fun s a hs => by rw [htts] at hs; cases hs
  · rename_i s a htts
    have hwait : ∀ r' : Running, Exit r₀ r' none → Effect cfg endSent r₀
        (if (r'.out.audios a).running then r'.goto .drain else r'.reap endSent none) := by
      intro r' hr'
      split
      · exact hr'.voiced rfl TurnPc.noConfusion rfl (fun h => by cases h)
      · exact reap_effect hr'
    cases r.out.clientGone with
    | false => exact hwait r h
    | true => exact hwait _ ⟨h.started, h.progress.settle (.cancelAudio _ a) rfl, h.bound, h.doomed⟩

theorem afterTokens_effect (h : Exit r₀ r e) : Effect cfg endSent r₀ (r.afterTokens endSent e) := by
  cases e with
  | none => exact drain_effect h
  | some e => exact reap_effect h

theorem endTokens_effect (h : Exit r₀ r e) : Effect cfg endSent r₀ (r.endTokens endSent e) := by
  unfold endTokens
  split
  · refine h.voiced rfl TurnPc.noConfusion rfl ?_
    rintro rfl
    rfl
  · exact afterTokens_effect h

theorem leaveTokens_effect (h : Exit r₀ r e) :
    Effect cfg endSent r₀ (r.leaveTokens endSent e) := by
  cases e with
  | none => exact endTokens_effect h
  | some e =>
    have hhandled : e ≠ .cancelled → Exit r₀ r none ∧ r₀.task.doomed = false := by
      intro hne
      have hlive : r₀.task.doomed ≠ true := fun hd => hne (Option.some.inj (h.doomed hd))
      exact ⟨⟨h.started, h.progress, h.bound, fun hd => absurd hd hlive⟩,
        Bool.eq_false_iff.mpr hlive⟩
    cases e with
    | cancelled | other => exact endTokens_effect h
    | clientGone => exact endTokens_effect (hhandled Exc.noConfusion).1
    | orchestrator _ | runtime =>
      obtain ⟨hexit, hlive⟩ := hhandled Exc.noConfusion
      exact endTokens_effect (hexit.sent (congrArg some h.progress.id) hlive)

/-- `k` is what follows the wait for the cancelled audio task. -/
theorem dropTts_effect {wait : TurnPc} {k : Running → Running} (h : Exit r₀ r e)
    (hstarted : (r.goto wait).task.started = true) (hconnected : wait ≠ .connect)
    (hvoiced : wait.voiced = true) (hdoomed : e = some .cancelled → wait.cancelled = true)
    (hk : ∀ r', Exit r₀ r' e → Effect cfg endSent r₀ (k r')) :
    Effect cfg endSent r₀ (r.dropTts wait k) := by
  unfold dropTts
  split
  · rename_i s a htts _
    have hdead : Exit r₀ { r with task := { r.task with ttsLive := false } } e :=
      ⟨h.started, h.progress.task rfl rfl, h.bound, h.doomed⟩
    dsimp only
    split
    · have hcancelled : Exit r₀
          { r with out := r.out.cancelAudio a, task := { r.task with ttsLive := false } } e :=
        ⟨h.started, hdead.progress.settle (.cancelAudio _ a) rfl, h.bound, h.doomed⟩
      exact hcancelled.voiced hstarted hconnected hvoiced hdoomed
    · exact hk _ hdead
  · exact hk r h

/-- On with the turn. -/
theorem Exit.on {pc : TurnPc} (h : Exit r₀ r none) (hstarted : (r.goto pc).task.started = true)
    (hconnected : pc ≠ .connect) (hvoiced : pc.voiced = true) :
    Effect cfg endSent r₀ (r.goto pc) :=
  h.voiced hstarted hconnected hvoiced fun he => by cases he

/-- An exception other than a cancellation. -/
theorem Exit.live {e : Exc} (h : Exit r₀ r none) : Exit r₀ r (some e) :=
  ⟨h.started, h.progress, h.bound, fun hd => by cases h.doomed hd⟩

theorem raiseGone_effect (h : Exit r₀ r none) : Effect cfg endSent r₀ r.raiseGone := by
  have hgone : Exit r₀ { r with out := { r.out with clientGone := true } } none :=
    ⟨h.started, h.progress.settle (.gone _) rfl, h.bound, h.doomed⟩
  exact hgone.on rfl TurnPc.noConfusion rfl

theorem sendContent_effect {m : Msg} {k : Running → Running} (h : Exit r₀ r none)
    (hm : m.replyOf = some r₀.task.id) (hk : ∀ r', Exit r₀ r' none → Effect cfg endSent r₀ (k r')) :
    Effect cfg endSent r₀ (r.sendContent m k) := by
  unfold sendContent
  split
  · have hlive : r₀.task.doomed = false := by
      cases hdoomed : r₀.task.doomed with
      | false => rfl
      | true => cases h.doomed hdoomed
    exact hk _ (h.sent hm hlive)
  · exact raiseGone_effect h

theorem onToken_effect (h : Exit r₀ r none) (text : PyStr) :
    Effect cfg endSent r₀ (r.onToken cfg text) := by
  have hchunk : ∀ r' : Running, Exit r₀ r' none →
      Effect cfg endSent r₀ (r'.goto (if r'.task.ttsLive then .sendChunk else .next)) := by
    intro r' hr'
    split
    · exact hr'.on rfl TurnPc.noConfusion rfl
    · exact hr'.on rfl TurnPc.noConfusion rfl
  unfold onToken
  split
  · exact raiseGone_effect h
  · split
    · exact sendContent_effect h (congrArg some h.progress.id) hchunk
    · exact hchunk r h

theorem onToolCall_effect (h : Exit r₀ r none) (call : ToolCallEvent) :
    Effect cfg endSent r₀ (r.onToolCall cfg call) := by
  have hnext : ∀ r' : Running, Exit r₀ r' none → Effect cfg endSent r₀ (r'.goto .next) :=
    fun r' hr' => hr'.on rfl TurnPc.noConfusion rfl
  unfold onToolCall
  split
  · exact raiseGone_effect h
  · split
    · exact sendContent_effect h (congrArg some h.progress.id) hnext
    · exact hnext r h

/-- The task of a suspended turn, entering its next step. -/
theorem Exit.enter (hok : Ok r) (hstarted : r.task.started = true)
    (hdoomed : r.task.doomed = true → e = some .cancelled) : Exit r r e :=
  ⟨hstarted, .refl r, hok.bound, hdoomed⟩

theorem start_effect (hpc : r₀.task.pc = .created) : Effect cfg endSent r₀ (r₀.start cfg) := by
  cases hopen : r₀.out.senderOpen with
  | true => exact .start hpc hopen rfl
  | false =>
    have heq : r₀.start cfg =
        { r₀ with
          out := { r₀.out with turnSeq := r₀.out.turnSeq + 1 }
          task := { r₀.task with pc := .done } } := by
      simp only [start, goto, hopen, Bool.false_eq_true, if_false]
    rw [heq]
    exact .unsent hpc ⟨_, Nat.le_succ _, rfl⟩ rfl rfl rfl rfl

theorem resume_effect {a : TurnAct} (hok : Ok r₀) (hreq : r₀.task.cancelReq = false)
    (h : r₀.resume cfg endSent a = some r) : Effect cfg endSent r₀ r := by
  have hexit : r₀.task.started = true → Exit r₀ r₀ r₀.task.pc.exc := by
    intro hstarted
    refine .enter hok hstarted ?_
    simp only [TurnTask.doomed, hreq, Bool.false_or]
    exact of_decide_eq_true
  unfold resume at h
  split at h
  case h_23 => cases h
  all_goals rename_i hpc; simp only [TurnTask.started, hpc, TurnPc.exc, true_imp_iff] at hexit
  case h_1 =>
    cases h
    exact start_effect hpc
  case h_2 =>
    cases h
    refine .connected hpc ?_ rfl
    simp only [TurnTask.doomed, hreq, TurnPc.cancelled, hpc, TurnPc.exc, Bool.false_or]
    rfl
  case h_3 | h_10 | h_12 =>
    cases h
    exact hexit.on rfl TurnPc.noConfusion rfl
  -- `tts.connect` raised: there is no stream yet
  case h_4 =>
    cases h
    have htts : r₀.task.tts = none := hok.unconnected (.inr hpc)
    refine finish_effect hexit.live ?_ ?_
    · intro s a hs
      rw [htts] at hs
      cases hs
    · intro s a hs
      rw [htts] at hs
      cases hs
  case h_5 =>
    cases h
    exact onToken_effect hexit _
  case h_6 =>
    cases h
    exact onToolCall_effect hexit _
  case h_7 =>
    cases h
    exact leaveTokens_effect hexit
  case h_8 =>
    cases h
    exact hexit.on rfl TurnPc.noConfusion rfl
  case h_9 =>
    cases h
    exact leaveTokens_effect hexit.live
  case h_11 =>
    cases h
    exact dropTts_effect hexit rfl TurnPc.noConfusion rfl (fun he => by cases he)
      fun r' hr' => hr'.on rfl TurnPc.noConfusion rfl
  case h_13 =>
    cases h
    exact leaveTokens_effect hexit
  case h_14 | h_16 =>
    cases h
    exact afterTokens_effect hexit
  case h_15 =>
    cases h
    refine dropTts_effect hexit rfl TurnPc.noConfusion rfl ?_ fun r' hr' => afterTokens_effect hr'
    rintro rfl
    rfl
  case h_17 =>
    split at h
    · split at h
      · cases h
      · cases h
        exact reap_effect hexit
    · cases h
  case h_18 =>
    cases h
    exact dropTts_effect hexit rfl TurnPc.noConfusion rfl (fun he => by cases he)
      fun r' hr' => reap_effect hr'
  case h_19 =>
    cases h
    exact reap_effect hexit
  case h_20 =>
    cases h
    refine closeTts_effect hexit fun s a hs => hok.silent s a hs ?_
    rw [hpc]
    rfl
  case h_21 | h_22 =>
    cases h
    refine finish_effect hexit (fun s a hs => hok.silent s a hs ?_) fun s a hs =>
      .inl (hok.closed s a hs ⟨_, hpc⟩)
    rw [hpc]
    rfl

theorem onCancelled_effect (hok : Ok r₀) (hreq : r₀.task.cancelReq = true)
    (h : onCancelled endSent { r₀ with task := { r₀.task with cancelReq := false } } = some r) :
    Effect cfg endSent r₀ r := by
  have hexit : r₀.task.started = true →
      Exit r₀ { r₀ with task := { r₀.task with cancelReq := false } } (some .cancelled) :=
    fun hstarted => ⟨hstarted, (Progress.refl r₀).task rfl rfl, hok.bound, fun _ => rfl⟩
  unfold onCancelled at h
  cases hpc : r₀.task.pc
  all_goals simp only [hpc, reduceCtorEq, Option.some.injEq] at h
  all_goals simp only [TurnTask.started, hpc, true_imp_iff] at hexit
  case created =>
    subst h
    exact .unsent hpc ⟨_, Nat.le_refl _, rfl⟩ rfl rfl rfl rfl
  case connect =>
    subst h
    have htts : r₀.task.tts = none := hok.unconnected (.inr hpc)
    refine finish_effect hexit ?_ ?_
    · intro s a hs
      rw [show r₀.task.tts = some (s, a) from hs] at htts
      cases htts
    · intro s a hs
      rw [show r₀.task.tts = some (s, a) from hs] at htts
      cases htts
  case next | sendChunk | dropChunk =>
    subst h
    exact hexit.voiced rfl TurnPc.noConfusion rfl fun _ => rfl
  case aclose =>
    subst h
    exact leaveTokens_effect hexit
  case endTts | dropEnd =>
    subst h
    exact afterTokens_effect hexit
  case drain | dropDrain =>
    subst h
    exact reap_effect hexit
  -- between the audio task and the stream: the stream stays open
  case reap =>
    subst h
    refine finish_effect hexit (fun s a hs => hok.silent s a hs ?_) fun s a hs => .inr ?_
    · rw [hpc]
      rfl
    · simp only [TurnTask.skipsClose, hpc, hreq]
  case closeTts =>
    subst h
    refine finish_effect hexit (fun s a hs => hok.silent s a hs ?_) fun s a hs =>
      .inl (hok.closed s a hs ⟨_, hpc⟩)
    rw [hpc]
    rfl

/-- What one step of a turn task does. -/
theorem step_effect {a : TurnAct} (hok : Ok r₀) (h : r₀.step cfg endSent a = some r) :
    Effect cfg endSent r₀ r := by
  unfold step at h
  split at h
  · split at h
    · rename_i hreq
      exact onCancelled_effect hok hreq h
    · cases h
  · split at h
    · cases h
    · rename_i hreq
      exact resume_effect hok (Bool.eq_false_iff.mpr hreq) h

theorem start_of_open (hopen : r₀.out.senderOpen = true) :
    r₀.start cfg = {
      out := { r₀.out with turnSeq := r₀.out.turnSeq + 1 }.send
        (.turnStart (r₀.out.turnSeq + 1) (turnSeq16 (r₀.out.turnSeq + 1)))
      activeTurnId := some (r₀.out.turnSeq + 1)
      task := { r₀.task with
        id := r₀.out.turnSeq + 1, pc := if cfg.outputAudio then .connect else .next } } :=
  if_pos hopen

theorem Effect.later (h : Effect cfg endSent r₀ r) : r₀.out.Later r.out := by
  cases h with
  | start _ hopen heq =>
    rw [heq, start_of_open hopen]
    exact (Output.Later.seq_le (Nat.le_succ _)).trans (.send _ _)
  | unsent _ heq =>
    obtain ⟨n, hn, heq⟩ := heq
    rw [heq]
    exact .seq_le hn
  | connected _ _ heq =>
    rw [heq]
    exact (Output.Later.openStream _).trans (.spawnAudio _ _ _)
  | move _ h => exact .of_settles h.out
  | ended _ r₁ h hout =>
    rw [hout]
    split
    · exact .of_settles h.out
    · exact (Output.Later.of_settles h.out).trans (.send _ _)

theorem ok_of_none (htts : r.task.tts = none) : Ok r := by
  have hnone : ∀ s a, r.task.tts ≠ some (s, a) := by
    intro s a hs
    rw [htts] at hs
    cases hs
  exact ⟨fun _ => htts, fun s a hs => absurd hs (hnone s a), fun s a hs => absurd hs (hnone s a),
    fun s a hs => absurd hs (hnone s a)⟩

theorem Effect.ok (hok : Ok r₀) (h : Effect cfg endSent r₀ r) : Ok r := by
  cases h with
  | start hpc hopen heq =>
    have htts : r₀.task.tts = none := hok.unconnected (.inl hpc)
    rw [start_of_open hopen] at heq
    subst heq
    exact ok_of_none htts
  | unsent hpc heq hactive hdone hid htts =>
    have hnone₀ : r₀.task.tts = none := hok.unconnected (.inl hpc)
    exact ok_of_none (htts.trans hnone₀)
  | connected _ _ heq =>
    subst heq
    refine ⟨?_, ?_, ?_, ?_⟩
    · rintro (h | h) <;> cases h
    · rintro s a ⟨⟩
      exact Nat.lt_succ_self _
    · rintro s a - ⟨⟩
    · rintro s a - ⟨e, ⟨⟩⟩
  | move _ _ _ hok => exact hok
  | ended _ r₁ h hout _ hdone _ htts hsilent =>
    refine ⟨?_, ?_, fun s a hs _ => hsilent s a hs, ?_⟩
    · rw [hdone]
      rintro (h | h) <;> cases h
    · intro s a hs
      have hlt : a < r₀.out.audioCount := hok.bound s a (htts ▸ hs)
      rw [hout]
      split
      · exact h.out.audioCount.symm ▸ hlt
      · exact h.out.audioCount.symm ▸ hlt
    · rw [hdone]
      rintro s a - ⟨e, ⟨⟩⟩

theorem Effect.live (h : Effect cfg endSent r₀ r) : r₀.task.live = true := by
  cases h with
  | start hpc | unsent hpc | connected hpc => rw [TurnTask.live, hpc]
  | move hstarted | ended hstarted => exact TurnTask.live_of_started hstarted

/-- A live turn goes on under its id, or it is over and its id free. -/
theorem Effect.outcome (h : Effect cfg endSent r₀ r)
    (hnamed : r₀.task.started = true →
      r₀.activeTurnId = some r₀.task.id ∧ r₀.task.id ≤ r₀.out.turnSeq)
    (hnone : r₀.task.started = false → r₀.activeTurnId = none) :
    r.task.started = true ∧ r.activeTurnId = some r.task.id ∧ r.task.id ≤ r.out.turnSeq ∨
      r.task.live = false ∧ r.activeTurnId = none := by
  cases h with
  | start hpc hopen heq =>
    rw [start_of_open hopen] at heq
    subst heq
    refine .inl ⟨?_, rfl, Nat.le_refl _⟩
    cases cfg.outputAudio <;> rfl
  | unsent hpc _ hactive hdone =>
    refine .inr ⟨by rw [TurnTask.live, hdone], ?_⟩
    rw [hactive]
    exact hnone (by rw [TurnTask.started, hpc])
  | connected hpc _ heq =>
    subst heq
    exact .inl ⟨rfl, hnamed (by rw [TurnTask.started, hpc])⟩
  | move hstarted₀ hp hstarted =>
    obtain ⟨hactive, hle⟩ := hnamed hstarted₀
    refine .inl ⟨hstarted, ?_, ?_⟩
    · rw [hp.active, hp.id]
      exact hactive
    · rw [hp.id, hp.out.seq]
      exact hle
  | ended hstarted₀ _ _ _ hactive hdone =>
    refine .inr ⟨by rw [TurnTask.live, hdone], ?_⟩
    rw [hactive, (hnamed hstarted₀).1, if_pos rfl]

/-- What a task keeps outlasts what the others do. -/
theorem Ok.later (h : Ok r) {out : Output} (hout : r.out.Later out) (active : Option Nat) :
    Ok { out := out, activeTurnId := active, task := r.task } := by
  refine ⟨h.unconnected, ?_, ?_, ?_⟩
  · exact fun s a hs => Nat.lt_of_lt_of_le (h.bound s a hs) hout.audioCount
  · exact fun s a hs hpc => hout.silent a (h.bound s a hs) (h.silent s a hs hpc)
  · exact fun s a hs hpc => hout.closed s (h.closed s a hs hpc)

end Running

end Bridge
