-- SUMMARY: Pushes: the backlog of a session and the worker that handles it, from one await to the next.
import JotaGateway.Bridge.Output
import JotaGateway.OpenClaw.Dispatcher

/-!
# The push worker

OpenClaw's unsolicited replies come as push events, one backlog a session. A
single worker takes them in order; `WorkerPc` is the await it is suspended
at. As in the turn task, the functions stand in the order of the source from
its end backwards. A turn id of 0 is `None`: ids start at 1.
-/

namespace Bridge

-- ---------------------------------------------------------------------------
-- State
-- ---------------------------------------------------------------------------

/-- An entry of the backlog. `key` is the `sessionKey` of its frame: nothing reads it. -/
structure Queued where
  event : PushEvent
  key : SessionKey

/-- What follows `_drop_push_tts` in the worker. -/
inductive AfterDrop where
  | chat
  | ended (n : Nat)

inductive WorkerPc where
  /-- the next event -/
  | idle
  /-- the active turn, before a push may open -/
  | waitTurn (sk : SessionKey)
  | lock (sk : SessionKey)
  | connect (n : Nat)
  /-- the close of a stream whose push was cut meanwhile -/
  | closeCut
  | sendChunk
  /-- `_drop_push_tts`: the cancelled audio task, before stream `s` is closed -/
  | dropAudio (s : StreamRef) (k : AfterDrop)
  | dropClose (k : AfterDrop)
  | endTts (n : Nat)
  | drain (n : Nat) (a : AudioRef)
  /-- the audio cancelled for lack of progress -/
  | drainCancelled (n : Nat)
  | closeTts (n : Nat)
  | done

/-- An await that is about no audio task and no stream. -/
def WorkerPc.plain : WorkerPc → Bool
  | .connect _ | .dropAudio _ _ | .drain _ _ | .drainCancelled _ | .closeTts _ => false
  | _ => true

structure Worker where
  pc : WorkerPc := .done
  cancelReq : Bool := false
  /-- the `sessionKey` of the event in hand -/
  key : SessionKey := []

namespace Worker

def connecting (w : Worker) : Option Nat :=
  match w.pc with
  | .connect n => some n
  | _ => none

/-- The stream it has taken and not closed yet. -/
def dropping (w : Worker) : Option StreamRef :=
  match w.pc with
  | .dropAudio s _ => some s
  | _ => none

/-- It does nothing more. -/
def doomed (w : Worker) : Bool :=
  match w.pc with
  | .done => true
  | _ => w.cancelReq

/-- `enqueue_push` starts a worker where there is none or it is done. -/
def respawn (w : Worker) : Worker :=
  match w.pc with
  | .done => { pc := .idle }
  | _ => w

theorem respawn_cases (w : Worker) : w.respawn = w ∨ w.pc = .done ∧ w.respawn = { pc := .idle } := by
  unfold respawn
  split
  · rename_i hdone
    exact .inr ⟨hdone, rfl⟩
  · exact .inl rfl

end Worker

/-- What ended a push turn. -/
inductive PushCloser where
  /-- an agent end or error of this key -/
  | ended (key : SessionKey)
  | cut
  | closeAll
deriving DecidableEq

/-- What happened to the push turns of a session, with the keys of the frames it came from. -/
inductive PushDeed where
  | opened (n : Nat) (key : SessionKey)
  | content (m : Msg) (key : SessionKey)
  | closed (n : Nat) (by_ : PushCloser)

structure Push where
  turnId : Nat := 0
  sessionKey : Option SessionKey := none
  turnOpen : Bool := false
  text : ChatTextTracker := {}
  tts : Option StreamRef := none
  audioTask : Option AudioRef := none
  queue : List Queued := []
  pending : Nat := 0
  worker : Worker := {}
  log : List PushDeed := []

/-- The pushes of a session with what they put out. -/
structure Pushing where
  out : Output
  push : Push

namespace Pushing

-- ---------------------------------------------------------------------------
-- The handlers
-- ---------------------------------------------------------------------------

def goto (p : Pushing) (pc : WorkerPc) : Pushing :=
  { p with push.worker.pc := pc }

/-- The `finally` of the worker loop. -/
def finishEvent (closing : Bool) (p : Pushing) : Pushing :=
  { p with
    push.pending := p.push.pending - 1
    push.worker.pc := if closing then .done else .idle }

/-- `_close_push_turn`: the only sender of a push's `turn_end`. -/
def closePushTurn (p : Pushing) (n : Nat) (by_ : PushCloser) : Pushing :=
  if p.push.turnOpen && p.push.turnId == n then
    { out := p.out.send (.turnEnd n)
      push := { p.push with turnOpen := false, log := p.push.log ++ [.closed n by_] } }
  else p

theorem closePushTurn_of_open {p : Pushing} (h : p.push.turnOpen = true) (by_ : PushCloser) :
    p.closePushTurn p.push.turnId by_ = {
      out := p.out.send (.turnEnd p.push.turnId)
      push := { p.push with
        turnOpen := false, log := p.push.log ++ [.closed p.push.turnId by_] } } := by
  simp only [closePushTurn, h, BEq.rfl, Bool.and_self, if_true]

theorem closePushTurn_of_closed {p : Pushing} (h : p.push.turnOpen = false) (n : Nat)
    (by_ : PushCloser) : p.closePushTurn n by_ = p := by
  simp only [closePushTurn, h, Bool.false_and, Bool.false_eq_true, if_false]

/-- The end of `on_push_turn_end`. -/
def endTurn (closing : Bool) (p : Pushing) (n : Nat) : Pushing :=
  (p.closePushTurn n (.ended p.push.worker.key)).finishEvent closing

/-- `on_push_turn_end` once the audio is done. -/
def afterDrain (closing : Bool) (p : Pushing) (n : Nat) : Pushing :=
  let p := { p with push.audioTask := none }
  match p.push.tts with
  | some s => { p with out := p.out.closeStream s }.goto (.closeTts n)
  | none => p.endTurn closing n

/-- `on_push_turn_end` after `tts.end()`. -/
def drain (closing : Bool) (p : Pushing) (n : Nat) : Pushing :=
  match p.push.tts, p.push.audioTask with
  | some _, some a =>
    if (p.out.audios a).running then p.goto (.drain n a) else p.afterDrain closing n
  | _, _ => p.afterDrain closing n

def afterDrop (closing : Bool) (p : Pushing) : AfterDrop → Pushing
  | .chat => p.finishEvent closing
  | .ended n => p.drain closing n

/-- `_drop_push_tts` up to its first wait: for the cancelled audio task (`true`), or for the
close of the stream `s`. -/
def dropTts (p : Pushing) (s : StreamRef) : Pushing × Bool :=
  let push := { p.push with tts := none, audioTask := none }
  match p.push.audioTask with
  | some a =>
    if (p.out.audios a).running then ({ out := p.out.cancelAudio a, push }, true)
    else ({ out := p.out.closeStream s, push }, false)
  | none => ({ out := p.out.closeStream s, push }, false)

/-- `_drop_push_tts` in the worker. -/
def dropPushTts (closing : Bool) (p : Pushing) (k : AfterDrop) : Pushing :=
  match p.push.tts with
  | none => p.afterDrop closing k
  | some s =>
    match p.dropTts s with
    | (p, true) => p.goto (.dropAudio s k)
    | (p, false) => p.goto (.dropClose k)

/-- A message of the open push, made from a frame of the key in hand. -/
def sendContent (p : Pushing) (m : Msg) : Pushing :=
  { out := p.out.send m
    push := { p.push with log := p.push.log ++ [.content m p.push.worker.key] } }

def pushAllowed (cfg : Config) (p : Pushing) : Bool := cfg.pushEnabled && p.push.turnOpen

def deliverPush (cfg : Config) (closing : Bool) (p : Pushing) (payload : PyDict) : Pushing :=
  if p.pushAllowed cfg then
    let (text, delta) := p.push.text.feed payload
    let p : Pushing := { p with push.text := text }
    if delta.isEmpty then
      p.finishEvent closing
    else
      let p : Pushing := if cfg.outputText then p.sendContent (.token p.push.turnId delta) else p
      if p.push.tts.isSome then p.goto .sendChunk else p.finishEvent closing
  else p.finishEvent closing

/-- A payload that does not parse raises, and the event is over. -/
def deliverPushToolCall (cfg : Config) (closing : Bool) (p : Pushing) (data : PyDict) : Pushing :=
  if p.pushAllowed cfg && cfg.toolCallsEnabled then
    match ToolCallEvent.fromSessionToolPayload data with
    | some (some call) => (p.sendContent (.toolCall p.push.turnId call)).finishEvent closing
    | _ => p.finishEvent closing
  else p.finishEvent closing

def onPushTurnEnd (closing : Bool) (p : Pushing) : Pushing :=
  if p.push.turnOpen then
    if p.push.tts.isSome then p.goto (.endTts p.push.turnId) else p.drain closing p.push.turnId
  else p.finishEvent closing

def onPushTurnStart (cfg : Config) (closing : Bool) (p : Pushing) (sk : SessionKey) : Pushing :=
  if !cfg.pushEnabled || p.push.turnOpen then
    p.finishEvent closing
  else
    let n := p.out.turnSeq + 1
    let out := { p.out with turnSeq := n }
    let p : Pushing := {
      out := out.send (.turnStart n (turnSeq16 n))
      push := { p.push with
        turnId := n, sessionKey := some sk, turnOpen := true, text := p.push.text.reset,
        log := p.push.log ++ [.opened n sk] } }
    if cfg.outputAudio then p.goto (.connect n) else p.finishEvent closing

/-- `tts.connect` returned a stream. -/
def connected (closing : Bool) (p : Pushing) (n : Nat) : Pushing :=
  let s := p.out.streamCount
  let out := p.out.openStream
  if p.push.turnOpen && p.push.turnId == n then
    let p : Pushing := {
      out := out.spawnAudio n true
      push := { p.push with tts := some s, audioTask := some out.audioCount } }
    p.finishEvent closing
  else
    { p with out := out.closeStream s }.goto .closeCut

end Pushing

-- ---------------------------------------------------------------------------
-- The worker
-- ---------------------------------------------------------------------------

/-- What the worker reads of the rest of the session. -/
structure WorkerEnv where
  cfg : Config
  closing : Bool
  /-- `_active_turn` is not done -/
  turnLive : Bool
  /-- `_turn_lock` is free -/
  lockFree : Bool

/-- What resumes the worker. -/
inductive WorkerAct where
  | take
  /-- `_closing` was set before the worker first ran -/
  | exits
  /-- a wait for the turn, the lock or an audio task is over -/
  | waited
  /-- `tts.connect` returned a stream, or `None` -/
  | connected (stream : Bool)
  /-- a TTS call returned -/
  | returns
  /-- a TTS call failed or timed out -/
  | fails
  /-- the audio made no progress -/
  | idle
  | cancelled

namespace Pushing

/-- The turn is done and the lock has been free: a push may open, unless a turn is active
again. -/
def throughLock (env : WorkerEnv) (p : Pushing) (sk : SessionKey) : Pushing :=
  if env.turnLive then p.goto (.waitTurn sk)
  else if env.lockFree then p.onPushTurnStart env.cfg env.closing sk
  else p.goto (.lock sk)

def handle (env : WorkerEnv) (p : Pushing) : PushEvent → Pushing
  | .turnStart sk => p.throughLock env sk
  | .chat payload => p.deliverPush env.cfg env.closing payload
  | .tool data => p.deliverPushToolCall env.cfg env.closing data
  | .turnEnd _ => p.onPushTurnEnd env.closing

def take (env : WorkerEnv) (p : Pushing) : Option Pushing :=
  match p.push.queue with
  | [] => none
  | q :: rest =>
    some ({ p with
      push.queue := rest
      push.worker := { p.push.worker with key := q.key } }.handle env q.event)

/-- The worker resumes with a `CancelledError`: an event in hand is over. -/
def onCancelled (p : Pushing) : Option Pushing :=
  match p.push.worker.pc with
  | .done => none
  | .idle => some (p.goto .done)
  | _ => some (p.finishEvent true)

def resume (env : WorkerEnv) (p : Pushing) (a : WorkerAct) : Option Pushing :=
  match p.push.worker.pc, a with
  | .idle, .take => p.take env
  | .idle, .exits => if env.closing then some (p.goto .done) else none
  | .waitTurn sk, .waited => if env.turnLive then none else some (p.throughLock env sk)
  | .lock sk, .waited => if env.lockFree then some (p.throughLock env sk) else none
  | .connect n, .connected true => some (p.connected env.closing n)
  | .connect _, .connected false | .connect _, .fails => some (p.finishEvent env.closing)
  | .closeCut, .returns | .closeCut, .fails => some (p.finishEvent env.closing)
  | .sendChunk, .returns => some (p.finishEvent env.closing)
  | .sendChunk, .fails => some (p.dropPushTts env.closing .chat)
  | .dropAudio s k, .waited => some ({ p with out := p.out.closeStream s }.goto (.dropClose k))
  | .dropClose k, .returns | .dropClose k, .fails => some (p.afterDrop env.closing k)
  | .endTts n, .returns => some (p.drain env.closing n)
  | .endTts n, .fails => some (p.dropPushTts env.closing (.ended n))
  | .drain n a, .waited =>
    if (p.out.audios a).running then none else some (p.afterDrain env.closing n)
  | .drain n a, .idle =>
    if (p.out.audios a).running then
      some ({ p with out := p.out.cancelAudio a }.goto (.drainCancelled n))
    else none
  | .drainCancelled n, .waited => some (p.afterDrain env.closing n)
  | .closeTts n, .returns | .closeTts n, .fails =>
    some ({ p with push.tts := none }.endTurn env.closing n)
  | _, _ => none

def step (env : WorkerEnv) (p : Pushing) (a : WorkerAct) : Option Pushing :=
  match a with
  | .cancelled =>
    if p.push.worker.cancelReq then { p with push.worker.cancelReq := false }.onCancelled
    else none
  | a => if p.push.worker.cancelReq then none else p.resume env a

end Pushing

-- ---------------------------------------------------------------------------
-- What one step of the worker does
-- ---------------------------------------------------------------------------

/-- A cancellation reaches the worker between an audio task and its stream. -/
def Worker.skipsClose (w : Worker) : Bool := w.cancelReq && w.dropping.isSome

namespace Pushing

def silent (p : Pushing) (a : AudioRef) : Prop := (p.out.audios a).sounding = false

/-- What the worker keeps at each await. -/
structure Ok (p : Pushing) : Prop where
  bound : ∀ a, p.push.audioTask = some a → a < p.out.audioCount
  voice : p.push.tts = none → ∀ a, p.push.audioTask = some a → p.silent a
  drain : ∀ n a, p.push.worker.pc = .drain n a → ∀ a', p.push.audioTask = some a' → a' = a
  cancelled : ∀ n, p.push.worker.pc = .drainCancelled n →
    ∀ a, p.push.audioTask = some a → p.silent a
  closing : ∀ n, p.push.worker.pc = .closeTts n →
    p.push.audioTask = none ∧ ∀ s, p.push.tts = some s → p.out.closeInvoked s = true

/-- The push turn in `p₀` has got its `turn_end`. -/
structure Ended (p₀ p : Pushing) : Prop where
  opened : p₀.push.turnOpen = true
  turnOpen : p.push.turnOpen = false
  wire : p.out.wire = (p₀.out.send (.turnEnd p₀.push.turnId)).wire
  tts : p.push.tts = none
  audioTask : p.push.audioTask = none

/-- The worker stops audio, closes streams and ends the push turn. -/
structure Moves (p₀ p : Pushing) : Prop where
  out : p₀.out.Settles p.out
  turnId : p.push.turnId = p₀.push.turnId
  turn : (p.push.turnOpen = p₀.push.turnOpen ∧ p.out.wire = p₀.out.wire) ∨ Ended p₀ p
  audioTask : p.push.audioTask = p₀.push.audioTask ∨
    p.push.audioTask = none ∧ ∀ a, p₀.push.audioTask = some a → p.silent a
  tts : p.push.tts = p₀.push.tts ∨
    p.push.tts = none ∧ ∀ s, p₀.push.tts = some s →
      p.out.closeInvoked s = true ∨ p.push.worker.dropping = some s
  dropped : ∀ s, p₀.push.worker.dropping = some s →
    p.out.closeInvoked s = true ∨ p₀.push.worker.skipsClose = true
  connecting : p.push.worker.connecting = none
  ok : Ok p

/-- The kinds of step. -/
inductive Effect (env : WorkerEnv) (p₀ p : Pushing) : Prop where
  | opened (n : Nat) (hn : n = p₀.out.turnSeq + 1) (hclosed : p₀.push.turnOpen = false)
      (hlive : env.turnLive = false) (hfree : env.lockFree = true)
      (hout : p.out = { p₀.out with turnSeq := n }.send (.turnStart n (turnSeq16 n)))
      (hid : p.push.turnId = n) (hopen : p.push.turnOpen = true)
      (htts : p.push.tts = p₀.push.tts) (haudio : p.push.audioTask = p₀.push.audioTask)
      (hconnecting : ∀ n', p.push.worker.connecting = some n' → n' = n)
      (hdropping₀ : p₀.push.worker.dropping = none) (hok : Ok p)
  | said (m : Msg) (hopen₀ : p₀.push.turnOpen = true) (hm : m.replyOf = some p₀.push.turnId)
      (hout : p.out = p₀.out.send m) (hid : p.push.turnId = p₀.push.turnId)
      (hopen : p.push.turnOpen = true) (htts : p.push.tts = p₀.push.tts)
      (haudio : p.push.audioTask = p₀.push.audioTask)
      (hconnecting : p.push.worker.connecting = none)
      (hdropping₀ : p₀.push.worker.dropping = none) (hok : Ok p)
  | connected (n : Nat) (hconnecting₀ : p₀.push.worker.connecting = some n)
      (hopen₀ : p₀.push.turnOpen = true) (hid₀ : p₀.push.turnId = n)
      (hout : p.out = p₀.out.openStream.spawnAudio n true)
      (hid : p.push.turnId = n) (hopen : p.push.turnOpen = true)
      (htts : p.push.tts = some p₀.out.streamCount)
      (haudio : p.push.audioTask = some p₀.out.audioCount)
      (hconnecting : p.push.worker.connecting = none) (hok : Ok p)
  | refused (n : Nat) (hconnecting₀ : p₀.push.worker.connecting = some n)
      (hcut : p₀.push.turnOpen = false ∨ p₀.push.turnId ≠ n)
      (hout : p.out = p₀.out.openStream.closeStream p₀.out.streamCount)
      (hid : p.push.turnId = p₀.push.turnId) (hopen : p.push.turnOpen = p₀.push.turnOpen)
      (htts : p.push.tts = p₀.push.tts) (haudio : p.push.audioTask = p₀.push.audioTask)
      (hconnecting : p.push.worker.connecting = none) (hok : Ok p)
  | moves (h : Moves p₀ p)

/-- The backlog shrinks, and a cancelled worker is done. -/
structure Shrinks (p₀ p : Pushing) : Prop where
  pending : p.push.pending ≤ p₀.push.pending
  queue : p.push.queue <:+ p₀.push.queue
  request : p.push.worker.cancelReq = false
  cancelled : p₀.push.worker.cancelReq = true → p.push.worker.pc = .done ∧ Moves p₀ p

/-- On the way from `p₀` to the next await: nothing has been sent. -/
structure Path (p₀ p : Pushing) : Prop where
  out : p₀.out.Settles p.out
  wire : p.out.wire = p₀.out.wire
  turnId : p.push.turnId = p₀.push.turnId
  turnOpen : p.push.turnOpen = p₀.push.turnOpen
  audioTask : p.push.audioTask = p₀.push.audioTask ∨
    p.push.audioTask = none ∧ ∀ a, p₀.push.audioTask = some a → p.silent a
  tts : p.push.tts = p₀.push.tts ∨
    p.push.tts = none ∧ ∀ s, p₀.push.tts = some s → p.out.closeInvoked s = true
  dropped : ∀ s, p₀.push.worker.dropping = some s →
    p.out.closeInvoked s = true ∨ p₀.push.worker.skipsClose = true
  bound : ∀ a, p.push.audioTask = some a → a < p.out.audioCount
  voice : p.push.tts = none → ∀ a, p.push.audioTask = some a → p.silent a

variable {env : WorkerEnv} {closing : Bool} {p₀ p : Pushing}

namespace Path

theorem refl (hok : Ok p) (hdropping : p.push.worker.dropping = none) : Path p p := by
  refine ⟨.refl _, rfl, rfl, rfl, .inl rfl, .inl rfl, ?_, hok.bound, hok.voice⟩
  intro s hs
  rw [hdropping] at hs
  cases hs

/-- Only what no path looks at changes. -/
theorem keep (h : Path p₀ p) {p' : Pushing} (hout : p'.out = p.out)
    (hid : p'.push.turnId = p.push.turnId) (hopen : p'.push.turnOpen = p.push.turnOpen)
    (haudio : p'.push.audioTask = p.push.audioTask) (htts : p'.push.tts = p.push.tts) :
    Path p₀ p' := by
  refine ⟨hout ▸ h.out, hout ▸ h.wire, hid.trans h.turnId, hopen.trans h.turnOpen, ?_, ?_,
    hout ▸ h.dropped, ?_, ?_⟩
  · simp only [haudio, silent, hout]
    exact h.audioTask
  · rw [htts, hout]
    exact h.tts
  · rw [haudio, hout]
    exact h.bound
  · simp only [haudio, htts, silent, hout]
    exact h.voice

/-- Audio is stopped, or a stream closed. -/
theorem settle (h : Path p₀ p) {out : Output} (hout : p.out.Settles out)
    (hwire : out.wire = p.out.wire) : Path p₀ { p with out := out } := by
  refine ⟨h.out.trans hout, hwire.trans h.wire, h.turnId, h.turnOpen, ?_, ?_, ?_, ?_, ?_⟩
  · exact h.audioTask.imp_right fun hnone => ⟨hnone.1, fun a ha => hout.silent (hnone.2 a ha)⟩
  · exact h.tts.imp_right fun hnone => ⟨hnone.1, fun s hs => hout.closed s (hnone.2 s hs)⟩
  · exact fun s hs => (h.dropped s hs).imp_left (hout.closed s)
  · exact fun a ha => hout.audioCount ▸ h.bound a ha
  · exact fun htts a ha => hout.silent (h.voice htts a ha)

/-- The audio task is over, or has been cancelled. -/
theorem noAudio (h : Path p₀ p) (hsilent : ∀ a, p.push.audioTask = some a → p.silent a) :
    Path p₀ { p with push.audioTask := none } := by
  refine ⟨h.out, h.wire, h.turnId, h.turnOpen, .inr ⟨rfl, ?_⟩, h.tts, h.dropped, ?_, ?_⟩
  · intro a ha
    rcases h.audioTask with hsame | hnone
    · exact hsilent a (hsame.trans ha)
    · exact hnone.2 a ha
  · rintro _ ⟨⟩
  · rintro _ _ ⟨⟩

/-- The stream has been closed. -/
theorem noTts (h : Path p₀ p) (haudio : p.push.audioTask = none)
    (hclosed : ∀ s, p.push.tts = some s → p.out.closeInvoked s = true) :
    Path p₀ { p with push.tts := none } := by
  refine ⟨h.out, h.wire, h.turnId, h.turnOpen, h.audioTask, .inr ⟨rfl, ?_⟩, h.dropped, h.bound, ?_⟩
  · intro s hs
    rcases h.tts with hsame | hnone
    · exact hclosed s (hsame.trans hs)
    · exact hnone.2 s hs
  · intro _ a ha
    rw [show p.push.audioTask = some a from ha] at haudio
    cases haudio

theorem moves (h : Path p₀ p) (hconnecting : p.push.worker.connecting = none)
    (hok : Ok p) : Moves p₀ p :=
  ⟨h.out, h.turnId, .inl ⟨h.turnOpen, h.wire⟩, h.audioTask,
    h.tts.imp_right fun hnone => ⟨hnone.1, fun s hs => .inl (hnone.2 s hs)⟩,
    h.dropped, hconnecting, hok⟩

end Path

theorem connecting_of_plain {pc : WorkerPc} (hpc : p.push.worker.pc = pc) (hplain : pc.plain = true) :
    p.push.worker.connecting = none := by
  unfold Worker.connecting
  split
  · rename_i h
    rw [← hpc, h] at hplain
    cases hplain
  · rfl

theorem ok_of_plain {pc : WorkerPc} (hpc : p.push.worker.pc = pc) (hplain : pc.plain = true)
    (hbound : ∀ a, p.push.audioTask = some a → a < p.out.audioCount)
    (hvoice : p.push.tts = none → ∀ a, p.push.audioTask = some a → p.silent a) : Ok p := by
  refine ⟨hbound, hvoice, ?_, ?_, ?_⟩
  · intro n a h
    rw [← hpc, h] at hplain
    cases hplain
  · intro n h
    rw [← hpc, h] at hplain
    cases hplain
  · intro n h
    rw [← hpc, h] at hplain
    cases hplain

theorem Path.plain {pc : WorkerPc} (h : Path p₀ p) (hpc : p.push.worker.pc = pc)
    (hplain : pc.plain = true) : Moves p₀ p :=
  h.moves (connecting_of_plain hpc hplain) (ok_of_plain hpc hplain h.bound h.voice)

theorem finishEvent_plain : (p.finishEvent closing).push.worker.pc.plain = true := by
  cases closing with
  | true => rfl
  | false => rfl

theorem finishEvent_moves (h : Path p₀ p) : Moves p₀ (p.finishEvent closing) := by
  have hpath : Path p₀ (p.finishEvent closing) := h.keep rfl rfl rfl rfl rfl
  exact hpath.plain rfl finishEvent_plain

theorem endTurn_moves {n : Nat} (h : Path p₀ p) (htts : p.push.tts = none)
    (haudio : p.push.audioTask = none) : Moves p₀ (p.endTurn closing n) := by
  unfold endTurn closePushTurn
  split
  · rename_i hopen
    simp only [Bool.and_eq_true, beq_iff_eq] at hopen
    obtain ⟨hopen, rfl⟩ := hopen
    have hquiet : Moves p₀ (p.finishEvent closing) := finishEvent_moves h
    refine ⟨h.out.trans (.send _ _), h.turnId, .inr ?_, hquiet.audioTask, hquiet.tts, h.dropped,
      hquiet.connecting, ?_⟩
    · refine ⟨h.turnOpen ▸ hopen, rfl, ?_, htts, haudio⟩
      simp only [finishEvent, Output.send, h.wire, h.out.sender, h.turnId]
    · exact ⟨hquiet.ok.bound, hquiet.ok.voice, hquiet.ok.drain, hquiet.ok.cancelled,
        hquiet.ok.closing⟩
  · exact finishEvent_moves h

theorem afterDrain_moves {n : Nat} (h : Path p₀ p)
    (hsilent : ∀ a, p.push.audioTask = some a → p.silent a) :
    Moves p₀ (p.afterDrain closing n) := by
  have hquiet : Path p₀ { p with push.audioTask := none } := h.noAudio hsilent
  unfold afterDrain
  dsimp only
  split
  · rename_i s htts
    have hclosed : Path p₀
        ({ p with out := p.out.closeStream s, push.audioTask := none }.goto (.closeTts n)) :=
      (hquiet.settle (.closeStream _ s) rfl).keep rfl rfl rfl rfl rfl
    refine hclosed.moves rfl ⟨hclosed.bound, hclosed.voice, ?_, ?_, ?_⟩
    · rintro _ _ ⟨⟩
    · rintro _ ⟨⟩
    · intro _ _
      refine ⟨rfl, fun s' hs' => ?_⟩
      obtain rfl : s = s' := Option.some.inj (htts.symm.trans hs')
      exact Output.closeStream_self p.out s
  · rename_i htts
    exact endTurn_moves hquiet htts rfl

theorem drain_moves {n : Nat} (h : Path p₀ p) : Moves p₀ (p.drain closing n) := by
  unfold drain
  split
  · rename_i s a htts haudio
    split
    · have hpath : Path p₀ (p.goto (.drain n a)) := h.keep rfl rfl rfl rfl rfl
      refine hpath.moves rfl ⟨hpath.bound, hpath.voice, ?_, ?_, ?_⟩
      · rintro _ _ ⟨⟩ a' ha'
        exact Option.some.inj (ha'.symm.trans haudio)
      · rintro _ ⟨⟩
      · rintro _ ⟨⟩
    · rename_i hdone
      refine afterDrain_moves h ?_
      intro a' ha'
      obtain rfl : a = a' := Option.some.inj (haudio.symm.trans ha')
      simp only [silent, AudioTask.sounding, Bool.eq_false_iff.mpr hdone, Bool.false_and]
  · rename_i hother
    refine afterDrain_moves h ?_
    intro a ha
    cases htts : p.push.tts with
    | none => exact h.voice htts a ha
    | some s => exact absurd ha (hother s a htts)

theorem afterDrop_moves (k : AfterDrop) (h : Path p₀ p) : Moves p₀ (p.afterDrop closing k) := by
  cases k with
  | chat => exact finishEvent_moves h
  | ended n => exact drain_moves h

/-- The stream `s` of the push has been taken: closed, or to be closed after the audio. -/
structure Dropped (p₀ : Pushing) (s : StreamRef) (p : Pushing) (waits : Bool) : Prop where
  push : p.push = { p₀.push with tts := none, audioTask := none }
  out : p₀.out.Settles p.out
  wire : p.out.wire = p₀.out.wire
  silent : ∀ a, p₀.push.audioTask = some a → p.silent a
  taken : waits = true ∨ p.out.closeInvoked s = true

theorem dropTts_dropped {s : StreamRef} {p' : Pushing} {waits : Bool}
    (hdrop : p.dropTts s = (p', waits)) : Dropped p s p' waits := by
  have hclose : (∀ a, p.push.audioTask = some a → p.silent a) →
      Dropped p s (.mk (p.out.closeStream s) { p.push with tts := none, audioTask := none })
        false :=
    fun hsilent => ⟨rfl, .closeStream _ s, rfl, hsilent, .inr (Output.closeStream_self _ s)⟩
  unfold dropTts at hdrop
  split at hdrop
  · rename_i a haudio
    split at hdrop
    · cases hdrop
      refine ⟨rfl, .cancelAudio _ a, rfl, ?_, .inl rfl⟩
      intro a' ha'
      obtain rfl : a = a' := Option.some.inj (haudio.symm.trans ha')
      exact Output.cancelAudio_silent p.out a
    · rename_i hdone
      cases hdrop
      refine hclose ?_
      intro a' ha'
      obtain rfl : a = a' := Option.some.inj (haudio.symm.trans ha')
      simp only [silent, AudioTask.sounding, Bool.eq_false_iff.mpr hdone, Bool.false_and]
  · rename_i haudio
    cases hdrop
    refine hclose ?_
    intro a ha
    rw [haudio] at ha
    cases ha

theorem ok_of_none (haudio : p.push.audioTask = none) (htts : p.push.tts = none) : Ok p := by
  have hnone : ∀ a, p.push.audioTask ≠ some a := by
    intro a ha
    rw [haudio] at ha
    cases ha
  refine ⟨fun a ha => absurd ha (hnone a), fun _ a ha => absurd ha (hnone a),
    fun _ _ _ a ha => absurd ha (hnone a), fun _ _ a ha => absurd ha (hnone a),
    fun _ _ => ⟨haudio, fun s hs => ?_⟩⟩
  rw [htts] at hs
  cases hs

theorem dropPushTts_moves (k : AfterDrop) (hok : Ok p) (hdropping : p.push.worker.dropping = none) :
    Moves p (p.dropPushTts closing k) := by
  unfold dropPushTts
  split
  · exact afterDrop_moves k (.refl hok hdropping)
  · rename_i s htts
    have htaken : ∀ {p' waits}, Dropped p s p' waits → ∀ pc,
        (waits = true → (p'.goto pc).push.worker.dropping = some s) →
        (p'.goto pc).push.worker.connecting = none → Moves p (p'.goto pc) := by
      intro p' waits h pc hwaits hconnecting
      have haudio : (p'.goto pc).push.audioTask = none := by rw [goto, h.push]
      have hnone : (p'.goto pc).push.tts = none := by rw [goto, h.push]
      refine ⟨h.out, by rw [goto, h.push], .inl ⟨by rw [goto, h.push], h.wire⟩,
        .inr ⟨haudio, h.silent⟩, .inr ⟨hnone, ?_⟩, ?_, hconnecting, ok_of_none haudio hnone⟩
      · intro s' hs'
        obtain rfl : s = s' := Option.some.inj (htts.symm.trans hs')
        exact h.taken.symm.imp_right hwaits
      · intro s' hs'
        rw [hdropping] at hs'
        cases hs'
    split
    · rename_i hdrop
      exact htaken (dropTts_dropped hdrop) _ (fun _ => rfl) rfl
    · rename_i hdrop
      exact htaken (dropTts_dropped hdrop) _ (fun h => by cases h) rfl

theorem said_effect {m : Msg} {p' : Pushing} (hok : Ok p) (hdropping : p.push.worker.dropping = none)
    (hopen : p.push.turnOpen = true) (hm : m.replyOf = some p.push.turnId)
    (hout : p'.out = p.out.send m) (hid : p'.push.turnId = p.push.turnId)
    (hopen' : p'.push.turnOpen = p.push.turnOpen) (htts : p'.push.tts = p.push.tts)
    (haudio : p'.push.audioTask = p.push.audioTask) (hpc : p'.push.worker.pc.plain = true) :
    Effect env p p' := by
  refine .said m hopen hm hout hid (hopen'.trans hopen) htts haudio (connecting_of_plain rfl hpc)
    hdropping (ok_of_plain rfl hpc ?_ ?_)
  · rw [haudio, hout]
    exact hok.bound
  · simp only [htts, haudio, silent, hout]
    exact hok.voice

theorem deliverPush_effect {cfg : Config} {payload : PyDict} (hok : Ok p)
    (hdropping : p.push.worker.dropping = none) :
    Effect env p (p.deliverPush cfg closing payload) := by
  have hentry : Path p p := .refl hok hdropping
  unfold deliverPush pushAllowed
  split
  · rename_i hallowed
    have hopen : p.push.turnOpen = true := (Bool.and_eq_true _ _ ▸ hallowed).2
    dsimp only
    split
    · exact .moves (finishEvent_moves (hentry.keep rfl rfl rfl rfl rfl))
    · cases cfg.outputText with
      | true =>
        simp only [if_true]
        split
        · exact said_effect hok hdropping hopen rfl rfl rfl rfl rfl rfl rfl
        · exact said_effect hok hdropping hopen rfl rfl rfl rfl rfl rfl finishEvent_plain
      | false =>
        simp only [Bool.false_eq_true, if_false]
        split
        · refine .moves (Path.plain ?_ rfl rfl)
          exact hentry.keep rfl rfl rfl rfl rfl
        · exact .moves (finishEvent_moves (hentry.keep rfl rfl rfl rfl rfl))
  · exact .moves (finishEvent_moves hentry)

theorem deliverPushToolCall_effect {cfg : Config} {data : PyDict} (hok : Ok p)
    (hdropping : p.push.worker.dropping = none) :
    Effect env p (p.deliverPushToolCall cfg closing data) := by
  unfold deliverPushToolCall pushAllowed
  split
  · rename_i hallowed
    have hopen : p.push.turnOpen = true := by
      simp only [Bool.and_eq_true] at hallowed
      exact hallowed.1.2
    split
    · exact said_effect hok hdropping hopen rfl rfl rfl rfl rfl rfl finishEvent_plain
    · exact .moves (finishEvent_moves (.refl hok hdropping))
  · exact .moves (finishEvent_moves (.refl hok hdropping))

theorem onPushTurnEnd_effect (hok : Ok p) (hdropping : p.push.worker.dropping = none) :
    Effect env p (p.onPushTurnEnd closing) := by
  have hentry : Path p p := .refl hok hdropping
  unfold onPushTurnEnd
  split
  · split
    · have hpath : Path p (p.goto (.endTts p.push.turnId)) := hentry.keep rfl rfl rfl rfl rfl
      exact .moves (hpath.plain rfl rfl)
    · exact .moves (drain_moves hentry)
  · exact .moves (finishEvent_moves hentry)

theorem onPushTurnStart_effect {sk : SessionKey} (hok : Ok p)
    (hdropping : p.push.worker.dropping = none) (hlive : env.turnLive = false)
    (hfree : env.lockFree = true) :
    Effect env p (p.onPushTurnStart env.cfg closing sk) := by
  unfold onPushTurnStart
  split
  · exact .moves (finishEvent_moves (.refl hok hdropping))
  · rename_i hnew
    have hclosed : p.push.turnOpen = false := by
      simp only [Bool.or_eq_true, not_or, Bool.not_eq_true] at hnew
      exact hnew.2
    dsimp only
    split
    · refine .opened _ rfl hclosed hlive hfree rfl rfl rfl rfl rfl ?_ hdropping
        ⟨hok.bound, hok.voice, ?_, ?_, ?_⟩
      · intro n' hn'
        exact (Option.some.inj hn').symm
      · rintro _ _ ⟨⟩
      · rintro _ ⟨⟩
      · rintro _ ⟨⟩
    · refine .opened _ rfl hclosed hlive hfree rfl rfl rfl rfl rfl ?_ hdropping
        (ok_of_plain rfl finishEvent_plain hok.bound hok.voice)
      intro n' hn'
      rw [connecting_of_plain rfl finishEvent_plain] at hn'
      cases hn'

theorem connected_effect {n : Nat} (hok : Ok p) (hpc : p.push.worker.pc = .connect n) :
    Effect env p (p.connected closing n) := by
  have hconnecting₀ : p.push.worker.connecting = some n := by
    simp only [Worker.connecting, hpc]
  unfold connected
  dsimp only
  split
  · rename_i hopen
    simp only [Bool.and_eq_true, beq_iff_eq] at hopen
    obtain ⟨hopen, hid⟩ := hopen
    refine .connected n hconnecting₀ hopen hid rfl hid hopen rfl rfl
      (connecting_of_plain rfl finishEvent_plain) (ok_of_plain rfl finishEvent_plain ?_ ?_)
    · intro a ha
      obtain rfl : p.out.audioCount = a := Option.some.inj ha
      exact Nat.lt_succ_self _
    · rintro ⟨⟩
  · rename_i hcut
    have hcut' : p.push.turnOpen = false ∨ p.push.turnId ≠ n := by
      simp only [Bool.and_eq_true, beq_iff_eq, not_and_or, Bool.not_eq_true] at hcut
      exact hcut
    exact .refused n hconnecting₀ hcut' rfl rfl rfl rfl rfl rfl
      (ok_of_plain rfl rfl hok.bound hok.voice)

theorem throughLock_effect {sk : SessionKey} (hok : Ok p) (hdropping : p.push.worker.dropping = none) :
    Effect env p (p.throughLock env sk) := by
  have hentry : Path p p := .refl hok hdropping
  unfold throughLock
  split
  · refine .moves (Path.plain ?_ rfl rfl)
    exact hentry.keep rfl rfl rfl rfl rfl
  · rename_i hlive
    split
    · rename_i hfree
      exact onPushTurnStart_effect hok hdropping (Bool.eq_false_iff.mpr hlive) hfree
    · refine .moves (Path.plain ?_ rfl rfl)
      exact hentry.keep rfl rfl rfl rfl rfl

theorem handle_effect {event : PushEvent} (hok : Ok p) (hdropping : p.push.worker.dropping = none) :
    Effect env p (p.handle env event) := by
  cases event with
  | turnStart sk => exact throughLock_effect hok hdropping
  | chat payload => exact deliverPush_effect hok hdropping
  | tool data => exact deliverPushToolCall_effect hok hdropping
  | turnEnd sk => exact onPushTurnEnd_effect hok hdropping

/-- The event in hand is not part of the effect. -/
theorem Effect.of_taken {queue : List Queued} {key : SessionKey}
    (h : Effect env
      { p₀ with push.queue := queue, push.worker := { p₀.push.worker with key := key } } p) :
    Effect env p₀ p := by
  cases h with
  | opened n hn hclosed hlive hfree hout hid hopen htts haudio hconnecting hdropping₀ hok =>
    exact .opened n hn hclosed hlive hfree hout hid hopen htts haudio hconnecting hdropping₀ hok
  | said m hopen₀ hm hout hid hopen htts haudio hconnecting hdropping₀ hok =>
    exact .said m hopen₀ hm hout hid hopen htts haudio hconnecting hdropping₀ hok
  | connected n hconnecting₀ hopen₀ hid₀ hout hid hopen htts haudio hconnecting hok =>
    exact .connected n hconnecting₀ hopen₀ hid₀ hout hid hopen htts haudio hconnecting hok
  | refused n hconnecting₀ hcut hout hid hopen htts haudio hconnecting hok =>
    exact .refused n hconnecting₀ hcut hout hid hopen htts haudio hconnecting hok
  | moves h =>
    obtain ⟨hout, hid, hturn, haudio, htts, hdropped, hconnecting, hok⟩ := h
    refine .moves ⟨hout, hid, hturn.imp_right ?_, haudio, htts, hdropped, hconnecting, hok⟩
    exact fun h => ⟨h.opened, h.turnOpen, h.wire, h.tts, h.audioTask⟩

theorem take_effect (hok : Ok p₀) (hpc : p₀.push.worker.pc = .idle) (h : p₀.take env = some p) :
    Effect env p₀ p := by
  unfold take at h
  split at h
  · cases h
  · rename_i q rest _
    cases h
    have hdropping : p₀.push.worker.dropping = none := by simp only [Worker.dropping, hpc]
    refine Effect.of_taken (handle_effect ⟨hok.bound, hok.voice, hok.drain, hok.cancelled,
      hok.closing⟩ hdropping)

theorem onCancelled_moves (hok : Ok p₀)
    (hreq : p₀.push.worker.cancelReq = true)
    (h : onCancelled { p₀ with push.worker.cancelReq := false } = some p) :
    p.push.worker.pc = .done ∧ Moves p₀ p := by
  have hentry : Path p₀ { p₀ with push.worker.cancelReq := false } := by
    refine ⟨.refl _, rfl, rfl, rfl, .inl rfl, .inl rfl, ?_, hok.bound, hok.voice⟩
    intro s hs
    refine .inr ?_
    simp only [Worker.skipsClose, hreq, hs, Option.isSome_some, Bool.and_self]
  unfold onCancelled at h
  split at h
  · cases h
  · cases h
    have hdone : Path p₀ (goto { p₀ with push.worker.cancelReq := false } .done) :=
      hentry.keep rfl rfl rfl rfl rfl
    exact ⟨rfl, hdone.plain rfl rfl⟩
  · cases h
    exact ⟨rfl, finishEvent_moves hentry⟩

theorem resume_effect {a : WorkerAct} (hok : Ok p₀) (h : p₀.resume env a = some p) :
    Effect env p₀ p := by
  have hentry : p₀.push.worker.dropping = none → Path p₀ p₀ := Path.refl hok
  unfold resume at h
  split at h
  case h_22 => cases h
  all_goals rename_i hpc; simp only [Worker.dropping, hpc, true_imp_iff] at hentry
  case h_1 => exact take_effect hok hpc h
  case h_2 =>
    split at h
    · cases h
      refine .moves (Path.plain ?_ rfl rfl)
      exact hentry.keep rfl rfl rfl rfl rfl
    · cases h
  case h_3 | h_4 =>
    have hdropping : p₀.push.worker.dropping = none := by simp only [Worker.dropping, hpc]
    split at h
    all_goals first | cases h; exact throughLock_effect hok hdropping | cases h
  case h_5 =>
    cases h
    exact connected_effect hok hpc
  case h_6 | h_7 | h_8 | h_9 | h_10 =>
    cases h
    exact .moves (finishEvent_moves hentry)
  case h_11 | h_16 =>
    cases h
    exact .moves (dropPushTts_moves _ hok (by simp only [Worker.dropping, hpc]))
  -- the audio has stopped: the stream it belongs to is closed
  case h_12 s k =>
    cases h
    have hclosed : Path p₀ ({ p₀ with out := p₀.out.closeStream s }.goto (.dropClose k)) := by
      refine ⟨.closeStream _ s, rfl, rfl, rfl, .inl rfl, .inl rfl, ?_, hok.bound, hok.voice⟩
      intro s' hs'
      simp only [Worker.dropping, hpc, Option.some.injEq] at hs'
      subst hs'
      exact .inl (Output.closeStream_self p₀.out s)
    exact .moves (hclosed.plain rfl rfl)
  case h_13 | h_14 =>
    cases h
    exact .moves (afterDrop_moves _ hentry)
  case h_15 =>
    cases h
    exact .moves (drain_moves hentry)
  case h_17 n a =>
    split at h
    · cases h
    · rename_i hdone
      cases h
      refine .moves (afterDrain_moves hentry ?_)
      intro a' ha'
      obtain rfl : a' = a := hok.drain n a hpc a' ha'
      simp only [silent, AudioTask.sounding, Bool.eq_false_iff.mpr hdone, Bool.false_and]
  case h_18 n a =>
    split at h
    · cases h
      have hstopped : Path p₀ ({ p₀ with out := p₀.out.cancelAudio a }.goto (.drainCancelled n)) :=
        (hentry.settle (.cancelAudio _ a) rfl).keep rfl rfl rfl rfl rfl
      refine .moves (hstopped.moves rfl ⟨hstopped.bound, hstopped.voice, ?_, ?_, ?_⟩)
      · rintro _ _ ⟨⟩
      · intro _ _ a' ha'
        obtain rfl : a' = a := hok.drain n a hpc a' ha'
        exact Output.cancelAudio_silent p₀.out a'
      · rintro _ ⟨⟩
    · cases h
  case h_19 n =>
    cases h
    exact .moves (afterDrain_moves hentry (hok.cancelled n hpc))
  case h_20 n | h_21 n =>
    cases h
    obtain ⟨haudio, hclosed⟩ := hok.closing n hpc
    exact .moves (endTurn_moves (hentry.noTts haudio hclosed) rfl haudio)

/-- What one step of the worker does. -/
theorem step_effect {a : WorkerAct} (hok : Ok p₀) (h : p₀.step env a = some p) :
    Effect env p₀ p := by
  unfold step at h
  split at h
  · split at h
    · rename_i hreq
      exact .moves (onCancelled_moves hok hreq h).2
    · cases h
  · split at h
    · cases h
    · exact resume_effect hok h

/-- On the way the queue and the request stay. -/
structure Steady (p₀ p : Pushing) : Prop where
  queue : p.push.queue = p₀.push.queue
  pending : p.push.pending ≤ p₀.push.pending
  request : p.push.worker.cancelReq = p₀.push.worker.cancelReq

theorem finishEvent_steady : Steady p (p.finishEvent closing) := ⟨rfl, Nat.sub_le _ _, rfl⟩

theorem endTurn_steady {n : Nat} : Steady p (p.endTurn closing n) := by
  unfold endTurn closePushTurn
  split <;> exact ⟨rfl, Nat.sub_le _ _, rfl⟩

theorem afterDrain_steady {n : Nat} : Steady p (p.afterDrain closing n) := by
  unfold afterDrain
  dsimp only
  split
  · exact ⟨rfl, Nat.le_refl _, rfl⟩
  · have hended : Steady { p with push.audioTask := none }
        (endTurn closing { p with push.audioTask := none } n) := endTurn_steady
    exact ⟨hended.queue, hended.pending, hended.request⟩

theorem drain_steady {n : Nat} : Steady p (p.drain closing n) := by
  unfold drain
  split
  · split
    · exact ⟨rfl, Nat.le_refl _, rfl⟩
    · exact afterDrain_steady
  · exact afterDrain_steady

theorem afterDrop_steady (k : AfterDrop) : Steady p (p.afterDrop closing k) := by
  cases k with
  | chat => exact finishEvent_steady
  | ended n => exact drain_steady

theorem dropPushTts_steady (k : AfterDrop) : Steady p (p.dropPushTts closing k) := by
  unfold dropPushTts
  split
  · exact afterDrop_steady k
  · split
    all_goals
      rename_i hdrop
      have hpush := (dropTts_dropped hdrop).push
      simp only [goto, hpush]
      exact ⟨rfl, Nat.le_refl _, rfl⟩

theorem deliverPush_steady {cfg : Config} {payload : PyDict} :
    Steady p (p.deliverPush cfg closing payload) := by
  unfold deliverPush
  split
  · dsimp only
    split
    · exact ⟨rfl, Nat.sub_le _ _, rfl⟩
    · cases cfg.outputText <;> simp only [if_true, Bool.false_eq_true, if_false] <;> split
      all_goals first | exact ⟨rfl, Nat.le_refl _, rfl⟩ | exact ⟨rfl, Nat.sub_le _ _, rfl⟩
  · exact finishEvent_steady

theorem deliverPushToolCall_steady {cfg : Config} {data : PyDict} :
    Steady p (p.deliverPushToolCall cfg closing data) := by
  unfold deliverPushToolCall
  split
  · split <;> exact ⟨rfl, Nat.sub_le _ _, rfl⟩
  · exact finishEvent_steady

theorem onPushTurnEnd_steady : Steady p (p.onPushTurnEnd closing) := by
  unfold onPushTurnEnd
  split
  · split
    · exact ⟨rfl, Nat.le_refl _, rfl⟩
    · exact drain_steady
  · exact finishEvent_steady

theorem throughLock_steady {sk : SessionKey} : Steady p (p.throughLock env sk) := by
  unfold throughLock
  split
  · exact ⟨rfl, Nat.le_refl _, rfl⟩
  · split
    · unfold onPushTurnStart
      split
      · exact finishEvent_steady
      · dsimp only
        split
        · exact ⟨rfl, Nat.le_refl _, rfl⟩
        · exact ⟨rfl, Nat.sub_le _ _, rfl⟩
    · exact ⟨rfl, Nat.le_refl _, rfl⟩

theorem handle_steady {event : PushEvent} : Steady p (p.handle env event) := by
  cases event with
  | turnStart sk => exact throughLock_steady
  | chat payload => exact deliverPush_steady
  | tool data => exact deliverPushToolCall_steady
  | turnEnd sk => exact onPushTurnEnd_steady

theorem connected_steady {n : Nat} : Steady p (p.connected closing n) := by
  unfold connected
  dsimp only
  split
  · exact ⟨rfl, Nat.sub_le _ _, rfl⟩
  · exact ⟨rfl, Nat.le_refl _, rfl⟩

theorem resume_steady {a : WorkerAct} (h : p₀.resume env a = some p) :
    Steady p₀ p ∨ ∃ q, p₀.push.queue = q :: p.push.queue ∧
      p.push.pending ≤ p₀.push.pending ∧
        p.push.worker.cancelReq = p₀.push.worker.cancelReq := by
  unfold resume at h
  split at h
  case h_1 =>
    unfold take at h
    split at h
    · cases h
    · rename_i q rest hqueue
      cases h
      have htaken : Steady
          { p₀ with push.queue := rest, push.worker := { p₀.push.worker with key := q.key } }
          (handle env { p₀ with
            push.queue := rest, push.worker := { p₀.push.worker with key := q.key } } q.event) :=
        handle_steady
      exact .inr ⟨q, htaken.queue ▸ hqueue, htaken.pending, htaken.request⟩
  case h_3 | h_4 =>
    split at h
    all_goals first | cases h; exact .inl throughLock_steady | cases h
  case h_5 =>
    cases h
    exact .inl connected_steady
  case h_6 | h_7 | h_8 | h_9 | h_10 =>
    cases h
    exact .inl finishEvent_steady
  case h_11 | h_16 =>
    cases h
    exact .inl (dropPushTts_steady _)
  case h_13 | h_14 =>
    cases h
    exact .inl (afterDrop_steady _)
  case h_15 =>
    cases h
    exact .inl drain_steady
  case h_17 =>
    split at h
    · cases h
    · cases h
      exact .inl afterDrain_steady
  case h_19 =>
    cases h
    exact .inl afterDrain_steady
  case h_20 n _ | h_21 n _ =>
    cases h
    have hended : Steady { p₀ with push.tts := none }
        (endTurn env.closing { p₀ with push.tts := none } n) := endTurn_steady
    exact .inl ⟨hended.queue, hended.pending, hended.request⟩
  case h_22 => cases h
  -- it goes to another await
  case h_12 =>
    cases h
    exact .inl ⟨rfl, Nat.le_refl _, rfl⟩
  case h_2 | h_18 =>
    split at h
    · cases h
      exact .inl ⟨rfl, Nat.le_refl _, rfl⟩
    · cases h

/-- The step of a worker that has been cancelled is its last. -/
theorem step_shrinks {a : WorkerAct} (hok : Ok p₀) (h : p₀.step env a = some p) :
    Shrinks p₀ p := by
  unfold step at h
  split at h
  · split at h
    · rename_i hreq
      have hlast := onCancelled_moves hok hreq h
      unfold onCancelled at h
      split at h
      · cases h
      · cases h
        exact ⟨Nat.le_refl _, List.suffix_refl _, rfl, fun _ => hlast⟩
      · cases h
        exact ⟨Nat.sub_le _ _, List.suffix_refl _, rfl, fun _ => hlast⟩
    · cases h
  · split at h
    · cases h
    · rename_i hreq
      have hreq := Bool.eq_false_iff.mpr hreq
      have hlive : p₀.push.worker.cancelReq = true → p.push.worker.pc = .done ∧ Moves p₀ p := by
        intro hreq'
        rw [hreq] at hreq'
        cases hreq'
      rcases resume_steady h with hsteady | ⟨q, hqueue, hpending, hrequest⟩
      · refine ⟨hsteady.pending, ?_, hsteady.request.trans hreq, hlive⟩
        rw [hsteady.queue]
      · refine ⟨hpending, ?_, hrequest.trans hreq, hlive⟩
        rw [hqueue]
        exact List.suffix_cons _ _

/-- A worker that is done takes no step. -/
theorem step_of_done {a : WorkerAct} (hpc : p₀.push.worker.pc = .done) : p₀.step env a = none := by
  have hresume : p₀.resume env a = none := by
    unfold resume
    split
    case h_22 => rfl
    all_goals
      rename_i hpc'
      rw [hpc] at hpc'
      cases hpc'
  unfold step
  split
  · split
    · simp only [onCancelled, hpc]
    · rfl
  · split
    · rfl
    · exact hresume

theorem Effect.ok (h : Effect env p₀ p) : Ok p := by
  cases h with
  | moves h => exact h.ok
  | _ => assumption

theorem Effect.later (h : Effect env p₀ p) : p₀.out.Later p.out := by
  cases h with
  | opened n hn _ _ _ hout =>
    rw [hout]
    exact (Output.Later.seq_le (hn ▸ Nat.le_succ _)).trans (.send _ _)
  | said m _ _ hout =>
    rw [hout]
    exact .send _ _
  | connected n _ _ _ hout =>
    rw [hout]
    exact (Output.Later.openStream _).trans (.spawnAudio _ _ _)
  | refused n _ _ hout =>
    rw [hout]
    exact (Output.Later.openStream _).trans (.of_settles (.closeStream _ _))
  | moves h => exact .of_settles h.out

/-- What the worker keeps outlasts what the others do. -/
theorem Ok.later (h : Ok p) {out : Output} (hout : p.out.Later out) :
    Ok { out := out, push := p.push } := by
  refine ⟨?_, ?_, h.drain, ?_, ?_⟩
  · exact fun a ha => Nat.lt_of_lt_of_le (h.bound a ha) hout.audioCount
  · exact fun htts a ha => hout.silent a (h.bound a ha) (h.voice htts a ha)
  · exact fun n hpc a ha => hout.silent a (h.bound a ha) (h.cancelled n hpc a ha)
  · exact fun n hpc => (h.closing n hpc).imp_right fun hc s hs => hout.closed s (hc s hs)

/-- Only the await changes, to one that relies on nothing. -/
theorem Ok.keep (h : Ok p) {p' : Pushing} (hout : p'.out = p.out)
    (haudio : p'.push.audioTask = p.push.audioTask) (htts : p'.push.tts = p.push.tts)
    (hpc : p'.push.worker.pc = p.push.worker.pc ∨ p'.push.worker.pc.plain = true) : Ok p' := by
  have hbound : ∀ a, p'.push.audioTask = some a → a < p'.out.audioCount := by
    rw [haudio, hout]
    exact h.bound
  have hvoice : p'.push.tts = none → ∀ a, p'.push.audioTask = some a → p'.silent a := by
    simp only [htts, haudio, silent, hout]
    exact h.voice
  cases hpc with
  | inr hplain => exact ok_of_plain rfl hplain hbound hvoice
  | inl hsame =>
    refine ⟨hbound, hvoice, ?_, ?_, ?_⟩
    · simp only [hsame, haudio]
      exact h.drain
    · simp only [hsame, haudio, silent, hout]
      exact h.cancelled
    · simp only [hsame, haudio, htts, hout]
      exact h.closing

end Pushing

end Bridge
