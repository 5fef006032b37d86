-- SUMMARY: `close_all` and its callers, `_revoke_session` among them, and the steps of a whole session.
import JotaGateway.Bridge.Interrupt

/-!
# The teardown of a session

Any number of tasks call `close_all`; `_close_lock` lets one through, which
runs the teardown. Each of its waits has a limit, so it may end at any time,
and a cancellation during one is noted and raised again at the end.
-/

namespace Bridge

abbrev CloserRef := Nat

-- ---------------------------------------------------------------------------
-- State
-- ---------------------------------------------------------------------------

inductive CloseReason where
  | clientDisconnect
  | idleTimeout
  | silenceTimeout
  | slowClient
  | revoked
  | shutdown
  | error
  | unknown
deriving DecidableEq

inductive SessionStatus where
  | active
  | completed
  | error
  | revoked
deriving DecidableEq

/-- How `await client_task` ended in `run()`. -/
inductive RunEnd where
  | returned
  /-- a `close_all` cancelled the input loop -/
  | loopCancelled
  /-- `run()` itself was cancelled -/
  | cancelled
  | crashed
deriving DecidableEq

/-- Where `close_all` is called. -/
inductive CloseSite where
  | silenceWatchdog
  | idleWatchdog
  /-- the background closer of a crashed idle watchdog -/
  | idleCrash
  | run (e : RunEnd)
  | route
  | revocation
deriving DecidableEq

namespace CloseSite

/-- The reason it notes before the call. -/
def noted : CloseSite → Option CloseReason
  | .silenceWatchdog => some .silenceTimeout
  | .idleWatchdog => some .idleTimeout
  | .idleCrash => some .error
  | .run .returned => some .clientDisconnect
  | .run .loopCancelled => none
  | .run .cancelled | .run .crashed => some .error
  | .route => none
  | .revocation => some .revoked

/-- The arguments of the call. -/
def status : CloseSite → Option SessionStatus
  | .run .cancelled | .route => some .error
  | .revocation => some .revoked
  | _ => none

def reason : CloseSite → Option CloseReason
  | .revocation => some .revoked
  | _ => none

/-- The calling task is in `self.tasks`. -/
def inTasks : CloseSite → Bool
  | .silenceWatchdog | .idleWatchdog | .revocation => true
  | _ => false

end CloseSite

inductive CloserPc where
  | idle
  /-- `_revoke_session` closes the socket with 1008 -/
  | close1008
  | lock
  | turn (t : TurnRef)
  | worker
  | audio (a : AudioRef)
  | tts (s : StreamRef)
  | tasks
  | transcriber
  | tracker
deriving DecidableEq

structure Closer where
  pc : CloserPc := .idle
  cancelReq : Bool := false
  /-- `Teardown.cancelled` -/
  noted : Bool := false
  /-- `task.cancelling() > 0` -/
  cancelling : Bool := false
  site : CloseSite := .route
  /-- the `status` it computed with the lock -/
  status : SessionStatus := .completed

/-- The steps of the teardown. -/
inductive CloseStep where
  | unregister
  | turn
  | worker
  | backlog
  | audio
  | tts
  | push
  | tasks
  | transcriber
  | count
  | tracker
  | closed
  | reraised
deriving DecidableEq

structure CloseRecord where
  /-- `_close_reason` -/
  reason : Option CloseReason := none
  /-- `_close_lock` -/
  lock : Option CloserRef := none
  closed : Bool := false
  counted : Bool := false
  /-- what `gateway_stats.session_closed` was called with -/
  sessionsClosed : List CloseReason := []
  /-- the statuses computed with the lock -/
  computed : List SessionStatus := []
  /-- what `tracker.close` was called with -/
  trackerCloses : List SessionStatus := []
  /-- `_registry_closed` of the tracker -/
  registryClosed : Bool := false
  /-- the status of the session in the `SessionRegistry` -/
  status : SessionStatus := .active
  /-- the bridge is in the `ClientRegistry` -/
  registered : Bool := true
  /-- the steps started so far -/
  trace : List CloseStep := []

structure Session where
  bridge : JotaBridge := {}
  closers : CloserRef → Closer := fun _ => {}
  close : CloseRecord := {}

namespace Session

def setCloser (s : Session) (k : CloserRef) (c : Closer) : Session :=
  { s with closers := Function.update s.closers k c }

def suspend (s : Session) (k : CloserRef) (pc : CloserPc) : Session :=
  s.setCloser k { s.closers k with pc := pc }

def starts (s : Session) (step : CloseStep) : Session :=
  { s with close.trace := s.close.trace ++ [step] }

/-- The first reason wins. -/
def noteCloseReason (s : Session) (reason : Option CloseReason) : Session :=
  { s with close.reason := s.close.reason.or reason }

-- ---------------------------------------------------------------------------
-- The steps of `close_all`, from its end backwards
-- ---------------------------------------------------------------------------

/-- `_closed` is set and the lock released; then `Teardown` raises what it noted. -/
def finish (s : Session) (k : CloserRef) : Session :=
  let raises := (s.closers k).noted || (s.closers k).cancelling
  let s := { s.starts .closed with close.closed := true }
  let s := if raises then s.starts .reraised else s
  { s with close.lock := none }.setCloser k {}

/-- `_REASON_BY_STATUS` -/
def reasonByStatus : SessionStatus → CloseReason
  | .revoked => .revoked
  | .error => .error
  | _ => .unknown

/-- `tracker.close(status)`, which does not suspend: the registry gets the status once. -/
def trackerClose (c : CloseRecord) (status : SessionStatus) : CloseRecord :=
  { c with
    trackerCloses := c.trackerCloses ++ [status]
    registryClosed := true
    status := if c.registryClosed then c.status else status }

def closeTracker (s : Session) (k : CloserRef) : Session :=
  let status := (s.closers k).status
  let reason := s.close.reason.getD (reasonByStatus status)
  let s := s.starts .count
  let s := if s.close.counted then s else
    { s with close.counted := true, close.sessionsClosed := s.close.sessionsClosed ++ [reason] }
  let s := s.starts .tracker
  { s with close := trackerClose s.close status }.suspend k .tracker

def closeTranscriber (cfg : Config) (s : Session) (k : CloserRef) : Session :=
  let s := s.starts .transcriber
  if cfg.hasTranscriber then s.suspend k .transcriber else s.closeTracker k

/-- Asks a task of `self.tasks` to cancel: one that handles a message or a transcription. -/
def cancelOp (op : Op) : Op :=
  match op.pc with
  | .idle => op
  | _ => { op with cancelReq := true }

def cancelCloser (c : Closer) : Closer :=
  match c.pc with
  | .idle => c
  | _ => { c with cancelReq := true, cancelling := true }

def cancelWorker (w : Worker) : Worker :=
  match w.pc with
  | .done => w
  | _ => { w with cancelReq := true }

theorem cancelWorker_pc (w : Worker) : (cancelWorker w).pc = w.pc := by
  unfold cancelWorker
  split
  · rfl
  · rfl

theorem cancelOp_pc (op : Op) : (cancelOp op).pc = op.pc := by
  unfold cancelOp
  split
  · rfl
  · rfl

/-- Never the calling task. Every operation is cancelled, as if all ran in tasks of the bridge. -/
def cancelTasks (s : Session) (k : CloserRef) : Session :=
  let s := s.starts .tasks
  { s with
    bridge.ops := fun i => cancelOp (s.bridge.ops i)
    bridge.push.worker := cancelWorker s.bridge.push.worker
    closers := fun j =>
      if j ≠ k ∧ (s.closers j).site.inTasks then cancelCloser (s.closers j) else s.closers j
    }.suspend k .tasks

def closePush (s : Session) (k : CloserRef) : Session :=
  let s := s.starts .push
  let b := s.bridge
  let p := if b.push.turnId ≠ 0 then b.pushing.closePushTurn b.push.turnId .closeAll
    else b.pushing
  { s with bridge := b.setPushing p }.cancelTasks k

def closeTts (s : Session) (k : CloserRef) : Session :=
  let s := s.starts .tts
  match s.bridge.push.tts with
  | some t => { s with bridge.out := s.bridge.out.closeStream t }.suspend k (.tts t)
  | none => s.closePush k

def stopAudio (s : Session) (k : CloserRef) : Session :=
  let s := s.starts .audio
  match s.bridge.push.audioTask with
  | some a =>
    if (s.bridge.out.audios a).running then
      { s with bridge.out := s.bridge.out.cancelAudio a }.suspend k (.audio a)
    else s.closeTts k
  | none => s.closeTts k

def dropBacklog (s : Session) (k : CloserRef) : Session :=
  let s := s.starts .backlog
  { s with bridge.push.queue := [], bridge.push.pending := 0 }.stopAudio k

def stopWorker (s : Session) (k : CloserRef) : Session :=
  let s := s.starts .worker
  match s.bridge.push.worker.pc with
  | .done => s.dropBacklog k
  | _ => { s with bridge.push.worker := cancelWorker s.bridge.push.worker }.suspend k .worker

/-- A turn abandoned at the limit gets its `turn_end` here. -/
def endAbandoned (s : Session) (k : CloserRef) (t : TurnRef) : Session :=
  let b := s.bridge
  let b :=
    if (b.turns t).live then
      match b.activeTurnId with
      | some n => { b with turnEndSentAtClose := some n }.send (.turnEnd n)
      | none => b
    else b
  { s with bridge := b }.stopWorker k

def stopTurn (s : Session) (k : CloserRef) : Session :=
  let s := s.starts .turn
  match s.bridge.activeTurn with
  | some t =>
    if (s.bridge.turns t).live then
      { s with bridge := s.bridge.cancelTask t }.suspend k (.turn t)
    else s.endAbandoned k t
  | none => s.stopWorker k

/-- `close_all` once it has the lock. -/
def closeLocked (s : Session) (k : CloserRef) : Session :=
  if s.close.closed then
    { s with close.lock := none }.setCloser k {}
  else
    let c := s.closers k
    let status := c.site.status.getD (if s.close.reason = some .error then .error else .completed)
    let s := { s with close.computed := s.close.computed ++ [status] }.starts .unregister
    ({ s with close.registered := false }.setCloser k { c with status := status }).stopTurn k

def closeAll (s : Session) (k : CloserRef) : Session :=
  let s := { s with bridge.closing := true }.noteCloseReason (s.closers k).site.reason
  if s.close.lock.isNone then { s with close.lock := some k }.closeLocked k
  else s.suspend k .lock

-- ---------------------------------------------------------------------------
-- The callers
-- ---------------------------------------------------------------------------

/-- A task comes to call `close_all`. -/
def call (s : Session) (k : CloserRef) (site : CloseSite) : Option Session :=
  match (s.closers k).pc with
  | .idle =>
    let s := (s.noteCloseReason site.noted).setCloser k
      { site := site, cancelling := site = .run .cancelled }
    some <| match site with
      | .revocation => { s with bridge.out.clientGone := true }.suspend k .close1008
      | _ => s.closeAll k
  | _ => none

/-- The caller resumes with a `CancelledError`: within the teardown it is noted. -/
def closerCancelled (s : Session) (k : CloserRef) : Option Session :=
  match (s.closers k).pc with
  | .idle => none
  | .close1008 | .lock => some (s.setCloser k {})
  | _ => some (s.setCloser k { s.closers k with noted := true, cancelReq := false })

def closerResume (cfg : Config) (s : Session) (k : CloserRef) : Option Session :=
  match (s.closers k).pc with
  | .idle => none
  | .close1008 => some (s.closeAll k)
  | .lock =>
    if s.close.lock.isNone then some ({ s with close.lock := some k }.closeLocked k) else none
  | .turn t => some (s.endAbandoned k t)
  | .worker => some (s.dropBacklog k)
  | .audio _ => some (s.closeTts k)
  | .tts _ => some ({ s with bridge.push.tts := none }.closePush k)
  | .tasks => some (s.closeTranscriber cfg k)
  | .transcriber => some (s.closeTracker k)
  | .tracker => some (s.finish k)

end Session

/-- What resumes a caller of `close_all`. -/
inductive CloserAct where
  /-- what it waits for is done, or the limit of the wait reached -/
  | waited
  | cancelled

def Session.closerStep (cfg : Config) (s : Session) (k : CloserRef) : CloserAct → Option Session
  | .waited => if (s.closers k).cancelReq then none else s.closerResume cfg k
  | .cancelled => if (s.closers k).cancelReq then s.closerCancelled k else none

-- ---------------------------------------------------------------------------
-- The session
-- ---------------------------------------------------------------------------

namespace JotaBridge

/-- `_call_orchestrator` of turn `t` -/
def turnStep (cfg : Config) (b : JotaBridge) (t : TurnRef) (a : TurnAct) : Option JotaBridge :=
  ((b.running t).step cfg b.turnEndSentAtClose a).map (b.setRunning t)

/-- `_push_worker_loop` -/
def workerStep (cfg : Config) (b : JotaBridge) (a : WorkerAct) : Option JotaBridge :=
  let env : WorkerEnv := {
    cfg, closing := b.closing, turnLive := b.liveTurn.isSome, lockFree := b.turnLock.isNone }
  (b.pushing.step env a).map b.setPushing

/-- `enqueue_push`: a no-op once the session is closing. -/
def enqueuePush (b : JotaBridge) (q : Queued) : JotaBridge :=
  if b.closing then b
  else
    { b with
      push.worker := b.push.worker.respawn
      push.pending := b.push.pending + 1
      push.queue := b.push.queue ++ [q] }

def endAudio (b : JotaBridge) (a : AudioRef) : JotaBridge :=
  { b with out.audios := Function.update b.out.audios a { b.out.audios a with running := false } }

/-- `pipe_audio` and `_pipe_push_audio`: a paced frame. A normal turn ended by `close_all` sends
nothing more. -/
def audioFrame (b : JotaBridge) (a : AudioRef) : Option JotaBridge :=
  let task := b.out.audios a
  if task.sounding then
    if !task.push && b.turnEndSentAtClose == some task.turn then some (b.endAudio a)
    else if b.out.senderOpen then some (b.send (.audio task.turn (turnSeq16 task.turn)))
    else if task.push then some (b.endAudio a)
    else some ({ b with out.clientGone := true }.endAudio a)
  else none

/-- The stream has ended, or the task has got its `CancelledError`. -/
def audioEnds (b : JotaBridge) (a : AudioRef) : Option JotaBridge :=
  if (b.out.audios a).running then some (b.endAudio a) else none

end JotaBridge

/-- The steps of a session. The last four are cancellations from outside it. -/
inductive Act where
  | senderCloses
  /-- the input loop sees the client disconnect -/
  | disconnected
  | note (reason : CloseReason)
  | turn (t : TurnRef) (a : TurnAct)
  | audioFrame (a : AudioRef)
  | audioEnds (a : AudioRef)
  | enqueue (q : Queued)
  | worker (a : WorkerAct)
  | begin (i : OpRef) (kind : OpKind)
  | op (i : OpRef) (a : OpAct)
  | call (k : CloserRef) (site : CloseSite)
  | closer (k : CloserRef) (a : CloserAct)
  | cancelTurn (t : TurnRef)
  | cancelWorker
  | cancelOp (i : OpRef)
  | cancelCloser (k : CloserRef)

namespace Session

def inBridge (s : Session) (b : Option JotaBridge) : Option Session :=
  b.map fun b => { s with bridge := b }

def step (cfg : Config) (s : Session) : Act → Option Session
  | .senderCloses => some { s with bridge.out.senderOpen := false }
  | .disconnected => some { s with bridge.out.clientGone := true }
  | .note reason => if reason = .revoked then none else some (s.noteCloseReason (some reason))
  | .turn t a => s.inBridge (s.bridge.turnStep cfg t a)
  | .audioFrame a => s.inBridge (s.bridge.audioFrame a)
  | .audioEnds a => s.inBridge (s.bridge.audioEnds a)
  | .enqueue q => some { s with bridge := s.bridge.enqueuePush q }
  | .worker a => s.inBridge (s.bridge.workerStep cfg a)
  | .begin i kind => s.inBridge (s.bridge.begin cfg i kind)
  | .op i a => s.inBridge (s.bridge.opStep cfg i a)
  | .call k site => s.call k site
  | .closer k a => s.closerStep cfg k a
  | .cancelTurn t => some { s with bridge := s.bridge.cancelTask t }
  | .cancelWorker => some { s with bridge.push.worker := cancelWorker s.bridge.push.worker }
  | .cancelOp i =>
    some { s with bridge := s.bridge.setOp i (cancelOp (s.bridge.ops i)) }
  | .cancelCloser k => some (s.setCloser k (cancelCloser (s.closers k)))

end Session

end Bridge
