-- SUMMARY: `_start_turn`, `_cancel_turn`, `_cut_push` and `_on_transcription`: how the user starts, cancels and cuts, from one await to the next.
import JotaGateway.Bridge.Push
import JotaGateway.Bridge.Turn

/-!
# Starting, cancelling and cutting

The messages of the client and the transcriptions are handled by tasks of
their own. `Op` is one such handling: any number may be under way, and
`_turn_lock` is what orders them. `OpPc` is the await an operation is
suspended at.
-/

namespace Bridge

abbrev TurnRef := Nat
abbrev OpRef := Nat

-- ---------------------------------------------------------------------------
-- State
-- ---------------------------------------------------------------------------

inductive OpKind where
  /-- a `send` message with a text -/
  | send
  /-- a `cancel` message -/
  | cancel
  /-- a partial transcription -/
  | bargeIn (text : PyStr)
  /-- a final transcription -/
  | transcript (text : PyStr)

inductive OpPc where
  | idle
  /-- between two awaits -/
  | running
  | startLock
  /-- the turn that is replaced -/
  | startWait (t : TurnRef)
  /-- the stream `s` of push `n`, taken, waits for its cancelled audio task -/
  | cutAudio (n : Nat) (s : StreamRef)
  | cutClose (n : Nat)
  | cutAbort (n : Nat)
  | cancelLock (t : TurnRef) (id : Option Nat)
  | cancelWait (t : TurnRef) (id : Option Nat)
  | cutLock

structure Op where
  pc : OpPc := .idle
  cancelReq : Bool := false
  /-- a cancellation arrived during `_cancel_and_wait` -/
  noted : Bool := false
  kind : OpKind := .send
  /-- `push_id`; 0 is `None` -/
  pushId : Nat := 0
  /-- how many turns there were when it chose the turn to cancel -/
  turnMark : Nat := 0
  /-- the last turn id there was when it chose the push to cut -/
  pushMark : Nat := 0

namespace Op

/-- The push it is cutting. -/
def cutting (op : Op) : Option Nat :=
  match op.pc with
  | .cutAudio n _ | .cutClose n | .cutAbort n => some n
  | _ => none

/-- The turn it is waiting for. -/
def waiting (op : Op) : Option TurnRef :=
  match op.pc with
  | .startWait t | .cancelWait t _ => some t
  | _ => none

/-- The stream it has taken and not closed yet. -/
def dropping (op : Op) : Option StreamRef :=
  match op.pc with
  | .cutAudio _ s => some s
  | _ => none

/-- It is cancelling a turn it has chosen, or on its way from there. -/
def choosing (op : Op) : Bool :=
  match op.pc with
  | .cancelLock _ _ | .cancelWait _ _ | .cutLock => true
  | _ => false

/-- It is suspended with `_turn_lock` held. -/
def holds (op : Op) : Bool := op.cutting.isSome || op.waiting.isSome

/-- A cancellation reaches it between an audio task and its stream. -/
def skipsClose (op : Op) : Bool := op.cancelReq && op.dropping.isSome

end Op

/-- What resumes an operation. -/
inductive OpAct where
  /-- the lock is free, the turn done, or the audio task waited for -/
  | waited
  /-- a TTS call or `abort` returned -/
  | returns
  | cancelled

/-- What an operation does to a turn or push, with what there was when it chose its target. -/
inductive Deed where
  | cancelled (mark : Nat) (t : TurnRef)
  | aborted (mark : Nat) (n : Nat) (turnLive : Bool)
  | closed (mark : Nat) (n : Nat)

/-- It reaches nothing that was started after the choice. -/
def Deed.fair : Deed → Prop
  | .cancelled mark t => t < mark
  | .aborted mark n turnLive => n ≤ mark ∧ turnLive = false
  | .closed mark n => n ≤ mark

/-- The session but for its teardown. -/
structure JotaBridge where
  out : Output := {}
  closing : Bool := false
  activeTurn : Option TurnRef := none
  activeTurnId : Option Nat := none
  turnEndSentAtClose : Option Nat := none
  turns : TurnRef → TurnTask := fun _ => {}
  turnCount : Nat := 0
  turnLock : Option OpRef := none
  push : Push := {}
  ops : OpRef → Op := fun _ => {}
  /-- the turns some `_cancel_turn` has reported as cancelled -/
  reports : List TurnRef := []
  deeds : List Deed := []

namespace JotaBridge

/-- The turn task `t` with what it shares. -/
abbrev running (b : JotaBridge) (t : TurnRef) : Running :=
  { out := b.out, activeTurnId := b.activeTurnId, task := b.turns t }

/-- The pushes with what they share. -/
abbrev pushing (b : JotaBridge) : Pushing := { out := b.out, push := b.push }

def setRunning (b : JotaBridge) (t : TurnRef) (r : Running) : JotaBridge :=
  { b with
    out := r.out
    activeTurnId := r.activeTurnId
    turns := Function.update b.turns t r.task }

def setPushing (b : JotaBridge) (p : Pushing) : JotaBridge :=
  { b with out := p.out, push := p.push }

/-- `_active_turn`, if it is not done. -/
def liveTurn (b : JotaBridge) : Option TurnRef :=
  b.activeTurn.filter fun t => (b.turns t).live

def send (b : JotaBridge) (m : Msg) : JotaBridge := { b with out := b.out.send m }

def did (b : JotaBridge) (d : Deed) : JotaBridge := { b with deeds := b.deeds ++ [d] }

def setOp (b : JotaBridge) (i : OpRef) (op : Op) : JotaBridge :=
  { b with ops := Function.update b.ops i op }

@[simp] theorem setOp_self (b : JotaBridge) (i : OpRef) (op : Op) : (b.setOp i op).ops i = op :=
  Function.update_self _ _ _

@[simp] theorem setOp_ne (b : JotaBridge) {i j : OpRef} (h : j ≠ i) (op : Op) :
    (b.setOp i op).ops j = b.ops j :=
  Function.update_of_ne h _ _

/-- The operation suspends. -/
def suspend (b : JotaBridge) (i : OpRef) (pc : OpPc) : JotaBridge :=
  b.setOp i { b.ops i with pc := pc }

/-- The operation is over, out of the lock. -/
def leave (b : JotaBridge) (i : OpRef) : JotaBridge :=
  { b with turnLock := if b.turnLock = some i then none else b.turnLock }.setOp i {}

/-- `async with self._turn_lock`: `k` at once if it is free. -/
def withLock (b : JotaBridge) (i : OpRef) (wait : OpPc) (k : JotaBridge → JotaBridge) :
    JotaBridge :=
  if b.turnLock.isNone then k { b with turnLock := some i } else b.suspend i wait

/-- `task.cancel()`, which does nothing to a task that is done. -/
def cancelTask (b : JotaBridge) (t : TurnRef) : JotaBridge :=
  if (b.turns t).live then
    { b with turns := Function.update b.turns t { b.turns t with cancelReq := true } }
  else b

/-- `_cancel_and_wait` up to its wait, for a turn that is not done. -/
def cancelAndWait (b : JotaBridge) (i : OpRef) (t : TurnRef) (wait : OpPc) : JotaBridge :=
  ((b.did (.cancelled (b.ops i).turnMark t)).cancelTask t).suspend i wait

/-- `_cancel_and_wait` after its wait. -/
def forget (b : JotaBridge) (t : TurnRef) : JotaBridge :=
  if b.activeTurn = some t then { b with activeTurn := none } else b

-- ---------------------------------------------------------------------------
-- Cutting a push
-- ---------------------------------------------------------------------------

/-- `asyncio.create_task(self._call_orchestrator(text))` -/
def createTurn (b : JotaBridge) : JotaBridge :=
  { b with
    turns := Function.update b.turns b.turnCount { pc := .created }
    turnCount := b.turnCount + 1
    activeTurn := some b.turnCount }

/-- What follows `_cut_push`, with the id it returned (0 is `None`). -/
def afterCut (b : JotaBridge) (i : OpRef) (n : Nat) : JotaBridge :=
  match (b.ops i).kind with
  | .send => if b.closing then b.leave i else b.createTurn.leave i
  | .bargeIn _ => if n = 0 then b.leave i else (b.send (.interrupted (some n))).leave i
  | .cancel | .transcript _ => b.leave i

/-- `_cut_push` once the push is aborted. -/
def closeCut (b : JotaBridge) (i : OpRef) (n : Nat) : JotaBridge :=
  let b := b.did (.closed (b.ops i).pushMark n)
  (b.setPushing (b.pushing.closePushTurn n .cut)).afterCut i n

/-- `_cut_push` once the audio is dropped. -/
def abortCut (cfg : Config) (b : JotaBridge) (i : OpRef) (n : Nat) : JotaBridge :=
  if b.push.sessionKey = some cfg.sessionKey then
    (b.did (.aborted (b.ops i).pushMark n b.liveTurn.isSome)).suspend i (.cutAbort n)
  else b.closeCut i n

/-- `_drop_push_tts` in `_cut_push`. -/
def dropCut (cfg : Config) (b : JotaBridge) (i : OpRef) (n : Nat) : JotaBridge :=
  match b.push.tts with
  | none => b.abortCut cfg i n
  | some s =>
    match b.pushing.dropTts s with
    | (p, true) => (b.setPushing p).suspend i (.cutAudio n s)
    | (p, false) => (b.setPushing p).suspend i (.cutClose n)

/-- `_cut_push`. Without `expected` (0) it chooses the push open now. -/
def cutPush (cfg : Config) (b : JotaBridge) (i : OpRef) (expected : Nat) : JotaBridge :=
  let n := b.push.turnId
  if !b.push.turnOpen || n == 0 || expected != 0 && expected != n then
    b.afterCut i 0
  else
    let mark := if expected = 0 then b.out.turnSeq else (b.ops i).pushMark
    (b.setOp i { b.ops i with pushMark := mark }).dropCut cfg i n

-- ---------------------------------------------------------------------------
-- Starting and cancelling a turn
-- ---------------------------------------------------------------------------

/-- `_start_turn` once it has the lock. -/
def startLocked (cfg : Config) (b : JotaBridge) (i : OpRef) : JotaBridge :=
  if b.closing then b.leave i
  else
    match b.liveTurn with
    | some t =>
      (b.setOp i { b.ops i with turnMark := b.turnCount }).cancelAndWait i t (.startWait t)
    | none => b.cutPush cfg i 0

def startTurn (cfg : Config) (b : JotaBridge) (i : OpRef) : JotaBridge :=
  if b.closing then b.leave i
  else b.withLock i .startLock (·.startLocked cfg i)

/-- What follows `_cancel_turn`, by what it returned. -/
def afterCancel (cfg : Config) (b : JotaBridge) (i : OpRef) (cancelled : Bool)
    (id : Option Nat) : JotaBridge :=
  let op := b.ops i
  let cut := if op.pushId = 0 then b.leave i
    else b.withLock i .cutLock fun b => b.cutPush cfg i op.pushId
  match op.kind with
  | .bargeIn _ => if cancelled then (b.send (.interrupted id)).leave i else cut
  | .transcript text => (b.send (.transcription text)).leave i
  | .send | .cancel => cut

/-- `_cancel_turn` once it has the lock, for the turn it chose. -/
def cancelLocked (cfg : Config) (b : JotaBridge) (i : OpRef) (t : TurnRef) (id : Option Nat) :
    JotaBridge :=
  if (b.turns t).live then b.cancelAndWait i t (.cancelWait t id)
  else { b with turnLock := none }.afterCancel cfg i false none

def cancelTurn (cfg : Config) (b : JotaBridge) (i : OpRef) : JotaBridge :=
  match b.liveTurn with
  | none => b.afterCancel cfg i false none
  | some t =>
    let id := b.activeTurnId
    (b.setOp i { b.ops i with turnMark := b.turnCount }).withLock i (.cancelLock t id)
      (·.cancelLocked cfg i t id)

-- ---------------------------------------------------------------------------
-- The operations
-- ---------------------------------------------------------------------------

/-- The push open now, for a later cut. -/
def notePush (b : JotaBridge) (i : OpRef) : JotaBridge :=
  b.setOp i { b.ops i with
    pushId := if b.push.turnOpen then b.push.turnId else 0
    pushMark := b.out.turnSeq }

/-- `_on_transcription` of a partial. -/
def onPartial (cfg : Config) (b : JotaBridge) (i : OpRef) (text : PyStr) : JotaBridge :=
  if b.out.senderOpen then
    let b := b.send (.transcriptionPartial text)
    if cfg.bargeInEnabled && decide (cfg.bargeInMinChars ≤ text.length) then
      (b.notePush i).cancelTurn cfg i
    else b.leave i
  else b.leave i

/-- A message or a transcription arrives. -/
def begin (cfg : Config) (b : JotaBridge) (i : OpRef) (kind : OpKind) : Option JotaBridge :=
  match (b.ops i).pc with
  | .idle =>
    let b := b.setOp i { pc := .running, kind := kind }
    some <| match kind with
      | .send => b.startTurn cfg i
      | .cancel => (b.notePush i).cancelTurn cfg i
      | .bargeIn text => b.onPartial cfg i text
      | .transcript _ => b.cancelTurn cfg i
  | _ => none

/-- The operation resumes with a `CancelledError`. `Teardown` only notes it; the other awaits
let it out. -/
def opCancelled (b : JotaBridge) (i : OpRef) : Option JotaBridge :=
  match (b.ops i).pc with
  | .idle | .running => none
  | .startWait _ | .cancelWait _ _ =>
    some (b.setOp i { b.ops i with noted := true, cancelReq := false })
  | _ => some (b.leave i)

def opResume (cfg : Config) (b : JotaBridge) (i : OpRef) (a : OpAct) : Option JotaBridge :=
  let run := b.suspend i .running
  let locked := { run with turnLock := some i }
  match (b.ops i).pc, a with
  | .startLock, .waited => if b.turnLock.isNone then some (locked.startLocked cfg i) else none
  | .startWait t, .waited =>
    if (b.turns t).live then none
    else if (b.ops i).noted then some ((run.forget t).leave i)
    else some ((run.forget t).cutPush cfg i 0)
  | .cutAudio n s, .waited =>
    some ({ b with out := b.out.closeStream s }.suspend i (.cutClose n))
  | .cutClose n, .returns => some (run.abortCut cfg i n)
  | .cutAbort n, .returns => some (run.closeCut i n)
  | .cancelLock t id, .waited =>
    if b.turnLock.isNone then some (locked.cancelLocked cfg i t id) else none
  | .cancelWait t id, .waited =>
    if (b.turns t).live then none
    else if (b.ops i).noted then some ((run.forget t).leave i)
    else some ({ run.forget t with turnLock := none, reports := b.reports ++ [t] }.afterCancel cfg
      i true id)
  | .cutLock, .waited =>
    if b.turnLock.isNone then some (locked.cutPush cfg i (b.ops i).pushId) else none
  | _, _ => none

def opStep (cfg : Config) (b : JotaBridge) (i : OpRef) (a : OpAct) : Option JotaBridge :=
  match a with
  | .cancelled => if (b.ops i).cancelReq then b.opCancelled i else none
  | a => if (b.ops i).cancelReq then none else b.opResume cfg i a

end JotaBridge

end Bridge
