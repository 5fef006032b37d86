-- SUMMARY: The abstract session: what can happen to its turns, pushes and lock between two of its states, whatever task does it.
import JotaGateway.Bridge.CloseAll
import Mathlib.Logic.Relation

/-!
# Events of a session

The tasks share the turn, the push and the lock. An `Event` is one thing that
happens to them, with what has to hold for it to happen: the purpose of the
lock, of the re-checks and of the expected ids is to keep to these. What the
code does from one await to the next is a sequence of events, a step of a
turn task or a step of the push worker.
-/

namespace Bridge

namespace JotaBridge

/-- No turn task is live. -/
def quiet (b : JotaBridge) : Prop := ∀ t, (b.turns t).live = false

/-- Turn `t` has `n` for its id, or `n` has ended. -/
def Names (b : JotaBridge) (t : TurnRef) (n : Nat) : Prop :=
  b.out.senderOpen = true →
    (b.turns t).started = true ∧ (b.turns t).id = n ∨ .turnEnd n ∈ b.out.wire

/-- The operation runs, with `_turn_lock`. -/
structure Locked (b : JotaBridge) (i : OpRef) : Prop where
  running : (b.ops i).pc = .running
  lock : b.turnLock = some i

/-- It is about to cut the push `turnId`. -/
structure Cuts (b : JotaBridge) (i : OpRef) : Prop extends Locked b i where
  quiet : b.quiet
  id : b.push.turnId ≠ 0
  mark : b.push.turnId ≤ (b.ops i).pushMark

/-- The audio of the push is silent. -/
def pushSilent (b : JotaBridge) : Prop := ∀ a, b.push.audioTask = some a → b.pushing.silent a

/-- What can happen to a session. -/
inductive Event (b : JotaBridge) : JotaBridge → Prop where
  | senderCloses : Event b { b with out.senderOpen := false }
  | clientGone : Event b { b with out.clientGone := true }
  | closing : Event b { b with closing := true }
  -- audio
  | frame (a : AudioRef) (hsounding : (b.out.audios a).sounding = true)
      (hended : (b.out.audios a).push = true ∨ b.turnEndSentAtClose ≠ some (b.out.audios a).turn) :
      Event b (b.send (.audio (b.out.audios a).turn (turnSeq16 (b.out.audios a).turn)))
  | audioEnds (a : AudioRef) : Event b (b.endAudio a)
  | cancelAudio (a : AudioRef) : Event b { b with out := b.out.cancelAudio a }
  -- requests to tasks
  | enqueue (q : Queued) : Event b (b.enqueuePush q)
  | cancelTask (t : TurnRef) : Event b (b.cancelTask t)
  | cancelWorker :
      Event b { b with push.worker := Session.cancelWorker b.push.worker }
  | cancelOps (ops : OpRef → Op)
      (hops : ∀ i, ops i = b.ops i ∨ ops i = Session.cancelOp (b.ops i)) :
      Event b { b with ops := ops }
  -- an operation
  | runs (i : OpRef) (op : Op) (hop : op.pc = .running) (hdropping : (b.ops i).dropping = none)
      (hmark : op.pushId ≤ op.pushMark ∧ op.pushMark ≤ b.out.turnSeq) : Event b (b.setOp i op)
  | notes (i : OpRef) (hdropping : (b.ops i).dropping = none) :
      Event b (b.setOp i { b.ops i with noted := true, cancelReq := false })
  | acquires (i : OpRef) (hrunning : (b.ops i).pc = .running) (hfree : b.turnLock = none) :
      Event b { b with turnLock := some i }
  | releases (i : OpRef) (h : Locked b i) : Event b { b with turnLock := none }
  | forgets (i : OpRef) (t : TurnRef) (h : Locked b i) (hdone : (b.turns t).live = false) :
      Event b (b.forget t)
  | waitsLock (i : OpRef) (pc : OpPc) (hrunning : (b.ops i).pc = .running)
      (hpc : pc = .startLock ∨ pc = .cutLock ∧ (b.ops i).kind ≠ .send) : Event b (b.suspend i pc)
  | choosesTurn (i : OpRef) (t : TurnRef) (hrunning : (b.ops i).pc = .running)
      (hkind : (b.ops i).kind ≠ .send) (hlive : b.liveTurn = some t) (hmark : t < (b.ops i).turnMark) :
      Event b (b.suspend i (.cancelLock t b.activeTurnId))
  | cancels (i : OpRef) (t : TurnRef) (wait : OpPc) (h : Locked b i)
      (hlive : b.liveTurn = some t) (hmark : t < (b.ops i).turnMark)
      (hwait : wait = .startWait t ∨
        (b.ops i).kind ≠ .send ∧ ∃ id, wait = .cancelWait t id ∧ ∀ n, id = some n → b.Names t n) :
      Event b (b.cancelAndWait i t wait)
  | reports (i : OpRef) (t : TurnRef) (h : Locked b i) (hdone : (b.turns t).live = false)
      (hactive : b.activeTurn = some t) (hnew : t ∉ b.reports) : Event b { b with reports := b.reports ++ [t] }
  | drops (i : OpRef) (s : StreamRef) (p : Pushing) (waits : Bool) (h : Cuts b i)
      (htts : b.push.tts = some s) (hdrop : Pushing.Dropped b.pushing s p waits) :
      Event b ((b.setPushing p).suspend i
        (if waits then .cutAudio b.push.turnId s else .cutClose b.push.turnId))
  | closesCut (i : OpRef) (n : Nat) (s : StreamRef) (hpc : (b.ops i).pc = .cutAudio n s) :
      Event b ({ b with out := b.out.closeStream s }.suspend i (.cutClose n))
  | aborts (i : OpRef)
      (h : (b.ops i).pc = .cutClose b.push.turnId ∨ Cuts b i ∧ b.pushSilent) :
      Event b ((b.did (.aborted (b.ops i).pushMark b.push.turnId b.liveTurn.isSome)).suspend i
        (.cutAbort b.push.turnId))
  | closesPush (by_ : PushCloser) (hby : ∀ key, by_ ≠ .ended key) (hopen : b.push.turnOpen = true)
      (hsilent : b.pushSilent ∨ ∃ i, (b.ops i).cutting = some b.push.turnId) :
      Event b (b.setPushing (b.pushing.closePushTurn b.push.turnId by_))
  | didClose (mark n : Nat) (hmark : n ≤ mark) : Event b (b.did (.closed mark n))
  | creates (i : OpRef) (h : Locked b i) (hquiet : b.quiet) (hclosed : b.push.turnOpen = false)
      (hclosing : b.closing = false) : Event b b.createTurn
  | speaks (m : Msg)
      (hm : (∃ text, m = .transcription text) ∨ (∃ text, m = .transcriptionPartial text) ∨
        ∃ id, m = .interrupted id ∧
          ∀ n, id = some n → b.out.senderOpen = true → .turnEnd n ∈ b.out.wire) :
      Event b (b.send m)
  | leaves (i : OpRef) (hdropping : (b.ops i).dropping = none) : Event b (b.leave i)
  -- the teardown
  | dropsBacklog : Event b { b with push.queue := [], push.pending := 0 }
  | closesTts (s : StreamRef) : Event b { b with out := b.out.closeStream s }
  | clearsTts (hdoomed : b.push.worker.doomed = true)
      (hclosed : ∀ s, b.push.tts = some s → b.out.closeInvoked s = true)
      (haudio : ∀ a, b.push.audioTask = some a → (b.out.audios a).sounding = false) :
      Event b { b with push.tts := none }

/-- Any sequence of events. -/
abbrev Events : JotaBridge → JotaBridge → Prop := Relation.ReflTransGen Event

variable {b b' : JotaBridge}

-- ---------------------------------------------------------------------------
-- What an event leaves alone
-- ---------------------------------------------------------------------------

theorem Event.later (h : Event b b') : b.out.Later b'.out := by
  cases h with
  | senderCloses =>
    exact ⟨Nat.le_refl _, Nat.le_refl _, Nat.le_refl _, fun h => (by cases h), fun _ _ h => h,
      fun _ h => h⟩
  | clientGone => exact .of_settles (.gone _)
  | frame | speaks => exact .send _ _
  | audioEnds a =>
    refine ⟨Nat.le_refl _, Nat.le_refl _, Nat.le_refl _, fun h => h, ?_, fun _ h => h⟩
    intro a' _ hsilent
    simp only [endAudio]
    rcases eq_or_ne a' a with rfl | hne
    · simp only [Function.update_self, AudioTask.sounding, Bool.false_and]
    · simpa only [Function.update_of_ne hne] using hsilent
  | cancelAudio a => exact .of_settles (.cancelAudio _ a)
  | enqueue q =>
    unfold enqueuePush
    split <;> exact .refl _
  | cancelTask t =>
    unfold JotaBridge.cancelTask
    split <;> exact .refl _
  | forgets i t =>
    unfold forget
    split <;> exact .refl _
  | cancels i t =>
    unfold cancelAndWait JotaBridge.cancelTask
    split <;> exact .refl _
  | drops i s p waits _ _ hdrop => exact .of_settles hdrop.out
  | closesCut i n s | closesTts s => exact .of_settles (.closeStream _ _)
  | closesPush by_ _ hopen =>
    rw [Pushing.closePushTurn_of_open (p := b.pushing) hopen]
    exact .send _ _
  | _ => exact .refl _

/-- A turn task is only asked to cancel, or created. -/
theorem Event.turns (h : Event b b') (t : TurnRef) :
    b'.turns t = b.turns t ∨
      (b.turns t).live = true ∧ b'.turns t = { b.turns t with cancelReq := true } ∨
      t = b.turnCount ∧ b.quiet ∧ b.closing = false ∧ b'.turns t = { pc := .created } := by
  have hcancel : ∀ (c : JotaBridge) (t' : TurnRef), (c.cancelTask t').turns t = c.turns t ∨
      (c.turns t).live = true ∧
        (c.cancelTask t').turns t = { c.turns t with cancelReq := true } := by
    intro c t'
    unfold JotaBridge.cancelTask
    split
    · rename_i hlive
      rcases eq_or_ne t t' with rfl | hne
      · exact .inr ⟨hlive, Function.update_self _ _ _⟩
      · exact .inl (Function.update_of_ne hne _ _)
    · exact .inl rfl
  cases h with
  | enqueue q =>
    unfold enqueuePush
    split <;> exact .inl rfl
  | forgets i t' =>
    unfold forget
    split <;> exact .inl rfl
  | cancelTask t' => exact (hcancel b t').imp_right .inl
  | cancels i t' => exact (hcancel (b.did _) t').imp_right .inl
  | creates i hl hquiet _ hclosing =>
    rcases eq_or_ne t b.turnCount with rfl | hne
    · exact .inr (.inr ⟨rfl, hquiet, hclosing, Function.update_self _ _ _⟩)
    · exact .inl (Function.update_of_ne hne _ _)
  | _ => exact .inl rfl

end JotaBridge

end Bridge
