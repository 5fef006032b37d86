-- SUMMARY: `_turn_lock` is held by an operation suspended within it and by no other, and its holder always gets to its release.
import JotaGateway.Bridge.Closers

/-!
# The turn lock

Starting, cancelling and cutting meet at `_turn_lock`. Its holder waits for a
cancelled turn, for the TTS of a push or for an abort, and never for another
operation; so the lock is always released again.
-/

namespace Bridge

open Transition

namespace JotaBridge

variable {cfg : Config} {b b' : JotaBridge} {i j : OpRef} {t : TurnRef} {n : Nat} {id : Option Nat}
  {pc : OpPc}

-- ---------------------------------------------------------------------------
-- The holder
-- ---------------------------------------------------------------------------

/-- Who has the lock is suspended with it. -/
def Held (b : JotaBridge) : Prop := ∀ j, b.turnLock = some j → (b.ops j).holds = true

/-- So is anyone but the operation `i`, which runs. -/
def HeldBut (b : JotaBridge) (i : OpRef) : Prop :=
  ∀ j, j ≠ i → b.turnLock = some j → (b.ops j).holds = true

theorem Held.but (h : Held b) (i : OpRef) : HeldBut b i := fun j _ => h j

theorem Held.keep (h : Held b) (hlock : b'.turnLock = b.turnLock)
    (hops : ∀ i, (b'.ops i).pc = (b.ops i).pc) : Held b' := by
  intro j hj
  have hholds := h j (hlock ▸ hj)
  simp only [Op.holds, Op.cutting, Op.waiting, hops] at hholds ⊢
  exact hholds

theorem HeldBut.of_locked (b : JotaBridge) (i : OpRef) : HeldBut { b with turnLock := some i } i := by
  intro j hne hj
  exact absurd (Option.some.inj hj).symm hne

theorem HeldBut.of_free (hfree : b.turnLock = none) : HeldBut b i := by
  intro j _ hj
  rw [hfree] at hj
  cases hj

theorem HeldBut.setOp (h : HeldBut b i) (op : Op) : HeldBut (b.setOp i op) i := by
  intro j hne hj
  rw [setOp_ne b hne]
  exact h j hne hj

theorem HeldBut.leave (h : HeldBut b i) : Held (b.leave i) := by
  intro j hj
  have hlock : b.turnLock ≠ some i ∧ b.turnLock = some j := by
    simp only [JotaBridge.leave, JotaBridge.setOp] at hj
    split at hj
    · cases hj
    · exact ⟨‹_›, hj⟩
  have hne : j ≠ i := fun heq => hlock.1 (heq ▸ hlock.2)
  rw [JotaBridge.leave, setOp_ne _ hne]
  exact h j hne hlock.2

/-- To an await within the lock, or without the lock. -/
theorem HeldBut.suspend (h : HeldBut b i) (pc : OpPc)
    (hpc : ({ pc := pc } : Op).holds = true ∨ b.turnLock ≠ some i) : Held (b.suspend i pc) := by
  intro j hj
  rcases eq_or_ne j i with rfl | hne
  · have hj : b.turnLock = some j := hj
    rw [JotaBridge.suspend, setOp_self]
    exact hpc.resolve_right fun hno => hno hj
  · rw [JotaBridge.suspend, setOp_ne _ hne]
    exact h j hne hj

theorem HeldBut.withLock {wait : OpPc} {k : JotaBridge → JotaBridge} (h : HeldBut b i)
    (hfree : b.turnLock ≠ some i) (hk : ∀ c : JotaBridge, HeldBut c i → Held (k c)) :
    Held (b.withLock i wait k) := by
  unfold JotaBridge.withLock
  split
  · exact hk _ (.of_locked b i)
  · exact h.suspend wait (.inr hfree)

-- ---------------------------------------------------------------------------
-- The operations, from their ends backwards
-- ---------------------------------------------------------------------------

theorem afterCut_held (h : HeldBut b i) : Held (b.afterCut i n) := by
  unfold afterCut
  split
  · split
    · exact h.leave
    · exact HeldBut.leave (b := b.createTurn) h
  · split
    · exact h.leave
    · exact HeldBut.leave (b := b.send _) h
  · exact h.leave
  · exact h.leave

theorem closeCut_held (h : HeldBut b i) : Held (b.closeCut i n) := afterCut_held h

theorem abortCut_held (h : HeldBut b i) : Held (b.abortCut cfg i n) := by
  unfold abortCut
  split
  · exact HeldBut.suspend (b := b.did _) h _ (.inl rfl)
  · exact closeCut_held h

theorem dropCut_held (h : HeldBut b i) : Held (b.dropCut cfg i n) := by
  unfold dropCut
  split
  · exact abortCut_held h
  · split
    · exact HeldBut.suspend (b := b.setPushing _) h _ (.inl rfl)
    · exact HeldBut.suspend (b := b.setPushing _) h _ (.inl rfl)

theorem cutPush_held {expected : Nat} (h : HeldBut b i) : Held (b.cutPush cfg i expected) := by
  unfold cutPush
  dsimp only
  split
  · exact afterCut_held h
  · exact dropCut_held (h.setOp _)

theorem cancelAndWait_held {wait : OpPc} (h : HeldBut b i) (hwait : ({ pc := wait } : Op).holds = true) :
    Held (b.cancelAndWait i t wait) := by
  have hcancel : HeldBut ((b.did (.cancelled (b.ops i).turnMark t)).cancelTask t) i := by
    unfold cancelTask
    split <;> exact h
  exact hcancel.suspend wait (.inl hwait)

theorem startLocked_held (h : HeldBut b i) : Held (b.startLocked cfg i) := by
  unfold startLocked
  split
  · exact h.leave
  · split
    · exact cancelAndWait_held (h.setOp _) rfl
    · exact cutPush_held h

theorem startTurn_held (h : HeldBut b i) (hfree : b.turnLock ≠ some i) :
    Held (b.startTurn cfg i) := by
  unfold startTurn
  split
  · exact h.leave
  · exact h.withLock hfree fun _ hc => startLocked_held hc

theorem afterCancel_held {cancelled : Bool} (h : HeldBut b i) (hfree : b.turnLock ≠ some i) :
    Held (b.afterCancel cfg i cancelled id) := by
  have hcut : Held (if (b.ops i).pushId = 0 then b.leave i
      else b.withLock i .cutLock fun c => c.cutPush cfg i (b.ops i).pushId) := by
    split
    · exact h.leave
    · exact h.withLock hfree fun _ hc => cutPush_held hc
  unfold afterCancel
  dsimp only
  split
  · split
    · exact HeldBut.leave (b := b.send _) h
    · exact hcut
  · exact HeldBut.leave (b := b.send _) h
  · exact hcut
  · exact hcut

theorem cancelLocked_held (h : HeldBut b i) : Held (b.cancelLocked cfg i t id) := by
  unfold cancelLocked
  split
  · exact cancelAndWait_held h rfl
  · exact afterCancel_held (.of_free rfl) fun hlock => by cases hlock

theorem cancelTurn_held (h : HeldBut b i) (hfree : b.turnLock ≠ some i) :
    Held (b.cancelTurn cfg i) := by
  unfold cancelTurn
  split
  · exact afterCancel_held h hfree
  · exact HeldBut.withLock (h.setOp _) hfree fun _ hc => cancelLocked_held hc

theorem Held.free_of_pc (h : Held b) (hpc : ({ pc := (b.ops i).pc } : Op).holds = false) :
    b.turnLock ≠ some i := by
  intro hlock
  have hholds := h i hlock
  rw [show (b.ops i).holds = ({ pc := (b.ops i).pc } : Op).holds from rfl, hpc] at hholds
  cases hholds

theorem onPartial_held {text : PyStr} (h : HeldBut b i) (hfree : b.turnLock ≠ some i) :
    Held (b.onPartial cfg i text) := by
  unfold onPartial
  split
  · dsimp only
    split
    · exact cancelTurn_held (HeldBut.setOp (b := b.send _) h _) hfree
    · exact HeldBut.leave (b := b.send _) h
  · exact h.leave

theorem begin_held {kind : OpKind} (h : Held b) (hbegin : b.begin cfg i kind = some b') : Held b' := by
  unfold begin at hbegin
  split at hbegin
  · rename_i hpc
    have hfree : b.turnLock ≠ some i := h.free_of_pc (by rw [hpc]; rfl)
    have hbut : HeldBut (b.setOp i { pc := .running, kind := kind }) i := (h.but i).setOp _
    cases kind with
    | send =>
      cases hbegin
      exact startTurn_held hbut hfree
    | cancel =>
      cases hbegin
      exact cancelTurn_held (hbut.setOp _) hfree
    | bargeIn text =>
      cases hbegin
      exact onPartial_held hbut hfree
    | transcript text =>
      cases hbegin
      exact cancelTurn_held hbut hfree
  · cases hbegin

theorem opCancelled_held (h : Held b) (hstep : b.opCancelled i = some b') : Held b' := by
  have hleave : Held (b.leave i) := (h.but i).leave
  unfold opCancelled at hstep
  split at hstep
  · cases hstep
  · cases hstep
  · cases hstep
    refine h.keep rfl fun j => ?_
    rcases eq_or_ne j i with rfl | hne
    · rw [setOp_self]
    · rw [setOp_ne b hne]
  · cases hstep
    refine h.keep rfl fun j => ?_
    rcases eq_or_ne j i with rfl | hne
    · rw [setOp_self]
    · rw [setOp_ne b hne]
  · cases hstep
    exact hleave

theorem forget_but (h : HeldBut b i) : HeldBut (b.forget t) i := by
  unfold forget
  split <;> exact h

theorem opResume_held {a : OpAct} (h : Held b) (hstep : b.opResume cfg i a = some b') : Held b' := by
  have hrun : HeldBut (b.suspend i .running) i := (h.but i).setOp _
  have hlocked : HeldBut { b.suspend i .running with turnLock := some i } i := .of_locked _ i
  unfold opResume at hstep
  dsimp only at hstep
  split at hstep
  · split at hstep
    · cases hstep
      exact startLocked_held hlocked
    · cases hstep
  · split at hstep
    · cases hstep
    · split at hstep
      · cases hstep
        exact (forget_but hrun).leave
      · cases hstep
        exact cutPush_held (forget_but hrun)
  · cases hstep
    exact HeldBut.suspend (b := { b with out := b.out.closeStream _ }) (h.but i) _ (.inl rfl)
  · cases hstep
    exact abortCut_held hrun
  · cases hstep
    exact closeCut_held hrun
  · split at hstep
    · cases hstep
      exact cancelLocked_held hlocked
    · cases hstep
  · split at hstep
    · cases hstep
    · split at hstep
      · cases hstep
        exact (forget_but hrun).leave
      · cases hstep
        exact afterCancel_held (.of_free rfl) fun hlock => by cases hlock
  · split at hstep
    · cases hstep
      exact cutPush_held hlocked
    · cases hstep
  · cases hstep

theorem opStep_held {a : OpAct} (h : Held b) (hstep : b.opStep cfg i a = some b') : Held b' := by
  unfold opStep at hstep
  split at hstep
  · split at hstep
    · exact opCancelled_held h hstep
    · cases hstep
  · split at hstep
    · cases hstep
    · exact opResume_held h hstep

-- ---------------------------------------------------------------------------
-- The other tasks
-- ---------------------------------------------------------------------------

/-- The lock and the awaits of the operations stay. -/
structure SameLock (b b' : JotaBridge) : Prop where
  lock : b'.turnLock = b.turnLock
  ops : ∀ i, (b'.ops i).pc = (b.ops i).pc

namespace SameLock

variable {b'' : JotaBridge}

theorem refl (b : JotaBridge) : SameLock b b := ⟨rfl, fun _ => rfl⟩

theorem trans (h : SameLock b b') (h' : SameLock b' b'') : SameLock b b'' :=
  ⟨h'.lock.trans h.lock, fun i => (h'.ops i).trans (h.ops i)⟩

theorem of_eq (hlock : b'.turnLock = b.turnLock) (hops : b'.ops = b.ops) : SameLock b b' :=
  ⟨hlock, fun i => by rw [hops]⟩

theorem held (h : SameLock b b') (hheld : Held b) : Held b' := hheld.keep h.lock h.ops

theorem cancelTask (b : JotaBridge) (t : TurnRef) : SameLock b (b.cancelTask t) := by
  unfold JotaBridge.cancelTask
  split
  · exact .of_eq rfl rfl
  · exact .refl b

end SameLock

end JotaBridge

namespace Session

open JotaBridge

variable {cfg : Config} {s s' : Session} {k : CloserRef} {a : Act}

theorem finish_same (s : Session) (k : CloserRef) : SameLock s.bridge (s.finish k).bridge := by
  rw [finish_bridge]
  exact .refl _

theorem closeTracker_same (s : Session) (k : CloserRef) :
    SameLock s.bridge (s.closeTracker k).bridge := by
  unfold closeTracker
  dsimp only
  split <;> exact .of_eq rfl rfl

theorem closeTranscriber_same (s : Session) (k : CloserRef) :
    SameLock s.bridge (s.closeTranscriber cfg k).bridge := by
  unfold closeTranscriber
  dsimp only
  split
  · exact .of_eq rfl rfl
  · exact closeTracker_same (s.starts .transcriber) k

theorem cancelTasks_same (s : Session) (k : CloserRef) :
    SameLock s.bridge (s.cancelTasks k).bridge :=
  ⟨rfl, fun i => cancelOp_pc (s.bridge.ops i)⟩

theorem closePush_same (s : Session) (k : CloserRef) : SameLock s.bridge (s.closePush k).bridge := by
  unfold closePush
  dsimp only
  refine .trans ?_ (cancelTasks_same _ k)
  exact .of_eq rfl rfl

theorem closeTts_same (s : Session) (k : CloserRef) : SameLock s.bridge (s.closeTts k).bridge := by
  unfold closeTts
  dsimp only
  split
  · exact .of_eq rfl rfl
  · exact closePush_same (s.starts .tts) k

theorem stopAudio_same (s : Session) (k : CloserRef) : SameLock s.bridge (s.stopAudio k).bridge := by
  unfold stopAudio
  dsimp only
  split
  · split
    · exact .of_eq rfl rfl
    · exact closeTts_same (s.starts .audio) k
  · exact closeTts_same (s.starts .audio) k

theorem dropBacklog_same (s : Session) (k : CloserRef) :
    SameLock s.bridge (s.dropBacklog k).bridge := by
  unfold dropBacklog
  dsimp only
  refine .trans ?_ (stopAudio_same _ k)
  exact .of_eq rfl rfl

theorem stopWorker_same (s : Session) (k : CloserRef) :
    SameLock s.bridge (s.stopWorker k).bridge := by
  unfold stopWorker
  dsimp only
  split
  · exact dropBacklog_same (s.starts .worker) k
  · exact .of_eq rfl rfl

theorem endAbandoned_same (s : Session) (k : CloserRef) (t : TurnRef) :
    SameLock s.bridge (s.endAbandoned k t).bridge := by
  unfold endAbandoned
  refine .trans ?_ (stopWorker_same _ k)
  dsimp only
  split
  · split
    · exact .of_eq rfl rfl
    · exact .refl _
  · exact .refl _

theorem stopTurn_same (s : Session) (k : CloserRef) : SameLock s.bridge (s.stopTurn k).bridge := by
  unfold stopTurn
  dsimp only
  split
  · rename_i t _
    split
    · exact .cancelTask s.bridge t
    · exact endAbandoned_same (s.starts .turn) k t
  · exact stopWorker_same (s.starts .turn) k

theorem closeLocked_same (s : Session) (k : CloserRef) :
    SameLock s.bridge (s.closeLocked k).bridge := by
  unfold closeLocked
  dsimp only
  split
  · exact .refl _
  · refine .trans ?_ (stopTurn_same _ k)
    exact .of_eq rfl rfl

theorem closeAll_same (s : Session) (k : CloserRef) : SameLock s.bridge (s.closeAll k).bridge := by
  unfold closeAll
  dsimp only
  split
  · refine .trans ?_ (closeLocked_same _ k)
    exact .of_eq rfl rfl
  · exact .of_eq rfl rfl

theorem call_same {site : CloseSite} (hstep : s.call k site = some s') :
    SameLock s.bridge s'.bridge := by
  unfold call at hstep
  split at hstep
  · cases hstep
    split
    · exact .of_eq rfl rfl
    · refine .trans ?_ (closeAll_same _ k)
      exact .of_eq rfl rfl
  · cases hstep

theorem closerStep_same {act : CloserAct} (hstep : s.closerStep cfg k act = some s') :
    SameLock s.bridge s'.bridge := by
  cases act with
  | cancelled =>
    simp only [closerStep, Option.ite_none_right_eq_some] at hstep
    have hcancelled := hstep.2
    unfold closerCancelled at hcancelled
    split at hcancelled
    · cases hcancelled
    · cases hcancelled
      exact .refl _
    · cases hcancelled
      exact .refl _
    · cases hcancelled
      exact .refl _
  | waited =>
    simp only [closerStep, Option.ite_none_left_eq_some] at hstep
    have hresume := hstep.2
    unfold closerResume at hresume
    split at hresume
    · cases hresume
    · cases hresume
      exact closeAll_same s k
    · split at hresume
      · cases hresume
        refine .trans ?_ (closeLocked_same _ k)
        exact .of_eq rfl rfl
      · cases hresume
    · cases hresume
      exact endAbandoned_same s k _
    · cases hresume
      exact dropBacklog_same s k
    · cases hresume
      exact closeTts_same s k
    · cases hresume
      refine .trans ?_ (closePush_same _ k)
      exact .of_eq rfl rfl
    · cases hresume
      exact closeTranscriber_same s k
    · cases hresume
      exact closeTracker_same s k
    · cases hresume
      exact finish_same s k

theorem audioFrame_same {r : AudioRef} {b b' : JotaBridge} (hframe : b.audioFrame r = some b') :
    SameLock b b' := by
  unfold audioFrame at hframe
  dsimp only at hframe
  split at hframe
  · split at hframe
    · cases hframe
      exact .of_eq rfl rfl
    · split at hframe
      · cases hframe
        exact .of_eq rfl rfl
      · split at hframe <;>
        · cases hframe
          exact .of_eq rfl rfl
  · cases hframe

/-- Every step keeps the lock with an operation that is suspended with it. -/
theorem step_held (h : s.bridge.Held) (hstep : s.step cfg a = some s') : s'.bridge.Held := by
  have hbridge : ∀ {b? : Option JotaBridge}, s.inBridge b? = some s' →
      (∀ b, b? = some b → b.Held) → s'.bridge.Held := by
    intro b? hb hheld
    obtain ⟨b, hsome, rfl⟩ := Option.map_eq_some_iff.mp hb
    exact hheld b hsome
  cases a with
  | begin i kind => exact hbridge hstep fun b hb => begin_held h hb
  | op i act => exact hbridge hstep fun b hb => opStep_held h hb
  | turn t act =>
    refine hbridge hstep fun b hb => ?_
    obtain ⟨r, -, rfl⟩ := Option.map_eq_some_iff.mp hb
    exact h
  | worker act =>
    refine hbridge hstep fun b hb => ?_
    obtain ⟨p, -, rfl⟩ := Option.map_eq_some_iff.mp hb
    exact h
  | audioFrame r => exact hbridge hstep fun b hb => (audioFrame_same hb).held h
  | audioEnds r =>
    refine hbridge hstep fun b hb => ?_
    unfold audioEnds at hb
    split at hb
    · cases hb
      exact h
    · cases hb
  | enqueue q =>
    cases hstep
    unfold enqueuePush
    split
    · exact h
    · exact h
  | call k site => exact (call_same hstep).held h
  | closer k act => exact (closerStep_same hstep).held h
  | note reason =>
    simp only [step] at hstep
    split at hstep
    · cases hstep
    · cases hstep
      exact h
  | cancelTurn t =>
    cases hstep
    exact (SameLock.cancelTask s.bridge t).held h
  | cancelOp i =>
    cases hstep
    refine h.keep rfl fun j => ?_
    rcases eq_or_ne j i with rfl | hne
    · rw [setOp_self, cancelOp_pc]
    · rw [setOp_ne s.bridge hne]
  | senderCloses | disconnected | cancelWorker | cancelCloser =>
    cases hstep
    exact h

end Session

-- ---------------------------------------------------------------------------
-- A cancelled turn
-- ---------------------------------------------------------------------------

/-- What is left of the turn once it is cancelled. -/
def TurnPc.left : TurnPc → Nat
  | .done => 0
  | .closeTts _ => 1
  | .reap _ => 2
  | .dropEnd _ => 3
  | .endTts _ => 4
  | .aclose _ => 5
  | _ => 6

/-- Nothing from the client or from OpenClaw. -/
def TurnAct.own : TurnAct → Bool
  | .cancelled | .returns | .waited => true
  | _ => false

namespace Running

variable {cfg : Config} {endSent : Option Nat} {r₀ r : Running} {e : Option Exc} {a : TurnAct}

theorem finish_left (r : Running) (e : Option Exc) : (r.finish endSent e).task.pc.left = 0 := by
  unfold finish
  split <;> rfl

theorem closeTts_left (r : Running) (e : Option Exc) :
    (r.closeTts endSent e).task.pc.left ≤ 1 := by
  unfold closeTts
  split
  · exact (finish_left r e).le.trans (Nat.zero_le _)
  · exact Nat.le_refl _

theorem reap_left (r : Running) (e : Option Exc) : (r.reap endSent e).task.pc.left ≤ 2 := by
  unfold reap
  split
  · exact (finish_left r e).le.trans (Nat.zero_le _)
  · split
    · exact Nat.le_refl _
    · exact (closeTts_left r e).trans (Nat.le_succ _)

theorem leaveTokens_left (r : Running) :
    (r.leaveTokens endSent (some .cancelled)).task.pc.left ≤ 4 := by
  unfold leaveTokens endTokens
  dsimp only
  split
  · exact Nat.le_refl _
  · exact (reap_left r (some .cancelled)).trans (by decide)

/-- It takes one of its last steps. -/
theorem doomed_step (hlive : r₀.task.live = true) (hdoomed : r₀.task.doomed = true) :
    ∃ a r, a.own = true ∧ r₀.step cfg endSent a = some r ∧
      r.task.pc.left < r₀.task.pc.left := by
  cases hreq : r₀.task.cancelReq with
  | true =>
    have hstep : r₀.step cfg endSent .cancelled =
        onCancelled endSent { r₀ with task := { r₀.task with cancelReq := false } } := by
      simp only [step, hreq, if_true]
    refine ⟨.cancelled, ?_⟩
    rw [hstep]
    unfold onCancelled
    dsimp only
    cases hpc : r₀.task.pc with
    | created => exact ⟨_, rfl, rfl, Nat.succ_pos _⟩
    | connect => exact ⟨_, rfl, rfl, (finish_left _ _).trans_lt (by decide)⟩
    | next | sendChunk | dropChunk => exact ⟨_, rfl, rfl, Nat.lt_succ_self _⟩
    | aclose e => exact ⟨_, rfl, rfl, Nat.lt_succ_of_le (leaveTokens_left _)⟩
    | endTts e => exact ⟨_, rfl, rfl, (reap_left _ _).trans_lt (by decide : 2 < 4)⟩
    | dropEnd e => exact ⟨_, rfl, rfl, (reap_left _ _).trans_lt (by decide : 2 < 3)⟩
    | drain | dropDrain => exact ⟨_, rfl, rfl, (reap_left _ _).trans_lt (by decide)⟩
    | reap e => exact ⟨_, rfl, rfl, (finish_left _ _).trans_lt (by decide : 0 < 2)⟩
    | closeTts e => exact ⟨_, rfl, rfl, (finish_left _ _).trans_lt (by decide : 0 < 1)⟩
    | done =>
      rw [TurnTask.live, hpc] at hlive
      cases hlive
  | false =>
    have hexc : r₀.task.pc.exc = some .cancelled := by
      simpa only [TurnTask.doomed, hreq, Bool.false_or, TurnPc.cancelled, decide_eq_true_eq]
        using hdoomed
    have hstep : ∀ a, a.own = true → a ≠ .cancelled →
        r₀.step cfg endSent a = r₀.resume cfg endSent a := by
      intro a _ hne
      cases a with
      | cancelled => exact absurd rfl hne
      | _ => simp only [step, hreq, Bool.false_eq_true, if_false]
    cases hpc : r₀.task.pc with
    | aclose e =>
      obtain rfl : e = .cancelled := by
        rw [hpc] at hexc
        exact Option.some.inj hexc
      refine ⟨.returns, r₀.leaveTokens endSent (some .cancelled), rfl, ?_,
        Nat.lt_succ_of_le (leaveTokens_left r₀)⟩
      rw [hstep _ rfl fun h => by cases h]
      simp only [resume, hpc]
    | endTts e =>
      obtain rfl : e = some .cancelled := by
        rw [hpc] at hexc
        exact hexc
      refine ⟨.returns, r₀.reap endSent (some .cancelled), rfl, ?_,
        (reap_left r₀ (some .cancelled)).trans_lt (by decide : 2 < 4)⟩
      rw [hstep _ rfl fun h => by cases h]
      simp only [resume, hpc, afterTokens]
    | dropEnd e =>
      obtain rfl : e = some .cancelled := by
        rw [hpc] at hexc
        exact hexc
      refine ⟨.waited, r₀.reap endSent (some .cancelled), rfl, ?_,
        (reap_left r₀ (some .cancelled)).trans_lt (by decide : 2 < 3)⟩
      rw [hstep _ rfl fun h => by cases h]
      simp only [resume, hpc, afterTokens]
    | reap e =>
      refine ⟨.waited, r₀.closeTts endSent e, rfl, ?_, (closeTts_left r₀ e).trans_lt (by decide : 1 < 2)⟩
      rw [hstep _ rfl fun h => by cases h]
      simp only [resume, hpc]
    | closeTts e =>
      refine ⟨.returns, r₀.finish endSent e, rfl, ?_, (finish_left r₀ e).trans_lt (by decide : 0 < 1)⟩
      rw [hstep _ rfl fun h => by cases h]
      simp only [resume, hpc]
    | created | connect | next | sendChunk | dropChunk | drain | dropDrain | done =>
      rw [hpc] at hexc
      cases hexc

end Running

-- ---------------------------------------------------------------------------
-- The turns that are waited for
-- ---------------------------------------------------------------------------

namespace JotaBridge

variable {cfg : Config} {b b' : JotaBridge} {i : OpRef} {t : TurnRef}

/-- A turn that an operation waits for is cancelled. -/
def Awaited (b : JotaBridge) : Prop :=
  ∀ i t, (b.ops i).waiting = some t → (b.turns t).live = true → (b.turns t).doomed = true

namespace Awaited

/-- The turns that are waited for go on as cancelled ones, if they do. -/
theorem keep (h : Awaited b)
    (hops : ∀ i t, (b'.ops i).waiting = some t → (b.ops i).waiting = some t)
    (hturns : ∀ t, (∃ i, (b.ops i).waiting = some t) → (b'.turns t).live = true →
      (b.turns t).live = true ∧ ((b.turns t).doomed = true → (b'.turns t).doomed = true)) :
    Awaited b' := by
  intro i t hi hlive
  have hi := hops i t hi
  obtain ⟨hlive₀, hdoomed⟩ := hturns t ⟨i, hi⟩ hlive
  exact hdoomed (h i t hi hlive₀)

theorem same (h : Awaited b) (hturns : b'.turns = b.turns)
    (hops : ∀ i, (b'.ops i).pc = (b.ops i).pc) : Awaited b' := by
  refine h.keep (fun i t hi => ?_) fun t _ hlive => ?_
  · simp only [Op.waiting, hops] at hi ⊢
    exact hi
  · rw [hturns] at hlive ⊢
    exact ⟨hlive, id⟩

theorem setOp (h : Awaited b) (i : OpRef) (op : Op)
    (hwaiting : ∀ t, op.waiting = some t → (b.turns t).live = true → (b.turns t).doomed = true) :
    Awaited (b.setOp i op) := by
  intro j t hj hlive
  rcases eq_or_ne j i with rfl | hne
  · rw [setOp_self] at hj
    exact hwaiting t hj hlive
  · rw [setOp_ne b hne] at hj
    exact h j t hj hlive

theorem setOp_free (h : Awaited b) (i : OpRef) {op : Op} (hwaiting : op.waiting = none) :
    Awaited (b.setOp i op) := by
  refine h.setOp i op fun t ht => ?_
  rw [hwaiting] at ht
  cases ht

theorem cancelTask_self (b : JotaBridge) (t : TurnRef) (hlive : ((b.cancelTask t).turns t).live = true) :
    ((b.cancelTask t).turns t).doomed = true := by
  unfold JotaBridge.cancelTask at hlive ⊢
  split at hlive
  · rename_i hbefore
    rw [if_pos hbefore]
    dsimp only
    rw [Function.update_self]
    simp only [TurnTask.doomed, Bool.true_or]
  · rename_i hbefore
    exact absurd hlive hbefore

theorem cancelTask (h : Awaited b) (t : TurnRef) : Awaited (b.cancelTask t) := by
  unfold JotaBridge.cancelTask
  split
  · refine h.keep (fun _ _ hi => hi) fun t' _ hlive => ?_
    dsimp only at hlive ⊢
    rcases eq_or_ne t' t with rfl | hne
    · rw [Function.update_self] at hlive ⊢
      exact ⟨hlive, fun _ => by simp only [TurnTask.doomed, Bool.true_or]⟩
    · rw [Function.update_of_ne hne] at hlive ⊢
      exact ⟨hlive, id⟩
  · exact h

theorem event (h : Awaited b) (hc : Control b) (hev : Event b b') : Awaited b' := by
  cases hev with
  | enqueue q =>
    unfold enqueuePush
    split <;> exact h
  | cancelTask t => exact h.cancelTask t
  | cancelOps ops hops =>
    refine h.same rfl fun i => ?_
    show (ops i).pc = (b.ops i).pc
    rcases hops i with heq | heq
    · rw [heq]
    · rw [heq, Session.cancelOp_pc]
  | runs i op hop =>
    refine h.setOp_free i ?_
    rw [Op.waiting, hop]
  | notes i => exact h.setOp i _ fun t ht => h i t ht
  | forgets i t =>
    unfold forget
    split <;> exact h
  | waitsLock i pc _ hpc =>
    refine h.setOp_free i ?_
    rcases hpc with rfl | ⟨rfl, -⟩ <;> rfl
  | choosesTurn i t => exact h.setOp_free i rfl
  | cancels i t wait _ _ _ hwait =>
    have hdid : Awaited (b.did (.cancelled (b.ops i).turnMark t)) := h
    refine (hdid.cancelTask t).setOp i _ fun t' ht' hlive => ?_
    obtain rfl : t = t' := by
      rcases hwait with rfl | ⟨-, id, rfl, -⟩ <;> exact Option.some.inj ht'
    exact cancelTask_self _ t hlive
  | drops i s p waits =>
    have hdropped : Awaited (b.setPushing p) := h
    refine hdropped.setOp_free i ?_
    cases waits <;> rfl
  | closesCut i n s =>
    have hclosed : Awaited { b with out := b.out.closeStream s } := h
    exact hclosed.setOp_free i rfl
  | aborts i =>
    have hdid : Awaited (b.did (.aborted (b.ops i).pushMark b.push.turnId b.liveTurn.isSome)) := h
    exact hdid.setOp_free i rfl
  | creates i =>
    refine h.keep (fun _ _ hi => hi) fun t hwaits hlive => ?_
    obtain ⟨j, hj⟩ := hwaits
    have hlt : t < b.turnCount := hc.activeLt t (hc.waiting j t hj)
    have hsame : b.createTurn.turns t = b.turns t := Function.update_of_ne (Nat.ne_of_lt hlt) _ _
    rw [hsame] at hlive ⊢
    exact ⟨hlive, id⟩
  | leaves i =>
    have hfree : Awaited { b with turnLock := if b.turnLock = some i then none else b.turnLock } := h
    exact hfree.setOp_free i rfl
  | _ => exact h

theorem handlings (h : Awaited b) (hinv : Inv b) (hhandlings : Handlings b b') : Awaited b' := by
  have hboth : Awaited b' ∧ Inv b' := by
    induction hhandlings with
    | refl => exact ⟨h, hinv⟩
    | tail _ hhandling ih =>
      refine ⟨?_, ih.2.handling hhandling⟩
      cases hhandling with
      | event hev => exact ih.1.event ih.2.control hev
      | abandons t n _ _ _ _ heq =>
        subst heq
        exact ih.1
  exact hboth.1

theorem change {a : Act} (h : Awaited b) (hinv : Inv b) (hchange : Change cfg b b' a) : Awaited b' := by
  cases hchange with
  | turn t a hstep =>
    obtain ⟨r, hr, rfl⟩ := Option.map_eq_some_iff.mp hstep
    refine h.keep (fun _ _ hi => hi) fun t' _ hlive => ?_
    rcases eq_or_ne t' t with rfl | hne
    · have hself : (b.setRunning t' r).turns t' = r.task := Function.update_self _ _ _
      rw [hself] at hlive ⊢
      refine ⟨(Running.step_effect (hinv.tasks.turn t') hr).live, fun hdoomed => ?_⟩
      exact (Running.step_doomed (hinv.tasks.turn t') hdoomed hr hlive).1
    · have hsame : (b.setRunning t r).turns t' = b.turns t' := Function.update_of_ne hne _ _
      rw [hsame] at hlive ⊢
      exact ⟨hlive, id⟩
  | worker a hstep =>
    obtain ⟨p, -, rfl⟩ := Option.map_eq_some_iff.mp hstep
    exact h
  | loses i a _ heq =>
    subst heq
    have hfree : Awaited { b with turnLock := if b.turnLock = some i then none else b.turnLock } := h
    exact hfree.setOp_free i rfl
  | handles hhandlings => exact h.handlings hinv hhandlings

end Awaited

end JotaBridge

-- ---------------------------------------------------------------------------
-- The release
-- ---------------------------------------------------------------------------

/-- What is left of an operation that has the lock. -/
def OpPc.left : OpPc → Nat
  | .startWait _ | .cancelWait _ _ => 4
  | .cutAudio _ _ => 3
  | .cutClose _ => 2
  | .cutAbort _ => 1
  | _ => 0

namespace JotaBridge

variable {cfg : Config} {b b' : JotaBridge} {i : OpRef} {t : TurnRef} {n k : Nat} {id : Option Nat}

/-- The lock is free, or `i` has it and at most `k` left. -/
def Frees (b : JotaBridge) (i : OpRef) (k : Nat) : Prop :=
  b.turnLock = none ∨ b.turnLock = some i ∧ (b.ops i).pc.left ≤ k

theorem leave_free (h : b.turnLock = some i) : (b.leave i).turnLock = none := if_pos h

theorem leave_of_free (h : b.turnLock = none) : (b.leave i).turnLock = none := by
  simp only [leave, setOp, h, reduceCtorEq, if_false]

theorem afterCut_free (h : b.turnLock = some i) : (b.afterCut i n).turnLock = none := by
  unfold afterCut
  split
  · split
    · exact leave_free h
    · exact leave_free (b := b.createTurn) h
  · split
    · exact leave_free h
    · exact leave_free (b := b.send _) h
  · exact leave_free h
  · exact leave_free h

theorem closeCut_free (h : b.turnLock = some i) : (b.closeCut i n).turnLock = none := afterCut_free h

theorem suspend_frees {pc : OpPc} (h : b.turnLock = some i) (hk : pc.left ≤ k) :
    Frees (b.suspend i pc) i k := by
  refine .inr ⟨h, ?_⟩
  rw [suspend, setOp_self]
  exact hk

theorem abortCut_frees (h : b.turnLock = some i) : Frees (b.abortCut cfg i n) i 1 := by
  unfold abortCut
  split
  · exact suspend_frees (b := b.did _) h (Nat.le_refl _)
  · exact .inl (closeCut_free h)

theorem Frees.mono {k' : Nat} (h : Frees b i k) (hle : k ≤ k') : Frees b i k' :=
  h.imp_right fun hi => ⟨hi.1, hi.2.trans hle⟩

theorem dropCut_frees (h : b.turnLock = some i) : Frees (b.dropCut cfg i n) i 3 := by
  unfold dropCut
  split
  · exact (abortCut_frees h).mono (by decide)
  · split
    · exact suspend_frees (b := b.setPushing _) h (Nat.le_refl _)
    · exact suspend_frees (b := b.setPushing _) h (by decide : 2 ≤ 3)

theorem cutPush_frees {expected : Nat} (h : b.turnLock = some i) :
    Frees (b.cutPush cfg i expected) i 3 := by
  unfold cutPush
  dsimp only
  split
  · exact .inl (afterCut_free h)
  · exact dropCut_frees (b := b.setOp i _) h

theorem afterCancel_frees {cancelled : Bool} (h : b.turnLock = none) :
    Frees (b.afterCancel cfg i cancelled id) i 3 := by
  have hcut : Frees (if (b.ops i).pushId = 0 then b.leave i
      else b.withLock i .cutLock fun c => c.cutPush cfg i (b.ops i).pushId) i 3 := by
    split
    · exact .inl (leave_of_free h)
    · unfold withLock
      rw [h]
      exact cutPush_frees (b := { b with turnLock := some i }) rfl
  unfold afterCancel
  dsimp only
  split
  · split
    · exact .inl (leave_of_free (b := b.send _) h)
    · exact hcut
  · exact .inl (leave_of_free (b := b.send _) h)
  · exact hcut
  · exact hcut

theorem forget_lock (b : JotaBridge) (t : TurnRef) : (b.forget t).turnLock = b.turnLock := by
  unfold forget
  split <;> rfl

/-- The holder resumes from its wait for turn `t`, which is done. -/
theorem resume_waiting (hlock : b.turnLock = some i) (hwaiting : (b.ops i).waiting = some t)
    (hdone : (b.turns t).live = false) :
    ∃ b', b.opResume cfg i .waited = some b' ∧ Frees b' i 3 := by
  have hrun : ((b.suspend i .running).forget t).turnLock = some i :=
    (forget_lock _ t).trans hlock
  unfold Op.waiting at hwaiting
  split at hwaiting
  · rename_i hpc
    cases hwaiting
    simp only [opResume, hpc, hdone, Bool.false_eq_true, if_false]
    split
    · exact ⟨_, rfl, .inl (leave_free hrun)⟩
    · exact ⟨_, rfl, cutPush_frees hrun⟩
  · rename_i hpc
    cases hwaiting
    simp only [opResume, hpc, hdone, Bool.false_eq_true, if_false]
    split
    · exact ⟨_, rfl, .inl (leave_free hrun)⟩
    · exact ⟨_, rfl, afterCancel_frees rfl⟩
  · cases hwaiting

/-- The holder resumes from a wait that is part of a cut. -/
theorem resume_cutting (hlock : b.turnLock = some i) (hcutting : (b.ops i).cutting = some n) :
    ∃ a b', a ≠ .cancelled ∧ b.opResume cfg i a = some b' ∧
      ∃ k, k < (b.ops i).pc.left ∧ Frees b' i k := by
  have hrun : (b.suspend i .running).turnLock = some i := hlock
  unfold Op.cutting at hcutting
  split at hcutting
  · rename_i m s hpc
    have hfrees : Frees ({ b with out := b.out.closeStream s }.suspend i (.cutClose m)) i 2 :=
      suspend_frees (b := { b with out := b.out.closeStream s }) hlock (Nat.le_refl _)
    refine ⟨.waited, _, OpAct.noConfusion, ?_, 2, ?_, hfrees⟩
    · simp only [opResume, hpc]
    · rw [hpc]
      exact Nat.lt_succ_self _
  · rename_i m hpc
    have hfrees : Frees ((b.suspend i .running).abortCut cfg i m) i 1 := abortCut_frees hrun
    refine ⟨.returns, _, OpAct.noConfusion, ?_, 1, ?_, hfrees⟩
    · simp only [opResume, hpc]
    · rw [hpc]
      exact Nat.lt_succ_self _
  · rename_i m hpc
    have hfrees : Frees ((b.suspend i .running).closeCut i m) i 0 := .inl (closeCut_free hrun)
    refine ⟨.returns, _, OpAct.noConfusion, ?_, 0, ?_, hfrees⟩
    · simp only [opResume, hpc]
    · rw [hpc]
      exact Nat.lt_succ_self _
  · cases hcutting

/-- The holder gets a cancellation: it notes it, or is gone. -/
theorem cancelled_frees (hlock : b.turnLock = some i) (hholds : (b.ops i).holds = true) :
    ∃ b', b.opCancelled i = some b' ∧ (b'.turnLock = none ∨
      b'.turnLock = some i ∧ (b'.ops i).pc = (b.ops i).pc ∧ (b'.ops i).cancelReq = false) := by
  have hleave : (b.leave i).turnLock = none := leave_free hlock
  unfold opCancelled
  cases hpc : (b.ops i).pc with
  | startWait t | cancelWait t id =>
    refine ⟨_, rfl, .inr ⟨hlock, ?_, ?_⟩⟩
    · rw [setOp_self]
      exact hpc
    · rw [setOp_self]
  | idle | running =>
    simp only [Op.holds, Op.cutting, Op.waiting, hpc, Option.isSome_none, Bool.or_self,
      Bool.false_eq_true] at hholds
  | _ => exact ⟨_, rfl, .inl hleave⟩

end JotaBridge

namespace Session

open JotaBridge

variable {cfg : Config} {s s' : Session} {i : OpRef} {t : TurnRef}

/-- A step of operation `i`, or one that the turn it waits for takes by itself. -/
def onward (i : OpRef) (s : Session) : Act → Prop
  | .op j _ => j = i
  | .turn t a => (s.bridge.ops i).waiting = some t ∧ a.own = true
  | _ => False

/-- The invariants of a session with those of its lock. -/
structure Orderly (s : Session) : Prop where
  ok : s.Ok
  held : s.bridge.Held
  awaited : s.bridge.Awaited

theorem Orderly.step {a : Act} (h : s.Orderly) (hstep : s.step cfg a = some s') : s'.Orderly := by
  have hadvances := step_advances h.ok hstep
  exact ⟨hadvances.ok, step_held h.held hstep, h.awaited.change h.ok.inv hadvances.change⟩

theorem Orderly.run {ok : Session → Act → Prop} (h : s.Orderly)
    (hrun : ReachableBy (Session.step cfg) ok s s') : s'.Orderly :=
  hrun.invariant h fun _ _ _ ho _ hstep => ho.step hstep

theorem orderly_of_reachable (h : Reachable (Session.step cfg) {} s) : s.Orderly :=
  have hinit : Orderly {} := ⟨.init, fun _ hj => (by cases hj), fun _ _ hi => (by cases hi)⟩
  hinit.run h

/-- A cancelled turn that is waited for comes to its end. -/
theorem turn_ends (h : s.Orderly) (hwaiting : (s.bridge.ops i).waiting = some t)
    (hdoomed : (s.bridge.turns t).doomed = true) :
    ∃ s', ReachableBy (Session.step cfg) (onward i) s s' ∧
      (s'.bridge.turns t).live = false ∧ s'.bridge.ops = s.bridge.ops ∧
      s'.bridge.turnLock = s.bridge.turnLock := by
  induction hn : (s.bridge.turns t).pc.left using Nat.strong_induction_on generalizing s with
  | _ n ih =>
    cases hlive : (s.bridge.turns t).live with
    | false => exact ⟨s, .start, hlive, rfl, rfl⟩
    | true =>
      have hnext : ∃ a r, a.own = true ∧
          (s.bridge.running t).step cfg s.bridge.turnEndSentAtClose a = some r ∧
          r.task.pc.left < (s.bridge.turns t).pc.left := Running.doomed_step hlive hdoomed
      obtain ⟨a, r, hown, hr, hlt⟩ := hnext
      have hstep : s.step cfg (.turn t a) = some { s with bridge := s.bridge.setRunning t r } := by
        simp only [Session.step, inBridge, turnStep, hr, Option.map_some]
      have hself : (s.bridge.setRunning t r).turns t = r.task := Function.update_self _ _ _
      have hfirst : ReachableBy (Session.step cfg) (onward i) s
          { s with bridge := s.bridge.setRunning t r } :=
        .next (a := .turn t a) .start ⟨hwaiting, hown⟩ hstep
      cases hlive' : r.task.live with
      | false => exact ⟨_, hfirst, by rw [hself, hlive'], rfl, rfl⟩
      | true =>
        have hdoomed' := (Running.step_doomed (h.ok.inv.tasks.turn t) hdoomed hr hlive').1
        obtain ⟨s', hrun, hdone, hops, hlock⟩ := ih r.task.pc.left (hn ▸ hlt) (h.step hstep)
          hwaiting (hself ▸ hdoomed') (by rw [hself])
        exact ⟨s', hfirst.trans hrun, hdone, hops, hlock⟩

theorem step_op {act : OpAct} {b : JotaBridge} (hb : s.bridge.opStep cfg i act = some b) :
    ReachableBy (Session.step cfg) (onward i) s { s with bridge := b } := by
  have hstep : s.step cfg (.op i act) = some { s with bridge := b } := by
    simp only [Session.step, inBridge, hb, Option.map_some]
  exact .next (a := .op i act) .start rfl hstep

theorem opStep_resume {act : OpAct} (hreq : (s.bridge.ops i).cancelReq = false)
    (hact : act ≠ .cancelled) : s.bridge.opStep cfg i act = s.bridge.opResume cfg i act := by
  cases act with
  | cancelled => exact absurd rfl hact
  | _ => simp only [opStep, hreq, Bool.false_eq_true, if_false]

/-- How far the holder is from the release, a cancellation that has to be noted included. -/
def OpLeft (s : Session) (i : OpRef) : Nat :=
  2 * (s.bridge.ops i).pc.left + if (s.bridge.ops i).cancelReq then 1 else 0

theorem opLeft_lt {b : JotaBridge} {k : Nat} (hlt : k < (s.bridge.ops i).pc.left)
    (hk : (b.ops i).pc.left ≤ k) : OpLeft { s with bridge := b } i < OpLeft s i := by
  unfold OpLeft
  dsimp only
  split <;> omega

/-- The holder of the lock comes to its release. -/
theorem released (h : s.Orderly) (hlock : s.bridge.turnLock = some i) :
    ∃ s', ReachableBy (Session.step cfg) (onward i) s s' ∧
      s'.bridge.turnLock = none := by
  induction hn : OpLeft s i using Nat.strong_induction_on generalizing s with
  | _ n ih =>
    have hholds : (s.bridge.ops i).holds = true := h.held i hlock
    -- a step of the holder that leaves it less
    have hon : ∀ {s₁ : Session} {b : JotaBridge}, s₁.Orderly →
        ReachableBy (Session.step cfg) (onward i) s s₁ →
        ReachableBy (Session.step cfg) (onward i) s₁ { s₁ with bridge := b } →
        (b.turnLock = none ∨ b.turnLock = some i ∧ OpLeft { s₁ with bridge := b } i < n) →
        ∃ s', ReachableBy (Session.step cfg) (onward i) s s' ∧
          s'.bridge.turnLock = none := by
      intro s₁ b h₁ hrun₁ hrun hb
      rcases hb with hfree | ⟨hlock', hlt⟩
      · exact ⟨_, hrun₁.trans hrun, hfree⟩
      · obtain ⟨s', hrun', hfree⟩ := ih _ hlt (h₁.run hrun) hlock' rfl
        exact ⟨s', (hrun₁.trans hrun).trans hrun', hfree⟩
    cases hreq : (s.bridge.ops i).cancelReq with
    | true =>
      obtain ⟨b, hb, hfrees⟩ := cancelled_frees hlock hholds
      have hstep : s.bridge.opStep cfg i .cancelled = some b := by
        simp only [opStep, hreq, if_true, hb]
      refine hon h .start (step_op hstep) (hfrees.imp_right fun hnoted => ⟨hnoted.1, ?_⟩)
      rw [← hn]
      simp only [OpLeft, hnoted.2.1, hnoted.2.2, hreq, Bool.false_eq_true, if_false, if_true]
      omega
    | false =>
      cases hwaiting : (s.bridge.ops i).waiting with
      | some t =>
        -- first the turn it waits for
        have hends : ∃ s₁, ReachableBy (Session.step cfg) (onward i) s s₁ ∧
            (s₁.bridge.turns t).live = false ∧ s₁.bridge.ops = s.bridge.ops ∧
            s₁.bridge.turnLock = s.bridge.turnLock := by
          cases hlive : (s.bridge.turns t).live with
          | false => exact ⟨s, .start, hlive, rfl, rfl⟩
          | true => exact turn_ends h hwaiting (h.awaited i t hwaiting hlive)
        obtain ⟨s₁, hrun₁, hdone, hops, hlock₁⟩ := hends
        have hresume : ∃ b, s₁.bridge.opResume cfg i .waited = some b ∧ Frees b i 3 :=
          resume_waiting (hlock₁.trans hlock) (by rw [hops]; exact hwaiting) hdone
        obtain ⟨b, hb, hfrees⟩ := hresume
        have hreq₁ : (s₁.bridge.ops i).cancelReq = false := by rw [hops]; exact hreq
        have hstep := (opStep_resume hreq₁ OpAct.noConfusion).trans hb
        refine hon (h.run hrun₁) hrun₁ (step_op hstep) (hfrees.imp_right fun hi => ⟨hi.1, ?_⟩)
        have hfour : (s₁.bridge.ops i).pc.left = 4 := by
          rw [hops]
          unfold Op.waiting at hwaiting
          split at hwaiting
          · rename_i hpc
            rw [hpc]
            rfl
          · rename_i hpc
            rw [hpc]
            rfl
          · cases hwaiting
        have hsame : OpLeft s₁ i = n := by
          rw [← hn]
          simp only [OpLeft, hops]
        rw [← hsame]
        exact opLeft_lt (k := 3) (hfour ▸ by decide) hi.2
      | none =>
        have hcutting : ∃ m, (s.bridge.ops i).cutting = some m := by
          simp only [Op.holds, hwaiting, Option.isSome_none, Bool.or_false] at hholds
          exact Option.isSome_iff_exists.mp hholds
        obtain ⟨m, hcutting⟩ := hcutting
        have hresume : ∃ a b, a ≠ .cancelled ∧ s.bridge.opResume cfg i a = some b ∧
            ∃ k, k < (s.bridge.ops i).pc.left ∧ Frees b i k := resume_cutting hlock hcutting
        obtain ⟨a, b, hact, hb, k, hlt, hfrees⟩ := hresume
        have hstep := (opStep_resume hreq hact).trans hb
        refine hon h .start (step_op hstep) (hfrees.imp_right fun hi => ⟨hi.1, ?_⟩)
        rw [← hn]
        exact opLeft_lt hlt hi.2

/-- In every state of every run `_turn_lock` is held exactly by the operation that is suspended
within it, and its holder gets to its release with nothing more from the client, OpenClaw or any
other operation. -/
theorem turn_lock (cfg : Config) (s : Session) (h : Reachable (Session.step cfg) {} s) (i : OpRef) :
    (s.bridge.turnLock = some i ↔ (s.bridge.ops i).holds = true) ∧
      (s.bridge.turnLock = some i →
        ∃ s', ReachableBy (Session.step cfg) (onward i) s s' ∧
          s'.bridge.turnLock = none) := by
  have horderly := orderly_of_reachable h
  exact ⟨⟨horderly.held i, horderly.ok.inv.control.lock i⟩, released horderly⟩

/-- The user replaces a turn by another, while a cancel of the first waits for the lock. -/
def replaceAndCancel : List Act :=
  [.begin 0 .send, .turn 0 .start, .begin 1 .send, .begin 2 .cancel, .cancelOp 1]

theorem turn_lock_replaced :
    ∃ s : Session, (s.bridge.ops 2).pc = .cancelLock 0 (some 1) ∧ s.bridge.turnLock = some 1 ∧
      ∃ s', ReachableBy (Session.step textOnly) (onward 1) s s' ∧
        s'.bridge.turnLock = none := by
  have hrun : Reachable (Session.step textOnly) {}
      ((run (Session.step textOnly) {} replaceAndCancel).get rfl) :=
    reachable_of_run (Option.some_get _).symm
  exact ⟨_, rfl, rfl, (turn_lock textOnly _ hrun 1).2 rfl⟩

end Session

end Bridge
