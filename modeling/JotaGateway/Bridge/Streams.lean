-- SUMMARY: Who closes each TTS stream: it is closed, or a turn, the push, the worker or a cut holds it.
import JotaGateway.Bridge.WireContract

/-!
# Owners of the TTS streams

A stream is handed over between a turn, the push, the worker and a cut, with
awaits in between. It never gets lost as long as no cancellation lands on the
wait for its audio task, and no TTS connects over a stream the push still has.
-/

namespace Bridge

open Transition

namespace JotaBridge

variable {cfg : Config} {b b' : JotaBridge} {t : TurnRef} {r : Running} {p : Pushing}
  {env : WorkerEnv} {s : StreamRef}

/-- Who has to close stream `s`. -/
inductive Owns (b : JotaBridge) (s : StreamRef) : Prop where
  | turn (t : TurnRef) (a : AudioRef) (hstarted : (b.turns t).started = true)
      (htts : (b.turns t).tts = some (s, a))
  /-- `_push_tts`, of an open push or of one that is over -/
  | push (htts : b.push.tts = some s)
  | worker (hdropping : b.push.worker.dropping = some s)
  | op (i : OpRef) (hdropping : (b.ops i).dropping = some s)

def Streams (b : JotaBridge) : Prop :=
  ∀ s < b.out.streamCount, b.out.closeInvoked s = true ∨ b.Owns s

namespace Streams

theorem init : Streams {} := fun _ hs => by cases hs

/-- No stream is opened, closed ones stay closed, and each owner hands on what it had. -/
theorem hands (h : Streams b) (hcount : b'.out.streamCount = b.out.streamCount)
    (hclosed : ∀ s, b.out.closeInvoked s = true → b'.out.closeInvoked s = true)
    (howns : ∀ s, b.Owns s → b'.out.closeInvoked s = true ∨ b'.Owns s) : Streams b' := by
  intro s hs
  rcases h s (hcount ▸ hs) with hc | ho
  · exact .inl (hclosed s hc)
  · exact howns s ho

/-- The owners keep what they have. -/
theorem keep (h : Streams b) (hcount : b'.out.streamCount = b.out.streamCount)
    (hclosed : ∀ s, b.out.closeInvoked s = true → b'.out.closeInvoked s = true)
    (hturns : ∀ t, (b.turns t).started = true →
      (b'.turns t).started = true ∧ (b'.turns t).tts = (b.turns t).tts)
    (htts : b'.push.tts = b.push.tts)
    (hworker : ∀ s, b.push.worker.dropping = some s → b'.push.worker.dropping = some s)
    (hops : ∀ i s, (b.ops i).dropping = some s → (b'.ops i).dropping = some s) : Streams b' := by
  refine h.hands hcount hclosed fun s ho => .inr ?_
  cases ho with
  | turn t a hstarted hs => exact .turn t a (hturns t hstarted).1 ((hturns t hstarted).2.trans hs)
  | push hs => exact .push (htts.trans hs)
  | worker hs => exact .worker (hworker s hs)
  | op i hs => exact .op i (hops i s hs)

/-- Neither a turn nor the push nor an operation changes what it holds. -/
theorem same (h : Streams b) (hout : b'.out = b.out) (hturns : b'.turns = b.turns)
    (hpush : b'.push = b.push) (hops : b'.ops = b.ops) : Streams b' := by
  refine h.keep (by rw [hout]) (fun s hs => ?_) (fun t hstarted => ?_) (by rw [hpush])
    (fun s hs => ?_) fun i s hs => ?_
  · rwa [hout]
  · rw [hturns]
    exact ⟨hstarted, rfl⟩
  · rwa [hpush]
  · rwa [hops]

/-- An operation that holds no stream moves. -/
theorem setOp (h : Streams b) (i : OpRef) (op : Op)
    (hdropping : ∀ s, (b.ops i).dropping = some s → op.dropping = some s) :
    Streams (b.setOp i op) := by
  refine h.keep rfl (fun _ hs => hs) (fun _ hstarted => ⟨hstarted, rfl⟩) rfl (fun _ hs => hs) ?_
  intro j s hs
  rcases eq_or_ne j i with rfl | hne
  · rw [setOp_self]
    exact hdropping s hs
  · rw [setOp_ne b hne]
    exact hs

theorem setOp_free (h : Streams b) (i : OpRef) (op : Op) (hdropping : (b.ops i).dropping = none) :
    Streams (b.setOp i op) := by
  refine h.setOp i op fun s hs => ?_
  rw [hdropping] at hs
  cases hs

theorem cancelTask (h : Streams b) (t : TurnRef) : Streams (b.cancelTask t) := by
  unfold JotaBridge.cancelTask
  split
  · refine h.keep rfl (fun _ hs => hs) ?_ rfl (fun _ hs => hs) fun _ _ hs => hs
    intro t' hstarted
    dsimp only
    rcases eq_or_ne t' t with rfl | hne
    · rw [Function.update_self]
      exact ⟨hstarted, rfl⟩
    · rw [Function.update_of_ne hne]
      exact ⟨hstarted, rfl⟩
  · exact h

theorem closeStream (h : Streams b) (s : StreamRef) :
    Streams { b with out := b.out.closeStream s } :=
  h.keep rfl (Output.Settles.closeStream b.out s).closed (fun _ hstarted => ⟨hstarted, rfl⟩) rfl
    (fun _ hs => hs) fun _ _ hs => hs

theorem createTurn (h : Streams b) (hquiet : b.quiet) : Streams b.createTurn := by
  refine h.keep rfl (fun _ hs => hs) (fun t hstarted => ?_) rfl (fun _ hs => hs) fun _ _ hs => hs
  have hlive : (b.turns t).live = true := TurnTask.live_of_started hstarted
  rw [hquiet t] at hlive
  cases hlive

-- ---------------------------------------------------------------------------
-- An event
-- ---------------------------------------------------------------------------

theorem dropping_of_pc {op : Op} {pc : OpPc} (hpc : op.pc = pc) (hcut : ∀ n s, pc ≠ .cutAudio n s) :
    op.dropping = none := by
  unfold Op.dropping
  split
  · rename_i n s hcutAudio
    exact absurd (hpc.symm.trans hcutAudio) (hcut n s)
  · rfl

theorem dropping_of_running {op : Op} (hpc : op.pc = .running) : op.dropping = none :=
  dropping_of_pc hpc fun _ _ hne => by cases hne

/-- The stream of the push goes to the operation that cuts it, or is closed. -/
theorem drop (h : Streams b) {i : OpRef} {waits : Bool} (hcuts : Cuts b i)
    (htts : b.push.tts = some s) (hdrop : Pushing.Dropped b.pushing s p waits) :
    Streams ((b.setPushing p).suspend i
      (if waits then .cutAudio b.push.turnId s else .cutClose b.push.turnId)) := by
  have hfree : (b.ops i).dropping = none := dropping_of_running hcuts.running
  have hpush := hdrop.push
  refine h.hands hdrop.out.streamCount hdrop.out.closed fun s' ho => ?_
  cases ho with
  | turn t a hstarted hs => exact .inr (.turn t a hstarted hs)
  | push hs =>
    obtain rfl : s = s' := Option.some.inj (htts.symm.trans hs)
    rcases hdrop.taken with rfl | hclosed
    · refine .inr (.op i ?_)
      simp only [suspend, setOp_self, Op.dropping, if_true]
    · exact .inl hclosed
  | worker hs =>
    have hworker : p.push.worker = b.push.worker := by
      rw [hpush]
    refine .inr (.worker ?_)
    show p.push.worker.dropping = some s'
    rwa [hworker]
  | op j hs =>
    have hne : j ≠ i := by
      rintro rfl
      rw [hfree] at hs
      cases hs
    refine .inr (.op j ?_)
    rw [suspend, setOp_ne _ hne]
    exact hs

theorem event (h : Streams b) (hev : Event b b') : Streams b' := by
  cases hev with
  | enqueue q =>
    unfold enqueuePush
    split
    · exact h
    · refine h.keep rfl (fun _ hs => hs) (fun _ hstarted => ⟨hstarted, rfl⟩) rfl (fun s hs => ?_)
        fun _ _ hs => hs
      rcases b.push.worker.respawn_cases with heq | ⟨hdone, -⟩
      · rwa [heq]
      · rw [Worker.dropping, hdone] at hs
        cases hs
  | cancelTask t => exact h.cancelTask t
  | cancelWorker =>
    refine h.keep rfl (fun _ hs => hs) (fun _ hstarted => ⟨hstarted, rfl⟩) rfl (fun s hs => ?_)
      fun _ _ hs => hs
    rwa [Worker.dropping, Session.cancelWorker_pc]
  | cancelOps ops hops =>
    refine h.keep rfl (fun _ hs => hs) (fun _ hstarted => ⟨hstarted, rfl⟩) rfl (fun _ hs => hs)
      fun i s hs => ?_
    show (ops i).dropping = some s
    rcases hops i with heq | heq
    · rwa [heq]
    · rwa [heq, Op.dropping, Session.cancelOp_pc]
  | runs i op _ hdropping => exact h.setOp_free i _ hdropping
  | notes i hdropping => exact h.setOp_free i _ hdropping
  | forgets i t =>
    unfold forget
    split
    · exact h.same rfl rfl rfl rfl
    · exact h
  | waitsLock i pc hrunning | choosesTurn i _ hrunning =>
    exact h.setOp_free i _ (dropping_of_running hrunning)
  | cancels i t wait hlocked =>
    have hdid : Streams (b.did (.cancelled (b.ops i).turnMark t)) := h.same rfl rfl rfl rfl
    refine (hdid.cancelTask t).setOp_free i _ ?_
    have hops : ((b.did (.cancelled (b.ops i).turnMark t)).cancelTask t).ops = b.ops := by
      unfold JotaBridge.cancelTask
      split <;> rfl
    rw [hops]
    exact dropping_of_running hlocked.running
  | drops i s p waits hcuts htts hdrop => exact h.drop hcuts htts hdrop
  | closesCut i n s hpc =>
    have hclosed := h.closeStream s
    refine hclosed.hands rfl (fun _ hs => hs) fun s' ho => ?_
    cases ho with
    | turn t a hstarted hs => exact .inr (.turn t a hstarted hs)
    | push hs => exact .inr (.push hs)
    | worker hs => exact .inr (.worker hs)
    | op j hs =>
      rcases eq_or_ne j i with rfl | hne
      · have hs : (b.ops j).dropping = some s' := hs
        rw [Op.dropping, hpc] at hs
        cases hs
        exact .inl (Output.closeStream_self b.out s)
      · refine .inr (.op j ?_)
        rw [suspend, setOp_ne _ hne]
        exact hs
  | aborts i hcuts =>
    have hdid : Streams (b.did (.aborted (b.ops i).pushMark b.push.turnId b.liveTurn.isSome)) :=
      h.same rfl rfl rfl rfl
    refine hdid.setOp_free i _ ?_
    rcases hcuts with hpc | ⟨hcuts, -⟩
    · exact dropping_of_pc hpc fun _ _ hne => by cases hne
    · exact dropping_of_running hcuts.running
  | closesPush by_ _ hopen =>
    rw [Pushing.closePushTurn_of_open (p := b.pushing) hopen]
    exact h.keep rfl (fun _ hs => hs) (fun _ hstarted => ⟨hstarted, rfl⟩) rfl (fun _ hs => hs)
      fun _ _ hs => hs
  | creates i _ hquiet => exact h.createTurn hquiet
  | leaves i hdropping =>
    have hfree : Streams { b with turnLock := if b.turnLock = some i then none else b.turnLock } :=
      h.same rfl rfl rfl rfl
    exact hfree.setOp_free i _ hdropping
  | closesTts s => exact h.closeStream s
  | clearsTts _ hclosed _ =>
    refine h.hands rfl (fun _ hs => hs) fun s ho => ?_
    cases ho with
    | turn t a hstarted hs => exact .inr (.turn t a hstarted hs)
    | push hs => exact .inl (hclosed s hs)
    | worker hs => exact .inr (.worker hs)
    | op j hs => exact .inr (.op j hs)
  | senderCloses | clientGone | frame | audioEnds | cancelAudio | speaks | dropsBacklog =>
    exact h.keep rfl (fun _ hs => hs) (fun _ hstarted => ⟨hstarted, rfl⟩) rfl (fun _ hs => hs)
      fun _ _ hs => hs
  | closing | acquires | releases | reports | didClose => exact h.same rfl rfl rfl rfl

theorem handlings (h : Streams b) (hhandlings : Handlings b b') : Streams b' := by
  induction hhandlings with
  | refl => exact h
  | tail _ hhandling ih =>
    cases hhandling with
    | event hev => exact ih.event hev
    | abandons t n _ _ _ _ heq =>
      subst heq
      exact ih.keep rfl (fun _ hs => hs) (fun _ hstarted => ⟨hstarted, rfl⟩) rfl (fun _ hs => hs)
        fun _ _ hs => hs

-- ---------------------------------------------------------------------------
-- A step of a turn task
-- ---------------------------------------------------------------------------

theorem turns_setRunning_self (b : JotaBridge) (t : TurnRef) (r : Running) :
    (b.setRunning t r).turns t = r.task :=
  Function.update_self _ _ _

theorem turns_setRunning_ne (b : JotaBridge) {t t' : TurnRef} (h : t' ≠ t) (r : Running) :
    (b.setRunning t r).turns t' = b.turns t' :=
  Function.update_of_ne h _ _

/-- The owners other than turn `t` keep what they have. -/
theorem others {out : Output} {active : Option Nat} {task : TurnTask} (ho : b.Owns s)
    (hturn : ∀ a, (b.turns t).started = true → (b.turns t).tts = some (s, a) →
      out.closeInvoked s = true ∨ task.started = true ∧ task.tts = some (s, a)) :
    out.closeInvoked s = true ∨
      (b.setRunning t { out := out, activeTurnId := active, task := task }).Owns s := by
  cases ho with
  | turn t' a hstarted htts =>
    rcases eq_or_ne t' t with rfl | hne
    · refine (hturn a hstarted htts).imp_right fun hmoved => .turn t' a ?_ ?_
      · rw [turns_setRunning_self]
        exact hmoved.1
      · rw [turns_setRunning_self]
        exact hmoved.2
    · refine .inr (.turn t' a ?_ ?_)
      · rw [turns_setRunning_ne b hne]
        exact hstarted
      · rw [turns_setRunning_ne b hne]
        exact htts
  | push htts => exact .inr (.push htts)
  | worker hs => exact .inr (.worker hs)
  | op i hs => exact .inr (.op i hs)

theorem setRunning {endSent : Option Nat} (h : Streams b) (htasks : Tasks b)
    (hcalm : (b.turns t).skipsClose = false)
    (heff : Running.Effect cfg endSent (b.running t) r) : Streams (b.setRunning t r) := by
  have hclosed : ∀ s, b.out.closeInvoked s = true → r.out.closeInvoked s = true := heff.later.closed
  cases heff with
  | start hpc hopen heq =>
    rw [Running.start_of_open hopen] at heq
    subst heq
    refine h.hands rfl hclosed fun s ho => others ho fun a hstarted _ => ?_
    rw [TurnTask.started, hpc] at hstarted
    cases hstarted
  | unsent hpc heq =>
    obtain ⟨n, -, heq⟩ := heq
    refine h.hands ?_ hclosed fun s ho => others ho fun a hstarted _ => ?_
    · rw [show (b.setRunning t r).out = r.out from rfl, heq]
    · rw [TurnTask.started, hpc] at hstarted
      cases hstarted
  | connected hpc _ heq =>
    have htts₀ : (b.turns t).tts = none := (htasks.turn t).unconnected (.inr hpc)
    subst heq
    intro s hs
    have hs : s < b.out.streamCount + 1 := hs
    rcases Nat.lt_or_eq_of_le (Nat.le_of_lt_succ hs) with hlt | rfl
    · rcases h s hlt with hc | ho
      · exact .inl hc
      · refine others ho fun a _ htts => ?_
        rw [htts₀] at htts
        cases htts
    · refine .inr (.turn t b.out.audioCount ?_ ?_)
      · rw [turns_setRunning_self]
        rfl
      · rw [turns_setRunning_self]
        rfl
  | move _ hp hstarted =>
    refine h.hands hp.out.streamCount hclosed fun s ho => others ho fun a _ htts => ?_
    exact .inr ⟨hstarted, hp.tts.trans htts⟩
  | ended _ r₁ hp hout _ _ _ htts _ hclosedEnd =>
    have hcount : r.out.streamCount = b.out.streamCount := by
      rw [hout]
      split
      · exact hp.out.streamCount
      · exact hp.out.streamCount
    refine h.hands hcount hclosed fun s ho => others ho fun a _ htts₀ => .inl ?_
    refine (hclosedEnd s a (htts.trans htts₀)).resolve_right ?_
    rw [hcalm]
    exact Bool.false_ne_true

-- ---------------------------------------------------------------------------
-- A step of the push worker
-- ---------------------------------------------------------------------------

/-- The turns and the operations keep what they have. -/
theorem of_pushing (h : Streams b) (hcount : p.out.streamCount = b.out.streamCount)
    (hclosed : ∀ s, b.out.closeInvoked s = true → p.out.closeInvoked s = true)
    (htts : ∀ s, b.push.tts = some s → p.out.closeInvoked s = true ∨ (b.setPushing p).Owns s)
    (hdropping : ∀ s, b.push.worker.dropping = some s → p.out.closeInvoked s = true) :
    Streams (b.setPushing p) := by
  refine h.hands hcount hclosed fun s ho => ?_
  cases ho with
  | turn t a hstarted hs => exact .inr (.turn t a hstarted hs)
  | push hs => exact htts s hs
  | worker hs => exact .inl (hdropping s hs)
  | op i hs => exact .inr (.op i hs)

/-- A new stream, and the worker was waiting for it. -/
theorem opens (h : Streams b) {n : Nat} (hconnecting : b.push.worker.connecting = some n)
    (hcount : p.out.streamCount = b.out.streamCount + 1)
    (hclosed : ∀ s, b.out.closeInvoked s = true → p.out.closeInvoked s = true)
    (hnew : p.out.closeInvoked b.out.streamCount = true ∨ p.push.tts = some b.out.streamCount)
    (htts : ∀ s, b.push.tts = some s → p.out.closeInvoked s = true ∨ p.push.tts = some s) :
    Streams (b.setPushing p) := by
  intro s hs
  have hs : s < b.out.streamCount + 1 := hcount ▸ hs
  rcases Nat.lt_or_eq_of_le (Nat.le_of_lt_succ hs) with hlt | rfl
  · rcases h s hlt with hc | ho
    · exact .inl (hclosed s hc)
    · cases ho with
      | turn t a hstarted hs => exact .inr (.turn t a hstarted hs)
      | push hs => exact (htts s hs).imp_right .push
      | worker hs =>
        unfold Worker.connecting at hconnecting
        split at hconnecting
        · rename_i hpc
          rw [Worker.dropping, hpc] at hs
          cases hs
        · cases hconnecting
      | op i hs => exact .inr (.op i hs)
  · exact hnew.imp_right .push

theorem setPushing (h : Streams b) (hcalm : b.push.worker.skipsClose = false)
    (hover : ∀ n, b.push.worker.connecting = some n → b.out.streamCount < p.out.streamCount →
      ∀ s, b.push.tts = some s → b.out.closeInvoked s = true)
    (heff : Pushing.Effect env b.pushing p) : Streams (b.setPushing p) := by
  have hclosed : ∀ s, b.out.closeInvoked s = true → p.out.closeInvoked s = true := heff.later.closed
  cases heff with
  | opened n _ _ _ _ hout _ _ htts _ _ hdropping₀ =>
    refine h.of_pushing ?_ hclosed (fun s hs => .inr (.push (htts.trans hs))) fun s hs => ?_
    · rw [hout]
      rfl
    · rw [show b.push.worker.dropping = none from hdropping₀] at hs
      cases hs
  | said m _ _ hout _ _ htts _ _ hdropping₀ =>
    refine h.of_pushing ?_ hclosed (fun s hs => .inr (.push (htts.trans hs))) fun s hs => ?_
    · rw [hout]
      rfl
    · rw [show b.push.worker.dropping = none from hdropping₀] at hs
      cases hs
  | connected n hconnecting₀ _ _ hout _ _ htts =>
    have hcount : p.out.streamCount = b.out.streamCount + 1 := by
      rw [hout]
      rfl
    refine h.opens hconnecting₀ hcount hclosed (.inr htts) fun s hs => .inl (hclosed s ?_)
    exact hover n hconnecting₀ (hcount ▸ Nat.lt_succ_self _) s hs
  | refused n hconnecting₀ _ hout _ _ htts =>
    have hcount : p.out.streamCount = b.out.streamCount + 1 := by
      rw [hout]
      rfl
    refine h.opens hconnecting₀ hcount hclosed (.inl ?_) fun s hs => .inr (htts.trans hs)
    rw [hout]
    exact Output.closeStream_self _ _
  | moves hm =>
    refine h.of_pushing hm.out.streamCount hclosed (fun s hs => ?_) fun s hs => ?_
    · rcases hm.tts with hsame | ⟨-, hgone⟩
      · exact .inr (.push (hsame.trans hs))
      · exact (hgone s hs).imp_right .worker
    · refine (hm.dropped s hs).resolve_right ?_
      rw [show b.push.worker.skipsClose = false from hcalm]
      exact Bool.false_ne_true

end Streams

end JotaBridge

-- ---------------------------------------------------------------------------
-- Every run
-- ---------------------------------------------------------------------------

namespace Session

variable {cfg : Config} {s s' : Session}

/-- Nothing that is cancelled stands between an audio task and its stream, and the worker connects
no TTS over a stream that is not closed. -/
def calm (s : Session) : Act → Bool
  | .turn t _ => !(s.bridge.turns t).skipsClose
  | .worker (.connected true) =>
    s.bridge.push.tts.all (s.bridge.out.closeInvoked ·)
  | .worker _ => !s.bridge.push.worker.skipsClose
  | .op i _ => !(s.bridge.ops i).skipsClose
  | _ => true

theorem streams_of_change {a : Act} {b : JotaBridge} (hinv : JotaBridge.Inv s.bridge)
    (hstreams : s.bridge.Streams) (hcalm : s.calm a = true)
    (hchange : JotaBridge.Change cfg s.bridge b a) : b.Streams := by
  cases hchange with
  | turn t a hstep =>
    obtain ⟨r, heff, rfl⟩ := JotaBridge.turnStep_effect hinv.tasks hstep
    refine hstreams.setRunning hinv.tasks ?_ heff
    simpa only [calm, Bool.not_eq_true'] using hcalm
  | worker a hstep =>
    simp only [JotaBridge.workerStep, Option.map_eq_some_iff] at hstep
    obtain ⟨p, hp, rfl⟩ := hstep
    have heff := Pushing.step_effect hinv.tasks.push hp
    refine hstreams.setPushing ?_ (fun n hconnecting hopens st htts => ?_) heff
    · cases a with
      | connected stream =>
        cases hskips : s.bridge.push.worker.skipsClose with
        | false => rfl
        | true =>
          -- a cancelled worker does not resume with a stream
          simp only [Worker.skipsClose, Bool.and_eq_true] at hskips
          simp only [Pushing.step, hskips.1, if_true, reduceCtorEq] at hp
      | _ => simpa only [calm, Bool.not_eq_true'] using hcalm
    · obtain rfl := connected_of_opens hconnecting hp hopens
      simpa only [calm, htts, Option.all_some] using hcalm
  | loses i a hskips =>
    simp only [calm, hskips, Bool.not_true, Bool.false_eq_true] at hcalm
  | handles h => exact hstreams.handlings h

theorem streams_of_reachable
    (h : ReachableBy (step cfg) (fun s a => s.calm a = true) {} s) : s.Ok ∧ s.bridge.Streams := by
  induction h with
  | start => exact ⟨.init, .init⟩
  | next _ hcalm hstep ih =>
    have hadvances := step_advances ih.1 hstep
    exact ⟨hadvances.ok, streams_of_change ih.1.inv ih.2 hcalm hadvances.change⟩

/-- In every such run each stream that `tts.connect` returned is closed, or has one to close it; and
once `close_all` is through, the turn is done and neither the worker nor a cut is dropping a stream,
all are closed. -/
theorem streams_owned (cfg : Config) (s : Session)
    (h : ReachableBy (step cfg) (fun s a => s.calm a = true) {} s) :
    (∀ st < s.bridge.out.streamCount,
        s.bridge.out.closeInvoked st = true ∨ s.bridge.Owns st) ∧
      (s.close.closed = true → s.bridge.liveTurn = none → s.bridge.push.worker.dropping = none →
        s.bridge.turnLock = none →
          ∀ st < s.bridge.out.streamCount, s.bridge.out.closeInvoked st = true) := by
  obtain ⟨hok, hstreams⟩ := streams_of_reachable h
  refine ⟨hstreams, fun hclosed hlive hworker hfree st hst => ?_⟩
  refine (hstreams st hst).resolve_right fun howns => ?_
  cases howns with
  | turn t a hstarted htts =>
    have hlive' : (s.bridge.turns t).live = true := TurnTask.live_of_started hstarted
    rw [hok.inv.control.quiet_of_liveTurn hlive t] at hlive'
    cases hlive'
  | push htts =>
    rw [(hok.settled.pushEnded (hok.late hclosed)).2] at htts
    cases htts
  | worker hdropping =>
    rw [hworker] at hdropping
    cases hdropping
  | op i hdropping =>
    have hholds : (s.bridge.ops i).holds = true := by
      unfold Op.dropping at hdropping
      split at hdropping
      · rename_i hpc
        simp only [Op.holds, Op.cutting, hpc, Option.isSome_some, Bool.true_or]
      · cases hdropping
    have hlock : s.bridge.turnLock = some i := hok.inv.control.lock i hholds
    rw [hfree] at hlock
    cases hlock

/-- After a push that was cut, the turn that is heard when the route closes the session. -/
def heardAtClose : List Act :=
  heardAndCut ++ [.turn 1 (.connected true), .call 0 .route, .turn 1 .cancelled, .turn 1 .returns,
    .turn 1 .fails, .audioEnds 2, .turn 1 .waited, .turn 1 .returns, .closer 0 .waited,
    .closer 0 .waited, .closer 0 .waited, .closer 0 .waited]

theorem streams_owned_closed :
    ∃ s : Session, s.close.closed = true ∧ s.bridge.out.streamCount = 3 ∧
      ∀ st < s.bridge.out.streamCount, s.bridge.out.closeInvoked st = true := by
  have hrun : ReachableBy (step speaking) (fun s a => s.calm a = true) {}
      ((run (guarded (step speaking) calm) {} heardAtClose).get rfl) :=
    reachableBy_of_run (Option.some_get _).symm
  exact ⟨_, rfl, rfl, (streams_owned speaking _ hrun).2 rfl rfl rfl rfl⟩

end Session

end Bridge
