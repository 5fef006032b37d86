-- SUMMARY: Which turn each sounding audio task belongs to, and the frames on the wire within it.
import JotaGateway.Bridge.Targets

/-!
# Voices

Audio comes from tasks of its own, which no `turn_end` waits for by itself. An
audio task that can still send a frame belongs to a turn that has not ended,
as long as no TTS connects for a push that is being cut.
-/

namespace Bridge

open Brackets

/-- The turn a frame of audio names. -/
def Msg.audioOf : Msg → Option Nat
  | .audio n _ => some n
  | _ => none

theorem Msg.audioOf_of_replyOf {m : Msg} {n : Nat} (h : m.replyOf = some n) : m.audioOf = none := by
  cases m with
  | token | toolCall | turnError => rfl
  | _ => cases h

/-- `m` is not a frame of a turn that is not open after `past`. -/
def Msg.Placed (past : List Msg) (m : Msg) : Prop :=
  ∀ n, m.audioOf = some n → OpenAt Msg.mark past n

theorem Msg.placed_of_text {m : Msg} (h : m.audioOf = none) (past : List Msg) : m.Placed past := by
  intro n hn
  rw [h] at hn
  cases hn

/-- Only text has been enqueued. -/
def Texts (wire wire' : List Msg) : Prop :=
  ∃ more, wire' = wire ++ more ∧ ∀ m ∈ more, m.audioOf = none

namespace Texts

variable {wire wire' : List Msg} {out : Output}

theorem of_eq (h : wire' = wire) : Texts wire wire' :=
  ⟨[], by rw [h, List.append_nil], fun _ hm => by cases hm⟩

theorem send (out : Output) {m : Msg} (hm : m.audioOf = none) : Texts out.wire (out.send m).wire := by
  unfold Output.send
  dsimp only
  split
  · exact ⟨[m], rfl, fun m' hm' => List.mem_singleton.mp hm' ▸ hm⟩
  · exact .of_eq rfl

/-- After messages of its own, the one that ends it. -/
theorem then_send (h : Texts wire out.wire) {m : Msg} (hm : m.audioOf = none) :
    Texts wire (out.send m).wire := by
  obtain ⟨more, hwire, hmore⟩ := h
  obtain ⟨more', hwire', hmore'⟩ := Texts.send out hm
  refine ⟨more ++ more', ?_, ?_⟩
  · rw [hwire', hwire, List.append_assoc]
  · intro m' hm'
    rcases List.mem_append.mp hm' with hm' | hm'
    · exact hmore m' hm'
    · exact hmore' m' hm'

theorem each (h : Texts wire wire') (hwire : Each (fun past m => m.Placed past) wire) :
    Each (fun past m => m.Placed past) wire' := by
  obtain ⟨more, rfl, hmore⟩ := h
  exact hwire.append fun m hm past => Msg.placed_of_text (hmore m hm) past

end Texts

namespace JotaBridge

variable {cfg : Config} {b b' : JotaBridge} {t : TurnRef} {r : Running} {p : Pushing}
  {env : WorkerEnv}

-- ---------------------------------------------------------------------------
-- The invariant
-- ---------------------------------------------------------------------------

/-- No audio of a push can send a frame. -/
def hushed (b : JotaBridge) : Prop :=
  ∀ a, (b.out.audios a).sounding = true → (b.out.audios a).push = false

structure Voices (b : JotaBridge) : Prop where
  turn : ∀ a, (b.out.audios a).sounding = true → (b.out.audios a).push = false →
    ∃ t s, (b.turns t).started = true ∧ (b.turns t).id = (b.out.audios a).turn ∧
      (b.turns t).tts = some (s, a)
  push : ∀ a, (b.out.audios a).sounding = true → (b.out.audios a).push = true →
    b.push.audioTask = some a ∧ b.push.turnOpen = true ∧ b.push.turnId = (b.out.audios a).turn
  cutting : ∀ i n, (b.ops i).cutting = some n → b.hushed
  connecting : ∀ n, b.push.worker.connecting = some n → b.hushed
  placed : Each (fun past m => m.Placed past) b.out.wire

/-- No audio task is created, and no frame enqueued. -/
structure Fades (b b' : JotaBridge) : Prop where
  audios : ∀ a, (b'.out.audios a).sounding = true → b'.out.audios a = b.out.audios a
  texts : Texts b.out.wire b'.out.wire

namespace Fades

theorem hushed (h : Fades b b') (hb : b.hushed) : b'.hushed := by
  intro a ha
  have heq := h.audios a ha
  rw [heq] at ha ⊢
  exact hb a ha

theorem of_settles (hout : b.out.Settles b'.out) (htexts : Texts b.out.wire b'.out.wire) :
    Fades b b' :=
  ⟨hout.audios, htexts⟩

theorem refl (hout : b'.out.audios = b.out.audios) (hwire : b'.out.wire = b.out.wire) :
    Fades b b' :=
  ⟨fun _ _ => by rw [hout], .of_eq hwire⟩

end Fades

namespace Voices

theorem init : Voices {} := by
  refine ⟨fun _ ha => ?_, fun _ ha => ?_, fun _ _ hc => ?_, fun _ hc => ?_, .nil⟩
  · cases ha
  · cases ha
  · cases hc
  · cases hc

/-- No push is open. -/
theorem hushed_of_closed (h : Voices b) (hclosed : b.push.turnOpen = false) : b.hushed := by
  intro a ha
  refine Bool.eq_false_iff.mpr fun hpush => ?_
  rw [(h.push a ha hpush).2.1] at hclosed
  cases hclosed

theorem hushed_of_silent (h : Voices b) (hsilent : b.pushSilent) : b.hushed := by
  intro a ha
  refine Bool.eq_false_iff.mpr fun hpush => ?_
  have hquiet : (b.out.audios a).sounding = false := hsilent a (h.push a ha hpush).1
  rw [ha] at hquiet
  cases hquiet

/-- Whose audio still sounds stays as it is, or the push has none. -/
theorem fades (h : Voices b) (hf : Fades b b')
    (hturns : ∀ t s a, (b'.out.audios a).sounding = true → (b.turns t).started = true →
      (b.turns t).tts = some (s, a) → (b'.turns t).started = true ∧
        (b'.turns t).id = (b.turns t).id ∧ (b'.turns t).tts = (b.turns t).tts)
    (hpush : b'.hushed ∨ b'.push.audioTask = b.push.audioTask ∧
      b'.push.turnOpen = b.push.turnOpen ∧ b'.push.turnId = b.push.turnId)
    (hcutting : ∀ i n, (b'.ops i).cutting = some n → b'.hushed ∨ (b.ops i).cutting = some n)
    (hconnecting : ∀ n, b'.push.worker.connecting = some n →
      b'.hushed ∨ b.push.worker.connecting = some n) : Voices b' := by
  refine ⟨?_, ?_, ?_, ?_, hf.texts.each h.placed⟩
  · intro a ha hp
    have heq := hf.audios a ha
    rw [heq] at hp ⊢
    obtain ⟨t, s, hstarted, hid, htts⟩ := h.turn a (heq ▸ ha) hp
    obtain ⟨hstarted', hid', htts'⟩ := hturns t s a ha hstarted htts
    exact ⟨t, s, hstarted', hid'.trans hid, htts'.trans htts⟩
  · intro a ha hp
    rcases hpush with hhushed | ⟨haudio, hopen, hid⟩
    · rw [hhushed a ha] at hp
      cases hp
    · have heq := hf.audios a ha
      rw [heq] at hp ⊢
      rw [haudio, hopen, hid]
      exact h.push a (heq ▸ ha) hp
  · intro i n hi
    rcases hcutting i n hi with hhushed | hbefore
    · exact hhushed
    · exact hf.hushed (h.cutting i n hbefore)
  · intro n hn
    rcases hconnecting n hn with hhushed | hbefore
    · exact hhushed
    · exact hf.hushed (h.connecting n hbefore)

/-- An event that is about no audio, no turn and no push. -/
theorem same (h : Voices b) (hf : Fades b b') (hturns : b'.turns = b.turns)
    (hpush : b'.push.audioTask = b.push.audioTask ∧ b'.push.turnOpen = b.push.turnOpen ∧
      b'.push.turnId = b.push.turnId)
    (hcutting : ∀ i n, (b'.ops i).cutting = some n → (b.ops i).cutting = some n)
    (hconnecting : ∀ n, b'.push.worker.connecting = some n → b.push.worker.connecting = some n) :
    Voices b' := by
  refine h.fades hf ?_ (.inr hpush) (fun i n hi => .inr (hcutting i n hi))
    fun n hn => .inr (hconnecting n hn)
  intro t s a _ hstarted _
  rw [hturns]
  exact ⟨hstarted, rfl, rfl⟩

/-- What the invariant is about stays. -/
theorem keep (h : Voices b) (hout : b'.out.audios = b.out.audios ∧ b'.out.wire = b.out.wire)
    (hturns : b'.turns = b.turns) (hpush : b'.push = b.push) (hops : b'.ops = b.ops) :
    Voices b' := by
  refine h.same (.refl hout.1 hout.2) hturns ?_ (fun i n hi => ?_) fun n hn => ?_
  · rw [hpush]
    exact ⟨rfl, rfl, rfl⟩
  · rwa [hops] at hi
  · rwa [hpush] at hn

/-- An operation moves. -/
theorem setOp (h : Voices b) (i : OpRef) (op : Op)
    (hcutting : ∀ n, op.cutting = some n → b.hushed ∨ (b.ops i).cutting = some n) :
    Voices (b.setOp i op) := by
  refine h.fades (.refl rfl rfl) (fun t s a _ hstarted _ => ⟨hstarted, rfl, rfl⟩)
    (.inr ⟨rfl, rfl, rfl⟩) ?_ fun n hn => .inr hn
  intro j n hj
  rcases eq_or_ne j i with rfl | hne
  · rw [setOp_self] at hj
    exact hcutting n hj
  · rw [setOp_ne b hne] at hj
    exact .inr hj

/-- To an await that is no part of a cut. -/
theorem setOp_free (h : Voices b) (i : OpRef) {op : Op} (hcutting : op.cutting = none) :
    Voices (b.setOp i op) := by
  refine h.setOp i op fun n hn => ?_
  rw [hcutting] at hn
  cases hn

theorem cancelTask (h : Voices b) (t : TurnRef) : Voices (b.cancelTask t) := by
  unfold JotaBridge.cancelTask
  split
  · refine h.fades (.refl rfl rfl) ?_ (.inr ⟨rfl, rfl, rfl⟩) (fun i n hi => .inr hi)
      fun n hn => .inr hn
    intro t' s a _ hstarted _
    dsimp only
    rcases eq_or_ne t' t with rfl | hne
    · rw [Function.update_self]
      exact ⟨hstarted, rfl, rfl⟩
    · rw [Function.update_of_ne hne]
      exact ⟨hstarted, rfl, rfl⟩
  · exact h

/-- The turn a sounding audio task belongs to has not ended. -/
theorem current (h : Voices b) {a : AudioRef} (ha : (b.out.audios a).sounding = true)
    (hended : (b.out.audios a).push = true ∨ b.turnEndSentAtClose ≠ some (b.out.audios a).turn) :
    b.wireView.current (b.out.audios a).turn := by
  cases hpush : (b.out.audios a).push with
  | true => exact .inr (h.push a ha hpush).2
  | false =>
    obtain ⟨t, s, hstarted, hid, -⟩ := h.turn a ha hpush
    refine .inl ⟨t, hstarted, hid, hended.resolve_left ?_⟩
    rw [hpush]
    exact Bool.false_ne_true

theorem frame (h : Voices b) (hw : Wire b) {a : AudioRef} {header : Nat}
    (ha : (b.out.audios a).sounding = true)
    (hended : (b.out.audios a).push = true ∨ b.turnEndSentAtClose ≠ some (b.out.audios a).turn) :
    Voices (b.send (.audio (b.out.audios a).turn header)) := by
  refine ⟨h.turn, h.push, h.cutting, h.connecting, ?_⟩
  unfold JotaBridge.send Output.send
  dsimp only
  split
  · rename_i hopen
    refine h.placed.snoc fun n hn => ?_
    obtain rfl : (b.out.audios a).turn = n := Option.some.inj hn
    exact (hw.lines.openAt hopen _).mpr (h.current ha hended)
  · exact h.placed

theorem closePush (h : Voices b) (hopen : b.push.turnOpen = true) (hhushed : b.hushed)
    (by_ : PushCloser) : Voices (b.setPushing (b.pushing.closePushTurn b.push.turnId by_)) := by
  rw [Pushing.closePushTurn_of_open (p := b.pushing) hopen]
  exact h.fades ⟨fun _ _ => rfl, .send b.out rfl⟩ (fun t s a _ hstarted _ => ⟨hstarted, rfl, rfl⟩)
    (.inl hhushed) (fun i n hi => .inr hi) fun n hn => .inr hn

theorem createTurn (h : Voices b) (hquiet : b.quiet) : Voices b.createTurn := by
  refine h.fades (.refl rfl rfl) ?_ (.inr ⟨rfl, rfl, rfl⟩) (fun i n hi => .inr hi)
    fun n hn => .inr hn
  intro t s a _ hstarted _
  have hlive : (b.turns t).live = true := TurnTask.live_of_started hstarted
  rw [hquiet t] at hlive
  cases hlive

-- ---------------------------------------------------------------------------
-- An event
-- ---------------------------------------------------------------------------

theorem event (h : Voices b) (hw : Wire b) (hev : Event b b') : Voices b' := by
  cases hev with
  | frame a ha hended => exact h.frame hw ha hended
  | audioEnds a =>
    refine h.same ⟨fun a' ha' => ?_, .of_eq rfl⟩ rfl ⟨rfl, rfl, rfl⟩ (fun _ _ hi => hi) fun _ hn => hn
    rcases eq_or_ne a' a with rfl | hne
    · simp only [endAudio, Function.update_self, AudioTask.sounding, Bool.false_and] at ha'
      cases ha'
    · exact Function.update_of_ne hne _ _
  | cancelAudio a =>
    exact h.same (.of_settles (.cancelAudio _ a) (.of_eq rfl)) rfl ⟨rfl, rfl, rfl⟩
      (fun _ _ hi => hi) fun _ hn => hn
  | enqueue q =>
    unfold enqueuePush
    split
    · exact h
    · refine h.same (.refl rfl rfl) rfl ⟨rfl, rfl, rfl⟩ (fun _ _ hi => hi) fun n hn => ?_
      rcases b.push.worker.respawn_cases with heq | ⟨-, heq⟩
      · rwa [heq] at hn
      · rw [heq] at hn
        cases hn
  | cancelTask t => exact h.cancelTask t
  | cancelWorker =>
    refine h.same (.refl rfl rfl) rfl ⟨rfl, rfl, rfl⟩ (fun _ _ hi => hi) fun n hn => ?_
    rwa [Worker.connecting, Session.cancelWorker_pc] at hn
  | cancelOps ops hops =>
    refine h.same (.refl rfl rfl) rfl ⟨rfl, rfl, rfl⟩ (fun i n hi => ?_) fun _ hn => hn
    have hi : (ops i).cutting = some n := hi
    rcases hops i with heq | heq
    · rwa [heq] at hi
    · rwa [heq, Op.cutting, Session.cancelOp_pc] at hi
  | runs i op hop =>
    refine h.setOp_free i ?_
    rw [Op.cutting, hop]
  | notes i => exact h.setOp i _ fun n hn => .inr hn
  | forgets i t =>
    unfold forget
    split
    · exact h.keep ⟨rfl, rfl⟩ rfl rfl rfl
    · exact h
  | waitsLock i pc _ hpc =>
    refine h.setOp_free i ?_
    rcases hpc with rfl | ⟨rfl, -⟩ <;> rfl
  | choosesTurn i t => exact h.setOp_free i rfl
  | cancels i t wait _ _ _ hwait =>
    have hdid : Voices (b.did (.cancelled (b.ops i).turnMark t)) := h.keep ⟨rfl, rfl⟩ rfl rfl rfl
    refine (hdid.cancelTask t).setOp_free i ?_
    rcases hwait with rfl | ⟨-, id, rfl, -⟩ <;> rfl
  | drops i s p waits _ _ hdrop =>
    have hpush := hdrop.push
    have hf : Fades b (b.setPushing p) := .of_settles hdrop.out (.of_eq hdrop.wire)
    -- what sounded of the push was its audio task, and is silent now
    have hhushed : (b.setPushing p).hushed := by
      intro a ha
      have heq := hf.audios a ha
      refine Bool.eq_false_iff.mpr fun hp => ?_
      have htask := (h.push a (heq ▸ ha) (heq ▸ hp)).1
      have hsilent : (p.out.audios a).sounding = false := hdrop.silent a htask
      rw [show (p.out.audios a).sounding = true from ha] at hsilent
      cases hsilent
    have hdropped : Voices (b.setPushing p) := by
      refine h.fades hf (fun t s a _ hstarted _ => ⟨hstarted, rfl, rfl⟩) (.inl hhushed)
        (fun i n hi => .inr hi) fun n hn => .inl hhushed
    exact hdropped.setOp i _ fun n _ => .inl hhushed
  | closesCut i n s hpc =>
    have hclosed : Voices { b with out := b.out.closeStream s } :=
      h.same (.of_settles (.closeStream _ s) (.of_eq rfl)) rfl ⟨rfl, rfl, rfl⟩ (fun _ _ hi => hi)
        fun _ hn => hn
    refine hclosed.setOp i _ fun n' hn' => .inr ?_
    rw [Op.cutting, hpc]
    exact hn'
  | aborts i hcuts =>
    have hhushed : b.hushed := by
      rcases hcuts with hpc | ⟨-, hsilent⟩
      · refine h.cutting i b.push.turnId ?_
        rw [Op.cutting, hpc]
      · exact h.hushed_of_silent hsilent
    have hdid : Voices (b.did (.aborted (b.ops i).pushMark b.push.turnId b.liveTurn.isSome)) :=
      h.keep ⟨rfl, rfl⟩ rfl rfl rfl
    exact hdid.setOp i _ fun n _ => .inl hhushed
  | closesPush by_ _ hopen hsilent =>
    refine h.closePush hopen ?_ by_
    rcases hsilent with hsilent | ⟨i, hi⟩
    · exact h.hushed_of_silent hsilent
    · exact h.cutting i _ hi
  | creates i _ hquiet => exact h.createTurn hquiet
  | speaks m hm =>
    have htext : m.audioOf = none := by
      rcases hm with ⟨text, rfl⟩ | ⟨text, rfl⟩ | ⟨id, rfl, -⟩ <;> rfl
    exact h.same ⟨fun _ _ => rfl, .send b.out htext⟩ rfl ⟨rfl, rfl, rfl⟩ (fun _ _ hi => hi)
      fun _ hn => hn
  | leaves i =>
    have hfree : Voices { b with turnLock := if b.turnLock = some i then none else b.turnLock } :=
      h.keep ⟨rfl, rfl⟩ rfl rfl rfl
    exact hfree.setOp_free i rfl
  | dropsBacklog | clearsTts =>
    exact h.same (.refl rfl rfl) rfl ⟨rfl, rfl, rfl⟩ (fun _ _ hi => hi) fun _ hn => hn
  | closesTts s =>
    exact h.same (.of_settles (.closeStream _ s) (.of_eq rfl)) rfl ⟨rfl, rfl, rfl⟩
      (fun _ _ hi => hi) fun _ hn => hn
  | _ => exact h.keep ⟨rfl, rfl⟩ rfl rfl rfl

theorem handling (h : Voices b) (hw : Wire b) (hhandling : Handling b b') : Voices b' := by
  cases hhandling with
  | event hev => exact h.event hw hev
  | abandons t n _ _ _ _ heq =>
    subst heq
    exact h.same ⟨fun _ _ => rfl, .send b.out rfl⟩ rfl ⟨rfl, rfl, rfl⟩ (fun _ _ hi => hi)
      fun _ hn => hn

theorem handlings (h : Voices b) (hinv : Inv b) (hhandlings : Handlings b b') : Voices b' := by
  have hboth : Voices b' ∧ Inv b' := by
    induction hhandlings with
    | refl => exact ⟨h, hinv⟩
    | tail _ hhandling ih => exact ⟨ih.1.handling ih.2.wire hhandling, ih.2.handling hhandling⟩
  exact hboth.1

-- ---------------------------------------------------------------------------
-- A step of a turn task
-- ---------------------------------------------------------------------------

/-- Turn `t` moves without a new audio task. -/
theorem of_running (h : Voices b) (hf : Fades b (b.setRunning t r))
    (hmoved : ∀ s a, (r.out.audios a).sounding = true → (b.turns t).started = true →
      (b.turns t).tts = some (s, a) →
      r.task.started = true ∧ r.task.id = (b.turns t).id ∧ r.task.tts = (b.turns t).tts) :
    Voices (b.setRunning t r) := by
  refine h.fades hf ?_ (.inr ⟨rfl, rfl, rfl⟩) (fun i n hi => .inr hi) fun n hn => .inr hn
  intro t' s a ha hstarted htts
  unfold JotaBridge.setRunning
  dsimp only
  rcases eq_or_ne t' t with rfl | hne
  · rw [Function.update_self]
    exact hmoved s a ha hstarted htts
  · rw [Function.update_of_ne hne]
    exact ⟨hstarted, rfl, rfl⟩

theorem of_replies {r₀ : Running} (hp : Running.Progress r₀ r) : Texts r₀.out.wire r.out.wire := by
  obtain ⟨replies, hwire, hreplies, -, -⟩ := hp.wire
  exact ⟨replies, hwire, fun m hm => Msg.audioOf_of_replyOf (hreplies m hm)⟩

theorem setRunning {endSent : Option Nat} (h : Voices b) (htasks : Tasks b)
    (heff : Running.Effect cfg endSent (b.running t) r) : Voices (b.setRunning t r) := by
  cases heff with
  | start hpc hopen heq =>
    have hidle : (b.turns t).started ≠ true := by
      rw [TurnTask.started, hpc]
      exact Bool.false_ne_true
    rw [Running.start_of_open hopen] at heq
    subst heq
    exact h.of_running ⟨fun _ _ => rfl, .send _ rfl⟩ fun _ _ _ hstarted _ => absurd hstarted hidle
  | unsent hpc heq =>
    have hidle : (b.turns t).started ≠ true := by
      rw [TurnTask.started, hpc]
      exact Bool.false_ne_true
    obtain ⟨n, -, heq⟩ := heq
    refine h.of_running (.refl ?_ ?_) fun _ _ _ hstarted _ => absurd hstarted hidle
    · simp only [JotaBridge.setRunning, heq]
    · simp only [JotaBridge.setRunning, heq]
  | connected hpc _ heq =>
    have htts₀ : (b.turns t).tts = none := (htasks.turn t).unconnected (.inr hpc)
    subst heq
    -- the new audio task is the turn's; the others are those there were
    have hnew : ∀ a, a ≠ b.out.audioCount →
        ((b.setRunning t (b.running t).connected).out.audios a) = b.out.audios a :=
      fun a hne => Function.update_of_ne hne _ _
    have hhushed : b.hushed → (b.setRunning t (b.running t).connected).hushed := by
      intro hb a ha
      rcases eq_or_ne a b.out.audioCount with rfl | hne
      · simp only [JotaBridge.setRunning, Running.connected, Output.spawnAudio, Output.openStream,
          Function.update_self]
      · rw [hnew a hne] at ha ⊢
        exact hb a ha
    refine ⟨?_, ?_, fun i n hi => hhushed (h.cutting i n hi),
      fun n hn => hhushed (h.connecting n hn), h.placed⟩
    · intro a ha hpush
      rcases eq_or_ne a b.out.audioCount with rfl | hne
      · refine ⟨t, b.out.streamCount, ?_, ?_, ?_⟩ <;>
          simp only [JotaBridge.setRunning, Running.connected, Output.spawnAudio, Output.openStream,
            Function.update_self, TurnTask.started]
      · rw [hnew a hne] at ha hpush ⊢
        obtain ⟨t', s, hstarted, hid, htts⟩ := h.turn a ha hpush
        have hother : t' ≠ t := by
          rintro rfl
          rw [htts₀] at htts
          cases htts
        refine ⟨t', s, ?_⟩
        simp only [JotaBridge.setRunning, Function.update_of_ne hother]
        exact ⟨hstarted, hid, htts⟩
    · intro a ha hpush
      rcases eq_or_ne a b.out.audioCount with rfl | hne
      · simp only [JotaBridge.setRunning, Running.connected, Output.spawnAudio, Output.openStream,
          Function.update_self] at hpush
        cases hpush
      · rw [hnew a hne] at ha hpush ⊢
        exact h.push a ha hpush
  | move _ hp hstarted =>
    exact h.of_running (.of_settles hp.out (of_replies hp)) fun _ _ _ _ _ => ⟨hstarted, hp.id, hp.tts⟩
  | ended _ r₁ hp hout _ _ _ htts hsilent =>
    have hf : Fades b (b.setRunning t r) := by
      refine .of_settles (hp.out.trans ?_) ?_
      · rw [show (b.setRunning t r).out = r.out from rfl, hout]
        split
        · exact .refl _
        · exact .send _ _
      · rw [show (b.setRunning t r).out = r.out from rfl, hout]
        split
        · exact of_replies hp
        · exact (of_replies hp).then_send rfl
    refine h.of_running hf fun s a ha _ htts₀ => ?_
    rw [hsilent s a (htts.trans htts₀)] at ha
    cases ha

-- ---------------------------------------------------------------------------
-- A step of the push worker
-- ---------------------------------------------------------------------------

/-- The worker moves without a new audio task. -/
theorem of_pushing (h : Voices b) (hf : Fades b (b.setPushing p))
    (hpush : (b.setPushing p).hushed ∨ p.push.audioTask = b.push.audioTask ∧
      p.push.turnOpen = b.push.turnOpen ∧ p.push.turnId = b.push.turnId)
    (hconnecting : ∀ n, p.push.worker.connecting = some n → (b.setPushing p).hushed) :
    Voices (b.setPushing p) :=
  h.fades hf (fun _ _ _ _ hstarted _ => ⟨hstarted, rfl, rfl⟩) hpush (fun _ _ hi => .inr hi)
    fun n hn => .inl (hconnecting n hn)

theorem moves (h : Voices b) (hm : Pushing.Moves b.pushing p) : Voices (b.setPushing p) := by
  have htexts : Texts b.out.wire p.out.wire := by
    rcases hm.turn with ⟨-, hwire⟩ | hended
    · exact .of_eq hwire
    · rw [hended.wire]
      exact .send _ rfl
  have hf : Fades b (b.setPushing p) := .of_settles hm.out htexts
  -- without an audio task the push has no voice
  have hhushed : p.push.audioTask = none → (b.setPushing p).hushed := by
    intro hnone a ha
    have heq := hf.audios a ha
    refine Bool.eq_false_iff.mpr fun hp => ?_
    have htask := (h.push a (heq ▸ ha) (heq ▸ hp)).1
    rcases hm.audioTask with hsame | ⟨-, hsilent⟩
    · rw [hnone] at hsame
      rw [show b.push.audioTask = none from hsame.symm] at htask
      cases htask
    · have hquiet : (p.out.audios a).sounding = false := hsilent a htask
      rw [show (p.out.audios a).sounding = true from ha] at hquiet
      cases hquiet
  refine h.of_pushing hf ?_ fun n hn => ?_
  · rcases hm.turn with ⟨hopen, -⟩ | hended
    · rcases hm.audioTask with hsame | ⟨hnone, -⟩
      · exact .inr ⟨hsame, hopen, hm.turnId⟩
      · exact .inl (hhushed hnone)
    · exact .inl (hhushed hended.audioTask)
  · rw [hm.connecting] at hn
    cases hn

/-- A TTS connects for the push, which is not being cut. -/
theorem connected (h : Voices b) (hc : Control b) {n : Nat}
    (hconnecting₀ : b.push.worker.connecting = some n)
    (huncut : ∀ i, (b.ops i).cutting ≠ some n)
    (hout : p.out = b.out.openStream.spawnAudio n true) (hid : p.push.turnId = n)
    (hopen : p.push.turnOpen = true) (haudio : p.push.audioTask = some b.out.audioCount)
    (hconnecting : p.push.worker.connecting = none) : Voices (b.setPushing p) := by
  have hid₀ : b.push.turnId = n := hc.connecting n hconnecting₀
  have hhushed : b.hushed := h.connecting n hconnecting₀
  have hold : ∀ a, a ≠ b.out.audioCount → p.out.audios a = b.out.audios a := by
    intro a hne
    rw [hout]
    exact Function.update_of_ne hne _ _
  have hnew : p.out.audios b.out.audioCount = { running := true, turn := n, push := true } := by
    rw [hout]
    exact Function.update_self _ _ _
  refine ⟨?_, ?_, fun i n' hi => ?_, fun n' hn' => ?_, ?_⟩
  · intro a ha hpush
    have ha : (p.out.audios a).sounding = true := ha
    have hpush : (p.out.audios a).push = false := hpush
    rcases eq_or_ne a b.out.audioCount with rfl | hne
    · rw [hnew] at hpush
      cases hpush
    · rw [hold a hne] at ha hpush
      rw [show (b.setPushing p).out.audios a = b.out.audios a from hold a hne]
      exact h.turn a ha hpush
  · intro a ha hpush
    have ha : (p.out.audios a).sounding = true := ha
    have hpush : (p.out.audios a).push = true := hpush
    rcases eq_or_ne a b.out.audioCount with rfl | hne
    · rw [show (b.setPushing p).out.audios b.out.audioCount = _ from hnew]
      exact ⟨haudio, hopen, hid⟩
    · rw [hold a hne] at ha hpush
      rw [hhushed a ha] at hpush
      cases hpush
  · have hturn : b.push.turnId = n' := (hc.cutting i n' hi).1
    exact absurd (hi.trans (congrArg some (hturn.symm.trans hid₀))) (huncut i)
  · rw [show (b.setPushing p).push.worker.connecting = none from hconnecting] at hn'
    cases hn'
  · have hwire : p.out.wire = b.out.wire := by
      rw [hout]
      rfl
    rw [show (b.setPushing p).out.wire = b.out.wire from hwire]
    exact h.placed

theorem setPushing (h : Voices b) (hc : Control b)
    (huncut : ∀ n, b.push.worker.connecting = some n → b.out.streamCount < p.out.streamCount →
      ∀ i, (b.ops i).cutting ≠ some n)
    (heff : Pushing.Effect env b.pushing p) : Voices (b.setPushing p) := by
  cases heff with
  | opened n _ hclosed _ _ hout =>
    have hf : Fades b (b.setPushing p) := by
      refine ⟨fun _ _ => ?_, ?_⟩
      · rw [show (b.setPushing p).out = p.out from rfl, hout]
        rfl
      · rw [show (b.setPushing p).out = p.out from rfl, hout]
        exact .send _ rfl
    have hhushed := hf.hushed (h.hushed_of_closed hclosed)
    exact h.of_pushing hf (.inl hhushed) fun _ _ => hhushed
  | said m hopen₀ hm hout hid hopen _ haudio hconnecting =>
    have hf : Fades b (b.setPushing p) := by
      refine ⟨fun _ _ => ?_, ?_⟩
      · rw [show (b.setPushing p).out = p.out from rfl, hout]
        rfl
      · rw [show (b.setPushing p).out = p.out from rfl, hout]
        exact .send _ (Msg.audioOf_of_replyOf hm)
    refine h.of_pushing hf (.inr ⟨haudio, hopen.trans hopen₀.symm, hid⟩) fun n hn => ?_
    rw [hconnecting] at hn
    cases hn
  | connected n hconnecting₀ _ _ hout hid hopen _ haudio hconnecting =>
    refine h.connected hc hconnecting₀ (huncut n hconnecting₀ ?_) hout hid hopen haudio hconnecting
    rw [hout]
    exact Nat.lt_succ_self _
  | refused n _ _ hout hid hopen _ haudio hconnecting =>
    have hf : Fades b (b.setPushing p) := by
      refine .refl ?_ ?_
      · rw [show (b.setPushing p).out = p.out from rfl, hout]
        rfl
      · rw [show (b.setPushing p).out = p.out from rfl, hout]
        rfl
    refine h.of_pushing hf (.inr ⟨haudio, hopen, hid⟩) fun n hn => ?_
    rw [hconnecting] at hn
    cases hn
  | moves hm => exact h.moves hm

end Voices

end JotaBridge

end Bridge
