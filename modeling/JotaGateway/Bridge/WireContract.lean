-- SUMMARY: What a client can rely on in the order of the messages it gets, and when that goes for its audio too.
import JotaGateway.Bridge.Closers
import JotaGateway.Bridge.Voices

/-!
# The contract of the wire

Text and audio of a turn come between its `turn_start` and its `turn_end`,
whichever of the five senders ends it. For the audio of a push this needs
that no TTS connects for it while it is being cut.
-/

namespace Bridge

open Brackets Transition

/-- After `past`, turn `n` has its `turn_start`, with its uint16, and not its `turn_end`. -/
def OpenIn (past : List Msg) (n : Nat) : Prop :=
  .turnStart n (turnSeq16 n) ∈ past ∧ .turnEnd n ∉ past

namespace Msg

/-- `m` may come after `past`. -/
def InOrder (past : List Msg) : Msg → Prop
  | .turnStart n seq =>
    seq = turnSeq16 n ∧ ∀ n' seq', .turnStart n' seq' ∈ past → n' < n ∧ .turnEnd n' ∈ past
  | .turnEnd n | .token n _ | .toolCall n _ | .turnError n _ => OpenIn past n
  | .interrupted (some n) => .turnEnd n ∈ past
  | _ => True

theorem opened_of_turnStart {past : List Msg} {n seq : Nat} (h : .turnStart n seq ∈ past) :
    Opened Msg.mark past n := ⟨_, h, rfl⟩

theorem mark_eq_opens {m : Msg} {n : Nat} : m.mark = .opens n ↔ ∃ seq, m = .turnStart n seq := by
  cases m with
  | interrupted id => cases id <;> simp [mark]
  | _ => simp [mark]

end Msg

theorem openIn_of_openAt {past : List Msg} {n : Nat} (hstamped : ∀ m ∈ past, m.stamped)
    (h : OpenAt Msg.mark past n) : OpenIn past n := by
  obtain ⟨⟨m, hm, hmark⟩, hclosed⟩ := h
  obtain ⟨seq, rfl⟩ := Msg.mark_eq_opens.mp hmark
  obtain rfl : seq = turnSeq16 n := hstamped _ hm
  exact ⟨hm, fun hend => hclosed (closed_iff.mpr hend)⟩

namespace Lines

variable {wire : List Msg} {senderOpen : Bool} {seq : Nat} {current : Nat → Prop}

theorem inOrder (h : Lines wire senderOpen seq current) : Each Msg.InOrder wire := by
  rintro past m future rfl
  have hadmits := h.bracketed.admits rfl
  have hstamped : ∀ m' ∈ past, m'.stamped :=
    fun m' hm' => h.stamped m' (List.mem_append_left _ hm')
  cases m with
  | turnStart n seq' =>
    refine ⟨h.stamped _ (List.mem_append_right _ List.mem_cons_self), fun n' seq'' hn' => ?_⟩
    have hopened := Msg.opened_of_turnStart hn'
    refine ⟨hadmits.1 n' hopened, ?_⟩
    by_contra hend
    exact hadmits.2 n' ⟨hopened, fun hclosed => hend (closed_iff.mp hclosed)⟩
  | turnEnd n | token n _ | toolCall n _ | turnError n _ => exact openIn_of_openAt hstamped hadmits
  | interrupted id =>
    cases id with
    | none => trivial
    | some n => exact closed_iff.mp hadmits
  | audio | transcription | transcriptionPartial => trivial

/-- While the sender is open, a turn that is no longer current has ended. -/
theorem ended (h : Lines wire true seq current) {n seq' : Nat} (hn : .turnStart n seq' ∈ wire)
    (hcurrent : ¬ current n) : .turnEnd n ∈ wire := by
  by_contra hend
  have hopen : OpenAt Msg.mark wire n :=
    ⟨Msg.opened_of_turnStart hn, fun hclosed => hend (closed_iff.mp hclosed)⟩
  exact hcurrent ((h.openAt rfl n).mp hopen)

end Lines

namespace Session

variable {cfg : Config} {s s' : Session}

/-- Once `close_all` is through, it has ended the push. -/
theorem Ok.late (h : s.Ok) (hclosed : s.close.closed = true) : 7 ≤ s.close.trace.length := by
  cases h.recorded with
  | before _ heq =>
    rw [heq] at hclosed
    cases hclosed
  | during k _ _ hopen _ =>
    rw [hopen] at hclosed
    cases hclosed
  | after st raised _ _ htrace _ =>
    rw [htrace, List.length_append]
    exact Nat.le_trans (by decide : 7 ≤ CloseStep.order.length) (Nat.le_add_right _ _)

/-- No turn has its `turn_end` to come. -/
theorem Ok.none_current (h : s.Ok) (hclosed : s.close.closed = true) (n : Nat) :
    ¬ s.bridge.wireView.current n := by
  have hlate := h.late hclosed
  rintro (⟨t, hstarted, hid, hend⟩ | ⟨hopen, -⟩)
  · have hended := h.settled.ended (by omega) t hstarted
    exact hend (hended.trans (congrArg some hid))
  · have hpush : s.bridge.push.turnOpen = false := (h.settled.pushEnded hlate).1
    rw [show s.bridge.push.turnOpen = true from hopen] at hpush
    cases hpush

/-- In every run each `turn_start` has a new and greater id and comes when every turn before it has
ended, each text and `turn_end` comes while its turn is open, `interrupted` after the end of its
turn; and once `close_all` is through, with the sender open, every turn has ended. -/
theorem wire_contract (cfg : Config) (s : Session) (h : Reachable (step cfg) {} s) :
    Each Msg.InOrder s.bridge.out.wire ∧
      (s.close.closed = true → s.bridge.out.senderOpen = true →
        ∀ n seq, .turnStart n seq ∈ s.bridge.out.wire → .turnEnd n ∈ s.bridge.out.wire) := by
  have hok := ok_of_reachable h
  have hlines := hok.inv.wire.lines
  refine ⟨hlines.inOrder, fun hclosed hopen n seq hn => ?_⟩
  have hlines : Lines s.bridge.out.wire true s.bridge.out.turnSeq s.bridge.wireView.current :=
    hopen ▸ hlines
  exact hlines.ended hn (hok.none_current hclosed n)

/-- A turn is interrupted, and the route closes the session while another one runs. -/
def interruptAndClose : List Act :=
  [.begin 0 .send, .turn 0 .start, .turn 0 (.token (py "hi")),
    .begin 1 (.bargeIn (py "stop")), .turn 0 .cancelled, .turn 0 .returns, .op 1 .waited,
    .begin 2 .send, .turn 1 .start, .call 0 .route, .closer 0 .waited, .closer 0 .waited,
    .closer 0 .waited]

theorem wire_contract_abandoned :
    ∃ s : Session, s.close.closed = true ∧
      s.bridge.out.wire = [.turnStart 1 1, .token 1 (py "hi"), .transcriptionPartial (py "stop"),
        .turnEnd 1, .interrupted (some 1), .turnStart 2 2, .turnEnd 2] ∧
      Each Msg.InOrder s.bridge.out.wire ∧ .turnEnd 2 ∈ s.bridge.out.wire := by
  have hrun : Reachable (step textOnly) {} ((run (step textOnly) {} interruptAndClose).get rfl) :=
    reachable_of_run (Option.some_get _).symm
  have hcontract := wire_contract textOnly _ hrun
  exact ⟨_, rfl, rfl, hcontract.1, hcontract.2 rfl rfl 2 2 (List.mem_of_getElem? (i := 5) rfl)⟩

-- ---------------------------------------------------------------------------
-- Audio
-- ---------------------------------------------------------------------------

/-- No TTS connects for a push while the holder of `_turn_lock` cuts it. -/
def uncut (s : Session) : Act → Bool
  | .worker (.connected true) =>
    match s.bridge.turnLock with
    | some i => (s.bridge.ops i).cutting.isNone
    | none => true
  | _ => true

/-- Only the return of `tts.connect` opens a stream in the worker. -/
theorem connected_of_opens {env : WorkerEnv} {p₀ p : Pushing} {a : WorkerAct} {n : Nat}
    (hconnecting : p₀.push.worker.connecting = some n) (hstep : p₀.step env a = some p)
    (hopens : p₀.out.streamCount < p.out.streamCount) : a = .connected true := by
  have hpc : p₀.push.worker.pc = .connect n := by
    unfold Worker.connecting at hconnecting
    split at hconnecting
    · rename_i hpc
      rw [hpc, Option.some.inj hconnecting]
    · cases hconnecting
  have hsame : p.out = p₀.out → a = .connected true := by
    intro hout
    rw [hout] at hopens
    exact absurd hopens (Nat.lt_irrefl _)
  cases a with
  | connected stream =>
    cases stream with
    | true => rfl
    | false =>
      simp only [Pushing.step, Pushing.resume, hpc, Option.ite_none_left_eq_some,
        Option.some.injEq] at hstep
      exact hsame (hstep.2 ▸ rfl)
  | cancelled =>
    simp only [Pushing.step, Pushing.onCancelled, hpc, Option.ite_none_right_eq_some,
      Option.some.injEq] at hstep
    exact hsame (hstep.2 ▸ rfl)
  | fails =>
    simp only [Pushing.step, Pushing.resume, hpc, Option.ite_none_left_eq_some,
      Option.some.injEq] at hstep
    exact hsame (hstep.2 ▸ rfl)
  | take | exits | waited | returns | idle =>
    simp only [Pushing.step, Pushing.resume, hpc, ite_self, reduceCtorEq] at hstep

theorem voices_of_change {a : Act} {b : JotaBridge} (hinv : JotaBridge.Inv s.bridge)
    (hvoices : s.bridge.Voices) (huncut : s.uncut a = true)
    (hchange : JotaBridge.Change cfg s.bridge b a) : b.Voices := by
  cases hchange with
  | turn t a hstep =>
    obtain ⟨r, heff, rfl⟩ := JotaBridge.turnStep_effect hinv.tasks hstep
    exact hvoices.setRunning hinv.tasks heff
  | worker a hstep =>
    simp only [JotaBridge.workerStep, Option.map_eq_some_iff] at hstep
    obtain ⟨p, hp, rfl⟩ := hstep
    refine hvoices.setPushing hinv.control (fun n hconnecting hopens i hi => ?_)
      (Pushing.step_effect hinv.tasks.push hp)
    obtain rfl := connected_of_opens hconnecting hp hopens
    have hholds : (s.bridge.ops i).holds = true := by
      simp only [Op.holds, hi, Option.isSome_some, Bool.true_or]
    have hlock : s.bridge.turnLock = some i := hinv.control.lock i hholds
    simp only [uncut, hlock, hi, Option.isNone_some, Bool.false_eq_true] at huncut
  | loses i a _ heq =>
    subst heq
    have hfree : JotaBridge.Voices { s.bridge with
        turnLock := if s.bridge.turnLock = some i then none else s.bridge.turnLock } :=
      hvoices.keep ⟨rfl, rfl⟩ rfl rfl rfl
    exact hfree.setOp_free i rfl
  | handles h => exact hvoices.handlings hinv h

theorem voices_of_reachable
    (h : ReachableBy (step cfg) (fun s a => s.uncut a = true) {} s) : s.Ok ∧ s.bridge.Voices := by
  induction h with
  | start => exact ⟨.init, .init⟩
  | next _ huncut hstep ih =>
    have hadvances := step_advances ih.1 hstep
    exact ⟨hadvances.ok, voices_of_change ih.1.inv ih.2 huncut hadvances.change⟩

/-- In every run in which no TTS connects for a push that is being cut, a frame of audio comes
with the uint16 of its turn and while that turn is open. -/
theorem audio_in_turn (cfg : Config) (s : Session)
    (h : ReachableBy (step cfg) (fun s a => s.uncut a = true) {} s) :
    Each (fun past m => ∀ n header, m = .audio n header → header = turnSeq16 n ∧ OpenIn past n)
      s.bridge.out.wire := by
  obtain ⟨hok, hvoices⟩ := voices_of_reachable h
  have hlines := hok.inv.wire.lines
  rintro past m future hwire n header rfl
  have hstamped : ∀ m ∈ past ++ .audio n header :: future, m.stamped := hwire ▸ hlines.stamped
  refine ⟨hstamped _ (List.mem_append_right _ List.mem_cons_self), ?_⟩
  refine openIn_of_openAt (fun m hm => hstamped m (List.mem_append_left _ hm)) ?_
  exact hvoices.placed past _ future hwire n rfl

/-- As a client with a speaker configures it. -/
def speaking : Config := { textOnly with outputAudio := true }

/-- A turn is heard to its end, then a push until the user starts a turn of his own. -/
def heardAndCut : List Act :=
  [.begin 0 .send, .turn 0 .start, .turn 0 (.connected true), .audioFrame 0, .turn 0 .streamEnds,
    .turn 0 .returns, .audioEnds 0, .turn 0 .waited, .turn 0 .returns,
    .enqueue { event := .turnStart (py "k"), key := py "k" }, .worker .take,
    .worker (.connected true), .audioFrame 1, .begin 1 .send, .audioEnds 1, .op 1 .waited,
    .op 1 .returns, .turn 1 .start]

theorem audio_in_turn_cut :
    ∃ s : Session, s.bridge.out.wire = [.turnStart 1 1, .audio 1 1, .turnEnd 1, .turnStart 2 2,
        .audio 2 2, .turnEnd 2, .turnStart 3 3] ∧
      Each (fun past m => ∀ n header, m = .audio n header → header = turnSeq16 n ∧ OpenIn past n)
        s.bridge.out.wire := by
  have hrun : ReachableBy (step speaking) (fun s a => s.uncut a = true) {}
      ((run (guarded (step speaking) uncut) {} heardAndCut).get rfl) :=
    reachableBy_of_run (Option.some_get _).symm
  exact ⟨_, rfl, audio_in_turn speaking _ hrun⟩

/-- The TTS of a push connects while its cut waits for OpenClaw: the push is heard after its end. -/
def cutThenHeard : List Act :=
  [.enqueue { event := .turnStart [], key := [] }, .worker .take, .begin 0 .send,
    .worker (.connected true), .op 0 .returns, .audioFrame 0]

example : (run (step speaking) {} cutThenHeard).map (·.bridge.out.wire) =
    some [.turnStart 1 1, .turnEnd 1, .audio 1 1] := rfl

end Session

end Bridge
