-- SUMMARY: What is enqueued for the client is bracketed: one turn open at a time, and its messages between its `turn_start` and its `turn_end`.
import JotaGateway.Base.Brackets
import JotaGateway.Bridge.Control

/-!
# The wire

Five places send a `turn_end`; the invariant says which turn is open on the
wire at each moment, so that exactly one of them does. Audio comes from tasks
of its own and is left free here.
-/

namespace Bridge

open Brackets

namespace Msg

def mark : Msg → Mark Nat
  | .turnStart n _ => .opens n
  | .turnEnd n => .closes n
  | .token n _ | .toolCall n _ | .turnError n _ => .within n
  | .interrupted (some n) => .after n
  | _ => .free

/-- The uint16 of a `turn_start` and of an audio header is the turn's. -/
def stamped : Msg → Prop
  | .turnStart n seq => seq = turnSeq16 n
  | .audio n header => header = turnSeq16 n
  | _ => True

theorem mark_eq_closes {m : Msg} {n : Nat} : m.mark = .closes n ↔ m = .turnEnd n := by
  cases m with
  | interrupted id => cases id <;> simp [mark]
  | _ => simp [mark]

theorem mark_of_replyOf {m : Msg} {n : Nat} (h : m.replyOf = some n) : m.mark = .within n := by
  cases m with
  | token | toolCall | turnError =>
    cases h
    rfl
  | _ => cases h

theorem stamped_of_replyOf {m : Msg} {n : Nat} (h : m.replyOf = some n) : m.stamped := by
  cases m with
  | token | toolCall | turnError => trivial
  | _ => cases h

end Msg

theorem closed_send {out : Output} {m : Msg} {n : Nat} (h : Closed Msg.mark out.wire n) :
    Closed Msg.mark (out.send m).wire n := by
  unfold Output.send
  dsimp only
  split
  · exact closed_append.mpr (.inl h)
  · exact h

theorem closed_iff {wire : List Msg} {n : Nat} : Closed Msg.mark wire n ↔ .turnEnd n ∈ wire := by
  simp only [Closed, Msg.mark_eq_closes, exists_eq_right]

-- ---------------------------------------------------------------------------
-- The turns on the wire
-- ---------------------------------------------------------------------------

/-- The wire is bracketed, and as long as the sender is open, the turns open on it are the
`current` ones. -/
structure Lines (wire : List Msg) (senderOpen : Bool) (seq : Nat) (current : Nat → Prop) : Prop where
  bracketed : Bracketed Msg.mark wire
  stamped : ∀ m ∈ wire, m.stamped
  openAt : senderOpen = true → ∀ n, OpenAt Msg.mark wire n ↔ current n
  bound : ∀ n, Opened Msg.mark wire n → n ≤ seq

namespace Lines

variable {out : Output} {seq : Nat} {current current' : Nat → Prop}

theorem mono {wire : List Msg} {senderOpen senderOpen' : Bool} {seq' : Nat}
    (h : Lines wire senderOpen seq current) (hsender : senderOpen' = true → senderOpen = true)
    (hseq : seq ≤ seq') (hcurrent : senderOpen' = true → ∀ n, current' n ↔ current n) :
    Lines wire senderOpen' seq' current' :=
  ⟨h.bracketed, h.stamped, fun ho n => (h.openAt (hsender ho) n).trans (hcurrent ho n).symm,
    fun n hn => (h.bound n hn).trans hseq⟩

theorem stamped_append {wire more : List Msg} (h : ∀ m ∈ wire, m.stamped)
    (hmore : ∀ m ∈ more, m.stamped) : ∀ m ∈ wire ++ more, m.stamped := by
  intro m hm
  rcases List.mem_append.mp hm with hm | hm
  · exact h m hm
  · exact hmore m hm

/-- Replies of an open turn. -/
theorem replies {wire more : List Msg} {senderOpen : Bool} {n : Nat}
    (h : Lines wire senderOpen seq current) (hn : OpenAt Msg.mark wire n)
    (hmore : ∀ m ∈ more, m.replyOf = some n) : Lines (wire ++ more) senderOpen seq current := by
  have hinert : ∀ m ∈ more, m.mark.inert := by
    intro m hm
    rw [Msg.mark_of_replyOf (hmore m hm)]
    trivial
  refine ⟨h.bracketed.append_within hn fun m hm => Msg.mark_of_replyOf (hmore m hm),
    stamped_append h.stamped fun m hm => Msg.stamped_of_replyOf (hmore m hm), ?_, ?_⟩
  · intro ho n'
    rw [openAt_append_inert hinert]
    exact h.openAt ho n'
  · intro n' hn'
    rcases opened_append.mp hn' with hn' | ⟨m, hm, hmark⟩
    · exact h.bound n' hn'
    · have hm' := hinert m hm
      rw [hmark] at hm'
      exact hm'.elim

/-- A message that neither starts nor ends a turn. -/
theorem send (h : Lines out.wire out.senderOpen seq current) {m : Msg} (hinert : m.mark.inert)
    (hstamped : m.stamped) (hadmits : out.senderOpen = true → Admits Msg.mark out.wire m) :
    Lines (out.send m).wire out.senderOpen seq current := by
  cases hopen : out.senderOpen with
  | false =>
    simp only [Output.send, hopen, Bool.false_eq_true, if_false]
    exact hopen ▸ h
  | true =>
    rw [Output.send_of_open hopen]
    have hone : ∀ m' ∈ [m], m'.mark.inert := fun m' hm' => List.mem_singleton.mp hm' ▸ hinert
    refine ⟨h.bracketed.snoc (hadmits hopen), stamped_append h.stamped
      fun m' hm' => List.mem_singleton.mp hm' ▸ hstamped, ?_, ?_⟩
    · intro _ n'
      rw [openAt_append_inert hone]
      exact h.openAt hopen n'
    · intro n' hn'
      rcases opened_append.mp hn' with hn' | ⟨m', hm', hmark⟩
      · exact h.bound n' hn'
      · have hm'' := hone m' hm'
        rw [hmark] at hm''
        exact hm''.elim

/-- The `turn_end` of a current turn. -/
theorem turnEnd {n : Nat} (h : Lines out.wire out.senderOpen seq current)
    (hn : out.senderOpen = true → current n)
    (hcurrent : out.senderOpen = true → ∀ k, current' k ↔ current k ∧ n ≠ k) :
    Lines (out.send (.turnEnd n)).wire out.senderOpen seq current' := by
  cases hopen : out.senderOpen with
  | false =>
    simp only [Output.send, hopen, Bool.false_eq_true, if_false]
    exact ⟨h.bracketed, h.stamped, fun ho => (by cases ho), h.bound⟩
  | true =>
    have hmark : Msg.mark (.turnEnd n) = .closes n := rfl
    rw [Output.send_of_open hopen]
    refine ⟨h.bracketed.snoc ((h.openAt hopen n).mpr (hn hopen)), stamped_append h.stamped ?_, ?_, ?_⟩
    · intro m hm
      rw [List.mem_singleton.mp hm]
      trivial
    · intro _ k
      rw [openAt_closes hmark, h.openAt hopen k]
      exact (hcurrent hopen k).symm
    · intro k hk
      rcases opened_append.mp hk with hk | ⟨m, hm, hk⟩
      · exact h.bound k hk
      · rw [List.mem_singleton.mp hm, hmark] at hk
        cases hk

/-- The `turn_start` of a new turn when none is current. -/
theorem turnStart {n : Nat} (h : Lines out.wire out.senderOpen seq current) (hn : seq < n)
    (hnone : out.senderOpen = true → ∀ k, ¬ current k)
    (hcurrent : out.senderOpen = true → ∀ k, current' k ↔ k = n) :
    Lines (out.send (.turnStart n (turnSeq16 n))).wire out.senderOpen n current' := by
  cases hopen : out.senderOpen with
  | false =>
    simp only [Output.send, hopen, Bool.false_eq_true, if_false]
    exact ⟨h.bracketed, h.stamped, fun ho => (by cases ho), fun k hk => (h.bound k hk).trans hn.le⟩
  | true =>
    have hclosed : ¬ Closed Msg.mark out.wire n := fun hc =>
      absurd (h.bound n (h.bracketed.opened_of_closed hc)) (Nat.not_le.mpr hn)
    have hnone' : ∀ k, ¬ OpenAt Msg.mark out.wire k :=
      fun k hk => hnone hopen k ((h.openAt hopen k).mp hk)
    have hmark : Msg.mark (.turnStart n (turnSeq16 n)) = .opens n := rfl
    rw [Output.send_of_open hopen]
    refine ⟨h.bracketed.snoc ⟨fun k hk => (h.bound k hk).trans_lt hn, hnone'⟩,
      stamped_append h.stamped ?_, ?_, ?_⟩
    · intro m hm
      rw [List.mem_singleton.mp hm]
      rfl
    · intro _ k
      rw [openAt_opens hmark, hcurrent hopen k]
      constructor
      · rintro ⟨hor, hk⟩
        exact (hor.resolve_left fun hk' => hnone' k ⟨hk', hk⟩).symm
      · rintro rfl
        exact ⟨.inr rfl, hclosed⟩
    · intro k hk
      rcases opened_append.mp hk with hk | ⟨m, hm, hk⟩
      · exact (h.bound k hk).trans hn.le
      · rw [List.mem_singleton.mp hm, hmark] at hk
        exact (Mark.opens.inj hk).ge

end Lines

namespace JotaBridge

variable {cfg : Config} {b b' : JotaBridge} {t : TurnRef} {r : Running} {p : Pushing}
  {env : WorkerEnv} {n : Nat}

-- ---------------------------------------------------------------------------
-- The invariant
-- ---------------------------------------------------------------------------

structure WireView where
  wire : List Msg
  senderOpen : Bool
  endSent : Option Nat
  turns : TurnRef → TurnTask
  pushOpen : Bool
  pushId : Nat
  ops : OpRef → Op
  seq : Nat

def wireView (b : JotaBridge) : WireView where
  wire := b.out.wire
  senderOpen := b.out.senderOpen
  endSent := b.turnEndSentAtClose
  turns t := { pc := (b.turns t).pc, cancelReq := (b.turns t).cancelReq, id := (b.turns t).id }
  pushOpen := b.push.turnOpen
  pushId := b.push.turnId
  ops i := { pc := (b.ops i).pc }
  seq := b.out.turnSeq

namespace WireView

/-- Turn `n` has to get its `turn_end` yet. -/
def current (v : WireView) (n : Nat) : Prop :=
  (∃ t, (v.turns t).started = true ∧ (v.turns t).id = n ∧ v.endSent ≠ some n) ∨
    v.pushOpen = true ∧ v.pushId = n

/-- Turn `t` has `n` for its id, or `n` has ended. -/
def Names (v : WireView) (t : TurnRef) (n : Nat) : Prop :=
  v.senderOpen = true →
    (v.turns t).started = true ∧ (v.turns t).id = n ∨ Closed Msg.mark v.wire n

structure Ok (v : WireView) : Prop where
  lines : Lines v.wire v.senderOpen v.seq v.current
  abandoned : v.senderOpen = true → ∀ n, v.endSent = some n → Closed Msg.mark v.wire n
  abandonedLe : ∀ n, v.endSent = some n → n ≤ v.seq
  doomed : ∀ t, (v.turns t).started = true → v.endSent = some (v.turns t).id →
    (v.turns t).doomed = true
  pushEnded : v.senderOpen = true → v.pushOpen = false → v.pushId ≠ 0 →
    Closed Msg.mark v.wire v.pushId
  chosen : ∀ i t n, (v.ops i).pc = .cancelLock t (some n) ∨ (v.ops i).pc = .cancelWait t (some n) →
    v.Names t n

end WireView

/-- The wire is bracketed, and open on it is what has to end yet. -/
abbrev Wire (b : JotaBridge) : Prop := b.wireView.Ok

theorem names_iff : b.wireView.Names t n ↔ b.Names t n := by
  simp only [WireView.Names, Names, closed_iff]
  rfl

theorem names_cancelTask {t' : TurnRef} : (b.cancelTask t').Names t n ↔ b.Names t n := by
  have hview := view_cancelTask b t'
  have hstarted : ((b.cancelTask t').turns t).started = (b.turns t).started :=
    congrArg (fun v => (v.turns t).started) hview
  have hid : ((b.cancelTask t').turns t).id = (b.turns t).id :=
    congrArg (fun v => (v.turns t).id) hview
  have hout : (b.cancelTask t').out = b.out := by
    unfold cancelTask
    split <;> rfl
  simp only [Names, hstarted, hid, hout]

namespace Wire

theorem keep (h : Wire b) (heq : b'.wireView = b.wireView) : Wire b' := by
  unfold Wire
  rw [heq]
  exact h

theorem init : Wire {} := by
  refine ⟨⟨.nil, ?_, ?_, ?_⟩, ?_, ?_, ?_, ?_, ?_⟩
  · rintro _ ⟨⟩
  · intro _ n
    refine iff_of_false (fun h => opened_nil h.1) ?_
    rintro (⟨t, ⟨⟩, -⟩ | ⟨⟨⟩, -⟩)
  · exact fun n h => (opened_nil h).elim
  · rintro _ _ ⟨⟩
  · rintro _ ⟨⟩
  · rintro _ ⟨⟩
  · exact fun _ _ h => absurd rfl h
  · rintro i t n (⟨⟨⟩⟩ | ⟨⟨⟩⟩)

/-- An operation moves. What it has chosen must be named. -/
theorem setOp (h : Wire b) (i : OpRef) (op : Op)
    (hchosen : ∀ t n, op.pc = .cancelLock t (some n) ∨ op.pc = .cancelWait t (some n) →
      b.wireView.Names t n) : Wire (b.setOp i op) := by
  refine ⟨h.lines, h.abandoned, h.abandonedLe, h.doomed, h.pushEnded, ?_⟩
  intro j t n hj
  rcases eq_or_ne j i with rfl | hne
  · simp only [wireView, JotaBridge.setOp, Function.update_self] at hj
    exact hchosen t n hj
  · simp only [wireView, JotaBridge.setOp, Function.update_of_ne hne] at hj
    exact h.chosen j t n hj

/-- To an await for no turn that has been chosen. -/
theorem setOp_free (h : Wire b) (i : OpRef) (op : Op)
    (hlock : ∀ t id, op.pc ≠ .cancelLock t id) (hwait : ∀ t id, op.pc ≠ .cancelWait t id) :
    Wire (b.setOp i op) := by
  refine h.setOp i op fun t n hpc => ?_
  rcases hpc with hpc | hpc
  · exact absurd hpc (hlock t _)
  · exact absurd hpc (hwait t _)

/-- It is over. -/
theorem leave (h : Wire b) (i : OpRef) : Wire (b.leave i) :=
  h.setOp_free i {} (fun _ _ hpc => by cases hpc) fun _ _ hpc => by cases hpc

/-- A message that neither starts nor ends a turn. -/
theorem send (h : Wire b) {m : Msg} (hinert : m.mark.inert) (hstamped : m.stamped)
    (hadmits : b.out.senderOpen = true → Admits Msg.mark b.out.wire m) : Wire (b.send m) := by
  have hmono : ∀ k, Closed Msg.mark b.out.wire k → Closed Msg.mark (b.out.send m).wire k :=
    fun k => closed_send
  refine ⟨h.lines.send hinert hstamped hadmits, ?_, h.abandonedLe, h.doomed, ?_, ?_⟩
  · exact fun ho k hk => hmono k (h.abandoned ho k hk)
  · exact fun ho hopen hid => hmono _ (h.pushEnded ho hopen hid)
  · exact fun i t k hi ho => (h.chosen i t k hi ho).imp_right (hmono k)

/-- A live turn is alone. -/
theorem current_of_live (hc : Control b) (hlive : (b.turns t).live = true) (k : Nat) :
    b.wireView.current k ↔
      (b.turns t).started = true ∧ (b.turns t).id = k ∧ b.turnEndSentAtClose ≠ some k := by
  constructor
  · rintro (⟨t', hstarted, hid, hend⟩ | ⟨hopen, -⟩)
    · have hactive := hc.unique t' (TurnTask.live_of_started hstarted)
      obtain rfl : t' = t := Option.some.inj (hactive.symm.trans (hc.unique t hlive))
      exact ⟨hstarted, hid, hend⟩
    · have hquiet := hc.alone hopen t
      rw [show (b.view.turns t).live = true from hlive] at hquiet
      cases hquiet
  · exact fun hk => .inl ⟨t, hk⟩

theorem current_of_quiet (hquiet : b.quiet) (k : Nat) :
    b.wireView.current k ↔ b.push.turnOpen = true ∧ b.push.turnId = k := by
  constructor
  · rintro (⟨t, hstarted, -⟩ | hpush)
    · have hlive : (b.turns t).live = true := TurnTask.live_of_started hstarted
      rw [hquiet t] at hlive
      cases hlive
    · exact hpush
  · exact .inr

-- ---------------------------------------------------------------------------
-- A step of a turn
-- ---------------------------------------------------------------------------

/-- A turn task moves on: what is left to show of its step. -/
theorem of_running (h : Wire b) (hc : Control b) (hlive : (b.turns t).live = true)
    (hlater : b.out.Later r.out)
    (hlines : Lines r.out.wire r.out.senderOpen r.out.turnSeq fun k =>
      r.task.started = true ∧ r.task.id = k ∧ b.turnEndSentAtClose ≠ some k)
    (hmono : ∀ k, Closed Msg.mark b.out.wire k → Closed Msg.mark r.out.wire k)
    (hover : (b.turns t).started = true →
      r.task.started = true ∧ r.task.id = (b.turns t).id ∨
        (r.out.senderOpen = true → Closed Msg.mark r.out.wire (b.turns t).id))
    (hdoomed : r.task.started = true → b.turnEndSentAtClose = some r.task.id →
      r.task.doomed = true) : Wire (b.setRunning t r) := by
  have hself : (b.setRunning t r).turns t = r.task := Function.update_self _ _ _
  have hsame : ∀ t', t' ≠ t → (b.setRunning t r).turns t' = b.turns t' :=
    fun t' hne => Function.update_of_ne hne _ _
  have hothers : ∀ t', ((b.setRunning t r).turns t').started = true → t' = t := by
    intro t' ht'
    by_contra hne
    rw [hsame t' hne] at ht'
    have hactive := hc.unique t' (TurnTask.live_of_started ht')
    exact hne (Option.some.inj (hactive.symm.trans (hc.unique t hlive)))
  have hpush : b.push.turnOpen = true → False := by
    intro hopen
    have hquiet := hc.alone hopen t
    rw [show (b.view.turns t).live = true from hlive] at hquiet
    cases hquiet
  refine ⟨hlines.mono (fun ho => ho) (Nat.le_refl _) ?_, ?_, ?_, ?_, ?_, ?_⟩
  · intro _ k
    constructor
    · rintro (⟨t', hstarted, hid⟩ | ⟨hopen, -⟩)
      · obtain rfl : t' = t := hothers t' hstarted
        rw [← hself]
        exact ⟨hstarted, hid⟩
      · exact (hpush hopen).elim
    · rintro hk
      rw [← hself] at hk
      exact .inl ⟨t, hk⟩
  · exact fun ho k hk => hmono k (h.abandoned (hlater.sender ho) k hk)
  · exact fun k hk => (h.abandonedLe k hk).trans hlater.seq
  · intro t' hstarted hend
    obtain rfl : t' = t := hothers t' hstarted
    have htask : (b.setRunning t' r).wireView.turns t' =
        { pc := r.task.pc, cancelReq := r.task.cancelReq, id := r.task.id } := by
      simp only [wireView, hself]
    rw [htask] at hstarted hend ⊢
    exact hdoomed hstarted hend
  · exact fun ho hopen hid => hmono _ (h.pushEnded (hlater.sender ho) hopen hid)
  · intro i t' k hi ho
    rcases h.chosen i t' k hi (hlater.sender ho) with ⟨hstarted, hid⟩ | hclosed
    · rcases eq_or_ne t' t with rfl | hne
      · have hid' : (b.turns t').id = k := hid
        rw [← hid']
        refine (hover hstarted).imp ?_ fun hc => hc ho
        simp only [wireView, hself]
        exact fun hgoes => hgoes
      · refine .inl ?_
        simp only [wireView, hsame t' hne]
        exact ⟨hstarted, hid⟩
    · exact .inr (hmono k hclosed)

/-- The replies of a turn stand between its `turn_start` and its `turn_end`. -/
theorem progress (h : Wire b) (hstarted : (b.turns t).started = true)
    (hp : Running.Progress (b.running t) r) :
    Lines r.out.wire r.out.senderOpen r.out.turnSeq b.wireView.current ∧
      ∀ k, Closed Msg.mark b.out.wire k → Closed Msg.mark r.out.wire k := by
  obtain ⟨replies, hwire, hreplies, hdoomed, hsender⟩ := hp.wire
  have hlines : Lines b.out.wire r.out.senderOpen r.out.turnSeq b.wireView.current :=
    h.lines.mono (fun ho => hp.out.sender.symm.trans ho) hp.out.seq.ge fun _ _ => Iff.rfl
  rw [hwire]
  refine ⟨?_, fun k hk => closed_append.mpr (.inl hk)⟩
  cases replies with
  | nil =>
    rw [List.append_nil]
    exact hlines
  | cons m replies =>
    refine hlines.replies ?_ hreplies
    have hopen : b.out.senderOpen = true := by
      cases ho : b.out.senderOpen with
      | true => rfl
      | false => cases hsender ho
    refine (h.lines.openAt hopen _).mpr (.inl ⟨t, hstarted, rfl, ?_⟩)
    intro hend
    cases hdoomed (h.doomed t hstarted hend)

theorem setRunning (h : Wire b) (hc : Control b)
    (heff : Running.Effect cfg b.turnEndSentAtClose (b.running t) r) : Wire (b.setRunning t r) := by
  have hlive : (b.turns t).live = true := heff.live
  have hlater : b.out.Later r.out := heff.later
  have hcurrent := current_of_live hc hlive
  cases heff with
  | start hpc hopen heq =>
    have hidle : (b.turns t).started = false := by
      rw [TurnTask.started, hpc]
    have hnew : ∀ k, b.turnEndSentAtClose = some k → k ≠ b.out.turnSeq + 1 :=
      fun k hk => Nat.ne_of_lt (Nat.lt_succ_of_le (h.abandonedLe k hk))
    have hstarted : r.task.started = true ∧ r.task.id = b.out.turnSeq + 1 := by
      rw [heq, Running.start_of_open hopen]
      cases cfg.outputAudio <;> exact ⟨rfl, rfl⟩
    have hwire : r.out = { b.out with turnSeq := b.out.turnSeq + 1 }.send
        (.turnStart (b.out.turnSeq + 1) (turnSeq16 (b.out.turnSeq + 1))) := by
      rw [heq, Running.start_of_open hopen]
    refine of_running h hc hlive hlater ?_ ?_ ?_ ?_
    · rw [hwire]
      refine @Lines.turnStart b.out _ _ _ _ h.lines (Nat.lt_succ_self _) ?_ ?_
      · intro _ k hk
        have hstarted' := ((hcurrent k).mp hk).1
        rw [hidle] at hstarted'
        cases hstarted'
      · intro _ k
        constructor
        · rintro ⟨-, hid, -⟩
          exact hid.symm.trans hstarted.2
        · rintro rfl
          exact ⟨hstarted.1, hstarted.2, fun hend => hnew _ hend rfl⟩
    · rw [hwire]
      exact fun k hk => closed_send hk
    · intro hs
      rw [hidle] at hs
      cases hs
    · exact fun _ hend => absurd hstarted.2 (hnew _ hend)
  | unsent hpc heq hactive hdone =>
    obtain ⟨n, hn, heq⟩ := heq
    have hidle : (b.turns t).started = false := by
      rw [TurnTask.started, hpc]
    have hover : r.task.started = false := by
      rw [TurnTask.started, hdone]
    refine of_running h hc hlive hlater ?_ ?_ ?_ ?_
    · rw [heq]
      refine h.lines.mono (fun ho => ho) hn fun _ k => ?_
      rw [hcurrent k, hidle, hover]
      simp only [Bool.false_eq_true, false_and]
    · rw [heq]
      exact fun k hk => hk
    · intro hs
      rw [hidle] at hs
      cases hs
    · intro hs
      rw [hover] at hs
      cases hs
  | connected hpc hreq heq =>
    have hstarted : (b.turns t).started = true := by
      rw [TurnTask.started, hpc]
    subst heq
    refine of_running h hc hlive hlater ?_ (fun k hk => hk) (fun _ => .inl ⟨rfl, rfl⟩) ?_
    · refine h.lines.mono (fun ho => ho) (Nat.le_refl _) fun _ k => ?_
      rw [hcurrent k, hstarted]
      rfl
    · intro _ hend
      have hdoomed := h.doomed t hstarted hend
      rw [show (b.wireView.turns t).doomed = false from hreq] at hdoomed
      cases hdoomed
  | move hstarted₀ hp hstarted _ hdoomed =>
    obtain ⟨hlines, hmono⟩ := h.progress hstarted₀ hp
    refine of_running h hc hlive hlater ?_ hmono (fun _ => .inl ⟨hstarted, hp.id⟩) ?_
    · refine hlines.mono (fun ho => ho) (Nat.le_refl _) fun _ k => ?_
      rw [hcurrent k, hp.id, hstarted]
      exact and_congr_left' (iff_of_true rfl hstarted₀)
    · intro _ hend
      rw [hp.id] at hend
      exact hdoomed (h.doomed t hstarted₀ hend)
  | ended hstarted₀ r₁ hp hout hactive hdone hid =>
    obtain ⟨hlines, hmono⟩ := h.progress hstarted₀ hp
    have hover : r.task.started = false := by
      rw [TurnTask.started, hdone]
    have hnone : ∀ k, ¬ (r.task.started = true ∧ r.task.id = k ∧ b.turnEndSentAtClose ≠ some k) := by
      rintro k ⟨hs, -⟩
      rw [hover] at hs
      cases hs
    have hdone' : r.task.started = true → b.turnEndSentAtClose = some r.task.id →
        r.task.doomed = true := by
      intro hs
      rw [hover] at hs
      cases hs
    split at hout
    · rename_i hend
      refine of_running h hc hlive hlater ?_ ?_ ?_ hdone'
      · rw [hout]
        refine hlines.mono (fun ho => ho) (Nat.le_refl _) fun _ k => ?_
        refine iff_of_false (hnone k) ?_
        rw [hcurrent k]
        rintro ⟨-, rfl, hne⟩
        exact hne hend
      · rw [hout]
        exact hmono
      · rw [hout]
        exact fun _ => .inr fun ho => hmono _ (h.abandoned (hp.out.sender.symm.trans ho) _ hend)
    · rename_i hend
      have hcur : b.wireView.current (b.turns t).id := (hcurrent _).mpr ⟨hstarted₀, rfl, hend⟩
      have hturnEnd : Lines (r₁.out.send (.turnEnd (b.turns t).id)).wire r₁.out.senderOpen
          r₁.out.turnSeq fun k =>
            r.task.started = true ∧ r.task.id = k ∧ b.turnEndSentAtClose ≠ some k := by
        refine hlines.turnEnd (fun _ => hcur) fun _ k => iff_of_false (hnone k) ?_
        rw [hcurrent k]
        rintro ⟨⟨-, hk, -⟩, hne⟩
        exact hne hk
      refine of_running h hc hlive hlater ?_ ?_ ?_ hdone'
      · rw [hout]
        exact hturnEnd
      · rw [hout]
        exact fun k hk => closed_send (hmono k hk)
      · rw [hout]
        refine fun _ => .inr fun ho => ?_
        have hopen : r₁.out.senderOpen = true := ho
        rw [Output.send_of_open hopen]
        exact closed_append.mpr (.inr (closed_singleton.mpr rfl))

-- ---------------------------------------------------------------------------
-- A step of the push worker
-- ---------------------------------------------------------------------------

theorem of_pushing (h : Wire b) (hlater : b.out.Later p.out)
    (hlines : Lines p.out.wire p.out.senderOpen p.out.turnSeq (b.setPushing p).wireView.current)
    (hmono : ∀ k, Closed Msg.mark b.out.wire k → Closed Msg.mark p.out.wire k)
    (hended : p.out.senderOpen = true → p.push.turnOpen = false → p.push.turnId ≠ 0 →
      Closed Msg.mark p.out.wire p.push.turnId) : Wire (b.setPushing p) := by
  refine ⟨hlines, ?_, ?_, h.doomed, hended, ?_⟩
  · exact fun ho k hk => hmono k (h.abandoned (hlater.sender ho) k hk)
  · exact fun k hk => (h.abandonedLe k hk).trans hlater.seq
  · exact fun i t k hi ho => (h.chosen i t k hi (hlater.sender ho)).imp_right (hmono k)

/-- The push turn stays as it is. -/
theorem same_push (h : Wire b) (hlater : b.out.Later p.out) (hwire : p.out.wire = b.out.wire)
    (hopen : p.push.turnOpen = b.push.turnOpen) (hid : p.push.turnId = b.push.turnId) :
    Wire (b.setPushing p) := by
  have hcurrent : ∀ k, (b.setPushing p).wireView.current k ↔ b.wireView.current k := by
    intro k
    simp only [WireView.current, wireView, JotaBridge.setPushing, hopen, hid]
  refine h.of_pushing hlater ?_ ?_ ?_
  · rw [hwire]
    exact h.lines.mono hlater.sender hlater.seq fun _ => hcurrent
  · rw [hwire]
    exact fun k hk => hk
  · rw [hwire, hopen, hid]
    exact fun ho => h.pushEnded (hlater.sender ho)

/-- The push turn gets its `turn_end`. -/
theorem push_ended (h : Wire b) (hc : Control b) (hopen : b.push.turnOpen = true)
    (hlater : b.out.Later p.out) (hsender : p.out.senderOpen = b.out.senderOpen)
    (hwire : p.out.wire = (b.out.send (.turnEnd b.push.turnId)).wire)
    (hopen' : p.push.turnOpen = false) (hid : p.push.turnId = b.push.turnId) :
    Wire (b.setPushing p) := by
  have hquiet : b.quiet := hc.alone hopen
  have hquiet' : (b.setPushing p).quiet := hquiet
  refine h.of_pushing hlater ?_ ?_ ?_
  · rw [hwire, hsender]
    have hlines := h.lines.mono (fun ho => ho) hlater.seq fun _ _ => Iff.rfl
    refine Lines.turnEnd hlines (fun _ => .inr ⟨hopen, rfl⟩) fun _ k => ?_
    rw [current_of_quiet hquiet', current_of_quiet hquiet]
    refine iff_of_false ?_ ?_
    · rintro ⟨hop, -⟩
      rw [show p.push.turnOpen = true from hop] at hopen'
      cases hopen'
    · rintro ⟨⟨-, hk⟩, hne⟩
      exact hne hk
  · rw [hwire]
    exact fun k hk => closed_send hk
  · intro ho _ _
    have hso : b.out.senderOpen = true := hsender.symm.trans ho
    rw [hwire, hid, Output.send_of_open hso]
    exact closed_append.mpr (.inr (closed_singleton.mpr rfl))

theorem setPushing (h : Wire b) (hc : Control b) (hlive : env.turnLive = b.liveTurn.isSome)
    (heff : Pushing.Effect env b.pushing p) : Wire (b.setPushing p) := by
  have hlater : b.out.Later p.out := heff.later
  cases heff with
  | opened n hn hclosed hlive' _ hout hid hopen =>
    have hquiet : b.quiet := by
      refine hc.quiet_of_liveTurn ?_
      rw [hlive', eq_comm, Option.isSome_eq_false_iff, Option.isNone_iff_eq_none] at hlive
      exact hlive
    have hquiet' : (b.setPushing p).quiet := hquiet
    have hlt : b.out.turnSeq < n := hn ▸ Nat.lt_succ_self _
    refine h.of_pushing hlater ?_ ?_ ?_
    · rw [hout]
      refine @Lines.turnStart b.out _ _ _ _ h.lines hlt ?_ ?_
      · intro _ k hk
        have hopen₀ := ((current_of_quiet hquiet k).mp hk).1
        rw [show b.push.turnOpen = false from hclosed] at hopen₀
        cases hopen₀
      · intro _ k
        rw [current_of_quiet hquiet']
        constructor
        · rintro ⟨-, hk⟩
          exact hk.symm.trans hid
        · rintro rfl
          exact ⟨hopen, hid⟩
    · rw [hout]
      exact fun k hk => closed_send hk
    · intro _ hc
      rw [hopen] at hc
      cases hc
  | said m hopen₀ hm hout hid hopen =>
    have hmark : m.mark = .within b.push.turnId := Msg.mark_of_replyOf hm
    have hsaid : Wire (b.send m) := by
      refine h.send ?_ (Msg.stamped_of_replyOf hm) fun ho => ?_
      · rw [hmark]
        trivial
      · rw [Admits, hmark]
        exact (h.lines.openAt ho _).mpr (.inr ⟨hopen₀, rfl⟩)
    refine hsaid.keep ?_
    simp only [wireView, JotaBridge.setPushing, JotaBridge.send, hout, hid, hopen,
      show b.push.turnOpen = true from hopen₀]
  | connected n hconnecting₀ hopen₀ hid₀ hout hid hopen =>
    refine h.same_push hlater ?_ (hopen.trans hopen₀.symm) (hid.trans hid₀.symm)
    rw [hout]
    rfl
  | refused n hconnecting₀ hcut hout hid hopen =>
    refine h.same_push hlater ?_ hopen hid
    rw [hout]
    rfl
  | moves hm =>
    rcases hm.turn with ⟨hopen, hwire⟩ | hended
    · exact h.same_push hlater hwire hopen hm.turnId
    · exact h.push_ended hc hended.opened hlater hm.out.sender hended.wire hended.turnOpen hm.turnId

-- ---------------------------------------------------------------------------
-- An event
-- ---------------------------------------------------------------------------

/-- Turn tasks are only asked to cancel. -/
theorem of_asked (h : Wire b) {turns : TurnRef → TurnTask}
    (hturns : ∀ t, turns t = b.turns t ∨ turns t = { b.turns t with cancelReq := true }) :
    Wire { b with turns := turns } := by
  have hstarted : ∀ t, (turns t).started = (b.turns t).started ∧ (turns t).id = (b.turns t).id := by
    intro t
    rcases hturns t with heq | heq <;> rw [heq] <;> exact ⟨rfl, rfl⟩
  refine ⟨h.lines.mono (fun ho => ho) (Nat.le_refl _) ?_, h.abandoned, h.abandonedLe, ?_,
    h.pushEnded, ?_⟩
  · intro _ k
    refine or_congr (exists_congr fun t => ?_) Iff.rfl
    exact and_congr (Bool.coe_iff_coe.mpr (hstarted t).1) (and_congr_left' (by
      rw [show (b.wireView.turns t).id = (turns t).id from (hstarted t).2.symm]
      exact Iff.rfl))
  · intro t hs hend
    rcases hturns t with heq | heq
    · simp only [wireView, heq] at hs hend ⊢
      exact h.doomed t hs hend
    · simp only [wireView, heq, TurnTask.doomed, Bool.true_or]
  · intro i t k hi ho
    refine (h.chosen i t k hi ho).imp_left fun hn => ?_
    exact ⟨(hstarted t).1.trans hn.1, (hstarted t).2.trans hn.2⟩

theorem cancelTask (h : Wire b) (t : TurnRef) : Wire (b.cancelTask t) := by
  unfold JotaBridge.cancelTask
  split
  · refine h.of_asked fun t' => ?_
    rcases eq_or_ne t' t with rfl | hne
    · exact .inr (Function.update_self _ _ _)
    · exact .inl (Function.update_of_ne hne _ _)
  · exact h

theorem closePush (h : Wire b) (hc : Control b) (hopen : b.push.turnOpen = true)
    (by_ : PushCloser) : Wire (b.setPushing (b.pushing.closePushTurn b.push.turnId by_)) := by
  rw [Pushing.closePushTurn_of_open (p := b.pushing) hopen]
  exact h.push_ended hc hopen (.send _ _) rfl rfl rfl rfl

theorem createTurn (h : Wire b) (hquiet : b.quiet) : Wire b.createTurn := by
  have hstarted₀ : ∀ t, (b.turns t).started ≠ true := by
    intro t hs
    have hlive : (b.turns t).live = true := TurnTask.live_of_started hs
    rw [hquiet t] at hlive
    cases hlive
  have hstarted : ∀ t, (b.createTurn.turns t).started ≠ true := by
    intro t
    rcases eq_or_ne t b.turnCount with rfl | hne
    · rw [show b.createTurn.turns b.turnCount = { pc := .created } from Function.update_self _ _ _]
      exact Bool.false_ne_true
    · rw [show b.createTurn.turns t = b.turns t from Function.update_of_ne hne _ _]
      exact hstarted₀ t
  refine ⟨h.lines.mono (fun ho => ho) (Nat.le_refl _) ?_, h.abandoned, h.abandonedLe, ?_,
    h.pushEnded, ?_⟩
  · intro _ k
    refine or_congr (iff_of_false ?_ ?_) Iff.rfl
    · rintro ⟨t, hs, -⟩
      exact hstarted t hs
    · rintro ⟨t, hs, -⟩
      exact hstarted₀ t hs
  · exact fun t hs => absurd hs (hstarted t)
  · intro i t k hi ho
    exact .inr ((h.chosen i t k hi ho).resolve_left fun hn => hstarted₀ t hn.1)

/-- `close_all` sends the `turn_end` of the turn it abandons. -/
theorem abandon (h : Wire b) (hc : Control b) (hlive : (b.turns t).live = true)
    (hdoomed : (b.turns t).doomed = true) (hid : b.activeTurnId = some n)
    (hnew : b.turnEndSentAtClose = none) :
    Wire ({ b with turnEndSentAtClose := some n }.send (.turnEnd n)) := by
  obtain ⟨t', hstarted, htid⟩ := hc.active n hid
  obtain rfl : t' = t := by
    have hactive := hc.unique t' (TurnTask.live_of_started hstarted)
    exact Option.some.inj (hactive.symm.trans (hc.unique t hlive))
  have hstarted : (b.turns t').started = true := hstarted
  have htid : (b.turns t').id = n := htid
  have hcontrol : Control { b with turnEndSentAtClose := some n } := hc
  have hsent : ∀ k, b.turnEndSentAtClose ≠ some k := by
    rw [hnew]
    rintro k ⟨⟩
  have hcurrent := current_of_live hc hlive
  have hended : b.out.senderOpen = true → Closed Msg.mark (b.out.send (.turnEnd n)).wire n := by
    intro ho
    rw [Output.send_of_open ho]
    exact closed_append.mpr (.inr (closed_singleton.mpr rfl))
  refine ⟨?_, ?_, ?_, ?_, ?_, ?_⟩
  · refine h.lines.turnEnd (fun _ => (hcurrent n).mpr ⟨hstarted, htid, hsent n⟩) fun _ k => ?_
    rw [hcurrent k]
    refine (current_of_live (t := t') hcontrol hlive k).trans ?_
    simp only [hsent k, ne_eq, not_false_eq_true, and_true, Option.some.injEq, and_assoc]
  · rintro ho k ⟨⟩
    exact hended ho
  · rintro k ⟨⟩
    rw [← htid]
    exact hc.idLe t' hstarted
  · intro t'' hs _
    obtain rfl : t'' = t' := by
      have hactive := hc.unique t'' (TurnTask.live_of_started hs)
      exact Option.some.inj (hactive.symm.trans (hc.unique t' hlive))
    exact hdoomed
  · exact fun ho hopen hne => closed_send (h.pushEnded ho hopen hne)
  · exact fun i t k hi ho => (h.chosen i t k hi ho).imp_right closed_send

theorem event (h : Wire b) (hc : Control b) (hev : Event b b') : Wire b' := by
  cases hev with
  | senderCloses =>
    refine ⟨⟨h.lines.bracketed, h.lines.stamped, ?_, h.lines.bound⟩, ?_, h.abandonedLe, h.doomed,
      ?_, ?_⟩
    · rintro ⟨⟩
    · rintro ⟨⟩
    · rintro ⟨⟩
    · rintro _ _ _ _ ⟨⟩
  | frame a => exact h.send trivial rfl fun _ => trivial
  | speaks m hm =>
    rcases hm with ⟨text, rfl⟩ | ⟨text, rfl⟩ | ⟨id, rfl, hid⟩
    · exact h.send trivial trivial fun _ => trivial
    · exact h.send trivial trivial fun _ => trivial
    · cases id with
      | none => exact h.send trivial trivial fun _ => trivial
      | some n => exact h.send trivial trivial fun ho => closed_iff.mpr (hid n rfl ho)
  | enqueue q =>
    unfold enqueuePush
    split <;> exact h
  | cancelTask t => exact h.cancelTask t
  | cancelOps ops hops =>
    refine h.keep ?_
    simp only [wireView, WireView.mk.injEq, true_and, and_true]
    funext i
    rcases hops i with heq | heq
    · rw [heq]
    · rw [heq, Session.cancelOp_pc]
  | runs i op hop =>
    refine h.setOp_free i op ?_ ?_
    · rw [hop]
      rintro t id ⟨⟩
    · rw [hop]
      rintro t id ⟨⟩
  | notes i => exact h.setOp i _ fun t k => h.chosen i t k
  | forgets i t =>
    unfold forget
    split <;> exact h
  | waitsLock i pc _ hpc =>
    rcases hpc with rfl | ⟨rfl, -⟩
    · exact h.setOp_free i _ (by rintro t id ⟨⟩) (by rintro t id ⟨⟩)
    · exact h.setOp_free i _ (by rintro t id ⟨⟩) (by rintro t id ⟨⟩)
  | choosesTurn i t _ _ hlive =>
    refine h.setOp i _ fun t' k hpc => ?_
    rcases hpc with hpc | hpc
    · obtain ⟨rfl, hid⟩ := OpPc.cancelLock.inj hpc
      obtain ⟨t'', hstarted, htid⟩ := hc.active k hid
      have hactive : b.activeTurn = some t'' := hc.unique t'' (TurnTask.live_of_started hstarted)
      obtain rfl : t'' = t := Option.some.inj (hactive.symm.trans (live_of_liveTurn hlive).1)
      exact fun _ => .inl ⟨hstarted, htid⟩
    · cases hpc
  | cancels i t wait _ _ _ hwait =>
    have hdid : Wire (b.did (.cancelled (b.ops i).turnMark t)) := h
    refine (hdid.cancelTask t).setOp i _ fun t' k hpc => ?_
    refine names_iff.mpr (names_cancelTask.mpr ?_)
    rcases hwait with rfl | ⟨-, id, rfl, hnames⟩
    · rcases hpc with hpc | hpc <;> cases hpc
    · rcases hpc with hpc | hpc
      · cases hpc
      · obtain ⟨rfl, hid⟩ := OpPc.cancelWait.inj hpc
        exact hnames k hid
  | drops i s p waits _ _ hdrop =>
    have hpush := hdrop.push
    have hdropped : Wire (b.setPushing p) := by
      refine h.same_push (.of_settles hdrop.out) hdrop.wire ?_ ?_
      · rw [hpush]
      · rw [hpush]
    refine hdropped.setOp_free i _ ?_ ?_
    · cases waits <;> rintro t id ⟨⟩
    · cases waits <;> rintro t id ⟨⟩
  | closesCut i n s =>
    have hclosed : Wire { b with out := b.out.closeStream s } := h
    exact hclosed.setOp_free i _ (by rintro t id ⟨⟩) (by rintro t id ⟨⟩)
  | aborts i hcuts => exact h.setOp_free i _ (by rintro t id ⟨⟩) (by rintro t id ⟨⟩)
  | closesPush by_ _ hopen => exact h.closePush hc hopen by_
  | creates i hi hquiet => exact h.createTurn hquiet
  | leaves i => exact h.leave i
  | _ => exact h

end Wire

end JotaBridge

end Bridge
