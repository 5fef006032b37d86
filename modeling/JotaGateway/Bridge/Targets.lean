-- SUMMARY: What an operation cancels, cuts and closes is what it chose, and each turn is reported as cancelled once.
import JotaGateway.Bridge.Wire

/-!
# Targets

An operation chooses the turn or push it is after and may reach it much later.
The number of turns and the last turn id at the choice bound the target, so
that nothing started since is reached.
-/

namespace Bridge

namespace JotaBridge

variable {cfg : Config} {b b' : JotaBridge} {t : TurnRef} {r : Running} {p : Pushing}
  {env : WorkerEnv} {i : OpRef}

/-- What an operation keeps to. -/
structure Aims (b : JotaBridge) (op : Op) : Prop where
  waiting : ∀ t, op.waiting = some t → t ∉ b.reports
  turnMark : ∀ t id, op.pc = .cancelLock t id → t < op.turnMark
  pushId : op.pushId ≤ op.pushMark
  pushMark : op.pushMark ≤ b.out.turnSeq
  cutting : ∀ n, op.cutting = some n → n ≤ op.pushMark
  kind : op.choosing = true → op.kind ≠ .send

structure Fair (b : JotaBridge) : Prop where
  nodup : b.reports.Nodup
  reported : ∀ t ∈ b.reports, (b.turns t).live = false ∧ t < b.turnCount
  deeds : ∀ d ∈ b.deeds, d.fair
  ops : ∀ i, Aims b (b.ops i)

theorem Aims.keep {op : Op} (h : Aims b op) (hreports : b'.reports = b.reports)
    (hseq : b.out.turnSeq ≤ b'.out.turnSeq) : Aims b' op :=
  ⟨hreports ▸ h.waiting, h.turnMark, h.pushId, h.pushMark.trans hseq, h.cutting, h.kind⟩

/-- An operation that has not begun, or is over, is after nothing. -/
theorem Aims.idle (b : JotaBridge) : Aims b {} :=
  ⟨nofun, nofun, Nat.le_refl 0, Nat.zero_le _, nofun, nofun⟩

namespace Fair

theorem init : Fair {} := ⟨.nil, nofun, nofun, fun _ => .idle _⟩

/-- The session goes on: reported turns stay done. -/
theorem later (h : Fair b) (hseq : b.out.turnSeq ≤ b'.out.turnSeq) (hops : b'.ops = b.ops)
    (hreports : b'.reports = b.reports) (hdeeds : b'.deeds = b.deeds)
    (hcount : b.turnCount ≤ b'.turnCount)
    (hlive : ∀ t < b.turnCount, (b'.turns t).live = true → (b.turns t).live = true) : Fair b' := by
  refine ⟨hreports ▸ h.nodup, ?_, hdeeds ▸ h.deeds, ?_⟩
  · intro t ht
    rw [hreports] at ht
    have hdone := h.reported t ht
    refine ⟨Bool.eq_false_iff.mpr fun hl => ?_, Nat.lt_of_lt_of_le hdone.2 hcount⟩
    have hlive' := hlive t hdone.2 hl
    rw [hdone.1] at hlive'
    cases hlive'
  · intro i
    rw [hops]
    exact (h.ops i).keep hreports hseq

/-- An operation moves. -/
theorem setOp (h : Fair b) (i : OpRef) {op : Op} (hop : Aims b op) : Fair (b.setOp i op) := by
  refine ⟨h.nodup, h.reported, h.deeds, fun j => ?_⟩
  cases eq_or_ne j i with
  | inl heq =>
    subst heq
    rw [setOp_self]
    exact hop.keep rfl (Nat.le_refl _)
  | inr hne =>
    rw [setOp_ne b hne]
    exact (h.ops j).keep rfl (Nat.le_refl _)

/-- It suspends where it relies on nothing new. -/
theorem suspend (h : Fair b) (i : OpRef) (pc : OpPc)
    (hwaiting : ∀ t, ({ pc := pc } : Op).waiting = some t → t ∉ b.reports)
    (hturn : ∀ t id, pc = .cancelLock t id → t < (b.ops i).turnMark)
    (hcut : ∀ n, ({ pc := pc } : Op).cutting = some n → n ≤ (b.ops i).pushMark)
    (hkind : ({ pc := pc } : Op).choosing = true → (b.ops i).kind ≠ .send) :
    Fair (b.suspend i pc) :=
  h.setOp i ⟨hwaiting, hturn, (h.ops i).pushId, (h.ops i).pushMark, hcut, hkind⟩

theorem did (h : Fair b) {d : Deed} (hd : d.fair) : Fair (b.did d) := by
  refine ⟨h.nodup, h.reported, ?_, fun i => (h.ops i).keep rfl (Nat.le_refl _)⟩
  intro d' hd'
  cases List.mem_append.mp hd' with
  | inl hold => exact h.deeds d' hold
  | inr hnew => exact List.mem_singleton.mp hnew ▸ hd

theorem setRunning {endSent : Option Nat} (h : Fair b)
    (heff : Running.Effect cfg endSent (b.running t) r) : Fair (b.setRunning t r) := by
  refine h.later heff.later.seq rfl rfl rfl (Nat.le_refl _) fun t' _ hlive => ?_
  cases eq_or_ne t' t with
  | inl heq =>
    subst heq
    exact heff.live
  | inr hne =>
    rw [show (b.setRunning t r).turns t' = b.turns t' from Function.update_of_ne hne _ _] at hlive
    exact hlive

theorem setPushing (h : Fair b) (heff : Pushing.Effect env b.pushing p) : Fair (b.setPushing p) :=
  h.later heff.later.seq rfl rfl rfl (Nat.le_refl _) fun _ _ hlive => hlive

theorem cancelTask (h : Fair b) (t : TurnRef) : Fair (b.cancelTask t) := by
  unfold JotaBridge.cancelTask
  split
  · rename_i hlive
    refine h.later (Nat.le_refl _) rfl rfl rfl (Nat.le_refl _) fun t' _ hlive' => ?_
    cases eq_or_ne t' t with
    | inl heq => exact heq ▸ hlive
    | inr hne =>
      simp only [Function.update_of_ne hne] at hlive'
      exact hlive'
  · exact h

theorem createTurn (h : Fair b) : Fair b.createTurn := by
  refine h.later (Nat.le_refl _) rfl rfl rfl (Nat.le_succ _) fun t ht hlive => ?_
  rw [show b.createTurn.turns t = b.turns t from Function.update_of_ne (Nat.ne_of_lt ht) _ _]
    at hlive
  exact hlive

/-- A done turn is reported: nobody waits for it any more. -/
theorem report (h : Fair b) (hc : Control b) (hlocked : Locked b i) (hdone : (b.turns t).live = false)
    (hactive : b.activeTurn = some t) (hnew : t ∉ b.reports) :
    Fair { b with reports := b.reports ++ [t] } := by
  refine ⟨?_, ?_, h.deeds, ?_⟩
  · refine h.nodup.append (List.nodup_singleton t) ?_
    intro t' hold hnew'
    exact hnew (List.mem_singleton.mp hnew' ▸ hold)
  · intro t' ht'
    cases List.mem_append.mp ht' with
    | inl hold => exact h.reported t' hold
    | inr hnew' =>
      rw [List.mem_singleton.mp hnew']
      exact ⟨hdone, hc.activeLt t hactive⟩
  · intro j
    have ho := h.ops j
    refine ⟨?_, ho.turnMark, ho.pushId, ho.pushMark, ho.cutting, ho.kind⟩
    intro t' hj
    have hholds : (b.ops j).holds = true := by
      rw [Op.holds, hj]
      exact Bool.or_true _
    exact (hc.only hlocked hholds).elim

/-- An operation is over. -/
theorem leave (h : Fair b) (i : OpRef) : Fair (b.leave i) := by
  have hidle : Fair (b.setOp i {}) := h.setOp i (.idle b)
  exact hidle.later (Nat.le_refl _) rfl rfl rfl (Nat.le_refl _) fun _ _ hlive => hlive

theorem event (h : Fair b) (hc : Control b) (hev : Event b b') : Fair b' := by
  cases hev with
  | enqueue q =>
    unfold enqueuePush
    split
    · exact h
    · exact h.later (Nat.le_refl _) rfl rfl rfl (Nat.le_refl _) fun _ _ hlive => hlive
  | cancelTask t => exact h.cancelTask t
  | cancelOps ops hops =>
    refine ⟨h.nodup, h.reported, h.deeds, fun j => ?_⟩
    have ho := h.ops j
    have heq : ops j = { b.ops j with cancelReq := (ops j).cancelReq } := by
      cases hops j with
      | inl heq => rw [heq]
      | inr heq =>
        rw [heq]
        unfold Session.cancelOp
        split <;> rfl
    dsimp only
    rw [heq]
    exact ⟨ho.waiting, ho.turnMark, ho.pushId, ho.pushMark, ho.cutting, ho.kind⟩
  | runs i op hop _ hmark =>
    refine h.setOp i ⟨?_, ?_, hmark.1, hmark.2, ?_, ?_⟩
    · rw [Op.waiting, hop]
      exact fun _ hpc => by cases hpc
    · rw [hop]
      exact fun _ _ hpc => by cases hpc
    · rw [Op.cutting, hop]
      exact fun _ hpc => by cases hpc
    · rw [Op.choosing, hop]
      exact fun hpc => by cases hpc
  | notes i =>
    have ho := h.ops i
    exact h.setOp i ⟨ho.waiting, ho.turnMark, ho.pushId, ho.pushMark, ho.cutting, ho.kind⟩
  | forgets i t =>
    unfold forget
    split
    · exact h.later (Nat.le_refl _) rfl rfl rfl (Nat.le_refl _) fun _ _ hlive => hlive
    · exact h
  | waitsLock i pc _ hpc =>
    rcases hpc with rfl | ⟨rfl, hkind⟩
    · exact h.suspend i _ (fun _ hpc => by cases hpc) (fun _ _ hpc => by cases hpc)
        (fun _ hpc => by cases hpc) (fun hpc => by cases hpc)
    · exact h.suspend i _ (fun _ hpc => by cases hpc) (fun _ _ hpc => by cases hpc)
        (fun _ hpc => by cases hpc) fun _ => hkind
  | choosesTurn i t _ hkind _ hmark =>
    refine h.suspend i _ (fun _ hpc => by cases hpc) ?_ (fun _ hpc => by cases hpc) fun _ => hkind
    intro t' id heq
    exact (OpPc.cancelLock.inj heq).1 ▸ hmark
  | cancels i t wait hlocked hlive hmark hwait =>
    have hnew : t ∉ b.reports := by
      intro ht
      have hdone := (h.reported t ht).1
      rw [(live_of_liveTurn hlive).2] at hdone
      cases hdone
    have hcancelled : Fair ((b.did (.cancelled (b.ops i).turnMark t)).cancelTask t) :=
      (h.did (d := .cancelled (b.ops i).turnMark t) hmark).cancelTask t
    have hops : ((b.did (.cancelled (b.ops i).turnMark t)).cancelTask t).ops = b.ops ∧
        ((b.did (.cancelled (b.ops i).turnMark t)).cancelTask t).reports = b.reports := by
      unfold JotaBridge.cancelTask
      split <;> exact ⟨rfl, rfl⟩
    rcases hwait with rfl | ⟨hkind, id, rfl, -⟩
    · refine hcancelled.suspend i _ ?_ (fun _ _ hpc => by cases hpc)
        (fun _ hpc => by cases hpc) (fun hpc => by cases hpc)
      intro t' ht'
      rw [hops.2]
      exact Option.some.inj ht' ▸ hnew
    · refine hcancelled.suspend i _ ?_ (fun _ _ hpc => by cases hpc) (fun _ hpc => by cases hpc) ?_
      · intro t' ht'
        rw [hops.2]
        exact Option.some.inj ht' ▸ hnew
      · rw [hops.1]
        exact fun _ => hkind
  | reports i t hlocked hdone hactive hnew => exact h.report hc hlocked hdone hactive hnew
  | drops i s p waits hcuts _ hdrop =>
    have hpushed : Fair (b.setPushing p) :=
      h.later hdrop.out.seq.ge rfl rfl rfl (Nat.le_refl _) fun _ _ hlive => hlive
    cases waits with
    | false =>
      refine hpushed.suspend i _ (fun _ hpc => by cases hpc) (fun _ _ hpc => by cases hpc)
        ?_ (fun hpc => by cases hpc)
      intro n hn
      exact Option.some.inj hn ▸ hcuts.mark
    | true =>
      refine hpushed.suspend i _ (fun _ hpc => by cases hpc) (fun _ _ hpc => by cases hpc)
        ?_ (fun hpc => by cases hpc)
      intro n hn
      exact Option.some.inj hn ▸ hcuts.mark
  | closesCut i n s hpc =>
    have hclosed : Fair { b with out := b.out.closeStream s } :=
      h.later (Nat.le_refl _) rfl rfl rfl (Nat.le_refl _) fun _ _ hlive => hlive
    refine hclosed.suspend i _ (fun _ hpc => by cases hpc) (fun _ _ hpc => by cases hpc)
      ?_ (fun hpc => by cases hpc)
    intro n' hn'
    refine (h.ops i).cutting n' ?_
    rw [Op.cutting, hpc]
    exact hn'
  | aborts i hcuts =>
    have hmark : b.push.turnId ≤ (b.ops i).pushMark ∧ b.quiet := by
      cases hcuts with
      | inl hpc =>
        have hcutting : (b.ops i).cutting = some b.push.turnId := by
          rw [Op.cutting, hpc]
        exact ⟨(h.ops i).cutting _ hcutting, (hc.cutting i _ hcutting).2.2⟩
      | inr hcuts => exact ⟨hcuts.1.mark, hcuts.1.quiet⟩
    have hnone : b.liveTurn.isSome = false := by
      cases hlive : b.liveTurn with
      | none => rfl
      | some t =>
        have ht := (live_of_liveTurn hlive).2
        rw [hmark.2 t] at ht
        cases ht
    have hfair : Deed.fair (.aborted (b.ops i).pushMark b.push.turnId b.liveTurn.isSome) :=
      ⟨hmark.1, hnone⟩
    refine (h.did hfair).suspend i _ (fun _ hpc => by cases hpc) (fun _ _ hpc => by cases hpc)
      ?_ (fun hpc => by cases hpc)
    intro n hn
    exact Option.some.inj hn ▸ hmark.1
  | closesPush by_ _ hopen =>
    rw [Pushing.closePushTurn_of_open (p := b.pushing) hopen]
    exact h.later (Nat.le_refl _) rfl rfl rfl (Nat.le_refl _) fun _ _ hlive => hlive
  | didClose mark n hmark => exact h.did hmark
  | creates i _ hquiet _ _ => exact h.createTurn
  | leaves i => exact h.leave i
  | _ => exact h.later (Nat.le_refl _) rfl rfl rfl (Nat.le_refl _) fun _ _ hlive => hlive

end Fair

-- ---------------------------------------------------------------------------
-- All the invariants of a session
-- ---------------------------------------------------------------------------

structure Inv (b : JotaBridge) : Prop where
  tasks : Tasks b
  control : Control b
  wire : Wire b
  fair : Fair b

/-- One event; or `close_all` ends a turn it has given up on. -/
inductive Handling (b b' : JotaBridge) : Prop where
  | event (h : Event b b')
  | abandons (t : TurnRef) (n : Nat) (hlive : (b.turns t).live = true)
      (hdoomed : (b.turns t).doomed = true) (hid : b.activeTurnId = some n)
      (hnew : b.turnEndSentAtClose = none)
      (heq : b' = { b with turnEndSentAtClose := some n }.send (.turnEnd n))

/-- What an operation or a caller of `close_all` does from one await to the next. -/
abbrev Handlings : JotaBridge → JotaBridge → Prop := Relation.ReflTransGen Handling

/-- What a step of the session does. An operation cancelled between an audio task and its stream
leaves the stream open. -/
inductive Change (cfg : Config) (b b' : JotaBridge) : Act → Prop where
  | turn (t : TurnRef) (a : TurnAct) (h : b.turnStep cfg t a = some b') : Change cfg b b' (.turn t a)
  | worker (a : WorkerAct) (h : b.workerStep cfg a = some b') : Change cfg b b' (.worker a)
  | loses (i : OpRef) (a : OpAct) (hskips : (b.ops i).skipsClose = true) (heq : b' = b.leave i) :
      Change cfg b b' (.op i a)
  | handles {a : Act} (h : Handlings b b') : Change cfg b b' a

/-- What the worker finds of the rest of the session. -/
def workerEnv (cfg : Config) (b : JotaBridge) : WorkerEnv :=
  { cfg, closing := b.closing, turnLive := b.liveTurn.isSome, lockFree := b.turnLock.isNone }

theorem turnStep_effect {a : TurnAct} (h : Tasks b) (hstep : b.turnStep cfg t a = some b') :
    ∃ r, Running.Effect cfg b.turnEndSentAtClose (b.running t) r ∧ b' = b.setRunning t r := by
  simp only [turnStep, Option.map_eq_some_iff] at hstep
  obtain ⟨r, hr, heq⟩ := hstep
  exact ⟨r, Running.step_effect (h.turn t) hr, heq.symm⟩

theorem workerStep_effect {a : WorkerAct} (h : Tasks b) (hstep : b.workerStep cfg a = some b') :
    ∃ p, Pushing.Effect (b.workerEnv cfg) b.pushing p ∧ b' = b.setPushing p := by
  simp only [workerStep, Option.map_eq_some_iff] at hstep
  obtain ⟨p, hp, heq⟩ := hstep
  exact ⟨p, Pushing.step_effect h.push hp, heq.symm⟩

namespace Inv

theorem init : Inv {} := ⟨.init, .init, .init, .init⟩

theorem event (h : Inv b) (hev : Event b b') : Inv b' :=
  ⟨h.tasks.event hev, h.control.event hev, h.wire.event h.control hev, h.fair.event h.control hev⟩

theorem events (h : Inv b) (hevs : Events b b') : Inv b' := by
  induction hevs with
  | refl => exact h
  | tail _ hev ih => exact ih.event hev

theorem handling (h : Inv b) (hhandling : Handling b b') : Inv b' := by
  cases hhandling with
  | event hev => exact h.event hev
  | abandons t n hlive hdoomed hid hnew heq =>
    subst heq
    have hlater : b.out.Later (b.out.send (.turnEnd n)) := .send _ _
    refine ⟨⟨fun t' => (h.tasks.turn t').later hlater _, h.tasks.push.later hlater⟩, ?_,
      h.wire.abandon h.control hlive hdoomed hid hnew, ?_⟩
    · exact h.control.keep rfl
    · exact h.fair.later (Nat.le_refl _) rfl rfl rfl (Nat.le_refl _) fun _ _ hlive => hlive

theorem handlings (h : Inv b) (hhandlings : Handlings b b') : Inv b' := by
  induction hhandlings with
  | refl => exact h
  | tail _ hhandling ih => exact ih.handling hhandling

theorem change {a : Act} (h : Inv b) (hchange : Change cfg b b' a) : Inv b' := by
  cases hchange with
  | turn t a hstep =>
    obtain ⟨r, heff, rfl⟩ := turnStep_effect h.tasks hstep
    exact ⟨h.tasks.setRunning heff, h.control.setRunning heff, h.wire.setRunning h.control heff,
      h.fair.setRunning heff⟩
  | worker a hstep =>
    obtain ⟨p, heff, rfl⟩ := workerStep_effect h.tasks hstep
    exact ⟨h.tasks.setPushing heff, h.control.setPushing rfl rfl heff,
      h.wire.setPushing h.control rfl heff, h.fair.setPushing heff⟩
  | loses i a _ heq =>
    subst heq
    exact ⟨⟨h.tasks.turn, h.tasks.push⟩, h.control.leave i, h.wire.leave i, h.fair.leave i⟩
  | handles hhandlings => exact h.handlings hhandlings

end Inv

theorem Events.handlings (h : Events b b') : Handlings b b' := by
  induction h with
  | refl => exact .refl
  | tail _ hev ih => exact ih.tail (.event hev)

end JotaBridge

end Bridge
