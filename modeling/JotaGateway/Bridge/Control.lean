-- SUMMARY: One turn at a time: whatever the tasks of a session do, at most one turn task is live and no push is open beside it.
import JotaGateway.Bridge.Event

/-!
# Control of the turn

`_turn_lock` and the re-checks after each await keep a single turn. The
invariants here are kept by every event, every step of a turn task and every
step of the push worker.
-/

namespace Bridge

namespace JotaBridge

variable {cfg : Config} {b b' : JotaBridge} {t : TurnRef} {r : Running} {p : Pushing}
  {env : WorkerEnv}

-- ---------------------------------------------------------------------------
-- The tasks
-- ---------------------------------------------------------------------------

/-- Each task finds what its await relies on. -/
structure Tasks (b : JotaBridge) : Prop where
  turn : ∀ t, Running.Ok (b.running t)
  push : Pushing.Ok b.pushing

theorem Tasks.init : Tasks {} :=
  ⟨fun _ => Running.ok_of_none rfl, Pushing.ok_of_none rfl rfl⟩

theorem Tasks.setRunning {endSent : Option Nat} (h : Tasks b)
    (heff : Running.Effect cfg endSent (b.running t) r) : Tasks (b.setRunning t r) := by
  refine ⟨fun t' => ?_, h.push.later heff.later⟩
  rcases eq_or_ne t' t with rfl | hne
  · have heq : (b.setRunning t' r).running t' = r := by
      simp only [running, JotaBridge.setRunning, Function.update_self]
    rw [heq]
    exact heff.ok (h.turn t')
  · have heq : (b.setRunning t r).running t' =
        { out := r.out, activeTurnId := r.activeTurnId, task := b.turns t' } := by
      simp only [running, JotaBridge.setRunning, Function.update_of_ne hne]
    rw [heq]
    exact (h.turn t').later heff.later _

theorem Tasks.setPushing (h : Tasks b) (heff : Pushing.Effect env b.pushing p) :
    Tasks (b.setPushing p) :=
  ⟨fun t => (h.turn t).later heff.later _, heff.ok⟩

theorem Tasks.event (h : Tasks b) (hev : Event b b') : Tasks b' := by
  refine ⟨fun t => ?_, ?_⟩
  · have hlater : Running.Ok { out := b'.out, activeTurnId := b'.activeTurnId, task := b.turns t } :=
      (h.turn t).later hev.later _
    rcases hev.turns t with heq | ⟨-, heq⟩ | ⟨-, -, -, heq⟩
    · simp only [running, heq]
      exact hlater
    · simp only [running, heq]
      exact ⟨hlater.unconnected, hlater.bound, hlater.silent, hlater.closed⟩
    · simp only [running, heq]
      exact Running.ok_of_none rfl
  · have hlater : Pushing.Ok { out := b'.out, push := b.push } := h.push.later hev.later
    cases hev with
    | enqueue q =>
      unfold enqueuePush at hlater ⊢
      split
      · exact h.push
      · refine h.push.keep rfl rfl rfl ?_
        rcases b.push.worker.respawn_cases with heq | ⟨-, heq⟩
        · exact .inl (congrArg Worker.pc heq)
        · exact .inr (by rw [heq]; rfl)
    | cancelWorker => exact h.push.keep rfl rfl rfl (.inl (Session.cancelWorker_pc _))
    | cancelTask t | cancels _ t =>
      have heq : ∀ c : JotaBridge, (c.cancelTask t).pushing = c.pushing := by
        intro c
        unfold JotaBridge.cancelTask
        split <;> rfl
      first | exact heq b ▸ h.push | exact heq (b.did _) ▸ h.push
    | forgets i t =>
      unfold forget
      split <;> exact h.push
    | drops i s p waits _ _ hdrop =>
      have hpush := hdrop.push
      refine Pushing.ok_of_none ?_ ?_
      · simp only [suspend, setOp, JotaBridge.setPushing, hpush]
      · simp only [suspend, setOp, JotaBridge.setPushing, hpush]
    | closesPush by_ _ hopen =>
      rw [Pushing.closePushTurn_of_open (p := b.pushing) hopen] at hlater ⊢
      exact hlater.keep rfl rfl rfl (.inl rfl)
    | clearsTts _ _ haudio =>
      refine ⟨h.push.bound, fun _ => haudio, h.push.drain, h.push.cancelled, ?_⟩
      intro n hn
      refine ⟨(h.push.closing n hn).1, ?_⟩
      rintro s ⟨⟩
    | dropsBacklog => exact hlater.keep rfl rfl rfl (.inl rfl)
    | _ => exact hlater

-- ---------------------------------------------------------------------------
-- The turn, the push and the lock
-- ---------------------------------------------------------------------------

/-- What the control of the turn is about. -/
structure View where
  turns : TurnRef → TurnTask
  activeTurn : Option TurnRef
  activeTurnId : Option Nat
  turnCount : Nat
  turnLock : Option OpRef
  ops : OpRef → Op
  pushOpen : Bool
  pushId : Nat
  connecting : Option Nat
  seq : Nat

def view (b : JotaBridge) : View where
  turns t := { pc := (b.turns t).pc, id := (b.turns t).id }
  activeTurn := b.activeTurn
  activeTurnId := b.activeTurnId
  turnCount := b.turnCount
  turnLock := b.turnLock
  ops i := { pc := (b.ops i).pc }
  pushOpen := b.push.turnOpen
  pushId := b.push.turnId
  connecting := b.push.worker.connecting
  seq := b.out.turnSeq

def View.quiet (v : View) : Prop := ∀ t, (v.turns t).live = false

structure View.OneTurn (v : View) : Prop where
  fresh : ∀ t, v.turnCount ≤ t → (v.turns t).live = false
  unique : ∀ t, (v.turns t).live = true → v.activeTurn = some t
  named : ∀ t, (v.turns t).started = true → v.activeTurnId = some (v.turns t).id
  active : ∀ n, v.activeTurnId = some n → ∃ t, (v.turns t).started = true ∧ (v.turns t).id = n
  activeLt : ∀ t, v.activeTurn = some t → t < v.turnCount
  idLe : ∀ t, (v.turns t).started = true → (v.turns t).id ≤ v.seq
  lock : ∀ i, (v.ops i).holds = true → v.turnLock = some i
  alone : v.pushOpen = true → v.quiet
  pushId : v.pushOpen = true → v.pushId ≠ 0
  pushLe : v.pushId ≤ v.seq
  cutting : ∀ i n, (v.ops i).cutting = some n → v.pushId = n ∧ n ≠ 0 ∧ v.quiet
  waiting : ∀ i t, (v.ops i).waiting = some t → v.activeTurn = some t
  connecting : ∀ n, v.connecting = some n → v.pushId = n

/-- One turn at a time. -/
abbrev Control (b : JotaBridge) : Prop := b.view.OneTurn

theorem live_of_liveTurn (h : b.liveTurn = some t) :
    b.activeTurn = some t ∧ (b.turns t).live = true := by
  simpa only [liveTurn, Option.filter_eq_some_iff] using h

theorem Locked.not_holds {i : OpRef} (h : Locked b i) : (b.ops i).holds = false := by
  simp only [Op.holds, Op.cutting, Op.waiting, h.running, Option.isSome_none, Bool.or_false]

theorem view_cancelTask (b : JotaBridge) (t : TurnRef) : (b.cancelTask t).view = b.view := by
  unfold cancelTask
  split
  · simp only [view, View.mk.injEq, and_true]
    funext t'
    rcases eq_or_ne t' t with rfl | hne
    · simp only [Function.update_self]
    · simp only [Function.update_of_ne hne]
  · rfl

namespace Control

theorem keep (h : Control b) (heq : b'.view = b.view) : Control b' := by
  unfold Control
  rw [heq]
  exact h

theorem init : Control {} := by
  refine ⟨fun _ _ => rfl, ?_, ?_, ?_, ?_, ?_, ?_, fun _ _ => rfl, ?_, Nat.le_refl _, ?_, ?_, ?_⟩
  · rintro _ ⟨⟩
  · rintro _ ⟨⟩
  · rintro _ ⟨⟩
  · rintro _ ⟨⟩
  · rintro _ ⟨⟩
  · rintro _ ⟨⟩
  · rintro ⟨⟩
  · rintro _ _ ⟨⟩
  · rintro _ _ ⟨⟩
  · rintro _ ⟨⟩

/-- An operation moves, within what its await relies on. -/
theorem setOp (h : Control b) (i : OpRef) (op : Op) (hlock : op.holds = true → b.turnLock = some i)
    (hcut : ∀ n, op.cutting = some n → b.push.turnId = n ∧ n ≠ 0 ∧ b.quiet)
    (hwait : ∀ t, op.waiting = some t → b.activeTurn = some t) : Control (b.setOp i op) := by
  refine ⟨h.fresh, h.unique, h.named, h.active, h.activeLt, h.idLe, ?_, h.alone, h.pushId, h.pushLe,
    ?_, ?_, h.connecting⟩
  · intro j hj
    rcases eq_or_ne j i with rfl | hne
    · simp only [view, JotaBridge.setOp, Function.update_self] at hj
      exact hlock hj
    · simp only [view, JotaBridge.setOp, Function.update_of_ne hne] at hj
      exact h.lock j hj
  · intro j n hj
    rcases eq_or_ne j i with rfl | hne
    · simp only [view, JotaBridge.setOp, Function.update_self] at hj
      exact hcut n hj
    · simp only [view, JotaBridge.setOp, Function.update_of_ne hne] at hj
      exact h.cutting j n hj
  · intro j t hj
    rcases eq_or_ne j i with rfl | hne
    · simp only [view, JotaBridge.setOp, Function.update_self] at hj
      exact hwait t hj
    · simp only [view, JotaBridge.setOp, Function.update_of_ne hne] at hj
      exact h.waiting j t hj

/-- To an await that holds nothing. -/
theorem setOp_free (h : Control b) (i : OpRef) (op : Op) (hcut : op.cutting = none)
    (hwait : op.waiting = none) : Control (b.setOp i op) := by
  refine h.setOp i op ?_ ?_ ?_
  · intro hholds
    simp only [Op.holds, hcut, hwait, Option.isSome_none, Bool.or_false, Bool.false_eq_true]
      at hholds
  · intro n hn
    rw [hcut] at hn
    cases hn
  · intro t ht
    rw [hwait] at ht
    cases ht

/-- No operation waits with the lock while another has it and runs. -/
theorem only (h : Control b) {i j : OpRef} (hi : Locked b i) (hj : (b.ops j).holds = true) :
    False := by
  have hlock : b.turnLock = some j := h.lock j hj
  obtain rfl : i = j := Option.some.inj (hi.lock.symm.trans hlock)
  rw [hi.not_holds] at hj
  cases hj

theorem quiet_of_liveTurn (h : Control b) (hlive : b.liveTurn = none) : b.quiet := by
  intro t
  cases ht : (b.turns t).live with
  | false => rfl
  | true =>
    have hactive : b.activeTurn = some t := h.unique t ht
    simp only [liveTurn, hactive, Option.filter_some, ht, if_true, reduceCtorEq] at hlive

theorem setRunning {endSent : Option Nat} (h : Control b)
    (heff : Running.Effect cfg endSent (b.running t) r) : Control (b.setRunning t r) := by
  have hlive : (b.turns t).live = true := heff.live
  have hactive : b.activeTurn = some t := h.unique t hlive
  have hothers : ∀ t', (b.turns t').live = true → t' = t :=
    fun t' ht' => Option.some.inj ((h.unique t' ht').symm.trans hactive)
  have hbusy : ¬ b.quiet := by
    intro hquiet
    rw [hquiet t] at hlive
    cases hlive
  have hself : (b.setRunning t r).turns t = r.task := Function.update_self _ _ _
  have hlive' : ∀ t', ((b.setRunning t r).turns t').live = true → t' = t := by
    intro t' ht'
    by_contra hne
    rw [show (b.setRunning t r).turns t' = b.turns t' from Function.update_of_ne hne _ _] at ht'
    exact hne (hothers t' ht')
  have hstarted : ∀ t', ((b.setRunning t r).turns t').started = true →
      t' = t ∧ r.task.started = true := by
    intro t' ht'
    obtain rfl : t' = t := hlive' t' (TurnTask.live_of_started ht')
    exact ⟨rfl, hself ▸ ht'⟩
  have houtcome : r.task.started = true ∧ r.activeTurnId = some r.task.id ∧
      r.task.id ≤ r.out.turnSeq ∨ r.task.live = false ∧ r.activeTurnId = none := by
    refine heff.outcome (fun hs => ⟨h.named t hs, h.idLe t hs⟩) fun hs => ?_
    cases hid : b.activeTurnId with
    | none => exact hid
    | some n =>
      obtain ⟨t', ht', -⟩ := h.active n hid
      obtain rfl : t' = t := hothers t' (TurnTask.live_of_started ht')
      rw [show (b.turns t').started = true from ht'] at hs
      cases hs
  have hnamed : r.task.started = true →
      r.activeTurnId = some r.task.id ∧ r.task.id ≤ r.out.turnSeq := by
    intro hs
    rcases houtcome with hgoes | ⟨hover, -⟩
    · exact hgoes.2
    · rw [TurnTask.live_of_started hs] at hover
      cases hover
  refine ⟨?_, ?_, ?_, ?_, h.activeLt, ?_, h.lock, ?_, h.pushId, h.pushLe.trans heff.later.seq, ?_,
    h.waiting, h.connecting⟩
  · intro t' ht'
    refine Bool.eq_false_iff.mpr fun hl => ?_
    obtain rfl : t' = t := hlive' t' hl
    exact absurd (h.activeLt t' hactive) (Nat.not_lt.mpr ht')
  · intro t' ht'
    obtain rfl : t' = t := hlive' t' ht'
    exact hactive
  · intro t' ht'
    obtain ⟨rfl, hs⟩ := hstarted t' ht'
    exact (hnamed hs).1.trans (congrArg (fun task => some task.id) hself.symm)
  · intro n hn
    rcases houtcome with ⟨hs, hid, -⟩ | ⟨-, hnone⟩
    · refine ⟨t, (congrArg TurnTask.started hself).trans hs, ?_⟩
      exact (congrArg TurnTask.id hself).trans (Option.some.inj (hid.symm.trans hn))
    · rw [show r.activeTurnId = some n from hn] at hnone
      cases hnone
  · intro t' ht'
    obtain ⟨rfl, hs⟩ := hstarted t' ht'
    exact (congrArg TurnTask.id hself).trans_le (hnamed hs).2
  · exact fun hopen => absurd (h.alone hopen) hbusy
  · exact fun i n hi => absurd (h.cutting i n hi).2.2 hbusy

theorem setPushing (h : Control b) (hlive : env.turnLive = b.liveTurn.isSome)
    (hfree : env.lockFree = b.turnLock.isNone) (heff : Pushing.Effect env b.pushing p) :
    Control (b.setPushing p) := by
  have hsame : ∀ p : Pushing, p.push.turnId = b.push.turnId →
      (p.push.turnOpen = true → b.push.turnOpen = true) → p.push.worker.connecting = none →
      b.out.turnSeq ≤ p.out.turnSeq → Control (b.setPushing p) := by
    intro p hid hopen hconnecting hseq
    refine ⟨h.fresh, h.unique, h.named, h.active, h.activeLt, fun t ht => (h.idLe t ht).trans hseq,
      h.lock, fun ho => h.alone (hopen ho), ?_, ?_, ?_, h.waiting, ?_⟩
    · intro ho
      rw [show (b.setPushing p).view.pushId = b.push.turnId from hid]
      exact h.pushId (hopen ho)
    · exact (le_of_eq hid).trans (h.pushLe.trans hseq)
    · intro i n hi
      rw [show (b.setPushing p).view.pushId = b.push.turnId from hid]
      exact h.cutting i n hi
    · intro n hn
      rw [show (b.setPushing p).view.connecting = none from hconnecting] at hn
      cases hn
  have hseq : b.out.turnSeq ≤ p.out.turnSeq := heff.later.seq
  cases heff with
  | opened n hn hclosed hlive' hfree' hout hid hopen htts haudio hconnecting =>
    have hturnSeq : p.out.turnSeq = n := by rw [hout]; rfl
    have hquiet : b.quiet := by
      refine h.quiet_of_liveTurn ?_
      rw [hlive', eq_comm, Option.isSome_eq_false_iff, Option.isNone_iff_eq_none] at hlive
      exact hlive
    have hlock : b.turnLock = none := by
      rw [hfree', eq_comm, Option.isNone_iff_eq_none] at hfree
      exact hfree
    refine ⟨h.fresh, h.unique, h.named, h.active, h.activeLt, fun t ht => (h.idLe t ht).trans hseq,
      h.lock, fun _ => hquiet, ?_, (hid.trans hturnSeq.symm).le, ?_, h.waiting, ?_⟩
    · intro _ hzero
      have hzero' : n = 0 := hid.symm.trans hzero
      rw [hn] at hzero'
      cases hzero'
    · intro i n' hi
      have hholds : (b.ops i).holds = true := by
        rw [Op.holds, show (b.ops i).cutting = some n' from hi]
        rfl
      have hheld := h.lock i hholds
      rw [show b.view.turnLock = none from hlock] at hheld
      cases hheld
    · intro n' hn'
      exact hid.trans (hconnecting n' hn').symm
  | said m hopen₀ hm hout hid hopen htts haudio hconnecting =>
    exact hsame p hid (fun _ => hopen₀) hconnecting hseq
  | connected n hconnecting₀ hopen₀ hid₀ hout hid hopen htts haudio hconnecting =>
    exact hsame p (hid.trans hid₀.symm) (fun _ => hopen₀) hconnecting hseq
  | refused n hconnecting₀ hcut hout hid hopen htts haudio hconnecting =>
    exact hsame p hid (fun ho => hopen ▸ ho) hconnecting hseq
  | moves hm =>
    refine hsame p hm.turnId ?_ hm.connecting hseq
    intro ho
    rcases hm.turn with ⟨hopen, -⟩ | hended
    · exact hopen ▸ ho
    · rw [hended.turnOpen] at ho
      cases ho

theorem acquire (h : Control b) (i : OpRef) (hfree : b.turnLock = none) :
    Control { b with turnLock := some i } := by
  refine ⟨h.fresh, h.unique, h.named, h.active, h.activeLt, h.idLe, ?_, h.alone, h.pushId, h.pushLe,
    h.cutting, h.waiting, h.connecting⟩
  intro j hj
  have hlock := h.lock j hj
  rw [show b.view.turnLock = none from hfree] at hlock
  cases hlock

theorem release (h : Control b) {i : OpRef} (hlock : b.turnLock = some i)
    (hholds : (b.ops i).holds = false) : Control { b with turnLock := none } := by
  refine ⟨h.fresh, h.unique, h.named, h.active, h.activeLt, h.idLe, ?_, h.alone, h.pushId, h.pushLe,
    h.cutting, h.waiting, h.connecting⟩
  intro j hj
  obtain rfl : i = j := Option.some.inj (hlock.symm.trans (h.lock j hj))
  rw [show (b.ops i).holds = true from hj] at hholds
  cases hholds

theorem leave (h : Control b) (i : OpRef) : Control (b.leave i) := by
  have hidle : Control (b.setOp i {}) := h.setOp_free i {} rfl rfl
  have hholds : ((b.setOp i {}).ops i).holds = false := by
    rw [setOp_self]
    rfl
  unfold JotaBridge.leave
  split
  · rename_i hlock
    exact hidle.release hlock hholds
  · exact hidle

theorem forget (h : Control b) {i : OpRef} (hi : Locked b i) (hdone : (b.turns t).live = false) :
    Control (b.forget t) := by
  unfold JotaBridge.forget
  split
  · rename_i hactive
    refine ⟨h.fresh, ?_, h.named, h.active, ?_, h.idLe, h.lock, h.alone, h.pushId, h.pushLe,
      h.cutting, ?_, h.connecting⟩
    · intro t' ht'
      obtain rfl : t' = t := Option.some.inj ((h.unique t' ht').symm.trans hactive)
      rw [show (b.turns t').live = true from ht'] at hdone
      cases hdone
    · rintro t' ⟨⟩
    · intro j t' hj
      refine (h.only hi (j := j) ?_).elim
      rw [Op.holds, show (b.ops j).waiting = some t' from hj]
      exact Bool.or_true _
  · exact h

theorem createTurn (h : Control b) {i : OpRef} (hi : Locked b i) (hquiet : b.quiet)
    (hclosed : b.push.turnOpen = false) : Control b.createTurn := by
  have hlive : ∀ t, (b.createTurn.turns t).live = true → t = b.turnCount := by
    intro t ht
    by_contra hne
    rw [show b.createTurn.turns t = b.turns t from Function.update_of_ne hne _ _, hquiet t] at ht
    cases ht
  have hstarted : ∀ t, (b.createTurn.turns t).started = true → False := by
    intro t ht
    obtain rfl : t = b.turnCount := hlive t (TurnTask.live_of_started ht)
    rw [show b.createTurn.turns b.turnCount = { pc := .created } from Function.update_self _ _ _]
      at ht
    cases ht
  refine ⟨?_, ?_, fun t ht => (hstarted t ht).elim, ?_, ?_, fun t ht => (hstarted t ht).elim, h.lock,
    ?_, h.pushId, h.pushLe, ?_, ?_, h.connecting⟩
  · intro t ht
    refine Bool.eq_false_iff.mpr fun hl => ?_
    obtain rfl : t = b.turnCount := hlive t hl
    exact Nat.not_succ_le_self _ ht
  · intro t ht
    exact congrArg some (hlive t ht).symm
  · intro n hn
    obtain ⟨t, ht, -⟩ := h.active n hn
    have hl : (b.turns t).live = true := TurnTask.live_of_started ht
    rw [hquiet t] at hl
    cases hl
  · rintro t ⟨⟩
    exact Nat.lt_succ_self _
  · intro hopen
    rw [show b.push.turnOpen = true from hopen] at hclosed
    cases hclosed
  · intro j n hj
    refine (h.only hi (j := j) ?_).elim
    rw [Op.holds, show (b.ops j).cutting = some n from hj]
    rfl
  · intro j t hj
    refine (h.only hi (j := j) ?_).elim
    rw [Op.holds, show (b.ops j).waiting = some t from hj]
    exact Bool.or_true _

theorem closePush (h : Control b) (by_ : PushCloser) :
    Control (b.setPushing (b.pushing.closePushTurn b.push.turnId by_)) := by
  cases hopen : b.push.turnOpen with
  | false =>
    rw [Pushing.closePushTurn_of_closed (p := b.pushing) hopen]
    exact h
  | true =>
    rw [Pushing.closePushTurn_of_open (p := b.pushing) hopen]
    refine ⟨h.fresh, h.unique, h.named, h.active, h.activeLt, h.idLe, h.lock, ?_, ?_, h.pushLe,
      h.cutting, h.waiting, h.connecting⟩
    · rintro ⟨⟩
    · rintro ⟨⟩

theorem event (h : Control b) (hev : Event b b') : Control b' := by
  cases hev with
  | enqueue q =>
    unfold enqueuePush
    split
    · exact h
    · refine h.keep ?_
      rcases b.push.worker.respawn_cases with heq | ⟨hdone, heq⟩
      · simp only [view, heq]
      · simp only [view, heq, Worker.connecting, hdone]
  | cancelTask t => exact h.keep (view_cancelTask b t)
  | cancelWorker =>
    refine h.keep ?_
    simp only [view, Worker.connecting, Session.cancelWorker_pc]
  | cancelOps ops hops =>
    refine h.keep ?_
    simp only [view, View.mk.injEq, true_and, and_true]
    funext i
    rcases hops i with heq | heq
    · rw [heq]
    · rw [heq, Session.cancelOp_pc]
  | runs i op hop =>
    refine h.setOp_free i op ?_ ?_
    · rw [Op.cutting, hop]
    · rw [Op.waiting, hop]
  | notes i =>
    exact h.setOp i _ (h.lock i) (h.cutting i) (h.waiting i)
  | acquires i _ hfree => exact h.acquire i hfree
  | releases i hi => exact h.release hi.lock hi.not_holds
  | forgets i t hi hdone => exact h.forget hi hdone
  | waitsLock i pc _ hpc =>
    rcases hpc with rfl | ⟨rfl, -⟩
    · exact h.setOp_free i _ rfl rfl
    · exact h.setOp_free i _ rfl rfl
  | choosesTurn i t => exact h.setOp_free i _ rfl rfl
  | cancels i t wait hi hlive _ hwait =>
    have hcancelled : Control ((b.did (.cancelled (b.ops i).turnMark t)).cancelTask t) :=
      h.keep (view_cancelTask (b.did _) t)
    have hlock : ((b.did (.cancelled (b.ops i).turnMark t)).cancelTask t).turnLock = some i :=
      (congrArg View.turnLock (view_cancelTask (b.did _) t)).trans hi.lock
    have hactive : ((b.did (.cancelled (b.ops i).turnMark t)).cancelTask t).activeTurn = some t :=
      (congrArg View.activeTurn (view_cancelTask (b.did _) t)).trans (live_of_liveTurn hlive).1
    rcases hwait with rfl | ⟨-, id, rfl, -⟩
    · refine hcancelled.setOp i _ (fun _ => hlock) (by rintro n ⟨⟩) ?_
      rintro t' ⟨⟩
      exact hactive
    · refine hcancelled.setOp i _ (fun _ => hlock) (by rintro n ⟨⟩) ?_
      rintro t' ⟨⟩
      exact hactive
  | drops i s p waits hcuts htts hdrop =>
    have hpush := hdrop.push
    have hdropped : Control (b.setPushing p) := by
      refine h.keep ?_
      simp only [view, JotaBridge.setPushing, hpush, hdrop.out.seq]
    have hid : (b.setPushing p).push.turnId = b.push.turnId := by
      simp only [JotaBridge.setPushing, hpush]
    refine hdropped.setOp i _ (fun _ => hcuts.lock) ?_ ?_
    · intro n hn
      have hn' : b.push.turnId = n := by
        cases waits <;> exact Option.some.inj hn
      subst hn'
      exact ⟨hid, hcuts.id, hcuts.quiet⟩
    · intro t ht
      cases waits <;> cases ht
  | closesCut i n s hpc =>
    have hcutting : (b.ops i).cutting = some n := by rw [Op.cutting, hpc]
    have hholds : (b.ops i).holds = true := by rw [Op.holds, hcutting]; rfl
    refine h.setOp i _ (fun _ => h.lock i hholds) ?_ ?_
    · rintro n' ⟨⟩
      exact h.cutting i n hcutting
    · rintro t ⟨⟩
  | aborts i hcuts =>
    refine h.setOp i _ (fun _ => ?_) ?_ ?_
    · rcases hcuts with hpc | ⟨hcuts, -⟩
      · refine h.lock i ?_
        rw [Op.holds, Op.cutting, show (b.view.ops i).pc = _ from hpc]
        rfl
      · exact hcuts.lock
    · rintro n ⟨⟩
      rcases hcuts with hpc | ⟨hcuts, -⟩
      · refine h.cutting i _ ?_
        rw [Op.cutting, show (b.view.ops i).pc = _ from hpc]
      · exact ⟨rfl, hcuts.id, hcuts.quiet⟩
    · rintro t ⟨⟩
  | closesPush by_ _ hopen => exact h.closePush by_
  | creates i hi hquiet hclosed => exact h.createTurn hi hquiet hclosed
  | leaves i => exact h.leave i
  | _ => exact h

end Control

end JotaBridge

end Bridge
