-- SUMMARY: What an operation does from one await to the next is a sequence of events of the session.
import JotaGateway.Bridge.Targets

/-!
# The operations as events

One lemma for each function of an operation, from its end backwards as they
stand in the source.
-/

namespace Bridge

namespace JotaBridge

variable {cfg : Config} {b b' : JotaBridge} {i : OpRef} {t : TurnRef} {n : Nat} {id : Option Nat}

-- ---------------------------------------------------------------------------
-- An operation that runs
-- ---------------------------------------------------------------------------

theorem dropping_of_running (h : (b.ops i).pc = .running) : (b.ops i).dropping = none := by
  rw [Op.dropping, h]

theorem suspend_running (h : (b.ops i).pc = .running) : b.suspend i .running = b := by
  have heq : ({ b.ops i with pc := .running } : Op) = b.ops i := by
    rw [← h]
  unfold suspend setOp
  rw [heq, Function.update_eq_self]

theorem suspend_suspend (b : JotaBridge) (i : OpRef) (pc pc' : OpPc) :
    (b.suspend i pc).suspend i pc' = b.suspend i pc' := by
  simp only [suspend, setOp, Function.update_self, Function.update_idem]

theorem Inv.marks (h : Inv b) (i : OpRef) :
    (b.ops i).pushId ≤ (b.ops i).pushMark ∧ (b.ops i).pushMark ≤ b.out.turnSeq :=
  ⟨(h.fair.ops i).pushId, (h.fair.ops i).pushMark⟩

/-- Out of an await that holds no stream. -/
theorem run_event (h : Inv b) (hdropping : (b.ops i).dropping = none) :
    Event b (b.suspend i .running) :=
  .runs i _ rfl hdropping (h.marks i)

theorem leave_events (h : (b.ops i).pc = .running) : Events b (b.leave i) :=
  .single (.leaves i (dropping_of_running h))

theorem withLock_events {wait : OpPc} {k : JotaBridge → JotaBridge} (hpc : (b.ops i).pc = .running)
    (hk : b.turnLock = none → Events { b with turnLock := some i } (k { b with turnLock := some i }))
    (hwait : Event b (b.suspend i wait)) : Events b (b.withLock i wait k) := by
  unfold withLock
  split
  · rename_i hfree
    have hfree := Option.isNone_iff_eq_none.mp hfree
    exact .head (.acquires i hpc hfree) (hk hfree)
  · exact .single hwait

-- ---------------------------------------------------------------------------
-- Cutting a push
-- ---------------------------------------------------------------------------

theorem afterCut_events (hinv : Inv b) (hi : Locked b i)
    (hsend : (b.ops i).kind = .send → b.quiet ∧ b.push.turnOpen = false)
    (hn : n ≠ 0 → n = b.push.turnId ∧ b.push.turnOpen = false) : Events b (b.afterCut i n) := by
  unfold afterCut
  split
  · rename_i hkind
    obtain ⟨hquiet, hclosed⟩ := hsend hkind
    split
    · exact leave_events hi.running
    · rename_i hclosing
      have hcreates : Event b b.createTurn :=
        .creates i hi hquiet hclosed (Bool.eq_false_iff.mpr hclosing)
      exact .head hcreates (leave_events hi.running)
  · split
    · exact leave_events hi.running
    · rename_i hzero
      obtain ⟨rfl, hclosed⟩ := hn hzero
      have hspeaks : Event b (b.send (.interrupted (some b.push.turnId))) := by
        refine .speaks _ (.inr (.inr ⟨_, rfl, ?_⟩))
        intro k hk ho
        cases hk
        exact closed_iff.mp (hinv.wire.pushEnded ho hclosed hzero)
      exact .head hspeaks (leave_events hi.running)
  · exact leave_events hi.running
  · exact leave_events hi.running

/-- What `_cut_push` knows of the push it cuts. -/
structure CutAt (b : JotaBridge) (i : OpRef) (n : Nat) : Prop where
  lock : b.turnLock = some i
  dropping : (b.ops i).dropping = none
  id : b.push.turnId = n
  zero : n ≠ 0
  quiet : b.quiet
  mark : n ≤ (b.ops i).pushMark

theorem Inv.cutAt (h : Inv b) (hcutting : (b.ops i).cutting = some n)
    (hdropping : (b.ops i).dropping = none) : CutAt b i n := by
  obtain ⟨hid, hzero, hquiet⟩ := h.control.cutting i n hcutting
  have hholds : (b.ops i).holds = true := by
    rw [Op.holds, hcutting]
    rfl
  exact ⟨h.control.lock i hholds, hdropping, hid, hzero, hquiet, (h.fair.ops i).cutting n hcutting⟩

theorem Cuts.cutAt (h : Cuts b i) : CutAt b i b.push.turnId :=
  ⟨h.lock, dropping_of_running h.running, rfl, h.id, h.quiet, h.mark⟩

theorem closeCut_events (hinv : Inv b) (h : CutAt b i n)
    (hsilent : b.pushSilent ∨ ∃ j, (b.ops j).cutting = some b.push.turnId) :
    Events b ((b.suspend i .running).closeCut i n) := by
  obtain rfl := h.id
  have hcloses : Events b (b.setPushing (b.pushing.closePushTurn b.push.turnId .cut)) := by
    cases hopen : b.push.turnOpen with
    | true => exact .single (.closesPush .cut (fun _ hby => by cases hby) hopen hsilent)
    | false =>
      rw [Pushing.closePushTurn_of_closed (p := b.pushing) hopen]
      exact .refl
  have hclosed : (b.pushing.closePushTurn b.push.turnId .cut).push.turnOpen = false ∧
      (b.pushing.closePushTurn b.push.turnId .cut).push.turnId = b.push.turnId := by
    cases hopen : b.push.turnOpen with
    | true =>
      rw [Pushing.closePushTurn_of_open (p := b.pushing) hopen]
      exact ⟨rfl, rfl⟩
    | false =>
      rw [Pushing.closePushTurn_of_closed (p := b.pushing) hopen]
      exact ⟨hopen, rfl⟩
  have hdid := hcloses.tail (.didClose (b.ops i).pushMark b.push.turnId h.mark)
  have hruns := hdid.tail (run_event (hinv.events hdid) h.dropping)
  refine hruns.trans ?_
  simp only [closeCut, suspend, setOp_self]
  refine afterCut_events (hinv.events hruns) ⟨?_, h.lock⟩ ?_ ?_
  · exact congrArg Op.pc (setOp_self _ _ _)
  · exact fun _ => ⟨h.quiet, hclosed.1⟩
  · exact fun _ => ⟨hclosed.2.symm, hclosed.1⟩

theorem abortCut_events (hinv : Inv b) (h : CutAt b i n)
    (hcuts : (b.ops i).pc = .cutClose n ∨ Cuts b i ∧ b.pushSilent) :
    Events b ((b.suspend i .running).abortCut cfg i n) := by
  obtain rfl := h.id
  unfold abortCut
  split
  · have hself : ((b.suspend i .running).ops i) = { b.ops i with pc := .running } := setOp_self _ _ _
    have hsame := suspend_suspend
      (b.did (.aborted (b.ops i).pushMark b.push.turnId b.liveTurn.isSome)) i .running
      (.cutAbort b.push.turnId)
    have haborts : Event b _ := .aborts i hcuts
    rw [← hsame] at haborts
    rw [hself]
    exact .single haborts
  · refine closeCut_events hinv h ?_
    cases hcuts with
    | inl hpc =>
      refine .inr ⟨i, ?_⟩
      rw [Op.cutting, hpc]
    | inr hcuts => exact .inl hcuts.2

theorem dropCut_events (hinv : Inv b) (h : Cuts b i) :
    Events b (b.dropCut cfg i b.push.turnId) := by
  unfold dropCut
  split
  · rename_i htts
    have hsilent : b.pushSilent := hinv.tasks.push.voice htts
    have haborts : Events b ((b.suspend i .running).abortCut cfg i b.push.turnId) :=
      abortCut_events hinv h.cutAt (.inr ⟨h, hsilent⟩)
    rw [suspend_running h.running] at haborts
    exact haborts
  · rename_i s htts
    split
    · rename_i p hdrop
      exact .single (.drops i s p true h htts (Pushing.dropTts_dropped hdrop))
    · rename_i p hdrop
      exact .single (.drops i s p false h htts (Pushing.dropTts_dropped hdrop))

theorem cutPush_events {expected : Nat} (hinv : Inv b) (hi : Locked b i)
    (hsend : (b.ops i).kind = .send → b.quiet)
    (hexpected : expected = 0 ∨ expected = (b.ops i).pushId ∧ (b.ops i).kind ≠ .send) :
    Events b (b.cutPush cfg i expected) := by
  unfold cutPush
  dsimp only
  split
  · rename_i hother
    refine afterCut_events hinv hi (fun hkind => ⟨hsend hkind, ?_⟩) (absurd rfl)
    have hzero : expected = 0 := hexpected.resolve_right fun h => h.2 hkind
    cases hopen : b.push.turnOpen with
    | false => rfl
    | true =>
      have hid := hinv.control.pushId hopen
      simp only [hopen, hzero, Bool.not_true, Bool.false_or, bne_self_eq_false, Bool.false_and,
        Bool.or_false, beq_iff_eq] at hother
      exact absurd hother hid
  · rename_i hcut
    simp only [Bool.or_eq_true, Bool.not_eq_true', beq_iff_eq, Bool.and_eq_true, bne_iff_ne, ne_eq,
      not_or, Bool.not_eq_false, not_and, not_not] at hcut
    obtain ⟨⟨hopen, hid⟩, hexp⟩ := hcut
    have hmarks := hinv.marks i
    have hmark : b.push.turnId ≤ (if expected = 0 then b.out.turnSeq else (b.ops i).pushMark) ∧
        (b.ops i).pushId ≤ (if expected = 0 then b.out.turnSeq else (b.ops i).pushMark) ∧
          (if expected = 0 then b.out.turnSeq else (b.ops i).pushMark) ≤ b.out.turnSeq := by
      split
      · exact ⟨hinv.control.pushLe, hmarks.1.trans hmarks.2, Nat.le_refl _⟩
      · rename_i hne
        have hchosen := (hexpected.resolve_left hne).1
        exact ⟨(hexp hne).symm.trans hchosen ▸ hmarks.1, hmarks⟩
    have hruns : Event b (b.setOp i { b.ops i with
        pushMark := if expected = 0 then b.out.turnSeq else (b.ops i).pushMark }) :=
      .runs i _ hi.running (dropping_of_running hi.running) hmark.2
    refine .head hruns (dropCut_events (hinv.event hruns) ⟨⟨?_, hi.lock⟩, ?_, hid, ?_⟩)
    · rw [setOp_self]
      exact hi.running
    · exact hinv.control.alone hopen
    · rw [setOp_self]
      exact hmark.1

-- ---------------------------------------------------------------------------
-- Starting and cancelling a turn
-- ---------------------------------------------------------------------------

/-- It notes how many turns there are. -/
theorem mark_event (hinv : Inv b) (hpc : (b.ops i).pc = .running) :
    Event b (b.setOp i { b.ops i with turnMark := b.turnCount }) :=
  .runs i _ hpc (dropping_of_running hpc) (hinv.marks i)

theorem Inv.liveTurn_lt (hinv : Inv b) (hlive : b.liveTurn = some t) : t < b.turnCount :=
  hinv.control.activeLt t (live_of_liveTurn hlive).1

theorem startLocked_events (hinv : Inv b) (hi : Locked b i) : Events b (b.startLocked cfg i) := by
  unfold startLocked
  split
  · exact leave_events hi.running
  · split
    · rename_i t hlive
      have hmarks := mark_event hinv hi.running
      refine .head hmarks (.single (.cancels i t _ ⟨?_, hi.lock⟩ hlive ?_ (.inl rfl)))
      · rw [setOp_self]
        exact hi.running
      · rw [setOp_self]
        exact hinv.liveTurn_lt hlive
    · rename_i hnone
      exact cutPush_events hinv hi (fun _ => hinv.control.quiet_of_liveTurn hnone) (.inl rfl)

theorem startTurn_events (hinv : Inv b) (hpc : (b.ops i).pc = .running) :
    Events b (b.startTurn cfg i) := by
  unfold startTurn
  split
  · exact leave_events hpc
  · refine withLock_events hpc ?_ (.waitsLock i _ hpc (.inl rfl))
    intro hfree
    exact startLocked_events (hinv.event (.acquires i hpc hfree)) ⟨hpc, rfl⟩

theorem afterCancel_events {cancelled : Bool} (hinv : Inv b) (hpc : (b.ops i).pc = .running)
    (hkind : (b.ops i).kind ≠ .send)
    (hended : ∀ n, id = some n → b.out.senderOpen = true → .turnEnd n ∈ b.out.wire) :
    Events b (b.afterCancel cfg i cancelled id) := by
  have hcut : Events b (if (b.ops i).pushId = 0 then b.leave i
      else b.withLock i .cutLock fun b' => b'.cutPush cfg i (b.ops i).pushId) := by
    split
    · exact leave_events hpc
    · refine withLock_events hpc ?_ (.waitsLock i _ hpc (.inr ⟨rfl, hkind⟩))
      intro hfree
      exact cutPush_events (hinv.event (.acquires i hpc hfree)) ⟨hpc, rfl⟩
        (fun hsend => absurd hsend hkind) (.inr ⟨rfl, hkind⟩)
  unfold afterCancel
  dsimp only
  split
  · split
    · have hspeaks : Event b (b.send (.interrupted id)) :=
        .speaks _ (.inr (.inr ⟨id, rfl, hended⟩))
      exact .head hspeaks (leave_events hpc)
    · exact hcut
  · rename_i text _
    have hspeaks : Event b (b.send (.transcription text)) := .speaks _ (.inl ⟨text, rfl⟩)
    exact .head hspeaks (leave_events hpc)
  · exact hcut
  · exact hcut

theorem cancelLocked_events (hinv : Inv b) (hi : Locked b i) (hkind : (b.ops i).kind ≠ .send)
    (hmark : t < (b.ops i).turnMark) (hnames : ∀ n, id = some n → b.Names t n) :
    Events b (b.cancelLocked cfg i t id) := by
  unfold cancelLocked
  split
  · rename_i hlive
    have hactive : b.activeTurn = some t := hinv.control.unique t hlive
    have hturn : b.liveTurn = some t := by
      rw [liveTurn, hactive, Option.filter_some, if_pos hlive]
    exact .single (.cancels i t _ hi hturn hmark (.inr ⟨hkind, id, rfl, hnames⟩))
  · have hreleases : Event b { b with turnLock := none } := .releases i hi
    refine .head hreleases (afterCancel_events (hinv.event hreleases) hi.running hkind ?_)
    exact fun _ hid => by cases hid

/-- The turn that is live has the id that is active. -/
theorem Inv.names_active (hinv : Inv b) (hlive : b.liveTurn = some t) :
    ∀ n, b.activeTurnId = some n → b.Names t n := by
  intro n hn _
  obtain ⟨t', hstarted, hid⟩ := hinv.control.active n hn
  have hactive := hinv.control.unique t' (TurnTask.live_of_started hstarted)
  obtain rfl : t' = t := Option.some.inj (hactive.symm.trans (live_of_liveTurn hlive).1)
  exact .inl ⟨hstarted, hid⟩

theorem cancelTurn_events (hinv : Inv b) (hpc : (b.ops i).pc = .running)
    (hkind : (b.ops i).kind ≠ .send) : Events b (b.cancelTurn cfg i) := by
  unfold cancelTurn
  split
  · exact afterCancel_events hinv hpc hkind nofun
  · rename_i t hlive
    have hmarks := mark_event hinv hpc
    have hmarked := hinv.event hmarks
    have hpc' : ((b.setOp i { b.ops i with turnMark := b.turnCount }).ops i).pc = .running := by
      rw [setOp_self]
      exact hpc
    have hkind' : ((b.setOp i { b.ops i with turnMark := b.turnCount }).ops i).kind ≠ .send := by
      rw [setOp_self]
      exact hkind
    have hlt : t < ((b.setOp i { b.ops i with turnMark := b.turnCount }).ops i).turnMark := by
      rw [setOp_self]
      exact hinv.liveTurn_lt hlive
    refine .head hmarks (withLock_events hpc' ?_ (.choosesTurn i t hpc' hkind' hlive hlt))
    intro hfree
    exact cancelLocked_events (hmarked.event (.acquires i hpc' hfree)) ⟨hpc', rfl⟩ hkind' hlt
      (hinv.names_active hlive)

-- ---------------------------------------------------------------------------
-- The operations
-- ---------------------------------------------------------------------------

theorem notePush_event (hinv : Inv b) (hpc : (b.ops i).pc = .running) : Event b (b.notePush i) := by
  refine .runs i _ hpc (dropping_of_running hpc) ⟨?_, Nat.le_refl _⟩
  dsimp only
  split
  · exact hinv.control.pushLe
  · exact Nat.zero_le _

/-- `_cancel_turn` for the turn and the push there are now. -/
theorem noteCancel_events (hinv : Inv b) (hpc : (b.ops i).pc = .running)
    (hkind : (b.ops i).kind ≠ .send) : Events b ((b.notePush i).cancelTurn cfg i) := by
  have hnotes := notePush_event hinv hpc
  refine .head hnotes (cancelTurn_events (hinv.event hnotes) ?_ ?_)
  · rw [notePush, setOp_self]
    exact hpc
  · rw [notePush, setOp_self]
    exact hkind

theorem onPartial_events {text : PyStr} (hinv : Inv b) (hpc : (b.ops i).pc = .running)
    (hkind : (b.ops i).kind ≠ .send) : Events b (b.onPartial cfg i text) := by
  unfold onPartial
  split
  · have hspeaks : Event b (b.send (.transcriptionPartial text)) := .speaks _ (.inr (.inl ⟨_, rfl⟩))
    refine .head hspeaks ?_
    dsimp only
    split
    · exact noteCancel_events (hinv.event hspeaks) hpc hkind
    · exact leave_events hpc
  · exact leave_events hpc

theorem begin_events {kind : OpKind} (hinv : Inv b) (h : b.begin cfg i kind = some b') :
    Events b b' := by
  unfold JotaBridge.begin at h
  split at h
  · rename_i hpc
    have hdropping : (b.ops i).dropping = none := by
      rw [Op.dropping, hpc]
    have hruns : Event b (b.setOp i { pc := .running, kind := kind }) :=
      .runs i _ rfl hdropping ⟨Nat.le_refl 0, Nat.zero_le _⟩
    have hbegun := hinv.event hruns
    have hpc' : ((b.setOp i { pc := .running, kind := kind }).ops i).pc = .running := by
      rw [setOp_self]
    have hkind' : ((b.setOp i { pc := .running, kind := kind }).ops i).kind = kind := by
      rw [setOp_self]
    cases h
    refine .head hruns ?_
    cases kind with
    | send => exact startTurn_events hbegun hpc'
    | cancel =>
      refine noteCancel_events hbegun hpc' ?_
      rw [hkind']
      exact nofun
    | bargeIn text =>
      refine onPartial_events hbegun hpc' ?_
      rw [hkind']
      exact nofun
    | transcript text =>
      refine cancelTurn_events hbegun hpc' ?_
      rw [hkind']
      exact nofun
  · cases h

theorem opCancelled_events (hdropping : (b.ops i).dropping = none) (h : b.opCancelled i = some b') :
    Events b b' := by
  unfold opCancelled at h
  split at h
  · cases h
  · cases h
  · cases h
    exact .single (.notes i hdropping)
  · cases h
    exact .single (.notes i hdropping)
  · cases h
    exact .single (.leaves i hdropping)

/-- It is cancelled with a stream in hand. -/
theorem opCancelled_loses {s : StreamRef} (hdropping : (b.ops i).dropping = some s)
    (h : b.opCancelled i = some b') : b' = b.leave i := by
  unfold Op.dropping at hdropping
  split at hdropping
  · rename_i hpc
    simp only [opCancelled, hpc, Option.some.injEq] at h
    exact h.symm
  · cases hdropping

/-- The turn it waited for is done. -/
theorem Inv.waited (hinv : Inv b) (hwaiting : (b.ops i).waiting = some t)
    (hdone : (b.turns t).live = false) :
    b.turnLock = some i ∧ b.activeTurn = some t ∧ b.quiet ∧ t ∉ b.reports := by
  have hholds : (b.ops i).holds = true := by
    rw [Op.holds, hwaiting]
    exact Bool.or_true _
  have hactive := hinv.control.waiting i t hwaiting
  refine ⟨hinv.control.lock i hholds, hactive, ?_, (hinv.fair.ops i).waiting t hwaiting⟩
  intro t'
  refine Bool.eq_false_iff.mpr fun hlive => ?_
  obtain rfl : t' = t := Option.some.inj ((hinv.control.unique t' hlive).symm.trans hactive)
  rw [hdone] at hlive
  cases hlive

theorem opResume_events {a : OpAct} (hinv : Inv b) (h : b.opResume cfg i a = some b') :
    Events b b' := by
  have hself : ((b.suspend i .running).ops i) = { b.ops i with pc := .running } := setOp_self _ _ _
  have hpc : ((b.suspend i .running).ops i).pc = .running := by
    rw [hself]
  unfold opResume at h
  dsimp only at h
  split at h
  case h_1 hawait =>
    split at h
    · rename_i hfree
      cases h
      have hruns : Event b (b.suspend i .running) := run_event hinv (by rw [Op.dropping, hawait])
      have hacquires : Event (b.suspend i .running) { b.suspend i .running with turnLock := some i } :=
        .acquires i hpc (Option.isNone_iff_eq_none.mp hfree)
      exact .head hruns (.head hacquires
        (startLocked_events ((hinv.event hruns).event hacquires) ⟨hpc, rfl⟩))
    · cases h
  case h_2 t hawait =>
    split at h
    · cases h
    · rename_i hdone
      have hdone := Bool.eq_false_iff.mpr hdone
      obtain ⟨hlock, -, hquiet, -⟩ := hinv.waited (t := t) (by rw [Op.waiting, hawait]) hdone
      have hruns : Event b (b.suspend i .running) := run_event hinv (by rw [Op.dropping, hawait])
      have hforgets : Event (b.suspend i .running) ((b.suspend i .running).forget t) :=
        .forgets i t ⟨hpc, hlock⟩ hdone
      have hforgotten := (hinv.event hruns).event hforgets
      have hsame : ((b.suspend i .running).forget t).ops = (b.suspend i .running).ops ∧
          ((b.suspend i .running).forget t).turnLock = some i ∧
            ((b.suspend i .running).forget t).quiet := by
        unfold forget
        split <;> exact ⟨rfl, hlock, hquiet⟩
      have hpc' : (((b.suspend i .running).forget t).ops i).pc = .running := by
        rw [hsame.1]
        exact hpc
      refine .head hruns (.head hforgets ?_)
      split at h
      · cases h
        exact leave_events hpc'
      · cases h
        exact cutPush_events hforgotten ⟨hpc', hsame.2.1⟩ (fun _ => hsame.2.2) (.inl rfl)
  case h_3 n s hawait =>
    cases h
    exact .single (.closesCut i n s hawait)
  case h_4 n hawait =>
    cases h
    have hcut : CutAt b i n :=
      hinv.cutAt (by rw [Op.cutting, hawait]) (by rw [Op.dropping, hawait])
    exact abortCut_events hinv hcut (.inl hawait)
  case h_5 n hawait =>
    cases h
    have hcutting : (b.ops i).cutting = some n := by
      rw [Op.cutting, hawait]
    have hcut : CutAt b i n := hinv.cutAt hcutting (by rw [Op.dropping, hawait])
    exact closeCut_events hinv hcut (.inr ⟨i, hcut.id ▸ hcutting⟩)
  case h_6 t id hawait =>
    split at h
    · rename_i hfree
      cases h
      have hkind : (b.ops i).kind ≠ .send := by
        refine (hinv.fair.ops i).kind ?_
        rw [Op.choosing, hawait]
      have hmark := (hinv.fair.ops i).turnMark t id hawait
      have hnames : ∀ n, id = some n → b.Names t n := by
        intro n hn
        subst hn
        exact names_iff.mp (hinv.wire.chosen i t n (.inl hawait))
      have hruns : Event b (b.suspend i .running) := run_event hinv (by rw [Op.dropping, hawait])
      have hacquires : Event (b.suspend i .running) { b.suspend i .running with turnLock := some i } :=
        .acquires i hpc (Option.isNone_iff_eq_none.mp hfree)
      refine .head hruns (.head hacquires
        (cancelLocked_events ((hinv.event hruns).event hacquires) ⟨hpc, rfl⟩ ?_ ?_ hnames))
      · exact fun hsend => hkind ((congrArg Op.kind hself).symm.trans hsend)
      · exact (congrArg Op.turnMark hself).symm ▸ hmark
    · cases h
  case h_7 t id hawait =>
    split at h
    · cases h
    · rename_i hdone
      have hdone := Bool.eq_false_iff.mpr hdone
      obtain ⟨hlock, hactive, hquiet, hnew⟩ :=
        hinv.waited (t := t) (by rw [Op.waiting, hawait]) hdone
      have hruns : Event b (b.suspend i .running) := run_event hinv (by rw [Op.dropping, hawait])
      have hforget : ∀ c : JotaBridge, c.activeTurn = some t → c.forget t = { c with activeTurn := none } :=
        fun c hc => if_pos hc
      split at h
      · cases h
        have hforgets : Event (b.suspend i .running) ((b.suspend i .running).forget t) :=
          .forgets i t ⟨hpc, hlock⟩ hdone
        refine .head hruns (.head hforgets (leave_events ?_))
        rw [hforget (b.suspend i .running) hactive]
        exact hpc
      · cases h
        have hreports : Event (b.suspend i .running)
            { b.suspend i .running with reports := b.reports ++ [t] } :=
          .reports i t ⟨hpc, hlock⟩ hdone hactive hnew
        have hforgets : Event { b.suspend i .running with reports := b.reports ++ [t] }
            { b.suspend i .running with reports := b.reports ++ [t], activeTurn := none } := by
          have hev : Event { b.suspend i .running with reports := b.reports ++ [t] }
              ({ b.suspend i .running with reports := b.reports ++ [t] }.forget t) :=
            .forgets i t ⟨hpc, hlock⟩ hdone
          rw [hforget { b.suspend i .running with reports := b.reports ++ [t] } hactive] at hev
          exact hev
        have hreleases : Event
            { b.suspend i .running with reports := b.reports ++ [t], activeTurn := none }
            { b.suspend i .running with
              reports := b.reports ++ [t], activeTurn := none, turnLock := none } :=
          .releases i ⟨hpc, hlock⟩
        have hkind : (b.ops i).kind ≠ .send := by
          refine (hinv.fair.ops i).kind ?_
          rw [Op.choosing, hawait]
        rw [hforget (b.suspend i .running) hactive]
        refine .head hruns (.head hreports (.head hforgets (.head hreleases ?_)))
        refine afterCancel_events
          ((((hinv.event hruns).event hreports).event hforgets).event hreleases) hpc ?_ ?_
        · exact fun hsend => hkind ((congrArg Op.kind hself).symm.trans hsend)
        · intro n hn ho
          subst hn
          refine (names_iff.mp (hinv.wire.chosen i t n (.inr hawait)) ho).resolve_left fun hgoes => ?_
          rw [TurnTask.live_of_started hgoes.1] at hdone
          cases hdone
  case h_8 hawait =>
    split at h
    · rename_i hfree
      cases h
      have hkind : (b.ops i).kind ≠ .send := by
        refine (hinv.fair.ops i).kind ?_
        rw [Op.choosing, hawait]
      have hruns : Event b (b.suspend i .running) := run_event hinv (by rw [Op.dropping, hawait])
      have hacquires : Event (b.suspend i .running) { b.suspend i .running with turnLock := some i } :=
        .acquires i hpc (Option.isNone_iff_eq_none.mp hfree)
      have hkind' : ((b.suspend i .running).ops i).kind ≠ .send :=
        fun hsend => hkind ((congrArg Op.kind hself).symm.trans hsend)
      refine .head hruns (.head hacquires (cutPush_events ((hinv.event hruns).event hacquires)
        ⟨hpc, rfl⟩ (fun hsend => absurd hsend hkind') (.inr ⟨?_, hkind'⟩)))
      exact (congrArg Op.pushId hself).symm
    · cases h
  case h_9 => cases h

/-- What an operation does between two awaits. -/
theorem opStep_change {a : OpAct} (hinv : Inv b) (h : b.opStep cfg i a = some b') :
    Events b b' ∨ (b.ops i).skipsClose = true ∧ b' = b.leave i := by
  unfold opStep at h
  split at h
  · split at h
    · rename_i hreq
      cases hdropping : (b.ops i).dropping with
      | none => exact .inl (opCancelled_events hdropping h)
      | some s =>
        refine .inr ⟨?_, opCancelled_loses hdropping h⟩
        rw [Op.skipsClose, hreq, hdropping]
        rfl
    · cases h
  · split at h
    · cases h
    · exact .inl (opResume_events hinv h)

end JotaBridge

end Bridge
