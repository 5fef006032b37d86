-- SUMMARY: The teardown of a session as changes of it: one holder of the lock at a time, and each step finds what those before it have settled.
import JotaGateway.Base.Transition
import JotaGateway.Bridge.Operations
import JotaGateway.Bridge.Winding

/-!
# The callers of `close_all`

One lemma for each function of `close_all`, from its end backwards as they
stand in the model. `d` counts the steps of the teardown that have started.
-/

namespace Bridge

-- ---------------------------------------------------------------------------
-- How far a teardown has come
-- ---------------------------------------------------------------------------

/-- The steps of the teardown in order. -/
def CloseStep.order : List CloseStep :=
  [.unregister, .turn, .worker, .backlog, .audio, .tts, .push, .tasks, .transcriber, .count,
    .tracker, .closed]

/-- How many of them have started where the holder of `_close_lock` is suspended. -/
def CloserPc.depth : CloserPc → Nat
  | .idle | .close1008 | .lock => 0
  | .turn _ => 2
  | .worker => 3
  | .audio _ => 5
  | .tts _ => 6
  | .tasks => 8
  | .transcriber => 9
  | .tracker => 11

/-- Suspended with `_close_lock`. -/
def CloserPc.within (pc : CloserPc) : Bool := decide (0 < pc.depth)

/-- What the teardown has settled once `d` of its steps have started. -/
structure JotaBridge.Settled (b : JotaBridge) (d : Nat) : Prop where
  closing : 0 < d → b.closing = true
  spent : 2 ≤ d → ∀ t, (b.turns t).live = true → (b.turns t).doomed = true
  endSent : d ≤ 1 → b.turnEndSentAtClose = none
  ended : 3 ≤ d → ∀ t, (b.turns t).started = true → b.turnEndSentAtClose = some (b.turns t).id
  worker : 3 ≤ d → b.push.worker.doomed = true
  backlog : 4 ≤ d → b.push.queue = [] ∧ b.push.pending = 0
  silent : 5 ≤ d → b.pushSilent
  ttsClosed : 6 ≤ d → ∀ s, b.push.tts = some s → b.out.closeInvoked s = true
  pushEnded : 7 ≤ d → b.push.turnOpen = false ∧ b.push.tts = none

/-- What `close_all` has put down by then; `st` is the status it computed. -/
structure CloseRecord.At (c : CloseRecord) (d : Nat) (st : SessionStatus) : Prop where
  trace : c.trace = CloseStep.order.take d
  computed : c.computed = [st]
  counted : c.counted = decide (10 ≤ d)
  sessionsClosed : c.sessionsClosed.length = if 10 ≤ d then 1 else 0
  trackerCloses : c.trackerCloses = if 11 ≤ d then [st] else []
  registryClosed : c.registryClosed = decide (11 ≤ d)
  status : c.status = if 11 ≤ d then st else .active
  registered : c.registered = false

namespace CloseRecord

variable {c : CloseRecord} {d : Nat} {st : SessionStatus}

theorem take_order {step : CloseStep} (h : CloseStep.order[d]? = some step) :
    CloseStep.order.take d ++ [step] = CloseStep.order.take (d + 1) := by
  rw [List.take_add_one, h]
  rfl

/-- A step that counts nothing starts. -/
theorem At.starts {step : CloseStep} (h : c.At d st) (hstep : CloseStep.order[d]? = some step)
    (hd : d < 9) : CloseRecord.At { c with trace := c.trace ++ [step] } (d + 1) st := by
  have hcount : ¬ 10 ≤ d ∧ ¬ 10 ≤ d + 1 ∧ ¬ 11 ≤ d ∧ ¬ 11 ≤ d + 1 := by omega
  obtain ⟨h10, h10', h11, h11'⟩ := hcount
  have hcounted := h.counted
  have hsessions := h.sessionsClosed
  have htracker := h.trackerCloses
  have hregistry := h.registryClosed
  have hstatus := h.status
  simp only [h10, h11, decide_false, if_false] at hcounted hsessions htracker hregistry hstatus
  refine ⟨?_, h.computed, ?_, ?_, ?_, ?_, ?_, h.registered⟩
  · rw [h.trace, take_order hstep]
  all_goals simp only [h10', h11', decide_false, if_false]
  all_goals assumption

end CloseRecord

namespace JotaBridge

variable {b b' : JotaBridge} {d d' : Nat}

/-- The session winds down, and no `turn_end` is noted as sent. -/
theorem Settled.winds (h : Settled b d) (hinv : Inv b) (hw : Winds b b')
    (hend : b'.turnEndSentAtClose = b.turnEndSentAtClose) : Settled b' d := by
  refine ⟨fun _ => hw.closing, fun hd t => hw.spent (h.spent hd t), fun hd => hend.trans (h.endSent hd),
    ?_, fun hd => (hw.push (h.worker hd)).worker, ?_, ?_, ?_, ?_⟩
  · intro hd t hstarted
    have hlive := hw.live t (TurnTask.live_of_started hstarted)
    obtain ⟨hstarted₀, hid⟩ := hw.started t (h.spent (by omega) t hlive) hstarted
    rw [hend, hid]
    exact h.ended hd t hstarted₀
  · intro hd
    have hwanes := hw.push (h.worker (by omega))
    obtain ⟨hqueue, hpending⟩ := h.backlog hd
    exact ⟨List.suffix_nil.mp (hqueue ▸ hwanes.queue), Nat.le_zero.mp (hpending ▸ hwanes.pending)⟩
  · intro hd a ha
    have hsame : b.push.audioTask = some a := by
      rcases (hw.push (h.worker (by omega))).audioTask with heq | hnone
      · exact heq.symm.trans ha
      · rw [hnone] at ha
        cases ha
    exact hw.out.silent a (hinv.tasks.push.bound a hsame) (h.silent hd a hsame)
  · intro hd s hs
    have hsame : b.push.tts = some s := by
      rcases (hw.push (h.worker (by omega))).tts with heq | hnone
      · exact heq.symm.trans hs
      · rw [hnone] at hs
        cases hs
    exact hw.out.closed s (h.ttsClosed hd s hsame)
  · intro hd
    have hwanes := hw.push (h.worker (by omega))
    obtain ⟨hopen, htts⟩ := h.pushEnded hd
    refine ⟨Bool.eq_false_iff.mpr fun ho => ?_, ?_⟩
    · rw [hwanes.turnOpen ho] at hopen
      cases hopen
    · rcases hwanes.tts with heq | hnone
      · exact heq.trans htts
      · exact hnone

theorem Settled.event (h : Settled b d) (hinv : Inv b) (hclosing : b.closing = true)
    (hev : Event b b') : Settled b' d :=
  h.winds hinv (hev.winds hclosing) hev.endSent

/-- From the end of the push on nothing more is settled. -/
theorem Settled.late (h : Settled b d) (hd : 7 ≤ d) (hd' : 7 ≤ d') : Settled b d' :=
  ⟨fun _ => h.closing (by omega), fun _ => h.spent (by omega), fun h2 => by omega,
    fun _ => h.ended (by omega), fun _ => h.worker (by omega), fun _ => h.backlog (by omega),
    fun _ => h.silent (by omega), fun _ => h.ttsClosed (by omega), fun _ => h.pushEnded hd⟩

/-- Before any step nothing is. -/
theorem Settled.none (h : b.turnEndSentAtClose = none) : Settled b 0 :=
  ⟨fun hd => by omega, fun hd => by omega, fun _ => h, fun hd => by omega, fun hd => by omega,
    fun hd => by omega, fun hd => by omega, fun hd => by omega, fun hd => by omega⟩

end JotaBridge

-- ---------------------------------------------------------------------------
-- The invariant of a session
-- ---------------------------------------------------------------------------

namespace Session

open JotaBridge

/-- What `close_all` has put down, by who holds `_close_lock`. -/
inductive Recorded (s : Session) : Prop where
  | before (hlock : s.close.lock = none) (heq : s.close = { reason := s.close.reason })
  | during (k : CloserRef) (hlock : s.close.lock = some k)
      (hwithin : (s.closers k).pc.within = true) (hclosed : s.close.closed = false)
      (hat : s.close.At (s.closers k).pc.depth (s.closers k).status)
  | after (st : SessionStatus) (raised : Bool) (hlock : s.close.lock = none)
      (hclosed : s.close.closed = true)
      (htrace : s.close.trace = CloseStep.order ++ if raised then [.reraised] else [])
      (hat : CloseRecord.At { s.close with trace := CloseStep.order } 12 st)

structure Ok (s : Session) : Prop where
  inv : Inv s.bridge
  settled : s.bridge.Settled s.close.trace.length
  holder : ∀ k, (s.closers k).pc.within = true → s.close.lock = some k
  waiting : ∀ k, (s.closers k).pc = .lock → s.bridge.closing = true
  turn : ∀ k t, (s.closers k).pc = .turn t →
    s.bridge.turnEndSentAtClose = none ∧ ∀ t', (s.bridge.turns t').live = true → t' = t
  recorded : Recorded s

/-- A caller of `close_all` gets from `b₀` to `s`. -/
structure Reaches (b₀ : JotaBridge) (s : Session) : Prop where
  handles : Handlings b₀ s.bridge
  ok : s.Ok

/-- `k` runs the teardown, and `d` steps of it have started. -/
structure Runs (b₀ : JotaBridge) (s : Session) (k : CloserRef) (d : Nat) : Prop where
  handles : Handlings b₀ s.bridge
  inv : Inv s.bridge
  closing : s.bridge.closing = true
  settled : s.bridge.Settled d
  lock : s.close.lock = some k
  others : ∀ j, j ≠ k → (s.closers j).pc.within = false
  closed : s.close.closed = false
  record : s.close.At d (s.closers k).status

variable {cfg : Config} {b₀ b : JotaBridge} {s : Session} {k : CloserRef} {d : Nat}

theorem depth_le (pc : CloserPc) : pc.depth ≤ 11 := by
  cases pc <;> simp only [CloserPc.depth] <;> decide

theorem length_take_order (hd : d ≤ 12) : (CloseStep.order.take d).length = d := by
  rw [List.length_take]
  exact Nat.min_eq_left hd

theorem setCloser_self (s : Session) (k : CloserRef) (c : Closer) : (s.setCloser k c).closers k = c :=
  Function.update_self _ _ _

theorem setCloser_ne (s : Session) {j k : CloserRef} (h : j ≠ k) (c : Closer) :
    (s.setCloser k c).closers j = s.closers j :=
  Function.update_of_ne h _ _

theorem Runs.event (h : Runs b₀ s k d) (hev : Event s.bridge b) :
    Runs b₀ { s with bridge := b } k d :=
  ⟨h.handles.tail (.event hev), h.inv.event hev, hev.stays_closing h.closing,
    h.settled.event h.inv h.closing hev, h.lock, h.others, h.closed, h.record⟩

/-- The next step starts, and what it settles is settled. -/
theorem Runs.starts (h : Runs b₀ s k d) (step : CloseStep)
    (hstep : CloseStep.order[d]? = some step) (hd : d < 9)
    (hsettled : s.bridge.Settled (d + 1)) : Runs b₀ (s.starts step) k (d + 1) :=
  ⟨h.handles, h.inv, h.closing, hsettled, h.lock, h.others, h.closed, h.record.starts hstep hd⟩

/-- It suspends. -/
theorem Runs.suspend {pc : CloserPc} (h : Runs b₀ s k d) (hd : pc.depth = d) (hpos : 0 < d)
    (hturn : ∀ t, pc = .turn t →
      s.bridge.turnEndSentAtClose = none ∧ ∀ t', (s.bridge.turns t').live = true → t' = t) :
    Reaches b₀ (s.suspend k pc) := by
  have hself : (s.suspend k pc).closers k = { s.closers k with pc := pc } := setCloser_self _ _ _
  have hothers : ∀ j, j ≠ k → (s.suspend k pc).closers j = s.closers j :=
    fun j hne => setCloser_ne s hne _
  have hlength : s.close.trace.length = d := by
    rw [h.record.trace, length_take_order (hd ▸ (depth_le pc).trans (by decide))]
  have hwithin : ∀ {j}, (s.closers j).pc.within = true → j = k := by
    intro j hj
    by_contra hne
    rw [h.others j hne] at hj
    cases hj
  refine ⟨h.handles, h.inv, ?_, ?_, ?_, ?_, ?_⟩
  · exact hlength.symm ▸ h.settled
  · intro j hj
    rcases eq_or_ne j k with rfl | hne
    · exact h.lock
    · rw [hothers j hne, h.others j hne] at hj
      cases hj
  · exact fun _ _ => h.closing
  · intro j t hj
    rcases eq_or_ne j k with rfl | hne
    · rw [hself] at hj
      exact hturn t hj
    · rw [hothers j hne] at hj
      refine absurd (hwithin ?_) hne
      rw [hj]
      rfl
  · refine .during k h.lock ?_ h.closed ?_
    · rw [hself, CloserPc.within, hd]
      exact decide_eq_true hpos
    · rw [hself, hd]
      exact h.record

-- ---------------------------------------------------------------------------
-- The end of the teardown
-- ---------------------------------------------------------------------------

theorem finish_bridge (s : Session) (k : CloserRef) : (s.finish k).bridge = s.bridge := by
  unfold finish
  dsimp only
  split <;> rfl

theorem finish_closers (s : Session) (k : CloserRef) :
    (s.finish k).closers = Function.update s.closers k {} := by
  unfold finish
  dsimp only
  split <;> rfl

/-- What was noted is raised again, after `_closed` is set. -/
theorem finish_close (s : Session) (k : CloserRef) : (s.finish k).close = { s.close with
    closed := true, lock := none, trace := s.close.trace ++ .closed ::
      if (s.closers k).noted || (s.closers k).cancelling then [.reraised] else [] } := by
  unfold finish
  dsimp only
  split
  · simp only [Session.starts, setCloser, List.append_assoc, List.singleton_append]
  · rfl

theorem finish_reaches (h : Runs b₀ s k 11) : Reaches b₀ (s.finish k) := by
  have hwithin : ∀ j, ((s.finish k).closers j).pc.within = false := by
    intro j
    rw [finish_closers]
    rcases eq_or_ne j k with rfl | hne
    · rw [Function.update_self]
      rfl
    · rw [Function.update_of_ne hne]
      exact h.others j hne
  have hclose := finish_close s k
  have htrace : (s.finish k).close.trace = CloseStep.order ++
      if (s.closers k).noted || (s.closers k).cancelling then [.reraised] else [] := by
    rw [hclose, h.record.trace]
    rfl
  have hlength : 7 ≤ (s.finish k).close.trace.length := by
    rw [htrace, List.length_append]
    exact Nat.le_add_right_of_le (by decide)
  refine ⟨?_, ?_, ?_, ?_, ?_, ?_, ?_⟩
  · exact finish_bridge s k ▸ h.handles
  · exact finish_bridge s k ▸ h.inv
  · rw [finish_bridge]
    exact h.settled.late (by decide) hlength
  · intro j hj
    rw [hwithin j] at hj
    cases hj
  · rw [finish_bridge]
    exact fun _ _ => h.closing
  · intro j t hj
    have hj' := hwithin j
    rw [hj] at hj'
    cases hj'
  · have hrecord := h.record
    refine .after (s.closers k).status _ ?_ ?_ htrace ?_
    · rw [hclose]
    · rw [hclose]
    · rw [hclose]
      exact ⟨rfl, hrecord.computed, hrecord.counted, hrecord.sessionsClosed, hrecord.trackerCloses,
        hrecord.registryClosed, hrecord.status, hrecord.registered⟩

theorem closeTracker_reaches (h : Runs b₀ s k 9) : Reaches b₀ (s.closeTracker k) := by
  have hcounted : s.close.counted = false := h.record.counted
  have hregistry : s.close.registryClosed = false := h.record.registryClosed
  have hnone : s.close.sessionsClosed = [] := List.eq_nil_of_length_eq_zero h.record.sessionsClosed
  have htracker : s.close.trackerCloses = [] := h.record.trackerCloses
  have hrecord : ∃ c : CloseRecord, c.lock = some k ∧ c.closed = false ∧ c.At 11 (s.closers k).status ∧
      s.closeTracker k = { s with close := c }.suspend k .tracker := by
    unfold closeTracker
    simp only [Session.starts, hcounted, Bool.false_eq_true, if_false, trackerClose]
    refine ⟨_, ?_, ?_, ?_, rfl⟩
    · exact h.lock
    · exact h.closed
    · refine ⟨?_, h.record.computed, rfl, ?_, ?_, rfl, ?_, h.record.registered⟩
      · rw [h.record.trace]
        rfl
      · rw [hnone]
        rfl
      · rw [htracker]
        rfl
      · rw [hregistry]
        rfl
  obtain ⟨c, hlock, hclosed, hat, heq⟩ := hrecord
  rw [heq]
  have hruns : Runs b₀ { s with close := c } k 11 :=
    ⟨h.handles, h.inv, h.closing, h.settled.late (by decide) (by decide), hlock, h.others, hclosed,
      hat⟩
  exact hruns.suspend rfl (by decide) fun t ht => by cases ht

theorem closeTranscriber_reaches (h : Runs b₀ s k 8) :
    Reaches b₀ (s.closeTranscriber cfg k) := by
  have hruns : Runs b₀ (s.starts .transcriber) k 9 :=
    h.starts .transcriber rfl (by decide) (h.settled.late (by decide) (by decide))
  unfold closeTranscriber
  dsimp only
  split
  · exact hruns.suspend rfl (by decide) fun t ht => by cases ht
  · exact closeTracker_reaches hruns

theorem cancelCloser_same (c : Closer) :
    (cancelCloser c).pc = c.pc ∧ (cancelCloser c).status = c.status := by
  unfold cancelCloser
  split <;> exact ⟨rfl, rfl⟩

theorem cancelCloser_site (c : Closer) : (cancelCloser c).site = c.site := by
  unfold cancelCloser
  split <;> rfl

theorem cancelTasks_reaches (h : Runs b₀ s k 7) : Reaches b₀ (s.cancelTasks k) := by
  have hruns : Runs b₀ (s.starts .tasks) k 8 :=
    h.starts .tasks rfl (by decide) (h.settled.late (by decide) (by decide))
  have hops := hruns.event (.cancelOps (fun i => cancelOp (s.bridge.ops i)) fun i => .inr rfl)
  have hworker := hops.event .cancelWorker
  have hclosers : ∀ j, ((if j ≠ k ∧ (s.closers j).site.inTasks then cancelCloser (s.closers j)
      else s.closers j) : Closer).pc = (s.closers j).pc := by
    intro j
    split
    · exact (cancelCloser_same _).1
    · rfl
  have hasked : Runs b₀ { s.starts .tasks with
      bridge.ops := fun i => cancelOp (s.bridge.ops i)
      bridge.push.worker := cancelWorker s.bridge.push.worker
      closers := fun j =>
        if j ≠ k ∧ (s.closers j).site.inTasks then cancelCloser (s.closers j) else s.closers j }
      k 8 := by
    refine ⟨hworker.handles, hworker.inv, hworker.closing, hworker.settled, h.lock, ?_, h.closed, ?_⟩
    · intro j hne
      dsimp only
      rw [hclosers j]
      exact h.others j hne
    · dsimp only
      rw [if_neg fun hk => hk.1 rfl]
      exact hworker.record
  exact hasked.suspend rfl (by decide) fun t ht => by cases ht

-- ---------------------------------------------------------------------------
-- The push
-- ---------------------------------------------------------------------------

theorem closePush_reaches (h : Runs b₀ s k 6) (htts : s.bridge.push.tts = none) :
    Reaches b₀ (s.closePush k) := by
  have hsilent : s.bridge.pushSilent := h.settled.silent (by decide)
  have hnamed := h.inv.control.pushId
  have hclosed : ∃ b, Runs b₀ { s with bridge := b } k 6 ∧ b.push.turnOpen = false ∧
      b.push.tts = none ∧ s.closePush k = ({ s with bridge := b }.starts .push).cancelTasks k := by
    cases hopen : s.bridge.push.turnOpen with
    | true =>
      have hev : Event s.bridge (s.bridge.setPushing
          (s.bridge.pushing.closePushTurn s.bridge.push.turnId .closeAll)) :=
        .closesPush .closeAll (fun _ hby => by cases hby) hopen (.inl hsilent)
      refine ⟨_, h.event hev, ?_, ?_, ?_⟩
      · rw [Pushing.closePushTurn_of_open (p := s.bridge.pushing) hopen]
        rfl
      · rw [Pushing.closePushTurn_of_open (p := s.bridge.pushing) hopen]
        exact htts
      · have hid : s.bridge.push.turnId ≠ 0 := hnamed hopen
        simp only [closePush, Session.starts, ne_eq, hid, not_false_eq_true, if_true]
    | false =>
      refine ⟨s.bridge, h, hopen, htts, ?_⟩
      simp only [closePush, Session.starts, Pushing.closePushTurn_of_closed (p := s.bridge.pushing) hopen,
        ite_self]
      rfl
  obtain ⟨b, hruns, hopen, htts', heq⟩ := hclosed
  rw [heq]
  have hset := hruns.settled
  refine cancelTasks_reaches (hruns.starts .push rfl (by decide) ?_)
  exact ⟨fun _ => hruns.closing, fun _ => hset.spent (by decide), fun hd => by omega,
    fun _ => hset.ended (by decide), fun _ => hset.worker (by decide), fun _ => hset.backlog (by decide),
    fun _ => hset.silent (by decide), fun _ => hset.ttsClosed (by decide), fun _ => ⟨hopen, htts'⟩⟩

/-- The stream of the push is closed. -/
theorem Settled.toClosed (h : s.bridge.Settled 5)
    (hclosed : ∀ t, s.bridge.push.tts = some t → s.bridge.out.closeInvoked t = true) :
    s.bridge.Settled 6 :=
  ⟨fun _ => h.closing (by decide), fun _ => h.spent (by decide), fun hd => by omega,
    fun _ => h.ended (by decide), fun _ => h.worker (by decide), fun _ => h.backlog (by decide),
    fun _ => h.silent (by decide), fun _ => hclosed, fun hd => by omega⟩

theorem closeTts_reaches (h : Runs b₀ s k 5) : Reaches b₀ (s.closeTts k) := by
  unfold closeTts
  dsimp only
  split
  · rename_i t htts
    have htts : s.bridge.push.tts = some t := htts
    have hruns := h.event (.closesTts t)
    have hstarts := hruns.starts .tts rfl (by decide) (Settled.toClosed hruns.settled ?_)
    · exact hstarts.suspend rfl (by decide) fun t ht => by cases ht
    · intro t' ht'
      obtain rfl : t = t' := Option.some.inj (htts.symm.trans ht')
      exact Output.closeStream_self _ _
  · rename_i htts
    have htts : s.bridge.push.tts = none := htts
    refine closePush_reaches (h.starts .tts rfl (by decide) (Settled.toClosed h.settled ?_)) htts
    intro t ht
    rw [htts] at ht
    cases ht

/-- The audio of the push is silent. -/
theorem Settled.toSilent (h : s.bridge.Settled 4) (hsilent : s.bridge.pushSilent) :
    s.bridge.Settled 5 :=
  ⟨fun _ => h.closing (by decide), fun _ => h.spent (by decide), fun hd => by omega,
    fun _ => h.ended (by decide), fun _ => h.worker (by decide), fun _ => h.backlog (by decide),
    fun _ => hsilent, fun hd => by omega, fun hd => by omega⟩

theorem stopAudio_reaches (h : Runs b₀ s k 4) : Reaches b₀ (s.stopAudio k) := by
  have hquiet : s.bridge.pushSilent → Reaches b₀ ((s.starts .audio).closeTts k) := fun hsilent =>
    closeTts_reaches (h.starts .audio rfl (by decide) (Settled.toSilent h.settled hsilent))
  unfold stopAudio
  dsimp only
  split
  · rename_i a haudio
    have haudio : s.bridge.push.audioTask = some a := haudio
    have hone : ∀ a', s.bridge.push.audioTask = some a' → a' = a :=
      fun a' ha' => Option.some.inj (ha'.symm.trans haudio)
    split
    · have hruns := h.event (.cancelAudio a)
      have hstarts := hruns.starts .audio rfl (by decide)
        (Settled.toSilent hruns.settled ?_)
      · exact hstarts.suspend rfl (by decide) fun t ht => by cases ht
      · intro a' ha'
        obtain rfl := hone a' ha'
        exact Output.cancelAudio_silent _ _
    · rename_i hdone
      refine hquiet fun a' ha' => ?_
      obtain rfl := hone a' ha'
      have hdone : (s.bridge.out.audios a').running = false := Bool.eq_false_iff.mpr hdone
      simp only [Pushing.silent, AudioTask.sounding, hdone, Bool.false_and]
  · rename_i haudio
    have haudio : s.bridge.push.audioTask = none := haudio
    refine hquiet fun a' ha' => ?_
    rw [haudio] at ha'
    cases ha'

theorem dropBacklog_reaches (h : Runs b₀ s k 3) : Reaches b₀ (s.dropBacklog k) := by
  have hruns := h.event .dropsBacklog
  have hset := hruns.settled
  refine stopAudio_reaches (hruns.starts .backlog rfl (by decide) ?_)
  exact ⟨fun _ => hruns.closing, fun _ => hset.spent (by decide), fun hd => by omega,
    fun _ => hset.ended (by decide), fun _ => hset.worker (by decide), fun _ => ⟨rfl, rfl⟩,
    fun hd => by omega, fun hd => by omega, fun hd => by omega⟩

/-- The worker is cancelled, or done. -/
theorem Settled.toWorker (h : s.bridge.Settled 2) (hworker : s.bridge.push.worker.doomed = true)
    (hended : ∀ t, (s.bridge.turns t).started = true →
      s.bridge.turnEndSentAtClose = some (s.bridge.turns t).id) : s.bridge.Settled 3 :=
  ⟨fun _ => h.closing (by decide), fun _ => h.spent (by decide), fun hd => by omega,
    fun _ => hended, fun _ => hworker, fun hd => by omega, fun hd => by omega, fun hd => by omega,
    fun hd => by omega⟩

theorem stopWorker_reaches (h : Runs b₀ s k 2)
    (hended : ∀ t, (s.bridge.turns t).started = true →
      s.bridge.turnEndSentAtClose = some (s.bridge.turns t).id) :
    Reaches b₀ (s.stopWorker k) := by
  unfold stopWorker
  dsimp only
  split
  · rename_i hdone
    have hdone : s.bridge.push.worker.pc = .done := hdone
    have hworker : s.bridge.push.worker.doomed = true := by
      simp only [Worker.doomed, hdone]
    exact dropBacklog_reaches (h.starts .worker rfl (by decide) (Settled.toWorker h.settled hworker hended))
  · have hruns := h.event .cancelWorker
    have hstarts := hruns.starts .worker rfl (by decide)
      (Settled.toWorker hruns.settled (cancelWorker_doomed _) hended)
    exact hstarts.suspend rfl (by decide) fun t ht => by cases ht

-- ---------------------------------------------------------------------------
-- The turn
-- ---------------------------------------------------------------------------

/-- A turn that is not done gets its `turn_end` here. -/
theorem endAbandoned_reaches {t : TurnRef} (h : Runs b₀ s k 2)
    (hend : s.bridge.turnEndSentAtClose = none)
    (honly : ∀ t', (s.bridge.turns t').live = true → t' = t) :
    Reaches b₀ (s.endAbandoned k t) := by
  have hnone : (∀ t', (s.bridge.turns t').started = true → False) →
      Reaches b₀ (s.stopWorker k) := fun hidle =>
    stopWorker_reaches h fun t' ht' => (hidle t' ht').elim
  unfold endAbandoned
  dsimp only
  cases hlive : (s.bridge.turns t).live with
  | false =>
    simp only [Bool.false_eq_true, if_false]
    refine hnone fun t' ht' => ?_
    have hlive' := TurnTask.live_of_started ht'
    rw [honly t' hlive', hlive] at hlive'
    cases hlive'
  | true =>
    simp only [if_true]
    split
    · rename_i n hid
      have hdoomed : (s.bridge.turns t).doomed = true := h.settled.spent (by decide) t hlive
      have hhandling : Handling s.bridge ({ s.bridge with turnEndSentAtClose := some n }.send
          (.turnEnd n)) := .abandons t n hlive hdoomed hid hend rfl
      have hset := h.settled
      have hruns : Runs b₀ { s with
          bridge := { s.bridge with turnEndSentAtClose := some n }.send (.turnEnd n) } k 2 := by
        refine ⟨h.handles.tail hhandling, h.inv.handling hhandling, h.closing, ?_, h.lock, h.others, h.closed,
          h.record⟩
        exact ⟨hset.closing, hset.spent, fun hd => by omega, fun hd => by omega, fun hd => by omega,
          fun hd => by omega, fun hd => by omega, fun hd => by omega, fun hd => by omega⟩
      refine stopWorker_reaches hruns fun t' ht' => ?_
      have hnamed : s.bridge.activeTurnId = some (s.bridge.turns t').id :=
        h.inv.control.named t' ht'
      exact hid.symm.trans hnamed
    · rename_i hid
      refine hnone fun t' ht' => ?_
      have hnamed : s.bridge.activeTurnId = some (s.bridge.turns t').id :=
        h.inv.control.named t' ht'
      rw [hid] at hnamed
      cases hnamed

/-- Every turn that is not done is cancelled. -/
theorem Settled.toTurn (h : s.bridge.Settled 1) (hspent : ∀ t, (s.bridge.turns t).live = true →
    (s.bridge.turns t).doomed = true) : s.bridge.Settled 2 :=
  ⟨fun _ => h.closing (by decide), fun _ => hspent, fun hd => by omega, fun hd => by omega,
    fun hd => by omega, fun hd => by omega, fun hd => by omega, fun hd => by omega,
    fun hd => by omega⟩

theorem stopTurn_reaches (h : Runs b₀ s k 1) : Reaches b₀ (s.stopTurn k) := by
  have hend : s.bridge.turnEndSentAtClose = none := h.settled.endSent (by decide)
  have hquiet : s.bridge.quiet → Runs b₀ (s.starts .turn) k 2 := by
    intro hquiet
    refine h.starts .turn rfl (by decide) (Settled.toTurn h.settled fun t hlive => ?_)
    rw [hquiet t] at hlive
    cases hlive
  unfold stopTurn
  dsimp only
  split
  · rename_i t hactive
    have hactive : s.bridge.activeTurn = some t := hactive
    have honly : ∀ t', (s.bridge.turns t').live = true → t' = t := fun t' ht' =>
      Option.some.inj ((h.inv.control.unique t' ht').symm.trans hactive)
    split
    · rename_i hlive
      have hlive : (s.bridge.turns t).live = true := hlive
      have hruns := h.event (.cancelTask t)
      have hcancelled : s.bridge.cancelTask t = { s.bridge with
          turns := Function.update s.bridge.turns t { s.bridge.turns t with cancelReq := true } } :=
        if_pos hlive
      have hothers : ∀ t', ((s.bridge.cancelTask t).turns t').live = true → t' = t := by
        intro t' ht'
        by_contra hne
        rw [hcancelled] at ht'
        simp only [Function.update_of_ne hne] at ht'
        exact hne (honly t' ht')
      have hstarts := hruns.starts .turn rfl (by decide) (Settled.toTurn hruns.settled ?_)
      · refine hstarts.suspend rfl (by decide) fun t' ht' => ?_
        cases ht'
        refine ⟨?_, hothers⟩
        have hsame : (s.bridge.cancelTask t).turnEndSentAtClose = s.bridge.turnEndSentAtClose := by
          rw [hcancelled]
        exact hsame.trans hend
      · intro t' ht'
        obtain rfl := hothers t' ht'
        dsimp only
        rw [hcancelled]
        simp only [Function.update_self, TurnTask.doomed, Bool.true_or]
    · rename_i hdone
      have hdone : (s.bridge.turns t).live = false := Bool.eq_false_iff.mpr hdone
      refine endAbandoned_reaches (hquiet fun t' => ?_) hend honly
      refine Bool.eq_false_iff.mpr fun hlive => ?_
      rw [honly t' hlive, hdone] at hlive
      cases hlive
  · rename_i hnone
    have hnone : s.bridge.activeTurn = none := hnone
    have hidle : s.bridge.quiet := by
      intro t
      refine Bool.eq_false_iff.mpr fun hlive => ?_
      have hactive : s.bridge.activeTurn = some t := h.inv.control.unique t hlive
      rw [hnone] at hactive
      cases hactive
    refine stopWorker_reaches (hquiet hidle) fun t ht => ?_
    have hlive : (s.bridge.turns t).live = true := TurnTask.live_of_started ht
    rw [hidle t] at hlive
    cases hlive

-- ---------------------------------------------------------------------------
-- What keeps the invariant of a session
-- ---------------------------------------------------------------------------

theorem Ok.others (h : s.Ok) (hlock : s.close.lock = some k) (j : CloserRef) (hne : j ≠ k) :
    (s.closers j).pc.within = false := by
  refine Bool.eq_false_iff.mpr fun hj => hne ?_
  exact Option.some.inj ((h.holder j hj).symm.trans hlock)

theorem Ok.outside_of_free (h : s.Ok) (hlock : s.close.lock = none) (j : CloserRef) :
    (s.closers j).pc.within = false := by
  refine Bool.eq_false_iff.mpr fun hj => ?_
  have hheld := h.holder j hj
  rw [hlock] at hheld
  cases hheld

/-- The holder of the lock is where the record says. -/
theorem Ok.during (h : s.Ok) (hwithin : (s.closers k).pc.within = true) :
    s.close.lock = some k ∧ s.close.closed = false ∧
      s.close.At (s.closers k).pc.depth (s.closers k).status := by
  have hheld := h.holder k hwithin
  cases h.recorded with
  | before hlock =>
    rw [hlock] at hheld
    cases hheld
  | during j hlock _ hclosed hat =>
    obtain rfl : j = k := Option.some.inj (hlock.symm.trans hheld)
    exact ⟨hheld, hclosed, hat⟩
  | after _ _ hlock =>
    rw [hlock] at hheld
    cases hheld

theorem Ok.runs (h : s.Ok) (hwithin : (s.closers k).pc.within = true) :
    Runs s.bridge s k (s.closers k).pc.depth := by
  obtain ⟨hlock, hclosed, hat⟩ := h.during hwithin
  have hlength : s.close.trace.length = (s.closers k).pc.depth := by
    rw [hat.trace, length_take_order ((depth_le _).trans (by decide))]
  have hsettled : s.bridge.Settled (s.closers k).pc.depth := hlength ▸ h.settled
  exact ⟨.refl, h.inv, hsettled.closing (of_decide_eq_true hwithin), hsettled, hlock, h.others hlock,
    hclosed, hat⟩

/-- The rest of the session goes on. -/
theorem Ok.change {a : Act} (h : s.Ok) (hchange : Change cfg s.bridge b a)
    (hend : b.turnEndSentAtClose = s.bridge.turnEndSentAtClose) : Ok { s with bridge := b } := by
  have hwinds : s.bridge.closing = true → Winds s.bridge b := hchange.winds h.inv
  refine ⟨h.inv.change hchange, ?_, h.holder, ?_, ?_, ?_⟩
  · have hsettled := h.settled
    rcases Nat.eq_zero_or_pos s.close.trace.length with hzero | hpos
    · dsimp only
      rw [hzero] at hsettled ⊢
      exact .none (hend.trans (hsettled.endSent (by decide)))
    · exact hsettled.winds h.inv (hwinds (hsettled.closing hpos)) hend
  · exact fun j hj => (hwinds (h.waiting j hj)).closing
  · intro j t hj
    have hwithin : (s.closers j).pc.within = true := by
      rw [show (s.closers j).pc = .turn t from hj]
      rfl
    have hruns : Runs s.bridge s j (s.closers j).pc.depth := h.runs hwithin
    have hclosing := hruns.closing
    obtain ⟨hnone, honly⟩ := h.turn j t hj
    exact ⟨hend.trans hnone, fun t' ht' => honly t' ((hwinds hclosing).live t' ht')⟩
  · cases h.recorded with
    | before hlock heq => exact .before hlock heq
    | during k hlock hwithin hclosed hat => exact .during k hlock hwithin hclosed hat
    | after st raised hlock hclosed htrace hat => exact .after st raised hlock hclosed htrace hat

/-- A session of text alone, as one may be configured. -/
def textOnly : Config where
  outputText := true
  outputAudio := false
  pushEnabled := true
  toolCallsEnabled := true
  bargeInEnabled := true
  bargeInMinChars := 3
  sessionKey := []
  hasTranscriber := false

theorem Ok.events (h : s.Ok) (hevs : Events s.bridge b) : Ok { s with bridge := b } := by
  have hchange : Change textOnly s.bridge b .disconnected := .handles hevs.handlings
  exact h.change hchange hevs.endSent

theorem Ok.event (h : s.Ok) (hev : Event s.bridge b) : Ok { s with bridge := b } :=
  h.events (.single hev)

theorem Ok.noteCloseReason (h : s.Ok) (reason : Option CloseReason) :
    (s.noteCloseReason reason).Ok := by
  refine ⟨h.inv, h.settled, h.holder, h.waiting, h.turn, ?_⟩
  cases h.recorded with
  | before hlock heq =>
    refine .before hlock ?_
    unfold Session.noteCloseReason
    dsimp only
    rw [heq]
  | during k hlock hwithin hclosed hat =>
    exact .during k hlock hwithin hclosed ⟨hat.trace, hat.computed, hat.counted, hat.sessionsClosed,
      hat.trackerCloses, hat.registryClosed, hat.status, hat.registered⟩
  | after st raised hlock hclosed htrace hat =>
    exact .after st raised hlock hclosed htrace ⟨hat.trace, hat.computed, hat.counted,
      hat.sessionsClosed, hat.trackerCloses, hat.registryClosed, hat.status, hat.registered⟩

/-- A caller changes, but not where it is in the teardown. -/
theorem Ok.setCloser (h : s.Ok) {c : Closer}
    (hc : (c.pc = (s.closers k).pc ∧ c.status = (s.closers k).status) ∨
      (s.closers k).pc.within = false ∧ c.pc.within = false ∧
        (c.pc = .lock → s.bridge.closing = true)) : (s.setCloser k c).Ok := by
  have hself : (s.setCloser k c).closers k = c := setCloser_self _ _ _
  have hothers : ∀ j, j ≠ k → (s.setCloser k c).closers j = s.closers j :=
    fun j hne => setCloser_ne s hne c
  have hwithin : c.pc.within = true → c.pc = (s.closers k).pc ∧ c.status = (s.closers k).status := by
    intro hin
    refine hc.resolve_right fun hout => ?_
    rw [hout.2.1] at hin
    cases hin
  refine ⟨h.inv, h.settled, ?_, ?_, ?_, ?_⟩
  · intro j hj
    rcases eq_or_ne j k with rfl | hne
    · rw [hself] at hj
      exact h.holder j ((hwithin hj).1 ▸ hj)
    · rw [hothers j hne] at hj
      exact h.holder j hj
  · intro j hj
    rcases eq_or_ne j k with rfl | hne
    · rw [hself] at hj
      rcases hc with ⟨hpc, -⟩ | ⟨-, -, hlock⟩
      · exact h.waiting j (hpc.symm.trans hj)
      · exact hlock hj
    · rw [hothers j hne] at hj
      exact h.waiting j hj
  · intro j t hj
    rcases eq_or_ne j k with rfl | hne
    · rw [hself] at hj
      have hin : c.pc.within = true := by
        rw [hj]
        rfl
      exact h.turn j t ((hwithin hin).1.symm.trans hj)
    · rw [hothers j hne] at hj
      exact h.turn j t hj
  · cases h.recorded with
    | before hlock heq => exact .before hlock heq
    | during j hlock hin hclosed hat =>
      refine .during j hlock ?_ hclosed ?_
      all_goals
        rcases eq_or_ne j k with rfl | hne
        · obtain ⟨hpc, hst⟩ : c.pc = (s.closers j).pc ∧ c.status = (s.closers j).status := by
            refine hc.resolve_right fun hout => ?_
            rw [hout.1] at hin
            cases hin
          rw [hself, hpc]
          first | exact hin | exact hst ▸ hat
        · rw [hothers j hne]
          first | exact hin | exact hat
    | after st raised hlock hclosed htrace hat => exact .after st raised hlock hclosed htrace hat

/-- A caller leaves, or comes to the lock. -/
theorem Ok.outside (h : s.Ok) {c : Closer} (hout : (s.closers k).pc.within = false)
    (hc : c.pc.within = false) (hlock : c.pc = .lock → s.bridge.closing = true) :
    (s.setCloser k c).Ok :=
  h.setCloser (.inr ⟨hout, hc, hlock⟩)

-- ---------------------------------------------------------------------------
-- `close_all` and its callers
-- ---------------------------------------------------------------------------

/-- Who gets the lock of a closed session leaves. -/
theorem closeLocked_of_closed (hlock : s.close.lock = none) (hclosed : s.close.closed = true) :
    closeLocked { s with close.lock := some k } k = s.setCloser k {} := by
  have heq : ({ s with close.lock := none } : Session) = s := by
    rw [← hlock]
  rw [closeLocked, if_pos hclosed]
  exact congrArg (fun s : Session => s.setCloser k {}) heq

/-- The first holder of the lock starts the teardown; any later one leaves. -/
theorem closeLocked_reaches (h : s.Ok) (hlock : s.close.lock = none)
    (hclosing : s.bridge.closing = true) :
    Reaches s.bridge (closeLocked { s with close.lock := some k } k) := by
  have hfree := h.outside_of_free hlock
  cases hclosed : s.close.closed with
  | true =>
    rw [closeLocked_of_closed hlock hclosed]
    exact ⟨.refl, h.outside (hfree k) rfl fun hpc => by cases hpc⟩
  | false =>
    have hrecord : s.close = { reason := s.close.reason } := by
      cases h.recorded with
      | before _ heq => exact heq
      | during j hheld =>
        rw [hlock] at hheld
        cases hheld
      | after _ _ _ hdone =>
        rw [hclosed] at hdone
        cases hdone
    have hstarts : ∃ (c : CloseRecord) (cl : Closer), c.lock = some k ∧ c.closed = false ∧
        c.At 1 cl.status ∧
          closeLocked { s with close.lock := some k } k =
            ({ s with close := c }.setCloser k cl).stopTurn k := by
      simp only [closeLocked, hclosed, Bool.false_eq_true, if_false, Session.starts]
      rw [hrecord]
      exact ⟨_, _, rfl, rfl, ⟨rfl, rfl, rfl, rfl, rfl, rfl, rfl, rfl⟩, rfl⟩
    obtain ⟨c, cl, hheld, hopen, hat, heq⟩ := hstarts
    have hsettled : s.bridge.Settled 0 := by
      have hsettled := h.settled
      rw [hrecord] at hsettled
      exact hsettled
    have hruns : Runs s.bridge ({ s with close := c }.setCloser k cl) k 1 := by
      refine ⟨.refl, h.inv, hclosing, ?_, hheld, ?_, hopen, ?_⟩
      · exact ⟨fun _ => hclosing, fun hd => by omega, fun _ => hsettled.endSent (by decide),
          fun hd => by omega, fun hd => by omega, fun hd => by omega, fun hd => by omega,
          fun hd => by omega, fun hd => by omega⟩
      · intro j hne
        rw [setCloser_ne _ hne]
        exact hfree j
      · rw [setCloser_self]
        exact hat
    rw [heq]
    exact stopTurn_reaches hruns

theorem closeAll_reaches (h : s.Ok) (hout : (s.closers k).pc.within = false) :
    Reaches s.bridge (s.closeAll k) := by
  have hclosing : Event s.bridge { s.bridge with closing := true } := .closing
  obtain ⟨s₁, hs₁⟩ : ∃ s₁, s₁ =
      ({ s with bridge.closing := true }.noteCloseReason (s.closers k).site.reason) := ⟨_, rfl⟩
  have hok : s₁.Ok := hs₁ ▸ (h.event hclosing).noteCloseReason _
  have hsame : s₁.bridge = { s.bridge with closing := true } ∧ s₁.closers = s.closers := by
    rw [hs₁]
    exact ⟨rfl, rfl⟩
  have hhandles : Handlings s.bridge s₁.bridge := hsame.1 ▸ .single (.event hclosing)
  have hset : s₁.bridge.closing = true := by
    rw [hsame.1]
  have heq : s.closeAll k = if s₁.close.lock.isNone then closeLocked { s₁ with close.lock := some k } k
      else s₁.suspend k .lock := by
    rw [hs₁]
    rfl
  rw [heq]
  split
  · rename_i hfree
    have hreaches : Reaches s₁.bridge (closeLocked { s₁ with close.lock := some k } k) :=
      closeLocked_reaches hok (Option.isNone_iff_eq_none.mp hfree) hset
    exact ⟨hhandles.trans hreaches.handles, hreaches.ok⟩
  · exact ⟨hhandles, hok.outside (hsame.2 ▸ hout) rfl fun _ => hset⟩

theorem call_reaches {site : CloseSite} {s' : Session} (h : s.Ok) (hcall : s.call k site = some s') :
    Reaches s.bridge s' := by
  unfold call at hcall
  split at hcall
  · rename_i hidle
    obtain ⟨s₁, hs₁⟩ : ∃ s₁, s₁ = (s.noteCloseReason site.noted).setCloser k
        { site := site, cancelling := site = .run .cancelled } := ⟨_, rfl⟩
    have hout : (s.closers k).pc.within = false := by
      rw [hidle]
      rfl
    have hcalled : s₁.Ok := by
      rw [hs₁]
      exact (h.noteCloseReason site.noted).outside hout rfl fun hpc => by cases hpc
    have hself : (s₁.closers k).pc.within = false := by
      rw [hs₁, setCloser_self]
      rfl
    have hsame : s₁.bridge = s.bridge := by
      rw [hs₁]
      rfl
    dsimp only at hcall
    rw [← hs₁] at hcall
    split at hcall
    · cases hcall
      have hgone : Event s₁.bridge { s₁.bridge with out.clientGone := true } := .clientGone
      refine ⟨hsame ▸ .single (.event hgone), ?_⟩
      exact (hcalled.event hgone).outside hself rfl fun hpc => by cases hpc
    · cases hcall
      rw [← hsame]
      exact closeAll_reaches hcalled hself
  · cases hcall

theorem closerCancelled_ok {s' : Session} (h : s.Ok) (hstep : s.closerCancelled k = some s') :
    s'.bridge = s.bridge ∧ s'.Ok := by
  unfold closerCancelled at hstep
  split at hstep
  · cases hstep
  · rename_i hpc
    cases hstep
    refine ⟨rfl, h.outside ?_ rfl fun hpc => by cases hpc⟩
    rw [hpc]
    rfl
  · rename_i hpc
    cases hstep
    refine ⟨rfl, h.outside ?_ rfl fun hpc => by cases hpc⟩
    rw [hpc]
    rfl
  · cases hstep
    exact ⟨rfl, h.setCloser (.inl ⟨rfl, rfl⟩)⟩

theorem closerResume_reaches {s' : Session} (h : s.Ok) (hstep : s.closerResume cfg k = some s') :
    Reaches s.bridge s' := by
  have hruns : ∀ {pc}, (s.closers k).pc = pc → pc.within = true → Runs s.bridge s k pc.depth := by
    rintro pc rfl hwithin
    exact h.runs hwithin
  unfold closerResume at hstep
  split at hstep
  case h_1 => cases hstep
  case h_2 hpc =>
    cases hstep
    refine closeAll_reaches h ?_
    rw [hpc]
    rfl
  case h_3 hpc =>
    split at hstep
    · rename_i hfree
      cases hstep
      exact closeLocked_reaches h (Option.isNone_iff_eq_none.mp hfree) (h.waiting k hpc)
    · cases hstep
  case h_4 t hpc =>
    cases hstep
    obtain ⟨hend, honly⟩ := h.turn k t hpc
    exact endAbandoned_reaches (hruns hpc rfl) hend honly
  case h_5 hpc =>
    cases hstep
    exact dropBacklog_reaches (hruns hpc rfl)
  case h_6 hpc =>
    cases hstep
    exact closeTts_reaches (hruns hpc rfl)
  case h_7 hpc =>
    cases hstep
    have htaken := hruns hpc rfl
    have hset : s.bridge.Settled 6 := htaken.settled
    exact closePush_reaches (htaken.event (.clearsTts (hset.worker (by decide))
      (hset.ttsClosed (by decide)) (hset.silent (by decide)))) rfl
  case h_8 hpc =>
    cases hstep
    exact closeTranscriber_reaches (hruns hpc rfl)
  case h_9 hpc =>
    cases hstep
    exact closeTracker_reaches (hruns hpc rfl)
  case h_10 hpc =>
    cases hstep
    exact finish_reaches (hruns hpc rfl)

-- ---------------------------------------------------------------------------
-- Every step of a session
-- ---------------------------------------------------------------------------

/-- A step of the session. -/
structure Advances (cfg : Config) (s s' : Session) (a : Act) : Prop where
  change : Change cfg s.bridge s'.bridge a
  ok : s'.Ok

theorem Reaches.advances {s' : Session} {a : Act} (h : Reaches s.bridge s') : Advances cfg s s' a :=
  ⟨.handles h.handles, h.ok⟩

theorem inBridge_advances {b? : Option JotaBridge} {s' : Session} {a : Act} (h : s.Ok)
    (hstep : s.inBridge b? = some s')
    (hb : ∀ b, b? = some b → Change cfg s.bridge b a ∧
      b.turnEndSentAtClose = s.bridge.turnEndSentAtClose) : Advances cfg s s' a := by
  obtain ⟨b, hsome, rfl⟩ := Option.map_eq_some_iff.mp hstep
  obtain ⟨hchange, hend⟩ := hb b hsome
  exact ⟨hchange, h.change hchange hend⟩

theorem event_advances {a : Act} (h : s.Ok) (hev : Event s.bridge b) :
    Advances cfg s { s with bridge := b } a :=
  ⟨.handles (.single (.event hev)), h.event hev⟩

theorem audioFrame_events {a : AudioRef} (h : b₀.audioFrame a = some b) : Events b₀ b := by
  unfold audioFrame at h
  dsimp only at h
  split at h
  · rename_i hsounding
    split at h
    · cases h
      exact .single (.audioEnds a)
    · rename_i hended
      split at h
      · cases h
        refine .single (.frame a hsounding ?_)
        simp only [Bool.and_eq_true, Bool.not_eq_true', beq_iff_eq, not_and] at hended
        cases hpush : (b₀.out.audios a).push with
        | true => exact .inl rfl
        | false => exact .inr (hended hpush)
      · split at h
        · cases h
          exact .single (.audioEnds a)
        · cases h
          have hgone : Event b₀ { b₀ with out.clientGone := true } := .clientGone
          exact .head hgone (.single (.audioEnds a))
  · cases h

theorem step_advances {a : Act} {s' : Session} (h : s.Ok) (hstep : s.step cfg a = some s') :
    Advances cfg s s' a := by
  cases a with
  | senderCloses =>
    cases hstep
    exact event_advances h .senderCloses
  | disconnected =>
    cases hstep
    exact event_advances h .clientGone
  | note reason =>
    simp only [step] at hstep
    split at hstep
    · cases hstep
    · cases hstep
      exact ⟨.handles .refl, h.noteCloseReason _⟩
  | turn t a =>
    refine inBridge_advances h hstep fun b hb => ⟨.turn t a hb, ?_⟩
    obtain ⟨r, -, rfl⟩ := Option.map_eq_some_iff.mp hb
    rfl
  | audioFrame a =>
    refine inBridge_advances h hstep fun b hb => ?_
    have hevs := audioFrame_events hb
    exact ⟨.handles hevs.handlings, hevs.endSent⟩
  | audioEnds a =>
    refine inBridge_advances h hstep fun b hb => ?_
    unfold audioEnds at hb
    split at hb
    · cases hb
      exact ⟨.handles (.single (.event (.audioEnds a))), rfl⟩
    · cases hb
  | enqueue q =>
    cases hstep
    exact event_advances h (.enqueue q)
  | worker a =>
    refine inBridge_advances h hstep fun b hb => ⟨.worker a hb, ?_⟩
    obtain ⟨p, -, rfl⟩ := Option.map_eq_some_iff.mp hb
    rfl
  | begin i kind =>
    refine inBridge_advances h hstep fun b hb => ?_
    have hevs := begin_events h.inv hb
    exact ⟨.handles hevs.handlings, hevs.endSent⟩
  | op i a =>
    refine inBridge_advances h hstep fun b hb => ?_
    rcases opStep_change h.inv hb with hevs | ⟨hskips, rfl⟩
    · exact ⟨.handles hevs.handlings, hevs.endSent⟩
    · exact ⟨.loses i a hskips rfl, rfl⟩
  | call k site => exact (call_reaches h hstep).advances
  | closer k a =>
    cases a with
    | waited =>
      simp only [step, closerStep] at hstep
      split at hstep
      · cases hstep
      · exact (closerResume_reaches h hstep).advances
    | cancelled =>
      simp only [step, closerStep] at hstep
      split at hstep
      · obtain ⟨hsame, hok⟩ := closerCancelled_ok h hstep
        exact ⟨.handles (hsame ▸ .refl), hok⟩
      · cases hstep
  | cancelTurn t =>
    cases hstep
    exact event_advances h (.cancelTask t)
  | cancelWorker =>
    cases hstep
    exact event_advances h .cancelWorker
  | cancelOp i =>
    cases hstep
    refine event_advances h (.cancelOps _ fun j => ?_)
    rcases eq_or_ne j i with rfl | hne
    · exact .inr (Function.update_self _ _ _)
    · exact .inl (Function.update_of_ne hne _ _)
  | cancelCloser k =>
    cases hstep
    exact ⟨.handles .refl, h.setCloser (.inl (cancelCloser_same _))⟩

theorem Ok.init : Ok {} := by
  refine ⟨.init, .none rfl, fun _ hk => ?_, fun _ hk => ?_, fun _ _ hk => ?_, .before rfl rfl⟩
  · cases hk
  · cases hk
  · cases hk

open Transition in
/-- The invariant of every run. -/
theorem ok_of_reachable (h : Reachable (step cfg) {} s) : s.Ok :=
  h.invariant .init fun _ _ _ hok _ hstep => (step_advances hok hstep).ok

end Session

end Bridge
