-- SUMMARY: The contract of `close_all`: its steps once and in order, whoever calls it and however often its caller is cancelled.
import JotaGateway.Bridge.Closers

/-!
# The teardown runs once

Whoever gets `_close_lock` first takes the teardown to its end: a cancellation
of it is noted, and each of its waits leads to the next step. The others find
the session closed.
-/

namespace Bridge

open Transition

/-- The status that the first holder of the lock computes. -/
def CloseSite.computes (site : CloseSite) (reason : Option CloseReason) : SessionStatus :=
  site.status.getD (if reason = some .error then .error else .completed)

/-- The caller of `close_all` that takes the step. -/
def Act.caller : Act → Option CloserRef
  | .call k _ | .closer k _ => some k
  | _ => none

/-- It is the end of a wait of `k`. -/
def Act.isWait (k : CloserRef) : Act → Bool
  | .closer j .waited => j == k
  | _ => false

namespace Session

/-- Where that caller calls it. -/
def site (s : Session) : Act → CloseSite
  | .call _ site => site
  | .closer k _ => (s.closers k).site
  | _ => .route

/-- The reason that the step notes. -/
def notes (s : Session) : Act → Option CloseReason
  | .note reason => some reason
  | .call _ site => site.noted
  | .closer k .waited => if (s.closers k).pc = .close1008 then (s.closers k).site.reason else none
  | _ => none

variable {cfg : Config} {s s₁ s' : Session} {k j : CloserRef} {a : Act}

-- ---------------------------------------------------------------------------
-- From one wait of the teardown to the next
-- ---------------------------------------------------------------------------

/-- `k` takes the teardown on from `s`, to its next wait. -/
structure Onward (k : CloserRef) (s s' : Session) : Prop where
  trace : s.close.trace.length < s'.close.trace.length
  own : (s.closers k).cancelReq = false → (s'.closers k).cancelReq = false
  others : ∀ j, j ≠ k → (s'.closers j).pc = (s.closers j).pc
  site : ∀ j, (s'.closers j).site = (s.closers j).site
  reason : s'.close.reason = s.close.reason
  computed : s'.close.computed = s.close.computed
  lock : s'.close.lock = some k
  closed : s'.close.closed = false

theorem length_lt_starts (s : Session) (step : CloseStep) :
    s.close.trace.length < (s.starts step).close.trace.length := by
  simp only [starts, List.length_append, List.length_singleton, Nat.lt_succ_self]

/-- A step has started on the way. -/
theorem Onward.of_starts {step : CloseStep} (h : Onward k (s.starts step) s') : Onward k s s' :=
  ⟨(length_lt_starts s step).trans h.trace, h.own, h.others, h.site, h.reason, h.computed, h.lock,
    h.closed⟩

/-- Only the bridge has changed on the way. -/
theorem Onward.of_bridge {b : JotaBridge} (h : Onward k { s with bridge := b } s') : Onward k s s' :=
  ⟨h.trace, h.own, h.others, h.site, h.reason, h.computed, h.lock, h.closed⟩

theorem suspend_closers (s : Session) (k : CloserRef) (pc : CloserPc) :
    ((s.suspend k pc).closers k).cancelReq = (s.closers k).cancelReq ∧
      (∀ j, j ≠ k → ((s.suspend k pc).closers j).pc = (s.closers j).pc) ∧
        ∀ j, ((s.suspend k pc).closers j).site = (s.closers j).site := by
  have hself : (s.suspend k pc).closers k = { s.closers k with pc := pc } := setCloser_self _ _ _
  refine ⟨by rw [hself], fun j hne => ?_, fun j => ?_⟩
  · exact congrArg Closer.pc (setCloser_ne _ hne _)
  · rcases eq_or_ne j k with rfl | hne
    · rw [hself]
    · exact congrArg Closer.site (setCloser_ne _ hne _)

/-- A step starts, and `k` suspends. -/
theorem onward_suspend {step : CloseStep} {pc : CloserPc} (hlock : s.close.lock = some k)
    (hopen : s.close.closed = false) : Onward k s ((s.starts step).suspend k pc) := by
  obtain ⟨hown, hothers, hsite⟩ := suspend_closers (s.starts step) k pc
  exact ⟨length_lt_starts s step, hown.trans, hothers, hsite, rfl, rfl, hlock, hopen⟩

theorem closeTracker_onward (hlock : s.close.lock = some k) (hopen : s.close.closed = false) :
    Onward k s (s.closeTracker k) := by
  have hlength := (length_lt_starts s .count).trans (length_lt_starts (s.starts .count) .tracker)
  unfold closeTracker
  dsimp only
  split
  all_goals
    refine ⟨hlength, (suspend_closers _ k _).1.trans, (suspend_closers _ k _).2.1,
      (suspend_closers _ k _).2.2, rfl, rfl, hlock, hopen⟩

theorem closeTranscriber_onward (hlock : s.close.lock = some k) (hopen : s.close.closed = false) :
    Onward k s (s.closeTranscriber cfg k) := by
  unfold closeTranscriber
  dsimp only
  split
  · exact onward_suspend hlock hopen
  · exact (closeTracker_onward (s := s.starts .transcriber) hlock hopen).of_starts

theorem cancelTasks_onward (hlock : s.close.lock = some k) (hopen : s.close.closed = false) :
    Onward k s (s.cancelTasks k) := by
  have hasked : ∀ j, ∀ c : Closer,
      c = (if j ≠ k ∧ (s.closers j).site.inTasks then cancelCloser (s.closers j) else s.closers j) →
        c.pc = (s.closers j).pc ∧ c.site = (s.closers j).site := by
    rintro j c rfl
    split
    · exact ⟨(cancelCloser_same _).1, cancelCloser_site _⟩
    · exact ⟨rfl, rfl⟩
  unfold cancelTasks
  dsimp only
  refine ⟨length_lt_starts s .tasks, fun hown => ?_, fun j hne => ?_, fun j => ?_, rfl, rfl, hlock,
    hopen⟩
  · refine (suspend_closers _ k _).1.trans ?_
    -- the calling task is spared
    exact (congrArg Closer.cancelReq (if_neg fun hk => hk.1 rfl)).trans hown
  · exact ((suspend_closers _ k _).2.1 j hne).trans (hasked j _ rfl).1
  · exact ((suspend_closers _ k _).2.2 j).trans (hasked j _ rfl).2

theorem closePush_onward (hlock : s.close.lock = some k) (hopen : s.close.closed = false) :
    Onward k s (s.closePush k) :=
  (cancelTasks_onward (s := { s.starts .push with bridge := s.bridge.setPushing _ }) hlock
    hopen).of_bridge.of_starts

theorem closeTts_onward (hlock : s.close.lock = some k) (hopen : s.close.closed = false) :
    Onward k s (s.closeTts k) := by
  unfold closeTts
  dsimp only
  split
  · rename_i t _
    exact (onward_suspend (s := { s with bridge.out := s.bridge.out.closeStream t }) hlock hopen).of_bridge
  · exact (closePush_onward (s := s.starts .tts) hlock hopen).of_starts

theorem stopAudio_onward (hlock : s.close.lock = some k) (hopen : s.close.closed = false) :
    Onward k s (s.stopAudio k) := by
  have hgoes : Onward k s ((s.starts .audio).closeTts k) :=
    (closeTts_onward (s := s.starts .audio) hlock hopen).of_starts
  unfold stopAudio
  dsimp only
  split
  · rename_i a _
    split
    · exact (onward_suspend (s := { s with bridge.out := s.bridge.out.cancelAudio a }) hlock hopen).of_bridge
    · exact hgoes
  · exact hgoes

theorem dropBacklog_onward (hlock : s.close.lock = some k) (hopen : s.close.closed = false) :
    Onward k s (s.dropBacklog k) := by
  have hgoes : Onward k (s.starts .backlog) (s.dropBacklog k) :=
    Onward.of_bridge (stopAudio_onward hlock hopen)
  exact hgoes.of_starts

theorem stopWorker_onward (hlock : s.close.lock = some k) (hopen : s.close.closed = false) :
    Onward k s (s.stopWorker k) := by
  unfold stopWorker
  dsimp only
  split
  · exact (dropBacklog_onward (s := s.starts .worker) hlock hopen).of_starts
  · exact (onward_suspend (s := { s with bridge.push.worker := cancelWorker s.bridge.push.worker })
      hlock hopen).of_bridge

theorem endAbandoned_onward {t : TurnRef} (hlock : s.close.lock = some k)
    (hopen : s.close.closed = false) : Onward k s (s.endAbandoned k t) :=
  Onward.of_bridge (stopWorker_onward (s := { s with bridge := _ }) hlock hopen)

theorem stopTurn_onward (hlock : s.close.lock = some k) (hopen : s.close.closed = false) :
    Onward k s (s.stopTurn k) := by
  unfold stopTurn
  dsimp only
  split
  · rename_i t _
    split
    · exact (onward_suspend (s := { s with bridge := s.bridge.cancelTask t }) hlock hopen).of_bridge
    · exact (endAbandoned_onward (s := s.starts .turn) hlock hopen).of_starts
  · exact (stopWorker_onward (s := s.starts .turn) hlock hopen).of_starts

/-- The first holder of the lock starts. -/
theorem closeLocked_onward (hlock : s.close.lock = some k) (hopen : s.close.closed = false) :
    ∃ s₁ : Session, Onward k s₁ (s.closeLocked k) ∧
      (s₁.closers k).cancelReq = (s.closers k).cancelReq ∧ (∀ j, j ≠ k → s₁.closers j = s.closers j) ∧
        (s₁.closers k).site = (s.closers k).site ∧ s₁.close.reason = s.close.reason ∧
          s₁.close.computed = s.close.computed ++ [(s.closers k).site.computes s.close.reason] := by
  have heq : ∃ s₁ : Session, s.closeLocked k = s₁.stopTurn k ∧ s₁.closers = Function.update s.closers k
      { s.closers k with status := (s.closers k).site.computes s.close.reason } ∧
        s₁.close.lock = some k ∧ s₁.close.closed = false ∧ s₁.close.reason = s.close.reason ∧
          s₁.close.computed = s.close.computed ++ [(s.closers k).site.computes s.close.reason] := by
    simp only [closeLocked, hopen, Bool.false_eq_true, if_false, Session.starts]
    exact ⟨_, rfl, rfl, hlock, rfl, rfl, rfl⟩
  obtain ⟨s₁, heq, hclosers, hlock₁, hclosed₁, hreason, hcomputed⟩ := heq
  rw [heq]
  refine ⟨s₁, stopTurn_onward hlock₁ hclosed₁, ?_, ?_, ?_, hreason, hcomputed⟩
  · rw [hclosers, Function.update_self]
  · intro j hne
    rw [hclosers, Function.update_of_ne hne]
  · rw [hclosers, Function.update_self]

/-- A wait of the teardown is over; the last one ends it. -/
theorem closerResume_onward (h : s.Ok) (hwithin : (s.closers k).pc.within = true)
    (hstep : s.closerResume cfg k = some s') : Onward k s s' ∨ s' = s.finish k := by
  obtain ⟨hlock, hopen, -⟩ := h.during hwithin
  unfold closerResume at hstep
  split at hstep
  case h_1 hpc | h_2 hpc | h_3 hpc =>
    rw [hpc] at hwithin
    cases hwithin
  all_goals cases hstep
  case h_4 => exact .inl (endAbandoned_onward hlock hopen)
  case h_5 => exact .inl (dropBacklog_onward hlock hopen)
  case h_6 => exact .inl (closeTts_onward hlock hopen)
  case h_7 => exact .inl (Onward.of_bridge (closePush_onward hlock hopen))
  case h_8 => exact .inl (closeTranscriber_onward hlock hopen)
  case h_9 => exact .inl (closeTracker_onward hlock hopen)
  case h_10 => exact .inr rfl

-- ---------------------------------------------------------------------------
-- What a step of the session does to the teardown
-- ---------------------------------------------------------------------------

/-- The kinds of step. -/
inductive Stepped (a : Act) (s s' : Session) : Prop where
  | elsewhere (ha : a.caller = none) (hclosers : s'.closers = s.closers)
      (hclose : s'.close = { s.close with reason := s.close.reason.or (s.notes a) })
  | asks (k : CloserRef) (ha : a = .cancelCloser k)
      (heq : s' = s.setCloser k (cancelCloser (s.closers k)))
  /-- `k` comes to the lock, or leaves without it -/
  | outside (k : CloserRef) (c : Closer) (ha : a.caller = some k)
      (hout : (s.closers k).pc.within = false) (hc : c.pc.within = false) (hreq : c.cancelReq = false)
      (hsite : c.site = .route ∨ c.site = s.site a)
      (hclosers : s'.closers = Function.update s.closers k c)
      (hclose : s'.close = { s.close with reason := s.close.reason.or (s.notes a) })
      (hbridge : s'.bridge = { s.bridge with
        closing := s'.bridge.closing, out.clientGone := s'.bridge.out.clientGone })
      (hclosing : s.bridge.closing = true → s'.bridge.closing = true)
      (hwhy : s.close.lock ≠ none ∨ s.close.closed = true ∨ a = .closer k .cancelled ∨
        a = .call k .revocation)
  /-- `k` gets the lock of a session that is not closed, and goes on from `s₁` -/
  | first (k : CloserRef) (s₁ : Session) (ha : a.caller = some k) (hwaited : a ≠ .closer k .cancelled)
      (hout : (s.closers k).pc.within = false) (hlock : s.close.lock = none)
      (hopen : s.close.closed = false) (hclosers : ∀ j, j ≠ k → s₁.closers j = s.closers j)
      (hsite : (s₁.closers k).site = s.site a) (hreq : (s₁.closers k).cancelReq = false)
      (hreason : s₁.close.reason = s.close.reason.or (s.notes a))
      (hcomputed : s₁.close.computed = s.close.computed ++ [(s.site a).computes s₁.close.reason])
      (h : Onward k s₁ s')
  | notes (k : CloserRef) (ha : a = .closer k .cancelled)
      (hwithin : (s.closers k).pc.within = true)
      (heq : s' = s.setCloser k { s.closers k with noted := true, cancelReq := false })
  | onward (k : CloserRef) (ha : a = .closer k .waited) (hwithin : (s.closers k).pc.within = true)
      (hreq : (s.closers k).cancelReq = false) (h : Onward k s s')
  | finishes (k : CloserRef) (ha : a = .closer k .waited)
      (hwithin : (s.closers k).pc.within = true) (heq : s' = s.finish k)

/-- A task calls `close_all`, in the state `s₁` that it has made of `s`. -/
theorem closeAll_stepped (c : Closer) (reason : Option CloseReason) (ha : a.caller = some k)
    (hwaited : a ≠ .closer k .cancelled) (hout : (s.closers k).pc.within = false) (hbridge : s₁.bridge = s.bridge)
    (hclosers : s₁.closers = Function.update s.closers k c)
    (hclose : s₁.close = { s.close with reason := s.close.reason.or reason })
    (hsite : c.site = s.site a) (hreq : c.cancelReq = false)
    (hnotes : s.notes a = reason.or c.site.reason) : Stepped a s (s₁.closeAll k) := by
  have hself : s₁.closers k = c := by
    rw [hclosers, Function.update_self]
  obtain ⟨s₂, hs₂⟩ : ∃ s₂, s₂ = ({ s₁ with bridge.closing := true }.noteCloseReason c.site.reason) :=
    ⟨_, rfl⟩
  have heq : s₁.closeAll k = if s₂.close.lock.isNone then closeLocked { s₂ with close.lock := some k } k
      else s₂.suspend k .lock := by
    rw [hs₂, ← hself]
    rfl
  have hclosers₂ : s₂.closers = Function.update s.closers k c := by
    rw [hs₂, ← hclosers]
    rfl
  have hbridge₂ : s₂.bridge = { s.bridge with closing := true } := by
    rw [hs₂, ← hbridge]
    rfl
  have hclose₂ : s₂.close = { s.close with reason := s.close.reason.or (s.notes a) } := by
    rw [hs₂, hnotes, ← Option.or_assoc]
    simp only [noteCloseReason]
    rw [hclose]
  have hlock₂ : s₂.close.lock = s.close.lock := by
    rw [hclose₂]
  have hclosed₂ : s₂.close.closed = s.close.closed := by
    rw [hclose₂]
  have hself₂ : s₂.closers k = c := by
    rw [hclosers₂, Function.update_self]
  have houtside : ∀ c' : Closer, c'.pc.within = false → c'.cancelReq = false →
      c'.site = .route ∨ c'.site = s.site a → s.close.lock ≠ none ∨ s.close.closed = true →
        Stepped a s (s₂.setCloser k c') := by
    intro c' hc hreq hsite hwhy
    refine .outside k c' ha hout hc hreq hsite ?_ hclose₂ ?_ ?_ (hwhy.imp_right .inl)
    · rw [setCloser, hclosers₂, Function.update_idem]
    · rw [setCloser, hbridge₂]
    · exact fun _ => congrArg JotaBridge.closing hbridge₂
  rw [heq]
  split
  · rename_i hfree
    have hfree := Option.isNone_iff_eq_none.mp hfree
    cases hclosed : s.close.closed with
    | true =>
      rw [closeLocked_of_closed hfree (hclosed₂.trans hclosed)]
      exact houtside _ rfl rfl (.inl rfl) (.inr hclosed)
    | false =>
      obtain ⟨s₃, honward, hreq₃, hclosers₃, hsite₃, hreason₃, hcomputed₃⟩ :=
        closeLocked_onward (s := { s₂ with close.lock := some k }) rfl (hclosed₂.trans hclosed)
      have hreason : s₃.close.reason = s.close.reason.or (s.notes a) := by
        rw [hreason₃, hclose₂]
      refine .first k s₃ ha hwaited hout (hlock₂.symm.trans hfree) hclosed ?_ ?_ ?_ hreason ?_ honward
      · intro j hne
        rw [hclosers₃ j hne, hclosers₂, Function.update_of_ne hne]
      · rw [hsite₃, hself₂]
        exact hsite
      · rw [hreq₃, hself₂]
        exact hreq
      · rw [hcomputed₃, hreason₃, hself₂, hsite, hclose₂]
  · rename_i hheld
    refine houtside _ rfl ?_ ?_ (.inl ?_)
    · rw [hself₂]
      exact hreq
    · rw [hself₂]
      exact .inr hsite
    · rw [← hlock₂]
      exact fun hfree => hheld (Option.isNone_iff_eq_none.mpr hfree)

theorem call_stepped {site : CloseSite} (hstep : s.call k site = some s') :
    Stepped (.call k site) s s' := by
  unfold call at hstep
  split at hstep
  · rename_i hidle
    have hout : (s.closers k).pc.within = false := by
      rw [hidle]
      rfl
    obtain ⟨s₁, hs₁⟩ : ∃ s₁, s₁ = (s.noteCloseReason site.noted).setCloser k
        { site := site, cancelling := site = .run .cancelled } := ⟨_, rfl⟩
    dsimp only at hstep
    rw [← hs₁] at hstep
    split at hstep
    · cases hstep
      rw [hs₁]
      refine .outside k { site := .revocation, pc := .close1008 } rfl hout rfl rfl (.inr rfl) ?_ rfl
        rfl (fun hclosing => hclosing) (.inr (.inr (.inr rfl)))
      simp only [noteCloseReason, suspend, setCloser, Function.update_self, Function.update_idem]
      rfl
    · rename_i hother
      cases hstep
      refine closeAll_stepped { site := site, cancelling := site = .run .cancelled } site.noted rfl
        (fun ha => by cases ha) hout ?_ ?_ ?_ rfl rfl ?_
      · rw [hs₁]
        rfl
      · rw [hs₁]
        rfl
      · rw [hs₁]
        rfl
      · have hreason : site.reason = none := by
          cases site with
          | revocation => exact absurd rfl hother
          | _ => rfl
        simp only [notes, hreason, Option.or_none]
  · cases hstep

theorem closer_stepped {act : CloserAct} (h : s.Ok) (hstep : s.closerStep cfg k act = some s') :
    Stepped (.closer k act) s s' := by
  have hnone : ∀ reason : Option CloseReason, reason.or none = reason := fun _ => Option.or_none
  cases act with
  | cancelled =>
    have hleaves : (s.closers k).pc.within = false →
        Stepped (.closer k .cancelled) s (s.setCloser k {}) := fun hout =>
      .outside k {} rfl hout rfl rfl (.inl rfl) rfl
        (by rw [show s.notes (.closer k .cancelled) = none from rfl, hnone]; rfl) rfl
        (fun hclosing => hclosing) (.inr (.inr (.inl rfl)))
    simp only [closerStep] at hstep
    split at hstep
    · unfold closerCancelled at hstep
      split at hstep
      · cases hstep
      · rename_i hpc
        cases hstep
        exact hleaves (by rw [hpc]; rfl)
      · rename_i hpc
        cases hstep
        exact hleaves (by rw [hpc]; rfl)
      · rename_i hidle hclose hlock
        cases hstep
        refine .notes k rfl ?_ rfl
        cases hpc : (s.closers k).pc with
        | idle => exact absurd hpc hidle
        | close1008 => exact absurd hpc hclose
        | lock => exact absurd hpc hlock
        | _ => rfl
    · cases hstep
  | waited =>
    simp only [closerStep] at hstep
    split at hstep
    · cases hstep
    · rename_i hreq
      have hreq := Bool.eq_false_iff.mpr hreq
      have hself : s.closers = Function.update s.closers k (s.closers k) :=
        (Function.update_eq_self k s.closers).symm
      cases hwithin : (s.closers k).pc.within with
      | true =>
        rcases closerResume_onward h hwithin hstep with honward | hfinish
        · exact .onward k rfl hwithin hreq honward
        · exact .finishes k rfl hwithin hfinish
      | false =>
        cases hpc : (s.closers k).pc with
        | idle =>
          simp only [closerResume, hpc] at hstep
          cases hstep
        | close1008 =>
          simp only [closerResume, hpc, Option.some.injEq] at hstep
          refine hstep ▸ closeAll_stepped _ none rfl (fun ha => by cases ha) hwithin rfl hself ?_ rfl hreq
            ?_
          · rw [hnone]
          · rw [notes, if_pos hpc]
            rfl
        | lock =>
          have hnotes : s.notes (.closer k .waited) = none := by
            rw [notes, if_neg]
            rw [hpc]
            decide
          simp only [closerResume, hpc] at hstep
          split at hstep
          · rename_i hfree
            have hfree := Option.isNone_iff_eq_none.mp hfree
            obtain rfl := Option.some.inj hstep
            rcases Bool.eq_false_or_eq_true s.close.closed with hclosed | hclosed
            · rw [closeLocked_of_closed hfree hclosed]
              exact .outside k {} rfl hwithin rfl rfl (.inl rfl) rfl (by rw [hnotes, hnone]; rfl) rfl
                (fun hclosing => hclosing) (.inr (.inl hclosed))
            · obtain ⟨s₁, honward, hreq₁, hclosers₁, hsite₁, hreason₁, hcomputed₁⟩ :=
                closeLocked_onward (s := { s with close.lock := some k }) rfl hclosed
              refine .first k s₁ rfl (fun ha => by cases ha) hwithin hfree hclosed hclosers₁ hsite₁
                (hreq₁.trans hreq) ?_ ?_ honward
              · rw [hnotes, hnone]
                exact hreason₁
              · rw [hreason₁]
                exact hcomputed₁
          · cases hstep
        | _ =>
          rw [hpc] at hwithin
          cases hwithin

/-- What a step of the session does to the teardown. -/
theorem step_cases (h : s.Ok) (hstep : s.step cfg a = some s') : Stepped a s s' := by
  have hother : ∀ {b}, a.caller = none → s.notes a = none → s' = { s with bridge := b } →
      Stepped a s s' := by
    rintro b ha hnotes rfl
    exact .elsewhere ha rfl (by rw [hnotes, Option.or_none])
  have hbridge : ∀ {b? : Option JotaBridge}, a.caller = none → s.notes a = none →
      s.inBridge b? = some s' → Stepped a s s' := by
    intro b? ha hnotes hstep
    obtain ⟨b, -, heq⟩ := Option.map_eq_some_iff.mp hstep
    exact hother ha hnotes heq.symm
  cases a with
  | note reason =>
    simp only [step] at hstep
    split at hstep
    · cases hstep
    · cases hstep
      exact .elsewhere rfl rfl rfl
  | turn t a => exact hbridge rfl rfl hstep
  | audioFrame a => exact hbridge rfl rfl hstep
  | audioEnds a => exact hbridge rfl rfl hstep
  | worker a => exact hbridge rfl rfl hstep
  | begin i kind => exact hbridge rfl rfl hstep
  | op i a => exact hbridge rfl rfl hstep
  | call k site => exact call_stepped hstep
  | closer k act => exact closer_stepped h hstep
  | cancelCloser k =>
    cases hstep
    exact .asks k rfl rfl
  | _ =>
    cases hstep
    exact hother rfl rfl rfl

/-- A caller within the teardown notes nothing. -/
theorem notes_of_within {act : CloserAct} (hwithin : (s.closers k).pc.within = true) :
    s.notes (.closer k act) = none := by
  cases act with
  | cancelled => rfl
  | waited =>
    refine if_neg fun hpc => ?_
    rw [hpc] at hwithin
    cases hwithin

/-- The first reason wins. -/
theorem Stepped.reason (h : Stepped a s s') : s'.close.reason = s.close.reason.or (s.notes a) := by
  cases h with
  | elsewhere _ _ hclose | outside _ _ _ _ _ _ _ _ hclose => rw [hclose]
  | asks k ha heq =>
    subst ha heq
    exact Option.or_none.symm
  | first _ _ _ _ _ _ _ _ _ _ hreason _ honward => rw [honward.reason, hreason]
  | notes k ha hwithin heq =>
    subst ha heq
    exact Option.or_none.symm
  | onward k ha hwithin _ honward => rw [honward.reason, ha, notes_of_within hwithin, Option.or_none]
  | finishes k ha hwithin heq => rw [heq, finish_close, ha, notes_of_within hwithin, Option.or_none]

theorem Stepped.site (h : Stepped a s s') (j : CloserRef) :
    (s'.closers j).site = (s.closers j).site ∨ (s'.closers j).site = .route ∨
      a.caller = some j ∧ (s'.closers j).site = s.site a := by
  have hupdate : ∀ {k c}, s'.closers = Function.update s.closers k c →
      c.site = (s.closers k).site ∨ c.site = .route ∨ a.caller = some k ∧ c.site = s.site a →
        (s'.closers j).site = (s.closers j).site ∨ (s'.closers j).site = .route ∨
          a.caller = some j ∧ (s'.closers j).site = s.site a := by
    intro k c hclosers hc
    rw [hclosers]
    rcases eq_or_ne j k with rfl | hne
    · rw [Function.update_self]
      exact hc
    · rw [Function.update_of_ne hne]
      exact .inl rfl
  cases h with
  | elsewhere _ hclosers =>
    rw [hclosers]
    exact .inl rfl
  | asks k _ heq => exact hupdate (by rw [heq]; rfl) (.inl (cancelCloser_site _))
  | outside k c ha _ _ _ hsite hclosers =>
    exact hupdate hclosers (.inr (hsite.imp_right fun heq => ⟨ha, heq⟩))
  | first k s₁ ha _ _ _ _ hclosers hsite _ _ _ honward =>
    rw [honward.site j]
    rcases eq_or_ne j k with rfl | hne
    · exact .inr (.inr ⟨ha, hsite⟩)
    · exact .inl (congrArg Closer.site (hclosers j hne))
  | notes k _ _ heq =>
    subst heq
    exact hupdate rfl (.inl rfl)
  | onward _ _ _ _ honward => exact .inl (honward.site j)
  | finishes k _ _ heq =>
    exact hupdate (c := {}) (by rw [heq, finish_closers]) (.inr (.inl rfl))

/-- Only the first that gets the lock of a session that is not closed computes a status. -/
theorem Stepped.computed (h : Stepped a s s') : s'.close.computed = s.close.computed ∨
    s.close.lock = none ∧ s.close.closed = false ∧ ∃ k, a.caller = some k ∧
      a ≠ .closer k .cancelled ∧ s'.close.lock = some k ∧
        s'.close.computed = s.close.computed ++ [(s.site a).computes s'.close.reason] := by
  cases h with
  | elsewhere _ _ hclose | outside _ _ _ _ _ _ _ _ hclose =>
    rw [hclose]
    exact .inl rfl
  | asks k _ heq | notes k _ _ heq =>
    subst heq
    exact .inl rfl
  | first k s₁ ha hwaited _ hfree hopen _ _ _ _ hcomputed honward =>
    refine .inr ⟨hfree, hopen, k, ha, hwaited, honward.lock, ?_⟩
    rw [honward.computed, honward.reason, hcomputed]
  | onward _ _ _ _ honward => exact .inl honward.computed
  | finishes k _ _ heq =>
    rw [heq, finish_close]
    exact .inl rfl

-- ---------------------------------------------------------------------------
-- The holder of the lock
-- ---------------------------------------------------------------------------

/-- Only the holder of the lock is within the teardown. -/
theorem Ok.within_iff (h : s.Ok) : (s.closers k).pc.within = true ↔ s.close.lock = some k := by
  refine ⟨h.holder k, fun hlock => ?_⟩
  cases h.recorded with
  | before hfree =>
    rw [hfree] at hlock
    cases hlock
  | during j hheld hwithin =>
    obtain rfl : j = k := Option.some.inj (hheld.symm.trans hlock)
    exact hwithin
  | after _ _ hfree =>
    rw [hfree] at hlock
    cases hlock

/-- A closed session stays closed. -/
theorem step_closed (h : s.Ok) (hclosed : s.close.closed = true) (hstep : s.step cfg a = some s') :
    s'.close.closed = true := by
  have hout : ∀ k, (s.closers k).pc.within = true → False := by
    intro k hwithin
    rw [(h.during hwithin).2.1] at hclosed
    cases hclosed
  cases step_cases h hstep with
  | elsewhere _ _ hclose =>
    rw [hclose]
    exact hclosed
  | asks k _ heq =>
    subst heq
    exact hclosed
  | outside k c _ _ _ _ _ _ hclose =>
    rw [hclose]
    exact hclosed
  | first k s₁ _ _ _ _ hopen =>
    rw [hopen] at hclosed
    cases hclosed
  | notes k _ hwithin => exact (hout k hwithin).elim
  | onward k _ hwithin => exact (hout k hwithin).elim
  | finishes k _ hwithin => exact (hout k hwithin).elim

/-- The holder of the lock keeps it to the end, and each of its waits leads on. -/
theorem step_holder (h : s.Ok) (hwithin : (s.closers k).pc.within = true)
    (hstep : s.step cfg a = some s') :
    s'.close.closed = true ∨ (s'.closers k).pc.within = true ∧
      s.close.trace.length + (if a.isWait k then 1 else 0) ≤ s'.close.trace.length := by
  have hok := (step_advances h hstep).ok
  have hlock := h.within_iff.mp hwithin
  have hsame : ∀ {j}, (s.closers j).pc.within = true → j = k := fun hj =>
    Option.some.inj ((h.within_iff.mp hj).symm.trans hlock)
  have hquiet : a.isWait k = false → s.close.trace.length ≤ s'.close.trace.length →
      s.close.trace.length + (if a.isWait k then 1 else 0) ≤ s'.close.trace.length := by
    intro hwait hle
    rwa [hwait, if_neg Bool.false_ne_true, Nat.add_zero]
  cases step_cases h hstep with
  | elsewhere ha hclosers hclose =>
    refine .inr ⟨by rw [hclosers]; exact hwithin, hquiet ?_ ?_⟩
    · cases a with
      | closer => cases ha
      | _ => rfl
    · rw [hclose]
  | asks j ha heq =>
    subst ha heq
    refine .inr ⟨hok.within_iff.mpr hlock, hquiet rfl (Nat.le_refl _)⟩
  | outside j c ha hout _ _ _ _ hclose =>
    have hne : j ≠ k := by
      rintro rfl
      rw [hwithin] at hout
      cases hout
    refine .inr ⟨hok.within_iff.mpr ?_, hquiet ?_ ?_⟩
    · rw [hclose]
      exact hlock
    · unfold Act.isWait
      split
      · exact beq_eq_false_iff_ne.mpr (Option.some.inj ha ▸ hne)
      · rfl
    · rw [hclose]
  | first j s₁ _ _ _ hfree =>
    rw [hfree] at hlock
    cases hlock
  | notes j ha _ heq =>
    subst ha heq
    exact .inr ⟨hok.within_iff.mpr hlock, hquiet rfl (Nat.le_refl _)⟩
  | onward j _ hj _ honward =>
    obtain rfl := hsame hj
    refine .inr ⟨hok.within_iff.mpr honward.lock, Nat.le_trans ?_ honward.trace⟩
    split
    · exact Nat.le_refl _
    · exact Nat.le_succ _
  | finishes j _ _ heq =>
    subst heq
    rw [finish_close]
    exact .inl rfl

/-- However often the holder is cancelled meanwhile, the end of its twelfth wait at the latest closes
the session. -/
theorem closed_of_waits {actions : List Act} (h : s.Ok)
    (hholds : s.close.closed = true ∨ (s.closers k).pc.within = true ∧
      12 ≤ s.close.trace.length + actions.countP (Act.isWait k))
    (hrun : run (step cfg) s actions = some s') : s'.close.closed = true := by
  induction actions generalizing s with
  | nil =>
    obtain rfl : s = s' := Option.some.inj hrun
    rcases hholds with hclosed | ⟨hwithin, hlength⟩
    · exact hclosed
    · have hdepth := (h.during hwithin).2.2.trace
      rw [hdepth, length_take_order ((depth_le _).trans (by decide)), List.countP_nil] at hlength
      exact absurd (depth_le (s.closers k).pc) (by omega)
  | cons a rest ih =>
    simp only [run, Option.bind_eq_some_iff] at hrun
    obtain ⟨s₁, hstep, hrest⟩ := hrun
    refine ih (step_advances h hstep).ok ?_ hrest
    rcases hholds with hclosed | ⟨hwithin, hlength⟩
    · exact .inl (step_closed h hclosed hstep)
    · rcases step_holder h hwithin hstep with hclosed | ⟨hwithin', hle⟩
      · exact .inl hclosed
      · rw [List.countP_cons] at hlength
        exact .inr ⟨hwithin', by omega⟩

theorem closerResume_isSome (hwithin : (s.closers k).pc.within = true) :
    ∃ s', s.closerResume cfg k = some s' := by
  unfold closerResume
  split
  case h_1 hpc | h_2 hpc | h_3 hpc =>
    rw [hpc] at hwithin
    cases hwithin
  all_goals exact ⟨_, rfl⟩

-- ---------------------------------------------------------------------------
-- The contract
-- ---------------------------------------------------------------------------

/-- The teardown, as it stands in a state of a run. -/
structure CloseContract (cfg : Config) (s : Session) : Prop where
  /-- each step starts at most once and in order; what was noted is raised after `_closed` -/
  order : s.close.trace <+: CloseStep.order ++ [.reraised]
  closed : s.close.closed = true ↔ CloseStep.order <+: s.close.trace
  counted : s.close.sessionsClosed.length ≤ 1
  tracked : s.close.trackerCloses <+: s.close.computed
  done : s.close.closed = true → s.close.sessionsClosed.length = 1 ∧
    (∃ st, s.close.computed = [st] ∧ s.close.trackerCloses = [st]) ∧
      s.bridge.push.queue = [] ∧ s.bridge.push.pending = 0
  /-- the status is computed once, by the first that gets the lock -/
  first : ∀ a s', s.step cfg a = some s' → s'.close.computed = s.close.computed ∨
    s.close.computed = [] ∧ s.close.lock = none ∧ ∃ k, a.caller = some k ∧ s'.close.lock = some k ∧
      s'.close.computed = [(s.site a).computes s'.close.reason]
  /-- a cancellation of the holder is noted, and its wait leads on all the same -/
  goesOn : ∀ k, s.close.lock = some k →
    ((s.closers k).cancelReq = true → s.step cfg (.closer k .cancelled) =
      some (s.setCloser k { s.closers k with noted := true, cancelReq := false })) ∧
    ((s.closers k).cancelReq = false → ∃ s', s.step cfg (.closer k .waited) = some s' ∧
      s.close.trace.length < s'.close.trace.length)
  ends : ∀ k, s.close.lock = some k → ∀ actions s', run (step cfg) s actions = some s' →
    12 ≤ actions.countP (Act.isWait k) → s'.close.closed = true
  raises : ∀ a s', s.step cfg a = some s' → s.close.closed = false → s'.close.closed = true →
    ∃ k, a = .closer k .waited ∧ s.close.lock = some k ∧
      (.reraised ∈ s'.close.trace ↔ ((s.closers k).noted || (s.closers k).cancelling) = true)
  /-- once the session is closed, a caller only notes what it noted before its call -/
  later : s.close.closed = true → ∀ a k s', a.caller = some k → s.step cfg a = some s' →
    s'.close = { s.close with reason := s.close.reason.or (s.notes a) } ∧
      s'.bridge = { s.bridge with out.clientGone := s'.bridge.out.clientGone } ∧
        ∀ j, j ≠ k → s'.closers j = s.closers j
  /-- a caller is cancelled from outside, or by another that has the lock -/
  spared : ∀ a k s', s.step cfg a = some s' → (s.closers k).cancelReq = false →
    (s'.closers k).cancelReq = true →
      a = .cancelCloser k ∨ ∃ j, j ≠ k ∧ a.caller = some j ∧ s'.close.lock = some j

theorem Ok.order (h : s.Ok) : s.close.trace <+: CloseStep.order ++ [.reraised] ∧
    (s.close.closed = true ↔ CloseStep.order <+: s.close.trace) := by
  cases h.recorded with
  | before _ heq =>
    have htrace : s.close.trace = [] := by rw [heq]
    have hopen : s.close.closed = false := by rw [heq]
    rw [htrace, hopen]
    exact ⟨List.nil_prefix, iff_of_false Bool.false_ne_true (by decide)⟩
  | during k _ _ hopen hat =>
    rw [hopen, hat.trace]
    refine ⟨(List.take_prefix _ _).trans (List.prefix_append _ _), iff_of_false Bool.false_ne_true ?_⟩
    intro hall
    have hle := hall.length_le
    rw [length_take_order ((depth_le _).trans (by decide))] at hle
    exact absurd (depth_le (s.closers k).pc) (Nat.not_le.mpr hle)
  | after st raised _ hclosed htrace =>
    rw [htrace, hclosed]
    refine ⟨?_, iff_of_true rfl (List.prefix_append _ _)⟩
    cases raised with
    | true => exact List.prefix_refl _
    | false => exact List.prefix_append_right_inj _ |>.mpr List.nil_prefix

theorem Ok.record (h : s.Ok) : s.close.sessionsClosed.length ≤ 1 ∧
    s.close.trackerCloses <+: s.close.computed ∧ (s.close.lock = none → s.close.closed = false →
      s.close.computed = []) := by
  have hat : ∀ {c : CloseRecord} {d st}, c.At d st →
      c.sessionsClosed.length ≤ 1 ∧ c.trackerCloses <+: c.computed := by
    intro c d st hat
    rw [hat.sessionsClosed, hat.trackerCloses, hat.computed]
    constructor
    · split <;> decide
    · split
      · exact List.prefix_refl _
      · exact List.nil_prefix
  cases h.recorded with
  | before _ heq =>
    rw [heq]
    exact ⟨Nat.zero_le _, List.nil_prefix, fun _ _ => rfl⟩
  | during k hlock _ _ hrecord =>
    refine ⟨(hat hrecord).1, (hat hrecord).2, fun hfree => ?_⟩
    rw [hlock] at hfree
    cases hfree
  | after st raised _ hclosed _ hrecord =>
    refine ⟨(hat hrecord).1, (hat hrecord).2, fun _ hopen => ?_⟩
    rw [hclosed] at hopen
    cases hopen

theorem Ok.done (h : s.Ok) (hclosed : s.close.closed = true) : s.close.sessionsClosed.length = 1 ∧
    (∃ st, s.close.computed = [st] ∧ s.close.trackerCloses = [st]) ∧
      s.bridge.push.queue = [] ∧ s.bridge.push.pending = 0 := by
  cases h.recorded with
  | before _ heq =>
    rw [heq] at hclosed
    cases hclosed
  | during _ _ _ hopen =>
    rw [hopen] at hclosed
    cases hclosed
  | after st raised _ _ htrace hat =>
    have hlength : 4 ≤ s.close.trace.length := by
      rw [htrace, List.length_append]
      exact Nat.le_add_right_of_le (by decide)
    exact ⟨hat.sessionsClosed, ⟨st, hat.computed, hat.trackerCloses⟩, h.settled.backlog hlength⟩

theorem Ok.first (h : s.Ok) (hstep : s.step cfg a = some s') :
    s'.close.computed = s.close.computed ∨ s.close.computed = [] ∧ s.close.lock = none ∧
      ∃ k, a.caller = some k ∧ s'.close.lock = some k ∧
        s'.close.computed = [(s.site a).computes s'.close.reason] := by
  rcases (step_cases h hstep).computed with hsame | ⟨hfree, hopen, k, ha, -, hlock, hcomputed⟩
  · exact .inl hsame
  · have hnone := h.record.2.2 hfree hopen
    rw [hnone, List.nil_append] at hcomputed
    exact .inr ⟨hnone, hfree, k, ha, hlock, hcomputed⟩

theorem Ok.goesOn (h : s.Ok) (hlock : s.close.lock = some k) :
    ((s.closers k).cancelReq = true → s.step cfg (.closer k .cancelled) =
      some (s.setCloser k { s.closers k with noted := true, cancelReq := false })) ∧
    ((s.closers k).cancelReq = false → ∃ s', s.step cfg (.closer k .waited) = some s' ∧
      s.close.trace.length < s'.close.trace.length) := by
  have hwithin := h.within_iff.mpr hlock
  refine ⟨fun hreq => ?_, fun hreq => ?_⟩
  · rw [step, closerStep, if_pos hreq]
    unfold closerCancelled
    split
    case h_4 => rfl
    all_goals
      rename_i hidle
      rw [hidle] at hwithin
      cases hwithin
  · obtain ⟨s', hresume⟩ : ∃ s', s.closerResume cfg k = some s' := closerResume_isSome hwithin
    refine ⟨s', ?_, ?_⟩
    · rw [step, closerStep, if_neg (hreq ▸ Bool.false_ne_true)]
      exact hresume
    · rcases closerResume_onward h hwithin hresume with honward | rfl
      · exact honward.trace
      · rw [finish_close, List.length_append, List.length_cons]
        omega

theorem Ok.raises (h : s.Ok) (hstep : s.step cfg a = some s') (hopen : s.close.closed = false)
    (hclosed : s'.close.closed = true) : ∃ k, a = .closer k .waited ∧ s.close.lock = some k ∧
      (.reraised ∈ s'.close.trace ↔ ((s.closers k).noted || (s.closers k).cancelling) = true) := by
  have hstill : s'.close.closed = s.close.closed → False := by
    intro heq
    rw [heq, hopen] at hclosed
    cases hclosed
  cases step_cases h hstep with
  | elsewhere _ _ hclose | outside _ _ _ _ _ _ _ _ hclose => exact (hstill (by rw [hclose])).elim
  | asks k _ heq | notes k _ _ heq => exact (hstill (by rw [heq]; rfl)).elim
  | first _ _ _ _ _ _ _ _ _ _ _ _ honward | onward _ _ _ _ honward =>
    exact (hstill (honward.closed.trans hopen.symm)).elim
  | finishes k ha hpc heq =>
    have htrace := (h.during hpc).2.2.trace
    have hnew : .reraised ∉ CloseStep.order.take (s.closers k).pc.depth :=
      fun hold => absurd (List.mem_of_mem_take hold) (by decide)
    refine ⟨k, ha, h.within_iff.mp hpc, ?_⟩
    rw [heq, finish_close, List.mem_append, htrace, or_iff_right hnew, List.mem_cons,
      or_iff_right (by decide)]
    split
    · rename_i hraises
      exact iff_of_true (List.mem_singleton_self _) hraises
    · rename_i hquiet
      exact iff_of_false List.not_mem_nil hquiet

theorem Ok.closing (h : s.Ok) (hclosed : s.close.closed = true) : s.bridge.closing = true := by
  refine h.settled.closing (Nat.pos_of_ne_zero fun hzero => ?_)
  have hall := (h.order.2.mp hclosed).length_le
  rw [hzero] at hall
  exact absurd hall (by decide)

theorem Ok.later (h : s.Ok) (hclosed : s.close.closed = true) (ha : a.caller = some k)
    (hstep : s.step cfg a = some s') :
    s'.close = { s.close with reason := s.close.reason.or (s.notes a) } ∧
      s'.bridge = { s.bridge with out.clientGone := s'.bridge.out.clientGone } ∧
        ∀ j, j ≠ k → s'.closers j = s.closers j := by
  have hout : ∀ {j}, (s.closers j).pc.within = true → False := by
    intro j hj
    rw [(h.during hj).2.1] at hclosed
    cases hclosed
  cases step_cases h hstep with
  | elsewhere hnone =>
    rw [hnone] at ha
    cases ha
  | asks j hasks =>
    subst hasks
    cases ha
  | outside j c hcaller _ _ _ _ hclosers hclose hbridge hclosing =>
    obtain rfl : j = k := Option.some.inj (hcaller.symm.trans ha)
    refine ⟨hclose, ?_, fun i hne => ?_⟩
    · have hset := h.closing hclosed
      have hset' := hclosing hset
      rw [hbridge]
      rw [hset', ← hset]
    · rw [hclosers, Function.update_of_ne hne]
  | first _ _ _ _ _ _ hopen =>
    rw [hopen] at hclosed
    cases hclosed
  | notes j _ hj => exact (hout hj).elim
  | onward j _ hj => exact (hout hj).elim
  | finishes j _ hj => exact (hout hj).elim

theorem Ok.spared (h : s.Ok) (hstep : s.step cfg a = some s') (hreq : (s.closers k).cancelReq = false)
    (hreq' : (s'.closers k).cancelReq = true) :
    a = .cancelCloser k ∨ ∃ j, j ≠ k ∧ a.caller = some j ∧ s'.close.lock = some j := by
  have hsame : (s'.closers k).cancelReq = (s.closers k).cancelReq → False := by
    intro heq
    rw [heq, hreq] at hreq'
    cases hreq'
  have hupdate : ∀ {j c}, s'.closers = Function.update s.closers j c → c.cancelReq = false → False := by
    intro j c hclosers hc
    refine hsame ?_
    rcases eq_or_ne k j with rfl | hne
    · rw [hclosers, Function.update_self, hc, hreq]
    · rw [hclosers, Function.update_of_ne hne]
  cases step_cases h hstep with
  | elsewhere _ hclosers => exact (hsame (by rw [hclosers])).elim
  | asks j ha heq =>
    rcases eq_or_ne k j with rfl | hne
    · exact .inl ha
    · exact (hsame (by rw [heq, setCloser_ne _ hne])).elim
  | outside j c _ _ _ hc _ hclosers => exact (hupdate hclosers hc).elim
  | first j s₁ ha _ _ _ _ hclosers _ hreq₁ _ _ honward =>
    refine .inr ⟨j, ?_, ha, honward.lock⟩
    rintro rfl
    rw [honward.own hreq₁] at hreq'
    cases hreq'
  | notes j _ _ heq => exact (hupdate (by rw [heq]; rfl) rfl).elim
  | onward j ha _ hreqj honward =>
    refine .inr ⟨j, ?_, ?_, honward.lock⟩
    · rintro rfl
      rw [honward.own hreqj] at hreq'
      cases hreq'
    · rw [ha]
      rfl
  | finishes j _ _ heq => exact (hupdate (by rw [heq, finish_closers]) rfl).elim

/-- For any number of callers of `close_all`, any schedule and any cancellations, from the start of
a session to any state of it. -/
theorem close_all_contract (cfg : Config) (s : Session) (h : Reachable (step cfg) {} s) :
    CloseContract cfg s := by
  have hok := ok_of_reachable h
  refine ⟨hok.order.1, hok.order.2, hok.record.1, hok.record.2.1, hok.done, fun _ _ => hok.first,
    fun _ => hok.goesOn, ?_, fun _ _ => hok.raises, fun hclosed _ _ _ => hok.later hclosed,
    fun _ _ _ => hok.spared⟩
  intro k hlock actions s' hrun hwaits
  refine closed_of_waits hok (.inr ⟨hok.within_iff.mpr hlock, ?_⟩) hrun
  exact Nat.le_add_left_of_le hwaits

/-- The route closes a session that `run` closes too, and is cancelled while it does. -/
def closedTwice : List Act :=
  [.call 0 .route, .call 1 (.run .returned), .cancelCloser 0, .closer 0 .cancelled,
    .closer 0 .waited, .closer 0 .waited, .closer 1 .waited]

theorem close_all_contract_twice : ∃ s : Session, s.close.closed = true ∧
    s.close.trace = CloseStep.order ++ [.reraised] ∧ s.close.sessionsClosed.length = 1 ∧
      ∃ st, s.close.computed = [st] ∧ s.close.trackerCloses = [st] := by
  have hrun : Reachable (step textOnly) {} ((run (step textOnly) {} closedTwice).get rfl) :=
    reachable_of_run (Option.some_get _).symm
  have hdone := (close_all_contract textOnly _ hrun).done rfl
  exact ⟨_, rfl, rfl, hdone.1, hdone.2.1⟩

end Session

end Bridge
