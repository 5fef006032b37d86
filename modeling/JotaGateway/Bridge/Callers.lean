-- SUMMARY: A caller of `close_all` that nobody cancels comes back to a closed session.
import JotaGateway.Bridge.Shutdown

/-!
# A caller that waits for the teardown

The holder of `_close_lock` cancels only the callers that are in `self.tasks`.
Another one that nobody cancels waits for the lock, or takes the teardown to its
end: it comes back when the session is closed, and not before.
-/

namespace Bridge

open Transition

namespace Session

variable {cfg : Config} {s s₁ s' : Session} {k j : CloserRef} {a : Act}

-- ---------------------------------------------------------------------------
-- What a caller leaves alone
-- ---------------------------------------------------------------------------

/-- `k` goes from `s` to `s'`: it leaves every other caller outside `self.tasks` alone, and takes
nothing back of what was counted or done. -/
structure Proceeds (k : CloserRef) (s s' : Session) : Prop where
  spares : ∀ j, j ≠ k → (s.closers j).site.inTasks = false → s'.closers j = s.closers j
  counts : s.close.sessionsClosed <+: s'.close.sessionsClosed
  trace : s.close.trace <+: s'.close.trace

theorem Proceeds.of_update {c : Closer} (hclosers : s'.closers = Function.update s.closers k c)
    (hcounts : s'.close.sessionsClosed = s.close.sessionsClosed)
    (htrace : s'.close.trace = s.close.trace) : Proceeds k s s' :=
  ⟨fun j hne _ => by rw [hclosers, Function.update_of_ne hne], by rw [hcounts], by rw [htrace]⟩

theorem Proceeds.trans {s₂ : Session} (h₁ : Proceeds k s s₁) (h₂ : Proceeds k s₁ s₂) :
    Proceeds k s s₂ := by
  refine ⟨fun j hne hsite => ?_, h₁.counts.trans h₂.counts, h₁.trace.trans h₂.trace⟩
  have hfirst := h₁.spares j hne hsite
  rw [h₂.spares j hne (by rw [hfirst]; exact hsite), hfirst]

/-- A step of the teardown has started, and the bridge has changed. -/
theorem Proceeds.of_starts {step : CloseStep} {b : JotaBridge}
    (h : Proceeds k { s.starts step with bridge := b } s') : Proceeds k s s' :=
  ⟨h.spares, h.counts, (List.prefix_append _ _).trans h.trace⟩

theorem Proceeds.of_bridge {b : JotaBridge} (h : Proceeds k { s with bridge := b } s') :
    Proceeds k s s' := ⟨h.spares, h.counts, h.trace⟩

theorem suspend_proceeds (s : Session) (k : CloserRef) (pc : CloserPc) :
    Proceeds k s (s.suspend k pc) := .of_update rfl rfl rfl

theorem finish_proceeds (s : Session) (k : CloserRef) : Proceeds k s (s.finish k) := by
  refine ⟨fun j hne _ => ?_, ?_, ?_⟩
  · rw [finish_closers, Function.update_of_ne hne]
  · rw [finish_close]
  · rw [finish_close]
    exact List.prefix_append _ _

theorem closeTracker_proceeds (s : Session) (k : CloserRef) : Proceeds k s (s.closeTracker k) := by
  have htrace : s.close.trace <+: s.close.trace ++ [.count] ++ [.tracker] := by
    rw [List.append_assoc]
    exact List.prefix_append _ _
  unfold closeTracker
  dsimp only
  split
  · exact ⟨fun j hne _ => setCloser_ne _ hne _, List.prefix_refl _, htrace⟩
  · exact ⟨fun j hne _ => setCloser_ne _ hne _, List.prefix_append _ _, htrace⟩

theorem closeTranscriber_proceeds (s : Session) (k : CloserRef) :
    Proceeds k s (s.closeTranscriber cfg k) := by
  unfold closeTranscriber
  dsimp only
  split
  · exact (suspend_proceeds _ k _).of_starts
  · exact (closeTracker_proceeds _ k).of_starts

theorem cancelTasks_proceeds (s : Session) (k : CloserRef) : Proceeds k s (s.cancelTasks k) := by
  have hasks : Proceeds k s { s.starts .tasks with
      bridge.ops := fun i => cancelOp (s.bridge.ops i)
      bridge.push.worker := cancelWorker s.bridge.push.worker
      closers := fun j =>
        if j ≠ k ∧ (s.closers j).site.inTasks then cancelCloser (s.closers j) else s.closers j } := by
    refine ⟨fun j _ hsite => if_neg fun hasked => ?_, List.prefix_refl _, List.prefix_append _ _⟩
    rw [hsite] at hasked
    cases hasked.2
  exact hasks.trans (suspend_proceeds _ k .tasks)

theorem closePush_proceeds (s : Session) (k : CloserRef) : Proceeds k s (s.closePush k) :=
  (cancelTasks_proceeds _ k).of_starts

theorem closeTts_proceeds (s : Session) (k : CloserRef) : Proceeds k s (s.closeTts k) := by
  unfold closeTts
  dsimp only
  split
  · exact (suspend_proceeds _ k _).of_starts
  · exact (closePush_proceeds _ k).of_starts

theorem stopAudio_proceeds (s : Session) (k : CloserRef) : Proceeds k s (s.stopAudio k) := by
  unfold stopAudio
  dsimp only
  split
  · split
    · exact (suspend_proceeds _ k _).of_starts
    · exact (closeTts_proceeds _ k).of_starts
  · exact (closeTts_proceeds _ k).of_starts

theorem dropBacklog_proceeds (s : Session) (k : CloserRef) : Proceeds k s (s.dropBacklog k) :=
  (stopAudio_proceeds _ k).of_starts

theorem stopWorker_proceeds (s : Session) (k : CloserRef) : Proceeds k s (s.stopWorker k) := by
  unfold stopWorker
  dsimp only
  split
  · exact (dropBacklog_proceeds _ k).of_starts
  · exact (suspend_proceeds _ k _).of_starts

theorem endAbandoned_proceeds (s : Session) (k : CloserRef) (t : TurnRef) :
    Proceeds k s (s.endAbandoned k t) :=
  (stopWorker_proceeds _ k).of_bridge

theorem stopTurn_proceeds (s : Session) (k : CloserRef) : Proceeds k s (s.stopTurn k) := by
  unfold stopTurn
  dsimp only
  split
  · split
    · exact (suspend_proceeds _ k _).of_starts
    · exact (endAbandoned_proceeds _ k _).of_starts
  · exact (stopWorker_proceeds _ k).of_starts

theorem closeLocked_proceeds (s : Session) (k : CloserRef) : Proceeds k s (s.closeLocked k) := by
  unfold closeLocked
  split
  · exact .of_update rfl rfl rfl
  · have hstarts : Proceeds k s (({ s with
        close.computed := s.close.computed ++ [(s.closers k).site.computes s.close.reason]
        close.registered := false }.starts .unregister).setCloser k { s.closers k with
          status := (s.closers k).site.computes s.close.reason }) :=
      ⟨fun j hne _ => setCloser_ne _ hne _, List.prefix_refl _, List.prefix_append _ _⟩
    exact hstarts.trans (stopTurn_proceeds _ k)

/-- A lock that is taken leaves the callers and what they did as they were. -/
theorem Proceeds.of_lock (h : Proceeds k { s with close.lock := some k } s') : Proceeds k s s' :=
  ⟨h.spares, h.counts, h.trace⟩

theorem closeAll_proceeds (s : Session) (k : CloserRef) : Proceeds k s (s.closeAll k) := by
  have hnotes : Proceeds k s ({ s with bridge.closing := true }.noteCloseReason
      (s.closers k).site.reason) := ⟨fun _ _ _ => rfl, List.prefix_refl _, List.prefix_refl _⟩
  unfold closeAll
  dsimp only
  split
  · exact hnotes.trans (closeLocked_proceeds _ k).of_lock
  · exact hnotes.trans (suspend_proceeds _ k _)

theorem call_proceeds {site : CloseSite} (hcall : s.call k site = some s') : Proceeds k s s' := by
  have hcomes : Proceeds k s ((s.noteCloseReason site.noted).setCloser k
      { site := site, cancelling := site = .run .cancelled }) := .of_update rfl rfl rfl
  unfold call at hcall
  split at hcall
  · dsimp only at hcall
    split at hcall
    · cases hcall
      exact hcomes.trans (suspend_proceeds _ k _).of_bridge
    · cases hcall
      exact hcomes.trans (closeAll_proceeds _ k)
  · cases hcall

theorem closerStep_proceeds {act : CloserAct} (hstep : s.closerStep cfg k act = some s') :
    Proceeds k s s' := by
  cases act with
  | cancelled =>
    simp only [closerStep] at hstep
    split at hstep
    · unfold closerCancelled at hstep
      split at hstep
      · cases hstep
      all_goals
        cases hstep
        exact .of_update rfl rfl rfl
    · cases hstep
  | waited =>
    simp only [closerStep] at hstep
    split at hstep
    · cases hstep
    · unfold closerResume at hstep
      split at hstep
      case h_1 => cases hstep
      case h_3 =>
        split at hstep
        · cases hstep
          exact (closeLocked_proceeds _ k).of_lock
        · cases hstep
      all_goals cases hstep
      case h_2 => exact closeAll_proceeds s k
      case h_4 => exact endAbandoned_proceeds s k _
      case h_5 => exact dropBacklog_proceeds s k
      case h_6 => exact closeTts_proceeds s k
      case h_7 => exact (closePush_proceeds _ k).of_bridge
      case h_8 => exact closeTranscriber_proceeds s k
      case h_9 => exact closeTracker_proceeds s k
      case h_10 => exact finish_proceeds s k

/-- What a step leaves alone: `k` is who takes it, if it is of the teardown. -/
theorem step_proceeds (hstep : s.step cfg a = some s')
    (hk : a.caller = some k ∨ a = .cancelCloser k ∨ a.caller = none ∧ ∀ j, a ≠ .cancelCloser j) :
    Proceeds k s s' := by
  have hother : ∀ {j}, a.caller = some j → j = k := by
    intro j hj
    rcases hk with hk | rfl | ⟨hk, -⟩
    · exact Option.some.inj (hj.symm.trans hk)
    · cases hj
    · rw [hk] at hj
      cases hj
  cases a with
  | call j site =>
    obtain rfl := hother rfl
    exact call_proceeds hstep
  | closer j act =>
    obtain rfl := hother rfl
    exact closerStep_proceeds hstep
  | cancelCloser j =>
    cases hstep
    rcases hk with hk | hk | ⟨-, hk⟩
    · cases hk
    · cases hk
      exact .of_update rfl rfl rfl
    · exact absurd rfl (hk j)
  | note reason =>
    simp only [step] at hstep
    split at hstep
    · cases hstep
    · cases hstep
      exact ⟨fun _ _ _ => rfl, List.prefix_refl _, List.prefix_refl _⟩
  | turn | audioFrame | audioEnds | worker | begin | op =>
    obtain ⟨b, -, rfl⟩ := Option.map_eq_some_iff.mp hstep
    exact ⟨fun _ _ _ => rfl, List.prefix_refl _, List.prefix_refl _⟩
  | _ =>
    cases hstep
    exact ⟨fun _ _ _ => rfl, List.prefix_refl _, List.prefix_refl _⟩

/-- Who takes a step of the teardown, if anybody does. -/
theorem caller_cases (a : Act) :
    ∃ k, a.caller = some k ∨ a = .cancelCloser k ∨ a.caller = none ∧ ∀ j, a ≠ .cancelCloser j := by
  cases a with
  | call k _ | closer k _ => exact ⟨k, .inl rfl⟩
  | cancelCloser k => exact ⟨k, .inr (.inl rfl)⟩
  | _ => exact ⟨0, .inr (.inr ⟨rfl, fun _ => Act.noConfusion⟩)⟩

/-- Nothing that was counted is taken back. -/
theorem step_counts (hstep : s.step cfg a = some s') :
    s.close.sessionsClosed <+: s'.close.sessionsClosed := by
  obtain ⟨k, hk⟩ := caller_cases a
  exact (step_proceeds hstep hk).counts

theorem step_trace (hstep : s.step cfg a = some s') : s.close.trace <+: s'.close.trace := by
  obtain ⟨k, hk⟩ := caller_cases a
  exact (step_proceeds hstep hk).trace

/-- A step of another leaves a caller outside `self.tasks` alone. -/
theorem step_spares (hstep : s.step cfg a = some s') (hsite : (s.closers k).site.inTasks = false)
    (hother : a.caller ≠ some k) (hasks : a ≠ .cancelCloser k) : s'.closers k = s.closers k := by
  obtain ⟨j, hj⟩ := caller_cases a
  rcases eq_or_ne k j with rfl | hne
  · rcases hj with hj | hj | ⟨hnone, hask⟩
    · exact absurd hj hother
    · exact absurd hj hasks
    · have hproceeds : Proceeds (k + 1) s s' := step_proceeds hstep (.inr (.inr ⟨hnone, hask⟩))
      exact hproceeds.spares k (Nat.ne_of_lt (Nat.lt_succ_self k)) hsite
  · exact (step_proceeds hstep hj).spares k hne hsite

-- ---------------------------------------------------------------------------
-- Until the session is closed
-- ---------------------------------------------------------------------------

/-- `k` waits for the lock or has it, and has nothing to be cancelled for; or it is over. -/
def Waits (k : CloserRef) (s : Session) : Prop :=
  s.close.closed = true ∨ ((s.closers k).pc = .lock ∨ (s.closers k).pc.within = true) ∧
    (s.closers k).site.inTasks = false ∧ (s.closers k).cancelReq = false

theorem Waits.closed (h : Waits k s) (hidle : (s.closers k).pc = .idle) : s.close.closed = true := by
  rcases h with hclosed | ⟨hlock | hwithin, -⟩
  · exact hclosed
  · rw [hidle] at hlock
    cases hlock
  · rw [hidle] at hwithin
    cases hwithin

theorem Onward.waits (h : s'.Ok) (honward : Onward k s s') (hsite : (s.closers k).site.inTasks = false)
    (hreq : (s.closers k).cancelReq = false) : Waits k s' :=
  .inr ⟨.inr (h.within_iff.mpr honward.lock), by rw [honward.site]; exact hsite, honward.own hreq⟩

theorem closeAll_held (hheld : s.close.lock.isNone = false) :
    (s.closeAll k).closers = Function.update s.closers k { s.closers k with pc := .lock } := by
  unfold closeAll
  dsimp only
  rw [if_neg]
  · rfl
  · exact fun hfree => Bool.noConfusion (hfree.symm.trans hheld)

/-- The call comes to the lock, or takes it. -/
theorem call_waits {site : CloseSite} (h : s.Ok) (hsite : site.inTasks = false)
    (hcall : s.call k site = some s') : Waits k s' := by
  have hok : s'.Ok := (call_reaches h hcall).ok
  have hstepped : Stepped (.call k site) s s' := call_stepped hcall
  cases hstepped with
  | elsewhere ha => cases ha
  | asks j ha => cases ha
  | notes j ha => cases ha
  | onward j ha => cases ha
  | finishes j ha => cases ha
  | first j s₁ ha _ _ _ _ _ hsite₁ hreq₁ _ _ honward =>
    obtain rfl : k = j := Option.some.inj ha
    exact honward.waits hok (by rw [hsite₁]; exact hsite) hreq₁
  | outside j c ha _ _ _ _ _ hclose _ _ hwhy =>
    obtain rfl : k = j := Option.some.inj ha
    rcases hwhy with hheld | hdone | hcancelled | hrevokes
    · have hheld : s.close.lock.isNone = false :=
        Option.isNone_eq_false_iff.mpr (Option.isSome_iff_ne_none.mpr hheld)
      unfold call at hcall
      split at hcall
      · dsimp only at hcall
        split at hcall
        · cases hsite
        · cases hcall
          have hcomes := closeAll_held (s := (s.noteCloseReason site.noted).setCloser k
            { site := site, cancelling := site = .run .cancelled }) (k := k) hheld
          refine .inr ⟨.inl ?_, ?_⟩
          all_goals rw [hcomes, Function.update_self, setCloser_self]
          exact ⟨hsite, rfl⟩
      · cases hcall
    · refine .inl ?_
      rw [hclose]
      exact hdone
    · cases hcancelled
    · cases hrevokes
      cases hsite

/-- It comes back only when the session is closed. -/
theorem step_waits (h : s.Ok) (hwaits : Waits k s) (hasks : a ≠ .cancelCloser k)
    (hstep : s.step cfg a = some s') : Waits k s' := by
  have hok : s'.Ok := (step_advances h hstep).ok
  rcases hwaits with hclosed | ⟨hpc, hsite, hreq⟩
  · exact .inl (step_closed h hclosed hstep)
  · rcases eq_or_ne a.caller (some k) with ha | hother
    · cases a with
      | call j site =>
        obtain rfl : j = k := Option.some.inj ha
        rw [step, call] at hstep
        split at hstep
        · rename_i hidle
          rw [hidle] at hpc
          rcases hpc with hpc | hpc
          · cases hpc
          · cases hpc
        · cases hstep
      | closer j act =>
        obtain rfl : j = k := Option.some.inj ha
        cases act with
        | cancelled =>
          rw [step, closerStep, hreq, if_neg Bool.false_ne_true] at hstep
          cases hstep
        | waited =>
          rw [step, closerStep, hreq, if_neg Bool.false_ne_true] at hstep
          rcases hpc with hlock | hwithin
          · unfold closerResume at hstep
            rw [hlock] at hstep
            dsimp only at hstep
            split at hstep
            · rename_i hfree
              cases hstep
              rcases Bool.eq_false_or_eq_true s.close.closed with hclosed | hopen
              · refine .inl ?_
                rw [closeLocked_of_closed (Option.isNone_iff_eq_none.mp hfree) hclosed]
                exact hclosed
              · obtain ⟨s₁, honward, hreq₁, -, hsite₁, -, -⟩ :=
                  closeLocked_onward (s := { s with close.lock := some j }) rfl hopen
                exact honward.waits hok (by rw [hsite₁]; exact hsite) (hreq₁.trans hreq)
            · cases hstep
          · rcases closerResume_onward h hwithin hstep with honward | rfl
            · exact honward.waits hok hsite hreq
            · refine .inl ?_
              rw [finish_close]
      | _ => cases ha
    · refine .inr ?_
      rw [step_spares hstep hsite hother hasks]
      exact ⟨hpc, hsite, hreq⟩

-- ---------------------------------------------------------------------------
-- Before anybody calls it
-- ---------------------------------------------------------------------------

/-- Nobody has called `close_all`. -/
def Uncalled (s : Session) : Prop :=
  (∀ k, (s.closers k).pc = .idle) ∧ s.close = { reason := s.close.reason }

theorem step_uncalled (h : s.Ok) (huncalled : s.Uncalled) (ha : ∀ k site, a ≠ .call k site)
    (hstep : s.step cfg a = some s') : s'.Uncalled := by
  obtain ⟨hidle, hclose⟩ := huncalled
  have hnone : ∀ k, (s.closers k).pc.within = false := fun k => by rw [hidle k]; rfl
  have hkept : ∀ reason, s'.close = { s.close with reason := reason } →
      s'.close = { reason := s'.close.reason } := by
    intro reason heq
    rw [heq, hclose]
  have hcalls : ∀ k, a.caller = some k → False := by
    intro k hk
    cases a with
    | call j site => exact ha j site rfl
    | closer j act =>
      obtain rfl : j = k := Option.some.inj hk
      cases act with
      | cancelled =>
        simp only [step, closerStep, closerCancelled, hidle] at hstep
        split at hstep
        · cases hstep
        · cases hstep
      | waited =>
        simp only [step, closerStep, closerResume, hidle] at hstep
        split at hstep
        · cases hstep
        · cases hstep
    | _ => cases hk
  cases step_cases h hstep with
  | elsewhere _ hclosers heq => exact ⟨fun k => by rw [hclosers]; exact hidle k, hkept _ heq⟩
  | asks j _ heq =>
    subst heq
    refine ⟨fun k => ?_, hclose⟩
    rcases eq_or_ne k j with rfl | hne
    · rw [setCloser_self]
      exact (cancelCloser_same _).1.trans (hidle k)
    · rw [setCloser_ne _ hne]
      exact hidle k
  | outside j _ hj => exact (hcalls j hj).elim
  | first j _ hj => exact (hcalls j hj).elim
  | notes j hj => exact (hcalls j (by rw [hj]; rfl)).elim
  | onward j hj => exact (hcalls j (by rw [hj]; rfl)).elim
  | finishes j hj => exact (hcalls j (by rw [hj]; rfl)).elim

-- ---------------------------------------------------------------------------
-- The status of a closed session
-- ---------------------------------------------------------------------------

theorem computes_ne_active (site : CloseSite) (reason : Option CloseReason) :
    site.computes reason ≠ .active := by
  unfold CloseSite.computes CloseSite.status
  split
  · exact SessionStatus.noConfusion
  · exact SessionStatus.noConfusion
  · exact SessionStatus.noConfusion
  · show (if reason = some .error then SessionStatus.error else .completed) ≠ .active
    split
    · exact SessionStatus.noConfusion
    · exact SessionStatus.noConfusion

theorem computed_ne_active (h : Reachable (step cfg) {} s) : ∀ st ∈ s.close.computed, st ≠ .active := by
  induction h with
  | start => exact fun st hst => absurd hst List.not_mem_nil
  | next hrun _ hstep ih =>
    rcases (step_cases (ok_of_reachable hrun) hstep).computed with hsame | ⟨-, -, k, -, -, -, hnew⟩
    · rw [hsame]
      exact ih
    · intro st hst
      rw [hnew] at hst
      rcases List.mem_append.mp hst with hold | hlast
      · exact ih st hold
      · rw [List.mem_singleton.mp hlast]
        exact computes_ne_active _ _

/-- The record of a closed session is not active. -/
theorem status_ne_active (h : Reachable (step cfg) {} s) (hclosed : s.close.closed = true) :
    s.close.status ≠ .active := by
  have hok := ok_of_reachable h
  cases hok.recorded with
  | before _ heq =>
    rw [heq] at hclosed
    cases hclosed
  | during _ _ _ hopen =>
    rw [hopen] at hclosed
    cases hclosed
  | after st raised _ _ _ hat =>
    have hstatus : s.close.status = st := hat.status
    have hcomputed : s.close.computed = [st] := hat.computed
    rw [hstatus]
    exact computed_ne_active h st (hcomputed ▸ List.mem_singleton_self st)

end Session

end Bridge
