-- SUMMARY: Which caller of `close_all` decides the status of a revoked session.
import JotaGateway.Bridge.Shutdown

/-!
# Revoked sessions

`_revoke_session` notes its reason, closes the socket and only then calls
`close_all`. The close is what ends the input loop, so `run()` may be at the
lock first.
-/

namespace Bridge

open Transition

namespace Session

variable {cfg : Config} {s s' : Session} {a : Act}

/-- What the registry is to show of a revoked session. -/
def ClosedAsRevoked (s : Session) : Prop :=
  s.close.closed = true → s.close.reason = some .revoked → s.close.status = .revoked

/-- It is revoked, and whoever gets the lock now computes its status. -/
def undecided (s : Session) : Bool :=
  s.close.reason = some .revoked && s.close.lock.isNone && !s.close.closed

/-- The step leaves the status of a revoked session to `_revoke_session`, which is not the first to
note a reason once another caller has computed the status. -/
def heeds (s : Session) : Act → Bool
  | .call _ .revocation => s.close.reason.isSome || s.close.lock.isNone && !s.close.closed
  | .call _ _ => !s.undecided
  | .closer k .waited => (s.closers k).site = .revocation || !s.undecided
  | _ => true

-- ---------------------------------------------------------------------------
-- Reasons come before statuses
-- ---------------------------------------------------------------------------

/-- `_revoke_session` notes its reason before anything else. -/
structure Noted (s : Session) : Prop where
  site : ∀ k, (s.closers k).site = .revocation → s.close.reason ≠ none
  computed : .revoked ∈ s.close.computed → s.close.reason ≠ none

theorem or_ne_none {α : Type*} {x : Option α} (h : x ≠ none) (y : Option α) : x.or y ≠ none := by
  cases x with
  | none => exact absurd rfl h
  | some v => exact Option.some_ne_none v

/-- A caller that takes a step has noted what it notes. -/
theorem Noted.caller (h : s.Noted) {k : CloserRef} (ha : a.caller = some k)
    (hsite : s.site a = .revocation) : s.close.reason.or (s.notes a) ≠ none := by
  cases a with
  | call j site =>
    obtain rfl : site = .revocation := hsite
    cases s.close.reason with
    | none => exact Option.some_ne_none _
    | some r => exact Option.some_ne_none _
  | closer j act => exact or_ne_none (h.site j hsite) _
  | _ => cases ha

theorem computes_revoked {site : CloseSite} {reason : Option CloseReason} :
    site.computes reason = .revoked ↔ site = .revocation := by
  have hother : (if reason = some .error then SessionStatus.error else .completed) ≠ .revoked := by
    split
    · decide
    · decide
  constructor
  · intro h
    cases site with
    | revocation => rfl
    | run e =>
      cases e with
      | cancelled => cases h
      | _ => exact absurd h hother
    | route => cases h
    | _ => exact absurd h hother
  · rintro rfl
    rfl

theorem Noted.step (h : s.Noted) (hok : s.Ok) (hstep : s.step cfg a = some s') : s'.Noted := by
  have hstepped := step_cases hok hstep
  have hreason := hstepped.reason
  refine ⟨fun k hsite => ?_, fun hmem => ?_⟩
  · rw [hreason]
    rcases hstepped.site k with hsame | hroute | ⟨ha, heq⟩
    · exact or_ne_none (h.site k (hsame.symm.trans hsite)) _
    · rw [hroute] at hsite
      cases hsite
    · exact h.caller ha (heq.symm.trans hsite)
  · rcases hok.first hstep with hsame | ⟨-, -, k, ha, -, hcomputed⟩
    · rw [hreason]
      exact or_ne_none (h.computed (hsame ▸ hmem)) _
    · rw [hcomputed, List.mem_singleton, eq_comm, computes_revoked] at hmem
      rw [hreason]
      exact h.caller ha hmem

theorem noted_of_reachable (h : Reachable (step cfg) {} s) : s.Noted := by
  induction h with
  | start =>
    refine ⟨fun k hsite => ?_, fun hmem => ?_⟩
    · cases hsite
    · cases hmem
  | next hrun _ hstep ih => exact ih.step (ok_of_reachable hrun) hstep

-- ---------------------------------------------------------------------------
-- Who decides the status
-- ---------------------------------------------------------------------------

/-- The status of a revoked session is computed as `revoked`, if it has been computed. -/
def Heeded (s : Session) : Prop :=
  s.close.reason = some .revoked → ∀ st ∈ s.close.computed, st = .revoked

/-- It has been computed as another. -/
def Missed (s : Session) : Prop :=
  s.close.reason = some .revoked ∧ ∃ st ∈ s.close.computed, st ≠ .revoked

/-- The step is the first to note that the session is revoked. -/
theorem Noted.revoked_first (h : s.Noted) (hstep : s.step cfg a = some s') (hnone : s.close.reason = none)
    (hnotes : s.notes a = some .revoked) : ∃ k, a = .call k .revocation := by
  cases a with
  | note reason =>
    obtain rfl : reason = .revoked := Option.some.inj hnotes
    cases hstep
  | call k site =>
    cases site with
    | revocation => exact ⟨k, rfl⟩
    | run e => cases e <;> cases hnotes
    | _ => cases hnotes
  | closer k act =>
    cases act with
    | cancelled => cases hnotes
    | waited =>
      simp only [notes] at hnotes
      split at hnotes
      · refine absurd hnone (h.site k ?_)
        cases hsite : (s.closers k).site with
        | revocation => rfl
        | _ =>
          rw [hsite] at hnotes
          cases hnotes
      · cases hnotes
  | _ => cases hnotes

theorem Heeded.step (h : s.Heeded) (hok : s.Ok) (hnoted : s.Noted) (hheeds : s.heeds a = true)
    (hstep : s.step cfg a = some s') : s'.Heeded := by
  intro hrevoked st hst
  have hstepped := step_cases hok hstep
  have hreason := hstepped.reason
  rw [hrevoked] at hreason
  have hfirst : s.close.reason = none → ∃ k, a = .call k .revocation := by
    intro hnone
    rw [hnone] at hreason
    exact hnoted.revoked_first hstep hnone hreason.symm
  have hsame : s.close.reason ≠ none → s.close.reason = some .revoked := by
    intro hsome
    obtain ⟨r, hr⟩ := Option.ne_none_iff_exists'.mp hsome
    rw [hr] at hreason ⊢
    exact hreason.symm
  rcases hstepped.computed with hold | ⟨hfree, hopen, k, ha, hwaited, -, hcomputed⟩
  · rw [hold] at hst
    rcases eq_or_ne s.close.reason none with hnone | hsome
    · obtain ⟨k, rfl⟩ := hfirst hnone
      simp only [heeds, hnone, Option.isSome_none, Bool.false_or, Bool.and_eq_true,
        Option.isNone_iff_eq_none, Bool.not_eq_true'] at hheeds
      rw [hok.record.2.2 hheeds.1 hheeds.2] at hst
      cases hst
    · exact h (hsame hsome) st hst
  · rw [hcomputed, hok.record.2.2 hfree hopen, List.nil_append, List.mem_singleton] at hst
    rw [hst, computes_revoked]
    -- otherwise it takes the lock of a revoked session
    by_contra hother
    have hundecided : s.undecided = true := by
      have hrevoked₀ := hsame fun hnone => by
        obtain ⟨k, rfl⟩ := hfirst hnone
        exact hother rfl
      simp only [undecided, hrevoked₀, hfree, hopen, decide_true, Option.isNone_none, Bool.not_false,
        Bool.and_self]
    cases a with
    | call j site =>
      cases site with
      | revocation => exact hother rfl
      | _ =>
        simp only [heeds, hundecided, Bool.not_true, Bool.false_eq_true] at hheeds
    | closer j act =>
      cases act with
      | cancelled =>
        obtain rfl : j = k := Option.some.inj ha
        exact hwaited rfl
      | waited =>
        simp only [heeds, hundecided, Bool.not_true, Bool.or_false, decide_eq_true_eq] at hheeds
        exact hother hheeds
    | _ => cases ha

theorem Missed.step (h : s.Missed) (hok : s.Ok) (hstep : s.step cfg a = some s') : s'.Missed := by
  have hstepped := step_cases hok hstep
  obtain ⟨hrevoked, st, hst, hne⟩ := h
  refine ⟨?_, st, ?_, hne⟩
  · rw [hstepped.reason, hrevoked, Option.some_or]
  · rcases hstepped.computed with hold | ⟨-, -, _, -, -, -, hcomputed⟩
    · rw [hold]
      exact hst
    · rw [hcomputed]
      exact List.mem_append_left _ hst

/-- A status has been computed once the lock has been taken. -/
theorem Ok.computed (h : s.Ok) (htaken : s.close.lock ≠ none ∨ s.close.closed = true) :
    ∃ st, s.close.computed = [st] := by
  cases h.recorded with
  | before hfree heq =>
    rw [hfree, heq] at htaken
    rcases htaken with hheld | hclosed
    · exact absurd rfl hheld
    · cases hclosed
  | during k _ _ _ hat => exact ⟨_, hat.computed⟩
  | after st _ _ _ _ hat => exact ⟨st, hat.computed⟩

/-- Another caller than `_revoke_session` takes the lock of a revoked session. -/
theorem missed_of_taken {k : CloserRef} (hok : s.Ok) (hundecided : s.undecided = true)
    (ha : a.caller = some k) (hwaited : a ≠ .closer k .cancelled) (hsite : s.site a ≠ .revocation)
    (hstep : s.step cfg a = some s') : s'.Missed := by
  simp only [undecided, Bool.and_eq_true, decide_eq_true_eq, Option.isNone_iff_eq_none,
    Bool.not_eq_true'] at hundecided
  obtain ⟨⟨hrevoked, hfree⟩, hopen⟩ := hundecided
  have hout : ∀ {j}, (s.closers j).pc.within = true → False := by
    intro j hj
    rw [hok.within_iff.mp hj] at hfree
    cases hfree
  cases step_cases hok hstep with
  | elsewhere hnone =>
    rw [hnone] at ha
    cases ha
  | asks j hasks =>
    subst hasks
    cases ha
  | outside j c hcaller _ _ _ _ _ _ _ _ hwhy =>
    obtain rfl : j = k := Option.some.inj (hcaller.symm.trans ha)
    rcases hwhy with hheld | hclosed | hcancelled | hcall
    · exact absurd hfree hheld
    · rw [hopen] at hclosed
      cases hclosed
    · exact absurd hcancelled hwaited
    · subst hcall
      exact absurd rfl hsite
  | first j s₁ _ _ _ _ _ _ _ _ hreason hcomputed honward =>
    refine ⟨?_, (s.site a).computes s₁.close.reason, ?_, fun hst => hsite (computes_revoked.mp hst)⟩
    · rw [honward.reason, hreason, hrevoked, Option.some_or]
    · rw [honward.computed, hcomputed]
      exact List.mem_append_right _ (List.mem_singleton_self _)
  | notes j _ hj => exact (hout hj).elim
  | onward j _ hj => exact (hout hj).elim
  | finishes j _ hj => exact (hout hj).elim

theorem Missed.later (h : s.Missed) (hok : s.Ok) (hrun : Reachable (Session.step cfg) s s') :
    s'.Ok ∧ s'.Missed := by
  induction hrun with
  | start => exact ⟨hok, h⟩
  | next _ _ hstep ih => exact ⟨(step_advances ih.1 hstep).ok, ih.2.step ih.1 hstep⟩

/-- A step that does not heed it decides the status. -/
theorem missed_of_step (hok : s.Ok) (hnoted : s.Noted) (hheeds : s.heeds a = false)
    (hstep : s.step cfg a = some s') : s'.Missed := by
  cases a with
  | call k site =>
    cases site with
    | revocation =>
      simp only [heeds, Bool.or_eq_false_iff, Option.isSome_eq_false_iff, Option.isNone_iff_eq_none,
        Bool.and_eq_false_iff, Bool.not_eq_false'] at hheeds
      obtain ⟨hnone, htaken⟩ := hheeds
      obtain ⟨st, hst⟩ := hok.computed (htaken.imp_left fun hheld hfree => by
        rw [hfree] at hheld
        cases hheld)
      have hstepped := step_cases hok hstep
      refine ⟨?_, st, ?_, ?_⟩
      · rw [hstepped.reason, hnone]
        rfl
      · rcases hstepped.computed with hold | ⟨-, -, _, -, -, -, hcomputed⟩
        · rw [hold, hst]
          exact List.mem_singleton_self _
        · rw [hcomputed, hst]
          exact List.mem_append_left _ (List.mem_singleton_self _)
      · rintro rfl
        exact hnoted.computed (hst ▸ List.mem_singleton_self _) hnone
    | _ =>
      simp only [heeds, Bool.not_eq_false'] at hheeds
      refine missed_of_taken hok hheeds rfl (fun ha => by cases ha) (fun hsite => ?_) hstep
      cases hsite
  | closer k act =>
    cases act with
    | cancelled => cases hheeds
    | waited =>
      simp only [heeds, Bool.or_eq_false_iff, decide_eq_false_iff_not, Bool.not_eq_false'] at hheeds
      have hsite : s.site (.closer k .waited) ≠ .revocation := hheeds.1
      exact missed_of_taken hok hheeds.2 rfl (fun ha => by cases ha) hsite hstep
  | _ => cases hheeds

-- ---------------------------------------------------------------------------
-- The status of a revoked session
-- ---------------------------------------------------------------------------

/-- The status in the registry is the one that was computed. -/
theorem Ok.status (h : s.Ok) (hclosed : s.close.closed = true) :
    s.close.computed = [s.close.status] := by
  cases h.recorded with
  | before _ heq =>
    rw [heq] at hclosed
    cases hclosed
  | during _ _ _ hopen =>
    rw [hopen] at hclosed
    cases hclosed
  | after st _ _ _ _ hat =>
    have hstatus : s.close.status = st := hat.status
    have hcomputed : s.close.computed = [st] := hat.computed
    rw [hcomputed, hstatus]

/-- `run()` gets to `close_all` between the reason and the call of `_revoke_session`. -/
def runFirst : List Act :=
  [.call 0 .revocation, .disconnected, .call 1 (.run .returned), .closer 0 .cancelled,
    .closer 1 .waited, .closer 1 .waited]

theorem completed_though_revoked :
    ¬ ∀ (cfg : Config) (s : Session), Reachable (step cfg) {} s → s.ClosedAsRevoked := by
  intro hall
  have hrun : Reachable (step textOnly) {} ((run (step textOnly) {} runFirst).get rfl) :=
    reachable_of_run (Option.some_get _).symm
  cases hall textOnly _ hrun rfl rfl

/-- A revoked session is closed as `revoked` in every run that leaves its status to
`_revoke_session`, and after a step that does not, it is closed as something else. -/
theorem revoked_status (cfg : Config) :
    (∀ s, ReachableBy (step cfg) (fun s a => s.heeds a = true) {} s → s.ClosedAsRevoked) ∧
      ∀ s a s' s'', Reachable (step cfg) {} s → s.heeds a = false → s.step cfg a = some s' →
        Reachable (step cfg) s' s'' → s''.close.closed = true → ¬ s''.ClosedAsRevoked := by
  constructor
  · intro s hrun
    have hheeded : s.Heeded := by
      induction hrun with
      | start => exact fun _ st hst => by cases hst
      | next hrun hheeds hstep ih =>
        exact ih.step (ok_of_reachable hrun.reachable) (noted_of_reachable hrun.reachable) hheeds hstep
    intro hclosed hrevoked
    have hst := hheeded hrevoked s.close.status
    rw [(ok_of_reachable hrun.reachable).status hclosed] at hst
    exact hst (List.mem_singleton_self _)
  · intro s a s' s'' hrun hheeds hstep hlater hclosed hstatus
    have hok := ok_of_reachable hrun
    have hmissed := missed_of_step hok (noted_of_reachable hrun) hheeds hstep
    obtain ⟨hok', hrevoked, st, hst, hne⟩ := hmissed.later (step_advances hok hstep).ok hlater
    rw [hok'.status hclosed, List.mem_singleton] at hst
    exact hne (hst.trans (hstatus hclosed hrevoked))

/-- A session that only `_revoke_session` closes. -/
def revokedAlone : List Act :=
  [.call 0 .revocation, .closer 0 .waited, .closer 0 .waited, .closer 0 .waited]

theorem revoked_status_alone :
    ∃ s : Session, s.close.reason = some .revoked ∧ s.close.closed = true ∧ s.ClosedAsRevoked := by
  have hrun : ReachableBy (step textOnly) (fun s a => s.heeds a = true) {}
      ((run (guarded (step textOnly) heeds) {} revokedAlone).get rfl) :=
    reachableBy_of_run (Option.some_get _).symm
  exact ⟨_, rfl, rfl, (revoked_status textOnly).1 _ hrun⟩

end Session

end Bridge
