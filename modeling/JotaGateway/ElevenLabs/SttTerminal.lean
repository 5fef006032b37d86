-- SUMMARY: The terminal state of the speech-to-text provider: what cancels the life tasks, and what no later step changes.
import JotaGateway.ElevenLabs.Stt

/-!
# Terminal degradation of the speech-to-text provider

`_mark_terminal` degrades the provider and every session in `_sessions` and
cancels their life tasks. A session outside `_sessions` has cancelled its own.
-/

namespace ElevenLabs.Stt

open Provider Transition

/-- The life task has nothing left but its `finally`. -/
def Upstream.Doomed (up : Upstream) : Prop :=
  up.pc.live = true → up.cancelled = true ∨ up.pc = .finalizing

structure Quiet (s : Provider) : Prop where
  life : ∀ u, (s.upstreams u).pc.live = true → (s.owner u).life = some u
  registered : ∀ i, (s.sessions i).registered = false → (s.sessions i).closed = true
  left : ∀ u, (s.owner u).registered = false → (s.upstreams u).Doomed
  degraded : s.terminal = true → s.health.state = .degraded
  sessions : s.terminal = true → ∀ i, (s.sessions i).registered = true →
    (s.sessions i).health.state = .degraded
  doomed : s.terminal = true → ∀ u, (s.upstreams u).Doomed

/-- From the terminal state `s` on no health changed, so no hook was called, and nothing was
opened or dialled. -/
structure Frozen (s s' : Provider) : Prop where
  terminal : s'.terminal = true
  health : s'.health = s.health
  sessions : ∀ i < s.sessionCount, (s'.sessions i).health = (s.sessions i).health
  upstreamCount : s'.upstreamCount = s.upstreamCount
  probeCount : s'.probeCount = s.probeCount
  dialled : s'.dialled = s.dialled
  sessionCount : s.sessionCount ≤ s'.sessionCount
  opened : ∀ i, s.sessionCount ≤ i → i < s'.sessionCount → (s'.sessions i).health.fired = []

variable {s s' : Provider} {u v : UpstreamId} {i : SessionId}

/-- With the same sessions. -/
theorem Frozen.same (hterminal : s'.terminal = true) (hhealth : s'.health = s.health)
    (hsessions : ∀ i, (s'.sessions i).health = (s.sessions i).health)
    (hups : s'.upstreamCount = s.upstreamCount) (hprobes : s'.probeCount = s.probeCount)
    (hdialled : s'.dialled = s.dialled) (hcount : s'.sessionCount = s.sessionCount) :
    Frozen s s' where
  terminal := hterminal
  health := hhealth
  sessions i _ := hsessions i
  upstreamCount := hups
  probeCount := hprobes
  dialled := hdialled
  sessionCount := Nat.le_of_eq hcount.symm
  opened i hi hi' := absurd hi' (by omega)

theorem Frozen.refl (h : s.terminal = true) : Frozen s s :=
  .same h rfl (fun _ => rfl) rfl rfl rfl rfl

theorem Frozen.trans {s'' : Provider} (h : Frozen s s') (h' : Frozen s' s'') : Frozen s s'' where
  terminal := h'.terminal
  health := h'.health.trans h.health
  sessions i hi := (h'.sessions i (Nat.lt_of_lt_of_le hi h.sessionCount)).trans (h.sessions i hi)
  upstreamCount := h'.upstreamCount.trans h.upstreamCount
  probeCount := h'.probeCount.trans h.probeCount
  dialled := h'.dialled.trans h.dialled
  sessionCount := Nat.le_trans h.sessionCount h'.sessionCount
  opened i hi hi'' := by
    by_cases hi' : i < s'.sessionCount
    · rw [h'.sessions i hi']
      exact h.opened i hi hi'
    · exact h'.opened i (Nat.le_of_not_lt hi') hi''

-- ---------------------------------------------------------------------------
-- Steps of one upstream
-- ---------------------------------------------------------------------------

/-- Only `u` goes on, and who has which life task stays. -/
structure Moves (s s' : Provider) (u : UpstreamId) : Prop where
  terminal : s'.terminal = s.terminal
  session : (s'.upstreams u).session = (s.upstreams u).session
  others : ∀ v, v ≠ u → s'.upstreams v = s.upstreams v
  live : (s'.upstreams u).pc.live = true → (s.upstreams u).pc.live = true
  sessions : ∀ i, (s'.sessions i).life = (s.sessions i).life ∧
    (s'.sessions i).registered = (s.sessions i).registered ∧
      ((s.sessions i).closed = true → (s'.sessions i).closed = true)
  counts : s'.upstreamCount = s.upstreamCount ∧ s'.probeCount = s.probeCount ∧
    s'.sessionCount = s.sessionCount

theorem Moves.trans {s'' : Provider} (h : Moves s s' u) (h' : Moves s' s'' u) : Moves s s'' u where
  terminal := h'.terminal.trans h.terminal
  session := h'.session.trans h.session
  others v hne := (h'.others v hne).trans (h.others v hne)
  live hlive := h.live (h'.live hlive)
  sessions i := by
    obtain ⟨hlife, hregistered, hclosed⟩ := h.sessions i
    obtain ⟨hlife', hregistered', hclosed'⟩ := h'.sessions i
    exact ⟨hlife'.trans hlife, hregistered'.trans hregistered, fun h => hclosed' (hclosed h)⟩
  counts := by
    obtain ⟨hups, hprobes, hsessions⟩ := h.counts
    obtain ⟨hups', hprobes', hsessions'⟩ := h'.counts
    exact ⟨hups'.trans hups, hprobes'.trans hprobes, hsessions'.trans hsessions⟩

/-- Neither the provider's health nor a session's changes, and no socket is dialled. -/
structure Inert (s s' : Provider) : Prop where
  health : s'.health = s.health
  sessions : ∀ i, (s'.sessions i).health = (s.sessions i).health
  dialled : s'.dialled = s.dialled

theorem Moves.frozen (h : Moves s s' u) (hterminal : s.terminal = true) (hhealth : Inert s s') :
    Frozen s s' :=
  .same (h.terminal.trans hterminal) hhealth.health hhealth.sessions h.counts.1 h.counts.2.1
    hhealth.dialled h.counts.2.2

theorem Quiet.moves (h : Quiet s) (hmoves : Moves s s' u)
    (hdoomed : (s.upstreams u).Doomed → (s'.upstreams u).Doomed)
    (hhealth : s.terminal = true → Inert s s') : Quiet s' := by
  have hsession : ∀ v, (s'.upstreams v).session = (s.upstreams v).session := by
    intro v
    by_cases heq : v = u
    · rw [heq]
      exact hmoves.session
    · rw [hmoves.others v heq]
  have hlive : ∀ v, (s'.upstreams v).pc.live = true → (s.upstreams v).pc.live = true := by
    intro v
    by_cases heq : v = u
    · rw [heq]
      exact hmoves.live
    · rw [hmoves.others v heq]
      exact id
  have hkept : ∀ v, (s.upstreams v).Doomed → (s'.upstreams v).Doomed := by
    intro v
    by_cases heq : v = u
    · rw [heq]
      exact hdoomed
    · rw [hmoves.others v heq]
      exact id
  refine ⟨?_, ?_, ?_, ?_, ?_, ?_⟩
  · intro v hv
    rw [Provider.owner, hsession, (hmoves.sessions _).1]
    exact h.life v (hlive v hv)
  · intro i hi
    obtain ⟨-, hregistered, hclosed⟩ := hmoves.sessions i
    exact hclosed (h.registered i (hregistered.symm.trans hi))
  · intro v hv
    rw [Provider.owner, hsession, (hmoves.sessions _).2.1] at hv
    exact hkept v (h.left v hv)
  · intro hterminal
    rw [hmoves.terminal] at hterminal
    rw [(hhealth hterminal).health]
    exact h.degraded hterminal
  · intro hterminal i hi
    rw [hmoves.terminal] at hterminal
    rw [(hhealth hterminal).sessions]
    exact h.sessions hterminal i ((hmoves.sessions i).2.1.symm.trans hi)
  · intro hterminal v
    rw [hmoves.terminal] at hterminal
    exact hkept v (h.doomed hterminal v)

theorem Moves.refl (s : Provider) (u : UpstreamId) : Moves s s u :=
  ⟨rfl, rfl, fun _ _ => rfl, id, fun _ => ⟨rfl, rfl, id⟩, rfl, rfl, rfl⟩

theorem Moves.setUp {up : Upstream} (hsession : up.session = (s.upstreams u).session)
    (hlive : up.pc.live = true → (s.upstreams u).pc.live = true) : Moves s (s.setUp u up) u where
  terminal := rfl
  session := by rw [setUp_self, hsession]
  others _ hne := setUp_of_ne s hne up
  live := by
    rw [setUp_self]
    exact hlive
  sessions _ := ⟨rfl, rfl, id⟩
  counts := ⟨rfl, rfl, rfl⟩

theorem Moves.setPc {pc : Pc} (hlive : pc.live = true → (s.upstreams u).pc.live = true) :
    Moves s (s.setPc u pc) u := .setUp rfl hlive

theorem Moves.dial (hlive : (s.upstreams u).pc.live = true) (retry : Bool) :
    Moves s (s.dial u retry) u := by
  have hpc : Moves s (s.setPc u (.connecting retry)) u := .setPc fun _ => hlive
  exact ⟨hpc.terminal, hpc.session, hpc.others, hpc.live, hpc.sessions, hpc.counts⟩

theorem Moves.setSession {session : Session} (u : UpstreamId)
    (hlife : session.life = (s.sessions i).life)
    (hregistered : session.registered = (s.sessions i).registered)
    (hclosed : (s.sessions i).closed = true → session.closed = true) :
    Moves s (s.setSession i session) u := by
  refine ⟨rfl, rfl, fun _ _ => rfl, id, ?_, rfl, rfl, rfl⟩
  intro j
  by_cases heq : j = i
  · subst heq
    rw [setSession_self]
    exact ⟨hlife, hregistered, hclosed⟩
  · rw [setSession_of_ne s heq]
    exact ⟨rfl, rfl, id⟩

theorem Inert.refl (s : Provider) : Inert s s := ⟨rfl, fun _ => rfl, rfl⟩

theorem Inert.trans {s'' : Provider} (h : Inert s s') (h' : Inert s' s'') :
    Inert s s'' where
  health := h'.health.trans h.health
  sessions i := (h'.sessions i).trans (h.sessions i)
  dialled := h'.dialled.trans h.dialled

theorem Inert.setUp (s : Provider) (u : UpstreamId) (up : Upstream) : Inert s (s.setUp u up) :=
  ⟨rfl, fun _ => rfl, rfl⟩

theorem Inert.setSession {session : Session}
    (hhealth : session.health = (s.sessions i).health) : Inert s (s.setSession i session) := by
  refine ⟨rfl, ?_, rfl⟩
  intro j
  by_cases heq : j = i
  · subst heq
    rw [setSession_self]
    exact hhealth
  · rw [setSession_of_ne s heq]

theorem Moves.setHealth (s : Provider) (u : UpstreamId) (state : ConnectionState) :
    Moves s (s.setHealth u state) u := .setSession u rfl rfl id

theorem Moves.releasePermit (s : Provider) (u : UpstreamId) : Moves s (s.releasePermit u) u := by
  unfold Provider.releasePermit
  dsimp only
  split
  · have hup : Moves s (s.setUp u { s.upstreams u with
        permit := false, releases := (s.upstreams u).releases + 1 }) u := .setUp rfl id
    exact ⟨hup.terminal, hup.session, hup.others, hup.live, hup.sessions, hup.counts⟩
  · exact .refl s u

theorem releasePermit_inert (s : Provider) (u : UpstreamId) : Inert s (s.releasePermit u) := by
  unfold Provider.releasePermit
  dsimp only
  split
  · exact ⟨rfl, fun _ => rfl, rfl⟩
  · exact .refl s

theorem releasePermit_pc (s : Provider) (u : UpstreamId) :
    ((s.releasePermit u).upstreams u).pc = (s.upstreams u).pc := by
  cases hpermit : (s.upstreams u).permit with
  | true =>
    rw [releasePermit_of_permit hpermit]
    simp only [Provider.setUp, Function.update_self]
  | false => rw [releasePermit_of_not_permit hpermit]

theorem Moves.exit (s : Provider) (u : UpstreamId) : Moves s (s.exit u) u := by
  have hconn : Moves s (s.setSession (s.upstreams u).session { s.owner u with
      conn := if (s.owner u).conn = some u then none else (s.owner u).conn }) u :=
    .setSession u rfl rfl id
  unfold Provider.exit
  refine (hconn.trans (.setPc ?_)).trans (.releasePermit ..)
  intro hlive
  cases hlive

theorem exit_inert (s : Provider) (u : UpstreamId) : Inert s (s.exit u) := by
  have hconn : Inert s (s.setSession (s.upstreams u).session { s.owner u with
      conn := if (s.owner u).conn = some u then none else (s.owner u).conn }) := .setSession rfl
  exact (hconn.trans (.setUp ..)).trans (releasePermit_inert ..)

theorem exit_pc (s : Provider) (u : UpstreamId) : ((s.exit u).upstreams u).pc = .done := by
  unfold Provider.exit
  rw [releasePermit_pc, Provider.setPc, setUp_self]

theorem Moves.leave (hlive : (s.upstreams u).pc.live = true) : Moves s (s.leave u) u := by
  unfold Provider.leave
  split
  · exact .setPc fun _ => hlive
  · exact .exit s u

theorem leave_inert (s : Provider) (u : UpstreamId) : Inert s (s.leave u) := by
  unfold Provider.leave
  split
  · exact .setUp ..
  · exact exit_inert s u

theorem leave_doomed (s : Provider) (u : UpstreamId) : ((s.leave u).upstreams u).Doomed := by
  unfold Provider.leave
  split
  · intro _
    exact .inr (congrArg Upstream.pc (setUp_self ..))
  · intro hlive
    rw [exit_pc] at hlive
    cases hlive

-- ---------------------------------------------------------------------------
-- A life task at work
-- ---------------------------------------------------------------------------

theorem setHealth_inert {state : ConnectionState}
    (h : (s.owner u).health.state = state) : Inert s (s.setHealth u state) :=
  .setSession (ServiceHealth.setState_self h)

theorem Moves.attemptFails (hlive : (s.upstreams u).pc.live = true) (retry windowOver : Bool) :
    Moves s (s.attemptFails u retry windowOver) u := by
  cases retry with
  | false => exact .leave hlive
  | true =>
    cases windowOver with
    | false => exact .setPc fun _ => hlive
    | true => exact .trans (.setHealth s u .degraded) (.leave hlive)

/-- A failed attempt leaves a degraded session as it is. -/
theorem attemptFails_inert (h : (s.owner u).health.state = .degraded) (retry windowOver : Bool) :
    Inert s (s.attemptFails u retry windowOver) := by
  cases retry with
  | false => exact leave_inert s u
  | true =>
    cases windowOver with
    | false => exact .setUp ..
    | true => exact .trans (setHealth_inert h) (leave_inert _ u)

theorem attemptFails_doomed (h : (s.upstreams u).cancelled = true) (retry windowOver : Bool) :
    ((s.attemptFails u retry windowOver).upstreams u).Doomed := by
  cases retry with
  | false => exact leave_doomed s u
  | true =>
    cases windowOver with
    | false =>
      intro _
      refine .inl ?_
      rw [Provider.attemptFails, Provider.setPc, setUp_self]
      exact h
    | true => exact leave_doomed _ u

theorem Moves.attemptSucceeds (hlive : (s.upstreams u).pc.live = true) (retry : Bool) :
    Moves s (s.attemptSucceeds u retry) u := by
  cases retry with
  | false => exact .setPc fun _ => hlive
  | true => exact .trans (.setHealth s u .connected) (.setPc fun _ => hlive)

theorem Moves.gotReady (s : Provider) (u : UpstreamId) : Moves s (s.gotReady u) u := by
  obtain ⟨health, heq⟩ := recordSuccess_eq s
  have hrecorded : Moves s { s with health } u :=
    ⟨rfl, rfl, fun _ _ => rfl, id, fun _ => ⟨rfl, rfl, id⟩, rfl, rfl, rfl⟩
  dsimp only [Provider.gotReady]
  rw [heq]
  split
  · exact hrecorded
  · exact hrecorded.trans (.setHealth _ u .connected)

theorem Moves.decides (hlive : (s.upstreams u).pc.live = true) (retry : Bool) :
    Moves s (s.decides u retry) u := by
  have hups := gotReady_upstreams s u
  have hready := Moves.gotReady s u
  simp only [Provider.decides]
  split
  · split
    · refine hready.trans (.trans (.setSession u ?_ ?_ ?_) (.setPc fun _ => ?_))
      · rw [Provider.owner, hups]
      · rw [Provider.owner, hups]
      · rw [Provider.owner, hups]
        exact id
      · rw [Provider.setSession, hups]
        exact hlive
    · exact hready.trans (.attemptSucceeds (hups ▸ hlive) retry)
  · exact .setUp rfl fun _ => hlive

theorem Moves.afterClose (hlive : (s.upstreams u).pc.live = true) (pending : Bool) :
    Moves s (s.afterClose u pending) u := by
  dsimp only [Provider.afterClose]
  split
  · exact .leave hlive
  · have hlive' : ((s.setHealth u .reconnecting).upstreams u).pc.live = true := hlive
    exact .trans (.setHealth s u .reconnecting) (.dial hlive' true)

/-- What a life task does that finds no rejection. -/
theorem lifeStep_moves {move : Move} (hstep : lifeStep s u move = some s') :
    (s.upstreams u).pc.live = true ∧ (s.upstreams u).pc ≠ .finalizing ∧
      (Moves s s' u ∨ ∃ retry windowOver, s' = s.markTerminal.attemptFails u retry windowOver) := by
  have hpc : ∀ {pc}, (s.upstreams u).pc = pc → pc.live = true → pc ≠ .finalizing →
      (s.upstreams u).pc.live = true ∧ (s.upstreams u).pc ≠ .finalizing := by
    rintro pc rfl hlive hne
    exact ⟨hlive, hne⟩
  simp only [Stt.lifeStep] at hstep
  split at hstep
  · rename_i hup
    cases hstep
    obtain ⟨hlive, hne⟩ := hpc hup rfl (by simp)
    exact ⟨hlive, hne, .inl (.dial hlive false)⟩
  · rename_i hup
    cases hstep
    obtain ⟨hlive, hne⟩ := hpc hup rfl (by simp)
    refine ⟨hlive, hne, ?_⟩
    unfold Provider.connectError
    split
    · exact .inr ⟨_, _, rfl⟩
    · exact .inl (.attemptFails hlive _ _)
  · rename_i hup
    cases hstep
    obtain ⟨hlive, hne⟩ := hpc hup rfl (by simp)
    exact ⟨hlive, hne, .inl (.setUp rfl fun _ => hlive)⟩
  · rename_i hup
    cases hstep
    obtain ⟨hlive, hne⟩ := hpc hup rfl (by simp)
    exact ⟨hlive, hne, .inl (.decides hlive _)⟩
  · rename_i hup
    cases hstep
    obtain ⟨hlive, hne⟩ := hpc hup rfl (by simp)
    exact ⟨hlive, hne, .inl (.attemptFails hlive _ _)⟩
  · rename_i hup
    cases hstep
    obtain ⟨hlive, hne⟩ := hpc hup rfl (by simp)
    exact ⟨hlive, hne, .inl (.attemptSucceeds hlive _)⟩
  · rename_i hup
    cases hstep
    obtain ⟨hlive, hne⟩ := hpc hup rfl (by simp)
    exact ⟨hlive, hne, .inl (.setPc fun _ => hlive)⟩
  · rename_i hup
    obtain ⟨hlive, hne⟩ := hpc hup rfl (by simp)
    split at hstep
    · cases hstep
    · cases hstep
      exact ⟨hlive, hne, .inl (.setUp rfl fun _ => hlive)⟩
  · rename_i hup
    cases hstep
    obtain ⟨hlive, hne⟩ := hpc hup rfl (by simp)
    exact ⟨hlive, hne, .inl (.afterClose hlive _)⟩
  · rename_i hup
    cases hstep
    obtain ⟨hlive, hne⟩ := hpc hup rfl (by simp)
    exact ⟨hlive, hne, .inl (.dial hlive true)⟩
  · cases hstep

-- ---------------------------------------------------------------------------
-- `_mark_terminal`
-- ---------------------------------------------------------------------------

theorem cancel_cancelled {up : Upstream} (h : up.pc.live = true) : up.cancel.cancelled = true := by
  rw [Upstream.cancel, if_pos h]

theorem Upstream.Doomed.cancel {up : Upstream} : up.cancel.Doomed := by
  intro hlive
  rw [cancel_pc] at hlive
  exact .inl (cancel_cancelled hlive)

theorem markTerminal_session (s : Provider) (i : SessionId) :
    (s.markTerminal.sessions i).life = (s.sessions i).life ∧
      (s.markTerminal.sessions i).registered = (s.sessions i).registered ∧
        (s.markTerminal.sessions i).closed = (s.sessions i).closed := by
  dsimp only [Provider.markTerminal]
  split
  · exact ⟨rfl, rfl, rfl⟩
  · exact ⟨rfl, rfl, rfl⟩

theorem markTerminal_owner (s : Provider) (u : UpstreamId) :
    s.markTerminal.owner u = s.markTerminal.sessions (s.upstreams u).session := by
  rw [Provider.owner]
  rcases markTerminal_upstreams s u with heq | heq
  · rw [heq]
  · rw [heq, cancel_session]

/-- `_mark_terminal` leaves no life task that could go on. -/
theorem Quiet.markTerminal (h : Quiet s) : Quiet s.markTerminal := by
  have hdoomed : ∀ u, (s.markTerminal.upstreams u).Doomed := by
    intro u hlive
    by_cases hknown : (s.owner u).registered && (s.owner u).life = some u
    · have heq : s.markTerminal.upstreams u = (s.upstreams u).cancel := if_pos hknown
      rw [heq] at hlive ⊢
      exact Upstream.Doomed.cancel hlive
    · have heq : s.markTerminal.upstreams u = s.upstreams u := if_neg hknown
      rw [heq] at hlive ⊢
      refine h.left u ?_ hlive
      have hlife := h.life u hlive
      simpa [hlife] using hknown
  refine ⟨?_, ?_, fun u _ => hdoomed u, fun _ => s.health.setState_state .degraded, ?_,
    fun _ => hdoomed⟩
  · intro u hlive
    rw [markTerminal_owner, (markTerminal_session s _).1]
    refine h.life u ?_
    rcases markTerminal_upstreams s u with heq | heq
    · rwa [heq] at hlive
    · rwa [heq, cancel_pc] at hlive
  · intro i hi
    obtain ⟨-, hregistered, hclosed⟩ := markTerminal_session s i
    exact hclosed.trans (h.registered i (hregistered.symm.trans hi))
  · intro _ i hi
    have hregistered : (s.sessions i).registered = true := (markTerminal_session s i).2.1.symm.trans hi
    simp only [Provider.markTerminal, hregistered, if_true]
    exact (s.sessions i).health.setState_state .degraded

/-- In the terminal state `_mark_terminal` fires nothing. -/
theorem Quiet.markTerminal_frozen (h : Quiet s) (hterminal : s.terminal = true) :
    Frozen s s.markTerminal := by
  refine .same rfl (ServiceHealth.setState_self (h.degraded hterminal)) ?_ rfl rfl rfl rfl
  intro i
  dsimp only [Provider.markTerminal]
  split
  · exact ServiceHealth.setState_self (h.sessions hterminal i ‹_›)
  · rfl

/-- A life task that goes on finds the provider not terminal. -/
theorem Quiet.lifeStep (h : Quiet s) {move : Move} (hcancelled : (s.upstreams u).cancelled = false)
    (hstep : lifeStep s u move = some s') : s.terminal = false ∧ Quiet s' := by
  obtain ⟨hlive, hne, hmoves⟩ := lifeStep_moves hstep
  have hbusy : ¬ (s.upstreams u).Doomed := by
    intro hdoomed
    rcases hdoomed hlive with hcancel | hfinal
    · cases hcancelled.symm.trans hcancel
    · exact hne hfinal
  have hterminal : s.terminal = false := by
    by_contra hterm
    exact hbusy (h.doomed (eq_true_of_ne_false hterm) u)
  refine ⟨hterminal, ?_⟩
  rcases hmoves with hmoves | ⟨retry, windowOver, rfl⟩
  · refine h.moves hmoves (fun hdoomed => absurd hdoomed hbusy) ?_
    intro hterm
    cases hterminal.symm.trans hterm
  · have hregistered : (s.owner u).registered = true := by
      by_contra hleft
      exact hbusy (h.left u (eq_false_of_ne_true hleft))
    have hups : s.markTerminal.upstreams u = (s.upstreams u).cancel :=
      if_pos (by rw [hregistered, h.life u hlive]; simp)
    have hlive' : (s.markTerminal.upstreams u).pc.live = true := by
      rw [hups, cancel_pc]
      exact hlive
    have hdegraded : (s.markTerminal.owner u).health.state = .degraded := by
      rw [markTerminal_owner]
      exact h.markTerminal.sessions rfl _ ((markTerminal_session s _).2.1.trans hregistered)
    refine h.markTerminal.moves (.attemptFails hlive' retry windowOver) ?_ ?_
    · intro _
      refine attemptFails_doomed ?_ retry windowOver
      rw [hups]
      exact cancel_cancelled hlive
    · intro _
      exact attemptFails_inert hdegraded retry windowOver

-- ---------------------------------------------------------------------------
-- The other steps
-- ---------------------------------------------------------------------------

/-- The cancellation of a life task, or its end, touches no health. -/
theorem stopLife_moves (hstep : stopLife s u = some s') :
    Moves s s' u ∧ (s'.upstreams u).Doomed ∧ Inert s s' := by
  have hdone : ∀ {up : Upstream}, up.pc = .done → up.session = (s.upstreams u).session →
      Moves s (s.setUp u up) u ∧ ((s.setUp u up).upstreams u).Doomed ∧
        Inert s (s.setUp u up) := by
    intro up hpc hsession
    refine ⟨.setUp hsession (by rw [hpc]; exact nofun), ?_, .setUp ..⟩
    rw [setUp_self, Upstream.Doomed, hpc]
    exact nofun
  simp only [Stt.stopLife] at hstep
  split at hstep
  · cases hstep
  · cases hstep
  · cases hstep
    exact hdone rfl rfl
  · cases hstep
    exact hdone rfl rfl
  · rename_i hdone' hreleased _ _
    cases hstep
    have hlive : (s.upstreams u).pc.live = true := by
      cases hpc : (s.upstreams u).pc with
      | done => exact absurd hpc hdone'
      | released => exact absurd hpc hreleased
      | _ => rfl
    have hup : Moves s (s.setUp u { s.upstreams u with cancelled := false }) u := .setUp rfl id
    refine ⟨hup.trans (.leave ?_), leave_doomed _ u, ?_⟩
    · rw [setUp_self]
      exact hlive
    · exact (Inert.setUp s u _).trans (leave_inert _ u)

theorem Upstream.Doomed.setUp {up : Upstream} (hpc : up.pc = (s.upstreams u).pc)
    (hcancelled : up.cancelled = (s.upstreams u).cancelled) (h : (s.upstreams u).Doomed) :
    ((s.setUp u up).upstreams u).Doomed := by
  rw [setUp_self, Upstream.Doomed, hpc, hcancelled]
  exact h

/-- A reader event is a matter of its upstream, or marks terminal. -/
theorem readerStep_cases (s : Provider) (u : UpstreamId) (event : ReaderEvent) :
    ∃ up, (readerStep s u event = s.setUp u up ∨
        readerStep s u event = (s.setUp u up).markTerminal ∨
          readerStep s u event = (s.setUp u up).setBusy (s.upstreams u).session .error) ∧
      up.session = (s.upstreams u).session ∧ up.pc = (s.upstreams u).pc ∧
        up.cancelled = (s.upstreams u).cancelled := by
  cases event with
  | sessionStarted => exact ⟨_, .inl rfl, rfl, rfl, rfl⟩
  | rejected quota => exact ⟨_, .inr (.inl rfl), rfl, rfl, rfl⟩
  | refused => exact ⟨_, .inr (.inr rfl), rfl, rfl, rfl⟩
  | failed => exact ⟨_, .inl rfl, rfl, rfl, rfl⟩
  | aborted => exact ⟨_, .inl rfl, rfl, rfl, rfl⟩
  | ended kind =>
    simp only [Stt.readerStep]
    split
    · exact ⟨_, .inl rfl, rfl, rfl, rfl⟩
    · cases kind with
      | auth => exact ⟨_, .inr (.inl rfl), rfl, rfl, rfl⟩
      | quota => exact ⟨_, .inr (.inl rfl), rfl, rfl, rfl⟩
      | capacity => exact ⟨_, .inr (.inr rfl), rfl, rfl, rfl⟩
      | other => exact ⟨_, .inl rfl, rfl, rfl, rfl⟩

theorem Quiet.setUp (h : Quiet s) {up : Upstream} (hsession : up.session = (s.upstreams u).session)
    (hpc : up.pc = (s.upstreams u).pc) (hcancelled : up.cancelled = (s.upstreams u).cancelled) :
    Quiet (s.setUp u up) :=
  h.moves (.setUp hsession (hpc ▸ id)) (.setUp hpc hcancelled) fun _ => .setUp ..

theorem Quiet.setSession (h : Quiet s) {session : Session}
    (hhealth : session.health = (s.sessions i).health) (hlife : session.life = (s.sessions i).life)
    (hregistered : session.registered = (s.sessions i).registered)
    (hclosed : (s.sessions i).closed = true → session.closed = true) :
    Quiet (s.setSession i session) :=
  h.moves (.setSession 0 hlife hregistered hclosed) id fun _ => .setSession hhealth

theorem frozen_setUp (hterminal : s.terminal = true) (up : Upstream) : Frozen s (s.setUp u up) :=
  .same hterminal rfl (fun _ => rfl) rfl rfl rfl rfl

theorem frozen_setSession (hterminal : s.terminal = true) {session : Session}
    (hhealth : session.health = (s.sessions i).health) : Frozen s (s.setSession i session) :=
  .same hterminal rfl (Inert.setSession hhealth).sessions rfl rfl rfl rfl

theorem frozen_setBusy (hterminal : s.terminal = true) (i : SessionId) (cause : BusyCause) :
    Frozen s (s.setBusy i cause) := frozen_setSession hterminal rfl

theorem Quiet.readerStep (h : Quiet s) (event : ReaderEvent) :
    Quiet (readerStep s u event) ∧ (s.terminal = true → Frozen s (readerStep s u event)) := by
  obtain ⟨up, heq | heq | heq, hsession, hpc, hcancelled⟩ := readerStep_cases s u event
  · rw [heq]
    exact ⟨h.setUp hsession hpc hcancelled, fun hterminal => frozen_setUp hterminal up⟩
  · rw [heq]
    have hup := h.setUp hsession hpc hcancelled
    refine ⟨hup.markTerminal, fun hterminal => ?_⟩
    exact (frozen_setUp hterminal up).trans (hup.markTerminal_frozen hterminal)
  · rw [heq]
    have hup := h.setUp hsession hpc hcancelled
    refine ⟨hup.setSession rfl rfl rfl id, fun hterminal => ?_⟩
    have hterminal' : (s.setUp u up).terminal = true := hterminal
    exact (frozen_setUp hterminal up).trans (frozen_setBusy hterminal' _ _)

/-- In a session without a connection no life task is live. -/
theorem Owned.idle (h : Owned s) (hlive : (s.upstreams u).pc.live = true)
    (hnone : (s.sessions i).conn = none) : (s.upstreams u).session ≠ i := by
  rintro rfl
  have hconn := h.conn u (h.live u hlive)
  cases hnone.symm.trans hconn

theorem Quiet.ensureUpstream (h : Quiet s) (howned : Owned s) (i : SessionId) (cooling : Bool) :
    Quiet (s.ensureUpstream i cooling) ∧
      (s.terminal = true → Frozen s (s.ensureUpstream i cooling)) := by
  rcases ensureUpstream_cases s i cooling with
    heq | ⟨hterminal, heq⟩ | ⟨hconn, hclosed, hterminal, -, busy, heq⟩
  · rw [heq]
    exact ⟨h, .refl⟩
  · rw [heq]
    refine ⟨h.setSession rfl rfl rfl id, fun hterm => ?_⟩
    cases hterminal.symm.trans hterm
  · rw [heq]
    refine ⟨?_, fun hterm => by cases hterminal.symm.trans hterm⟩
    have hregistered : (s.sessions i).registered = true := by
      by_contra hleft
      cases hclosed.symm.trans (h.registered i (eq_false_of_ne_true hleft))
    refine ⟨?_, ?_, ?_, ?_, ?_, ?_⟩
    · intro v hlive
      by_cases hne : v = s.upstreamCount
      · subst hne
        simp only [Provider.owner, Function.update_self]
      · simp only [Provider.owner, Function.update_of_ne hne] at hlive ⊢
        rw [Function.update_of_ne (howned.idle hlive hconn)]
        exact h.life v hlive
    · intro j hj
      by_cases hne : j = i
      · subst hne
        simp only [Function.update_self] at hj
        cases hregistered.symm.trans hj
      · simp only [Function.update_of_ne hne] at hj ⊢
        exact h.registered j hj
    · intro v hv
      by_cases hne : v = s.upstreamCount
      · subst hne
        simp only [Provider.owner, Function.update_self] at hv
        cases hregistered.symm.trans hv
      · simp only [Provider.owner, Function.update_of_ne hne] at hv ⊢
        by_cases hi : (s.upstreams v).session = i
        · simp only [hi, Function.update_self] at hv
          cases hregistered.symm.trans hv
        · rw [Function.update_of_ne hi] at hv
          exact h.left v hv
    · intro hterm
      cases hterminal.symm.trans hterm
    · intro hterm
      cases hterminal.symm.trans hterm
    · intro hterm
      cases hterminal.symm.trans hterm

theorem Quiet.openSession (h : Quiet s) (howned : Owned s) {session : Session}
    (hregistered : session.registered = true)
    (hhealth : s.terminal = true → session.health.state = .degraded) :
    Quiet { s with
      sessions := Function.update s.sessions s.sessionCount session
      sessionCount := s.sessionCount + 1 } := by
  have hfresh := (howned.fresh s.sessionCount (Nat.le_refl _)).1
  refine ⟨?_, ?_, ?_, h.degraded, ?_, h.doomed⟩
  · intro v hlive
    simp only [Provider.owner, Function.update_of_ne (howned.idle hlive hfresh)]
    exact h.life v hlive
  · intro j hj
    by_cases hne : j = s.sessionCount
    · simp only [hne, Function.update_self] at hj
      cases hregistered.symm.trans hj
    · simp only [Function.update_of_ne hne] at hj ⊢
      exact h.registered j hj
  · intro v hv
    by_cases hne : (s.upstreams v).session = s.sessionCount
    · simp only [Provider.owner, hne, Function.update_self] at hv
      cases hregistered.symm.trans hv
    · simp only [Provider.owner, Function.update_of_ne hne] at hv
      exact h.left v hv
  · intro hterminal j hj
    by_cases hne : j = s.sessionCount
    · simp only [hne, Function.update_self]
      exact hhealth hterminal
    · simp only [Function.update_of_ne hne] at hj ⊢
      exact h.sessions hterminal j hj

theorem Moves.cancel (s : Provider) (u : UpstreamId) :
    Moves s (s.setUp u (s.upstreams u).cancel) u :=
  .setUp (cancel_session _) (by rw [cancel_pc]; exact id)

theorem Quiet.cancel (h : Quiet s) (u : UpstreamId) : Quiet (s.setUp u (s.upstreams u).cancel) := by
  refine h.moves (.cancel s u) ?_ fun _ => .setUp ..
  rw [setUp_self]
  exact fun _ => Upstream.Doomed.cancel

/-- `close()` leaves `_sessions` and cancels the life task. -/
theorem Quiet.closeEnds (h : Quiet s) (hclosed : (s.sessions i).closed = true)
    (hlife : s' = match (s.sessions i).life with
      | some u => (s.setSession i { s.sessions i with registered := false }).setUp u
          (s.upstreams u).cancel
      | none => s.setSession i { s.sessions i with registered := false }) :
    Quiet s' ∧ (s.terminal = true → Frozen s s') := by
  have hsessions : s'.sessions = (s.setSession i { s.sessions i with registered := false }).sessions := by
    rw [hlife]
    split <;> rfl
  have hterminal : s'.terminal = s.terminal := by
    rw [hlife]
    split <;> rfl
  have hhealth : s'.health = s.health := by
    rw [hlife]
    split <;> rfl
  have hups : ∀ v, s'.upstreams v = s.upstreams v ∧ (s.sessions i).life ≠ some v ∨
      s'.upstreams v = (s.upstreams v).cancel := by
    intro v
    rw [hlife]
    split
    · rename_i u hu
      by_cases heq : v = u
      · subst heq
        exact .inr (setUp_self ..)
      · refine .inl ⟨setUp_of_ne _ heq _, ?_⟩
        rw [hu]
        exact fun hsome => heq (Option.some.inj hsome).symm
    · rename_i hnone
      exact .inl ⟨rfl, by rw [hnone]; exact nofun⟩
  have hsession : ∀ v, (s'.upstreams v).session = (s.upstreams v).session := by
    intro v
    rcases hups v with ⟨heq, -⟩ | heq
    · rw [heq]
    · rw [heq, cancel_session]
  have hlive : ∀ v, (s'.upstreams v).pc = (s.upstreams v).pc := by
    intro v
    rcases hups v with ⟨heq, -⟩ | heq
    · rw [heq]
    · rw [heq, cancel_pc]
  have hkept : ∀ v, (s.upstreams v).Doomed → (s'.upstreams v).Doomed := by
    intro v hdoomed
    rcases hups v with ⟨heq, -⟩ | heq
    · rw [heq]
      exact hdoomed
    · rw [heq]
      exact Upstream.Doomed.cancel
  refine ⟨⟨?_, ?_, ?_, ?_, ?_, ?_⟩, ?_⟩
  · intro v hv
    rw [hlive] at hv
    have hold := h.life v hv
    rw [Provider.owner, hsession, hsessions]
    by_cases hi : (s.upstreams v).session = i
    · rw [Provider.owner, hi] at hold
      rw [hi, setSession_self]
      exact hold
    · rw [setSession_of_ne s hi]
      exact hold
  · intro j hj
    rw [hsessions] at hj ⊢
    by_cases hne : j = i
    · subst hne
      rw [setSession_self]
      exact hclosed
    · rw [setSession_of_ne s hne] at hj ⊢
      exact h.registered j hj
  · intro v hv hlive'
    rw [Provider.owner, hsession, hsessions] at hv
    by_cases hi : (s.upstreams v).session = i
    · -- the life task of the session that leaves is the one that `close()` cancels
      have hlive'' := hlive'
      rw [hlive] at hlive''
      have hold := h.life v hlive''
      rw [Provider.owner, hi] at hold
      rcases hups v with ⟨-, hne⟩ | heq
      · exact absurd hold hne
      · rw [heq] at hlive' ⊢
        exact Upstream.Doomed.cancel hlive'
    · rw [setSession_of_ne s hi] at hv
      exact hkept v (h.left v hv) hlive'
  · rw [hterminal, hhealth]
    exact h.degraded
  · rw [hterminal]
    intro hterm j hj
    rw [hsessions] at hj ⊢
    by_cases hne : j = i
    · subst hne
      rw [setSession_self] at hj
      cases hj
    · rw [setSession_of_ne s hne] at hj ⊢
      exact h.sessions hterm j hj
  · rw [hterminal]
    exact fun hterm v => hkept v (h.doomed hterm v)
  · intro hterm
    refine .same (hterminal.trans hterm) hhealth ?_ ?_ ?_ ?_ ?_
    · intro j
      have hsame : Inert s (s.setSession i { s.sessions i with registered := false }) :=
        .setSession rfl
      rw [hsessions]
      exact hsame.sessions j
    · rw [hlife]
      split <;> rfl
    · rw [hlife]
      split <;> rfl
    · rw [hlife]
      split <;> rfl
    · rw [hlife]
      split <;> rfl

/-- A health that is not the terminal one, a closing provider and probes make no difference. -/
theorem Quiet.withHealth (h : Quiet s) {health : ServiceHealth} (closed : Bool)
    (probes probeCount : Nat) (hhealth : s.terminal = true → health = s.health) :
    Quiet { s with health, closed, probes, probeCount } :=
  ⟨h.life, h.registered, h.left, fun hterm => hhealth hterm ▸ h.degraded hterm, h.sessions, h.doomed⟩

theorem Quiet.withDials (h : Quiet s) (dialled : Nat) : Quiet { s with dialled } :=
  ⟨h.life, h.registered, h.left, h.degraded, h.sessions, h.doomed⟩

theorem Quiet.recordSuccess (h : Quiet s) :
    Quiet s.recordSuccess ∧ (s.terminal = true → Frozen s s.recordSuccess) := by
  unfold Provider.recordSuccess
  split
  · exact ⟨h, .refl⟩
  · rename_i hterminal
    exact ⟨h.withHealth s.closed s.probes s.probeCount fun hterm => absurd hterm hterminal,
      fun hterm => absurd hterm hterminal⟩

theorem frozen_probes (hterminal : s.terminal = true) (probes : Nat) :
    Frozen s { s with probes } := .same hterminal rfl (fun _ => rfl) rfl rfl rfl rfl

/-- A step that leaves the terminal state alone: no probe of a terminal provider fails with
a class that is not terminal. -/
def ok (s : Provider) : Action → Bool
  | .probeFails kind => !s.terminal || kind.terminal
  | _ => true

theorem Quiet.probeFailed (h : Quiet s) {kind : ErrorKind} (probes : Nat)
    (hok : s.terminal = false ∨ kind.terminal = true) :
    Quiet ({ s with probes }.probeFailed kind) ∧
      (s.terminal = true → Frozen s ({ s with probes }.probeFailed kind)) := by
  have hprobed : Quiet { s with probes } := h.withHealth s.closed probes s.probeCount fun _ => rfl
  unfold Provider.probeFailed
  split
  · refine ⟨hprobed.markTerminal, fun hterminal => ?_⟩
    exact (frozen_probes hterminal probes).trans (hprobed.markTerminal_frozen hterminal)
  · rename_i hkind
    have hterminal : s.terminal = false := hok.resolve_right hkind
    refine ⟨h.withHealth s.closed probes s.probeCount ?_, ?_⟩
    · intro hterm
      cases hterminal.symm.trans hterm
    · intro hterm
      cases hterminal.symm.trans hterm

/-- One step keeps the invariant, and in the terminal state every health. -/
theorem Quiet.step (h : Quiet s) (howned : Owned s) {a : Action} (hok : ok s a = true)
    (hstep : step s a = some s') : Quiet s' ∧ (s.terminal = true → Frozen s s') := by
  cases a with
  | openSession =>
    cases hstep
    refine ⟨h.openSession howned rfl fun hterminal => ?_, fun hterminal => ?_⟩
    · simp only [hterminal, if_true]
    · refine ⟨hterminal, rfl, ?_, rfl, rfl, rfl, Nat.le_succ _, ?_⟩
      · intro i hi
        simp only [Function.update_of_ne (Nat.ne_of_lt hi)]
      · intro i hi hi'
        obtain rfl : i = s.sessionCount := Nat.le_antisymm (Nat.le_of_lt_succ hi') hi
        simp only [Function.update_self]
  | ensureUpstream i cooling =>
    cases hstep
    exact h.ensureUpstream howned i cooling
  | clearsBusy i =>
    cases hstep
    exact ⟨h.setSession rfl rfl rfl id, fun hterminal => frozen_setSession hterminal rfl⟩
  | drained u =>
    cases hstep
    exact ⟨h.setUp rfl rfl rfl, fun hterminal => frozen_setUp hterminal _⟩
  | closeCalled i =>
    simp only [Stt.step] at hstep
    split at hstep
    · cases hstep
    · cases hstep
      exact ⟨h.setSession rfl rfl rfl fun _ => rfl,
        fun hterminal => frozen_setSession hterminal rfl⟩
  | closeEnds i =>
    simp only [Stt.step] at hstep
    split at hstep
    · rename_i hleaves
      rw [Bool.and_eq_true] at hleaves
      cases hstep
      exact h.closeEnds hleaves.1 rfl
    · cases hstep
  | cancels u =>
    cases hstep
    exact ⟨h.cancel u, fun hterminal => frozen_setUp hterminal _⟩
  | life u move =>
    simp only [Stt.step] at hstep
    split at hstep
    · cases hstep
    · rename_i hcancelled
      obtain ⟨hterminal, hquiet⟩ := h.lifeStep (eq_false_of_ne_true hcancelled) hstep
      exact ⟨hquiet, fun hterm => by cases hterminal.symm.trans hterm⟩
  | finalizes u =>
    simp only [Stt.step] at hstep
    split at hstep
    · cases hstep
      refine ⟨h.moves (.exit s u) ?_ fun _ => exit_inert s u,
        fun hterminal => (Moves.exit s u).frozen hterminal (exit_inert s u)⟩
      intro _ hlive
      rw [exit_pc] at hlive
      cases hlive
    · cases hstep
  | stops u =>
    simp only [Stt.step] at hstep
    split at hstep
    · obtain ⟨hmoves, hdoomed, hhealth⟩ := stopLife_moves hstep
      exact ⟨h.moves hmoves (fun _ => hdoomed) fun _ => hhealth,
        fun hterminal => hmoves.frozen hterminal hhealth⟩
    · cases hstep
  | calledBack u =>
    simp only [Stt.step] at hstep
    split at hstep
    · cases hstep
      have hpc : Moves s (s.setPc u .released) u := .setPc fun hlive => by cases hlive
      have hmoves := hpc.trans (.releasePermit ..)
      have hhealth : Inert s ((s.setPc u .released).releasePermit u) :=
        (Inert.setUp s u _).trans (releasePermit_inert ..)
      refine ⟨h.moves hmoves ?_ fun _ => hhealth, fun hterminal => hmoves.frozen hterminal hhealth⟩
      intro _ hlive
      rw [releasePermit_pc, Provider.setPc, setUp_self] at hlive
      cases hlive
    · cases hstep
  | reader u event =>
    simp only [Stt.step] at hstep
    split at hstep
    · cases hstep
      exact h.readerStep event
    · cases hstep
  | probeStarts =>
    cases hstep
    split
    · exact ⟨h, .refl⟩
    · rename_i hidle
      have hprobed := h.withHealth s.closed (s.probes + 1) (s.probeCount + 1) fun _ => rfl
      refine ⟨hprobed.withDials (s.dialled + 1), ?_⟩
      intro hterminal
      rw [hterminal, Bool.or_true] at hidle
      exact absurd rfl hidle
  | probeSucceeds =>
    simp only [Stt.step] at hstep
    split at hstep
    · cases hstep
    · cases hstep
      have hprobed : Quiet { s with probes := s.probes - 1 } :=
        h.withHealth s.closed (s.probes - 1) s.probeCount fun _ => rfl
      refine ⟨hprobed.recordSuccess.1, fun hterminal => ?_⟩
      exact (frozen_probes hterminal (s.probes - 1)).trans (hprobed.recordSuccess.2 hterminal)
  | probeFails kind =>
    simp only [Stt.step] at hstep
    split at hstep
    · cases hstep
    · cases hstep
      refine h.probeFailed (s.probes - 1) ?_
      rw [ok, Bool.or_eq_true, Bool.not_eq_true'] at hok
      exact hok
  | probeDropped =>
    simp only [Stt.step] at hstep
    split at hstep
    · cases hstep
    · cases hstep
      exact ⟨h.withHealth s.closed (s.probes - 1) s.probeCount fun _ => rfl,
        fun hterminal => frozen_probes hterminal (s.probes - 1)⟩
  | aclose =>
    cases hstep
    exact ⟨h.withHealth true s.probes s.probeCount fun _ => rfl,
      fun hterminal => .same hterminal rfl (fun _ => rfl) rfl rfl rfl rfl⟩

theorem Quiet.start : Quiet {} := ⟨nofun, fun _ _ => rfl, fun _ => nofun, nofun, nofun, nofun⟩

/-- The steps that meet `ok`. -/
abbrev Runs : Provider → Provider → Prop := ReachableBy step fun s a => ok s a = true

theorem quiet_of_runs (h : Runs {} s) : Owned s ∧ Quiet s := by
  induction h with
  | start => exact ⟨.start, .start⟩
  | next _ hok hstep ih =>
    obtain ⟨howned, hquiet⟩ := ih
    exact ⟨howned.step hstep, (hquiet.step howned hok hstep).1⟩

/-- Once terminal, every later state has the same healths and no upstream or probe more. -/
theorem frozen_of_runs (h : Runs {} s) (hterminal : s.terminal = true) (h' : Runs s s') :
    Frozen s s' := by
  induction h' with
  | start => exact .refl hterminal
  | next hrun hok hstep ih =>
    obtain ⟨howned, hquiet⟩ := quiet_of_runs (h.trans hrun)
    exact ih.trans ((hquiet.step howned hok hstep).2 ih.terminal)

/-- A probe that fails later with another class undoes the degradation. -/
theorem probe_undoes {a : Action} (hstep : step s a = some s') (hok : ok s a = false) :
    s.terminal = true ∧ s'.health.state = .reconnecting := by
  cases a with
  | probeFails kind =>
    rw [ok, Bool.or_eq_false_iff, Bool.not_eq_false'] at hok
    simp only [Stt.step] at hstep
    split at hstep
    · cases hstep
    · cases hstep
      refine ⟨hok.1, ?_⟩
      unfold Provider.probeFailed
      rw [if_neg (ne_true_of_eq_false hok.2)]
      exact s.health.setState_state .reconnecting
  | _ => cases hok

end ElevenLabs.Stt
