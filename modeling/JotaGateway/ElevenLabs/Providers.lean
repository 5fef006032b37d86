-- SUMMARY: Both ElevenLabs providers: the balance of their permits, and the terminal state.
import JotaGateway.ElevenLabs.SttTerminal
import JotaGateway.ElevenLabs.Tts

/-!
# The ElevenLabs providers
-/

namespace ElevenLabs

open Transition

/-- The permits taken are those of the upstreams with `permit` set, one for each session at
most, and each is released once; the permits of the streams likewise. -/
theorem permits_balanced (s : Stt.Provider) (t : Tts.Provider) (hs : Reachable Stt.step {} s)
    (ht : Reachable Tts.step {} t) :
    (s.free + Permits.held (fun u => (s.upstreams u).permit) s.upstreamCount = Stt.MAX_SESSIONS ∧
      Permits.held (fun u => (s.upstreams u).permit) s.upstreamCount ≤ Stt.MAX_SESSIONS ∧
      (∀ u, (s.upstreams u).permit = true → u < s.upstreamCount) ∧
      (∀ u < s.upstreamCount, (s.upstreams u).releases = if (s.upstreams u).permit then 0 else 1) ∧
      (∀ u, (s.upstreams u).pc.live = true → (s.upstreams u).permit = true) ∧
      (∀ u v, (s.upstreams u).permit = true → (s.upstreams v).permit = true →
        (s.upstreams u).session = (s.upstreams v).session → u = v) ∧
      ((∀ u < s.upstreamCount, (s.upstreams u).pc = .released) → s.free = Stt.MAX_SESSIONS)) ∧
    (t.free + Permits.held (fun i => (t.streams i).pc != .finished) t.streamCount = Tts.MAX_STREAMS ∧
      Permits.held (fun i => (t.streams i).pc != .finished) t.streamCount ≤ Tts.MAX_STREAMS ∧
      (∀ i < t.streamCount, (t.streams i).releases = if (t.streams i).pc = .finished then 1 else 0) ∧
      ((∀ i < t.streamCount, (t.streams i).pc = .finished) → t.free = Tts.MAX_STREAMS)) := by
  have hstt := Stt.owned_of_reachable hs
  have htts := Tts.owned_of_reachable ht
  refine ⟨⟨hstt.balanced.balance, hstt.balanced.held_le, ?_, hstt.releases, hstt.live, ?_, ?_⟩,
    ⟨htts.balanced.balance, htts.balanced.held_le, htts.releases, ?_⟩⟩
  · intro u hpermit
    exact hstt.balanced.lt hpermit
  · intro u v hu hv hsession
    exact hstt.one_upstream hu hv hsession
  · intro hreleased
    exact hstt.balanced.all_free fun u hu => hstt.released u (hreleased u hu)
  · intro hfinished
    refine htts.balanced.all_free ?_
    intro i hi
    rw [hfinished i hi]
    rfl

/-- An upstream whose `finally` is cut short by a second cancellation, beside one whose task
was cancelled before its first step. -/
theorem permits_balanced_cancelled :
    ∃ s t, run Stt.step {}
        [.openSession, .openSession, .ensureUpstream 0 false, .ensureUpstream 1 false,
          .cancels 1, .stops 1, .calledBack 1, .life 0 .starts, .life 0 .opens, .cancels 0,
          .stops 0, .cancels 0, .stops 0, .calledBack 0] = some s ∧
      run Tts.step {} [.connect false false, .closeCalled 0, .stops 0, .calledBack 0] = some t ∧
        s.free = Stt.MAX_SESSIONS ∧ t.free = Tts.MAX_STREAMS := by
  obtain ⟨s, hs⟩ : ∃ s, run Stt.step {}
      [.openSession, .openSession, .ensureUpstream 0 false, .ensureUpstream 1 false,
        .cancels 1, .stops 1, .calledBack 1, .life 0 .starts, .life 0 .opens, .cancels 0,
        .stops 0, .cancels 0, .stops 0, .calledBack 0] = some s := ⟨_, rfl⟩
  obtain ⟨t, ht⟩ : ∃ t, run Tts.step {}
      [.connect false false, .closeCalled 0, .stops 0, .calledBack 0] = some t := ⟨_, rfl⟩
  have hstt := reachable_of_run hs
  have htts := reachable_of_run ht
  cases hs
  cases ht
  obtain ⟨⟨-, -, -, -, -, -, hfree⟩, ⟨-, -, -, hfree'⟩⟩ := permits_balanced _ _ hstt htts
  refine ⟨_, _, rfl, rfl, hfree ?_, hfree' ?_⟩
  · decide
  · decide

/-- Once terminal, in every run in which no probe or stream in flight fails later with a class
that is not terminal and no stream that was opened before dials a socket: degraded, no hook
called, nothing opened or dialled. The other steps undo the degradation, or dial. -/
theorem terminal_kept (s s' : Stt.Provider) (t t' : Tts.Provider) :
    (Stt.Runs {} s → s.terminal = true → Stt.Runs s s' →
      s'.terminal = true ∧ s'.health.state = .degraded ∧ s'.health.fired = s.health.fired ∧
        (∀ i, (s'.sessions i).registered = true → (s'.sessions i).health.state = .degraded) ∧
        (∀ i < s.sessionCount, (s'.sessions i).health.fired = (s.sessions i).health.fired) ∧
        (∀ i, s.sessionCount ≤ i → i < s'.sessionCount → (s'.sessions i).health.fired = []) ∧
        s'.upstreamCount = s.upstreamCount ∧ s'.probeCount = s.probeCount ∧
        s'.dialled = s.dialled) ∧
    (Tts.Runs {} t → t.terminal = true → Tts.Runs t t' →
      t'.terminal = true ∧ t'.health.state = .degraded ∧ t'.health.fired = t.health.fired ∧
        t'.streamCount = t.streamCount ∧ t'.gate.started = t.gate.started ∧
        t'.dialled = t.dialled) ∧
    (∀ a, Stt.step s a = some s' → Stt.ok s a = false →
      s.terminal = true ∧ s'.health.state = .reconnecting) ∧
    (∀ a, Tts.step t a = some t' → Tts.ok t a = false →
      t.terminal = true ∧ (t'.health.state = .reconnecting ∨ t'.dialled = t.dialled + 1)) := by
  refine ⟨?_, ?_, fun a => Stt.probe_undoes, fun a => Tts.attempt_undoes⟩
  · intro hs hterminal hs'
    have hfrozen := Stt.frozen_of_runs hs hterminal hs'
    have hquiet := (Stt.quiet_of_runs (hs.trans hs')).2
    exact ⟨hfrozen.terminal, hquiet.degraded hfrozen.terminal, congrArg _ hfrozen.health,
      hquiet.sessions hfrozen.terminal, fun i hi => congrArg _ (hfrozen.sessions i hi),
      hfrozen.opened, hfrozen.upstreamCount, hfrozen.probeCount, hfrozen.dialled⟩
  · intro ht hterminal ht'
    have hfrozen := Tts.frozen_of_runs ht hterminal ht'
    have hdegraded := Tts.degraded_of_runs (ht.trans ht')
    exact ⟨hfrozen.terminal, hdegraded hfrozen.terminal, congrArg _ hfrozen.health,
      hfrozen.streamCount, hfrozen.started, hfrozen.dialled⟩

/-- The first upstream is rejected while a probe is in flight. -/
def rejected : List Stt.Action :=
  [.openSession, .probeStarts, .ensureUpstream 0 false, .life 0 .starts,
    .life 0 (.connectFails .auth false)]

/-- The first of two streams is rejected. -/
def rejectedStream : List Tts.Action :=
  [.connect false false, .connect false false, .runner 0 .starts, .runner 1 .starts,
    .runner 0 (.connectFails .auth)]

/-- A probe that succeeds and a stream that is rejected too change nothing any more. -/
theorem terminal_kept_late :
    ∃ s s' t t', run Stt.step {} rejected = some s ∧ run Stt.step s [.probeSucceeds] = some s' ∧
      run Tts.step {} rejectedStream = some t ∧
        run Tts.step t [.runner 1 (.connectFails .quota)] = some t' ∧
          s'.health.state = .degraded ∧ t'.health.state = .degraded ∧ t'.dialled = t.dialled := by
  obtain ⟨s, hs⟩ : ∃ s, run (guarded Stt.step Stt.ok) {} rejected = some s := ⟨_, rfl⟩
  obtain ⟨s', hs'⟩ : ∃ s', run (guarded Stt.step Stt.ok) s [.probeSucceeds] = some s' := by
    cases hs
    exact ⟨_, rfl⟩
  obtain ⟨t, ht⟩ : ∃ t, run (guarded Tts.step Tts.ok) {} rejectedStream = some t := ⟨_, rfl⟩
  obtain ⟨t', ht'⟩ : ∃ t', run (guarded Tts.step Tts.ok) t [.runner 1 (.connectFails .quota)] =
      some t' := by
    cases ht
    exact ⟨_, rfl⟩
  have hruns := reachableBy_of_run hs
  have hruns' := reachableBy_of_run hs'
  have hstreams := reachableBy_of_run ht
  have hstreams' := reachableBy_of_run ht'
  cases hs
  cases hs'
  cases ht
  cases ht'
  obtain ⟨hstt, htts, -⟩ := terminal_kept _ _ _ _
  obtain ⟨-, hdegraded, -, -, -, hdialled⟩ := htts hstreams rfl hstreams'
  exact ⟨_, _, _, _, rfl, rfl, rfl, rfl, (hstt hruns rfl hruns').2.1, hdegraded, hdialled⟩

/-- The second of two streams is rejected, while the first one reads. -/
def rejectedLater : List Tts.Action :=
  [.connect false false, .connect false false, .runner 0 .starts, .runner 0 .connects,
    .runner 1 .starts, .runner 1 (.connectFails .auth)]

/-- The probe, or the other stream, fails after the rejection with any other cause, and the
terminal provider goes to RECONNECTING; a stream that loses its socket after it dials again. -/
theorem terminal_undone :
    (¬ ∀ s s', Reachable Stt.step {} s → s.terminal = true → Reachable Stt.step s s' →
      s'.health.state = .degraded) ∧
    (¬ ∀ t t', Reachable Tts.step {} t → t.terminal = true → Reachable Tts.step t t' →
      t'.health.state = .degraded) ∧
    (¬ ∀ t t', Reachable Tts.step {} t → t.terminal = true → Reachable Tts.step t t' →
      t'.dialled = t.dialled) := by
  refine ⟨?_, ?_, ?_⟩
  · intro hclaim
    obtain ⟨s, hs⟩ : ∃ s, run Stt.step {} rejected = some s := ⟨_, rfl⟩
    obtain ⟨s', hs'⟩ : ∃ s', run Stt.step s [.probeFails .other] = some s' := by
      cases hs
      exact ⟨_, rfl⟩
    have hterminal : s.terminal = true := by
      cases hs
      rfl
    have hdegraded := hclaim s s' (reachable_of_run hs) hterminal (reachable_of_run hs')
    cases hs
    cases hs'
    cases hdegraded
  · intro hclaim
    obtain ⟨t, ht⟩ : ∃ t, run Tts.step {} rejectedStream = some t := ⟨_, rfl⟩
    obtain ⟨t', ht'⟩ : ∃ t', run Tts.step t [.runner 1 (.connectFails .other)] = some t' := by
      cases ht
      exact ⟨_, rfl⟩
    have hterminal : t.terminal = true := by
      cases ht
      rfl
    have hdegraded := hclaim t t' (reachable_of_run ht) hterminal (reachable_of_run ht')
    cases ht
    cases ht'
    cases hdegraded
  · intro hclaim
    obtain ⟨t, ht⟩ : ∃ t, run Tts.step {} rejectedLater = some t := ⟨_, rfl⟩
    obtain ⟨t', ht'⟩ : ∃ t', run Tts.step t [.runner 0 (.served (.closed .other)),
        .runner 0 .reclosed] = some t' := by
      cases ht
      exact ⟨_, rfl⟩
    have hterminal : t.terminal = true := by
      cases ht
      rfl
    have hdialled := hclaim t t' (reachable_of_run ht) hterminal (reachable_of_run ht')
    cases ht
    cases ht'
    cases hdialled

end ElevenLabs
