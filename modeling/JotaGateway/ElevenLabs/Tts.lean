-- SUMMARY: `ElevenLabsTtsProvider` and its streams: runner tasks, the gate, probes, health and the semaphore.
import JotaGateway.Base.Permits
import JotaGateway.Base.Transition
import JotaGateway.ElevenLabs.Common
import JotaGateway.Services.Reconnection

/-!
# ElevenLabs text to speech

The provider with any number of streams. A runner task is at one of its
suspensions. Its reader is a child that lives within `_serve`, and the text and
the audio themselves are left out.
-/

namespace ElevenLabs.Tts

open Transition

abbrev StreamId := Nat

def MAX_STREAMS : Nat := 10

/-- Where a runner is suspended. -/
inductive Pc where
  /-- not started yet -/
  | created
  /-- in `websockets.connect` -/
  | connecting
  /-- in `_serve` -/
  | serving
  /-- closing the socket before it is opened once more -/
  | reclosing
  /-- closing the socket in the `finally` -/
  | closing
  /-- done, `_finished` is still to be called -/
  | done
  | finished
  deriving DecidableEq, Repr

structure Stream where
  token : Nat := 0
  pc : Pc := .finished
  /-- `cancel()` was called on the runner and has not reached it -/
  cancelled : Bool := false
  closed : Bool := false
  endRequested : Bool := false
  endSent : Bool := false
  gotAudio : Bool := false
  reopened : Bool := false
  /-- how often the semaphore was released for it -/
  releases : Nat := 0
  deriving DecidableEq, Repr

/-- What `_read` returns. -/
inductive ReadOutcome where
  | final
  | overflow
  | error
  | closed (kind : ErrorKind)
  deriving DecidableEq, Repr

structure Provider where
  health : ServiceHealth := { state := .connected }
  terminal : Bool := false
  closed : Bool := false
  gate : LazyBackoffGate := {}
  /-- `_sem._value` -/
  free : Nat := MAX_STREAMS
  streams : StreamId → Stream := fun _ => {}
  streamCount : Nat := 0
  /-- the tokens of the probes in flight -/
  probes : List Nat := []
  /-- the calls of `websockets.connect`, for a stream or a probe -/
  dialled : Nat := 0

namespace Provider

def setStream (s : Provider) (i : StreamId) (stream : Stream) : Provider :=
  { s with streams := Function.update s.streams i stream }

def setPc (s : Provider) (i : StreamId) (pc : Pc) : Provider :=
  s.setStream i { s.streams i with pc }

/-- The runner calls `websockets.connect`, and does not look at `_terminal` before it. -/
def dial (s : Provider) (i : StreamId) : Provider :=
  { s.setPc i .connecting with dialled := s.dialled + 1 }

/-- `_mark_auth_failed` -/
def markAuthFailed (s : Provider) : Provider :=
  { s with terminal := true, health := s.health.setState .degraded }

/-- `_record_failure` -/
def recordFailure (s : Provider) (token : Nat) : Provider :=
  if s.gate.applies token then
    { s with gate := s.gate.recordFailure token, health := s.health.setState .reconnecting }
  else
    s

/-- `_connect_failed` -/
def connectFailed (s : Provider) (token : Nat) (kind : ErrorKind) : Provider :=
  if kind.terminal then s.markAuthFailed else s.recordFailure token

/-- `_capacity_close` -/
def capacityClose (s : Provider) (token : Nat) : Provider :=
  { s with gate := s.gate.recordFailure token }

/-- `_record_success` -/
def recordSuccess (s : Provider) : Provider :=
  if s.terminal then s
  else { s with gate := s.gate.recordSuccess, health := s.health.markConnected }

/-- `connect()`; `within` is the gate's window and `raises` says that the constructor of the
stream raised. -/
def connect (s : Provider) (within raises : Bool) : Provider :=
  if s.closed || s.terminal then s
  else
    match s.gate.begin within with
    | (gate, none) => { s with gate }
    | (gate, some token) =>
      if s.free = 0 then { s with gate }
      else if raises then { s with gate, free := s.free - 1 + 1 }
      else
        { s with
          gate
          free := s.free - 1
          streams := Function.update s.streams s.streamCount { token, pc := .created }
          streamCount := s.streamCount + 1 }

/-- `_serve` from the end of its reader on. -/
def served (s : Provider) (i : StreamId) (outcome : ReadOutcome) : Provider :=
  let stream := s.streams i
  match outcome with
  | .final | .overflow | .error => s.setPc i .closing
  | .closed kind =>
    if stream.closed then s.setPc i .closing
    else
      match kind with
      | .auth | .quota => s.markAuthFailed.setPc i .closing
      | .capacity => (s.capacityClose stream.token).setPc i .closing
      | .other =>
        if stream.endSent || stream.reopened then s.setPc i .closing
        else s.setStream i { stream with reopened := true, pc := .reclosing }

end Provider

open Provider

/-- What a runner that has not been cancelled does next. -/
inductive Move where
  | starts
  | connectFails (kind : ErrorKind)
  | connects
  | sendsEnd
  /-- the reader gets the first audio -/
  | firstAudio
  | served (outcome : ReadOutcome)
  /-- no text and no `end()` for too long -/
  | expires
  | reclosed
  | finalizes
  deriving DecidableEq, Repr

inductive Action where
  | connect (within raises : Bool)
  | endCalled (i : StreamId)
  | closeCalled (i : StreamId)
  /-- anyone cancels the runner -/
  | cancels (i : StreamId)
  | runner (i : StreamId) (move : Move)
  /-- the cancellation reaches the runner -/
  | stops (i : StreamId)
  /-- the done-callback of the runner -/
  | calledBack (i : StreamId)
  | probeStarts (within : Bool)
  | probeSucceeds (token : Nat)
  | probeFails (token : Nat) (kind : ErrorKind)
  /-- a probe is cancelled -/
  | probeDropped (token : Nat)
  | aclose
  deriving DecidableEq, Repr

def Pc.live : Pc → Bool
  | .done | .finished => false
  | _ => true

/-- `_runner` -/
def runnerStep (s : Provider) (i : StreamId) (move : Move) : Option Provider :=
  let stream := s.streams i
  match move, stream.pc with
  | .starts, .created => some (s.dial i)
  | .connectFails kind, .connecting => some ((s.connectFailed stream.token kind).setPc i .done)
  | .connects, .connecting => some (s.setPc i .serving)
  | .sendsEnd, .serving =>
    if stream.endRequested then some (s.setStream i { stream with endSent := true }) else none
  | .firstAudio, .serving =>
    if stream.gotAudio then none
    else some (s.setStream i { stream with gotAudio := true }).recordSuccess
  | .served outcome, .serving => some (s.served i outcome)
  | .expires, .serving =>
    if stream.endRequested then none
    else some (s.setStream i { stream with closed := true, pc := .closing })
  | .reclosed, .reclosing => some (s.dial i)
  | .finalizes, .closing => some (s.setPc i .done)
  | _, _ => none

/-- The cancellation reaches the runner: before its first step the `finally` does not run. -/
def stopRunner (s : Provider) (i : StreamId) : Option Provider :=
  let stream := s.streams i
  match stream.pc with
  | .done | .finished => none
  | .serving => some (s.setStream i { stream with pc := .closing, cancelled := false })
  | _ => some (s.setStream i { stream with pc := .done, cancelled := false })

/-- What an action does, and `none` where it cannot happen. -/
def step (s : Provider) (a : Action) : Option Provider :=
  match a with
  | .connect within raises => some (s.connect within raises)
  | .endCalled i =>
    let stream := s.streams i
    some (if stream.closed || stream.endRequested then s
      else s.setStream i { stream with endRequested := true })
  | .closeCalled i =>
    let stream := s.streams i
    some (if stream.closed then s
      else s.setStream i { stream with closed := true, cancelled := stream.pc.live })
  | .cancels i => if (s.streams i).pc.live then
      some (s.setStream i { s.streams i with cancelled := true }) else none
  | .runner i move => if (s.streams i).cancelled then none else runnerStep s i move
  | .stops i => if (s.streams i).cancelled then stopRunner s i else none
  | .calledBack i =>
    let stream := s.streams i
    if stream.pc = .done then
      some { s.setStream i { stream with pc := .finished, releases := stream.releases + 1 } with
        free := s.free + 1 }
    else
      none
  | .probeStarts within =>
    if s.closed || s.terminal then some s
    else
      match s.gate.begin within with
      | (gate, none) => some { s with gate }
      | (gate, some token) =>
        some { s with gate, probes := s.probes ++ [token], dialled := s.dialled + 1 }
  | .probeSucceeds token =>
    if token ∈ s.probes then some { s with probes := s.probes.erase token }.recordSuccess else none
  | .probeFails token kind =>
    if token ∈ s.probes then some ({ s with probes := s.probes.erase token }.connectFailed token kind)
    else none
  | .probeDropped token =>
    if token ∈ s.probes then some { s with probes := s.probes.erase token } else none
  | .aclose => some { s with closed := true }

-- ---------------------------------------------------------------------------
-- The permits
-- ---------------------------------------------------------------------------

/-- Every permit is free or with one stream, which gives it back once, at its end. -/
structure Owned (s : Provider) : Prop where
  balanced : Permits.Balanced MAX_STREAMS s.free (fun i => (s.streams i).pc != .finished) s.streamCount
  releases : ∀ i, i < s.streamCount →
    (s.streams i).releases = if (s.streams i).pc = .finished then 1 else 0

variable {s s' : Provider} {i : StreamId}

theorem setStream_self (s : Provider) (i : StreamId) (stream : Stream) :
    (s.setStream i stream).streams i = stream := Function.update_self ..

theorem setStream_of_ne (s : Provider) {j : StreamId} (h : j ≠ i) (stream : Stream) :
    (s.setStream i stream).streams j = s.streams j := Function.update_of_ne h ..

/-- Nobody else's permit depends on a stream that goes on. -/
theorem Owned.setStream (h : Owned s) {stream : Stream}
    (hpc : stream.pc = .finished ↔ (s.streams i).pc = .finished)
    (hreleases : stream.releases = (s.streams i).releases) : Owned (s.setStream i stream) := by
  refine ⟨h.balanced.congr ?_, ?_⟩
  · intro j
    by_cases heq : j = i
    · subst heq
      simp only [setStream_self, bne, beq_eq_decide, hpc]
    · rw [setStream_of_ne s heq]
  · intro j hj
    by_cases heq : j = i
    · subst heq
      rw [setStream_self, hreleases, h.releases j hj]
      simp only [hpc]
    · rw [setStream_of_ne s heq]
      exact h.releases j hj

theorem Owned.setPc (h : Owned s) {pc : Pc} (hpc : pc ≠ .finished)
    (hold : (s.streams i).pc ≠ .finished) : Owned (s.setPc i pc) :=
  h.setStream ⟨fun heq => absurd heq hpc, fun heq => absurd heq hold⟩ rfl

/-- How often a socket was dialled is no part of it. -/
theorem Owned.withDials (h : Owned s) (dialled : Nat) : Owned { s with dialled } :=
  ⟨h.balanced, h.releases⟩

theorem Owned.dial (h : Owned s) (hold : (s.streams i).pc ≠ .finished) : Owned (s.dial i) := by
  have hconnecting : Owned (s.setPc i .connecting) := h.setPc Pc.noConfusion hold
  exact hconnecting.withDials _

/-- The health, the gate and the probes are no part of it. -/
theorem Owned.withHealth (h : Owned s) (health : ServiceHealth) (terminal closed : Bool)
    (gate : LazyBackoffGate) (probes : List Nat) :
    Owned { s with health, terminal, closed, gate, probes } := ⟨h.balanced, h.releases⟩

theorem Owned.connectFailed (h : Owned s) (token : Nat) (kind : ErrorKind) :
    Owned (s.connectFailed token kind) := by
  unfold Provider.connectFailed Provider.recordFailure
  split
  · exact h.withHealth _ true s.closed s.gate s.probes
  · split
    · exact h.withHealth _ s.terminal s.closed _ s.probes
    · exact h

theorem connectFailed_streams (s : Provider) (token : Nat) (kind : ErrorKind) :
    (s.connectFailed token kind).streams = s.streams := by
  unfold Provider.connectFailed Provider.recordFailure
  split
  · rfl
  · split <;> rfl

theorem Owned.recordSuccess (h : Owned s) : Owned s.recordSuccess := by
  unfold Provider.recordSuccess
  split
  · exact h
  · exact h.withHealth _ s.terminal s.closed _ s.probes

theorem Owned.served (h : Owned s) (hpc : (s.streams i).pc = .serving) (outcome : ReadOutcome) :
    Owned (s.served i outcome) := by
  have hold : (s.streams i).pc ≠ .finished := by
    rw [hpc]
    exact nofun
  cases outcome with
  | closed kind =>
    simp only [Provider.served]
    split
    · exact h.setPc nofun hold
    · cases kind with
      | auth => exact (h.withHealth _ true s.closed s.gate s.probes).setPc nofun hold
      | quota => exact (h.withHealth _ true s.closed s.gate s.probes).setPc nofun hold
      | capacity => exact (h.withHealth s.health s.terminal s.closed _ s.probes).setPc nofun hold
      | other =>
        dsimp only
        split
        · exact h.setPc nofun hold
        · exact h.setStream ⟨nofun, fun heq => absurd heq hold⟩ rfl
  | _ => exact h.setPc nofun hold

theorem Owned.runnerStep (h : Owned s) {move : Move} (hstep : runnerStep s i move = some s') :
    Owned s' := by
  simp only [Tts.runnerStep] at hstep
  split at hstep
  · rename_i hpc
    cases hstep
    exact h.dial (by rw [hpc]; exact Pc.noConfusion)
  · rename_i hpc
    cases hstep
    refine (h.connectFailed _ _).setPc nofun ?_
    rw [connectFailed_streams, hpc]
    exact nofun
  · rename_i hpc
    cases hstep
    exact h.setPc nofun (by rw [hpc]; exact nofun)
  · split at hstep
    · cases hstep
      exact h.setStream Iff.rfl rfl
    · cases hstep
  · split at hstep
    · cases hstep
    · cases hstep
      exact Owned.recordSuccess (h.setStream Iff.rfl rfl)
  · cases hstep
    exact h.served ‹_› _
  · rename_i hpc
    split at hstep
    · cases hstep
    · cases hstep
      exact h.setStream ⟨nofun, fun heq => by cases hpc.symm.trans heq⟩ rfl
  · rename_i hpc
    cases hstep
    exact h.dial (by rw [hpc]; exact Pc.noConfusion)
  · rename_i hpc
    cases hstep
    exact h.setPc nofun (by rw [hpc]; exact nofun)
  · cases hstep

theorem Owned.stopRunner (h : Owned s) (hstep : stopRunner s i = some s') : Owned s' := by
  simp only [Tts.stopRunner] at hstep
  split at hstep
  · cases hstep
  · cases hstep
  · rename_i hpc
    cases hstep
    exact h.setStream ⟨nofun, fun heq => by cases hpc.symm.trans heq⟩ rfl
  · rename_i hdone hfinished _
    cases hstep
    exact h.setStream ⟨nofun, fun heq => absurd heq hfinished⟩ rfl

/-- `connect()` changes the gate only, or starts a stream with a permit. -/
theorem connect_cases (s : Provider) (within raises : Bool) :
    (∃ gate, s.connect within raises = { s with gate } ∧
        (s.terminal = true → gate = s.gate)) ∨
      s.terminal = false ∧ s.free = s.free - 1 + 1 ∧ ∃ gate token, s.connect within raises = { s with
          gate
          free := s.free - 1
          streams := Function.update s.streams s.streamCount { token, pc := .created }
          streamCount := s.streamCount + 1 } := by
  unfold Provider.connect
  split
  · exact .inl ⟨s.gate, rfl, fun _ => rfl⟩
  · rename_i hopen
    have hterminal : s.terminal = false := by
      rw [Bool.or_eq_true, not_or] at hopen
      exact eq_false_of_ne_true hopen.2
    have hgate : ∀ gate, s.terminal = true → gate = s.gate := by
      intro gate hterm
      cases hterminal.symm.trans hterm
    split
    · exact .inl ⟨_, rfl, hgate _⟩
    · split
      · exact .inl ⟨_, rfl, hgate _⟩
      · have hfree : s.free = s.free - 1 + 1 := by omega
        split
        · rename_i gate _ _ _ _
          refine .inl ⟨gate, ?_, hgate gate⟩
          rw [← hfree]
        · exact .inr ⟨hterminal, hfree, _, _, rfl⟩

theorem Owned.connect (h : Owned s) (within raises : Bool) : Owned (s.connect within raises) := by
  rcases connect_cases s within raises with ⟨gate, heq, -⟩ | ⟨-, hfree, gate, token, heq⟩
  · rw [heq]
    exact h.withHealth s.health s.terminal s.closed gate s.probes
  · rw [heq]
    refine ⟨(Permits.Balanced.acquire (hfree ▸ h.balanced)).congr ?_, ?_⟩
    · intro j
      by_cases hne : j = s.streamCount
      · subst hne
        simp only [Function.update_self]
        rfl
      · simp only [Function.update_of_ne hne]
    · intro j hj
      by_cases hne : j = s.streamCount
      · subst hne
        simp only [Function.update_self]
        rfl
      · simp only [Function.update_of_ne hne]
        exact h.releases j (Nat.lt_of_le_of_ne (Nat.le_of_lt_succ hj) hne)

/-- `_finished` -/
theorem Owned.finish (h : Owned s) (hpc : (s.streams i).pc = .done) :
    Owned { s.setStream i { s.streams i with
      pc := .finished, releases := (s.streams i).releases + 1 } with free := s.free + 1 } := by
  have hholds : ((s.streams i).pc != .finished) = true := by
    rw [hpc]
    rfl
  refine ⟨(h.balanced.release hholds).congr ?_, ?_⟩
  · intro j
    by_cases hne : j = i
    · subst hne
      simp only [Provider.setStream, Function.update_self]
      rfl
    · simp only [Provider.setStream, Function.update_of_ne hne]
  · intro j hj
    by_cases hne : j = i
    · subst hne
      have hold := h.releases j hj
      rw [hpc, if_neg nofun] at hold
      simp only [Provider.setStream, Function.update_self, hold, if_true]
    · simp only [Provider.setStream, Function.update_of_ne hne]
      exact h.releases j hj

/-- One step keeps the balance of the permits. -/
theorem Owned.step (h : Owned s) {a : Action} (hstep : step s a = some s') : Owned s' := by
  cases a with
  | connect within raises =>
    cases hstep
    exact h.connect within raises
  | endCalled i =>
    cases hstep
    split
    · exact h
    · exact h.setStream Iff.rfl rfl
  | closeCalled i =>
    cases hstep
    split
    · exact h
    · exact h.setStream Iff.rfl rfl
  | cancels i =>
    simp only [Tts.step] at hstep
    split at hstep
    · cases hstep
      exact h.setStream Iff.rfl rfl
    · cases hstep
  | runner i move =>
    simp only [Tts.step] at hstep
    split at hstep
    · cases hstep
    · exact h.runnerStep hstep
  | stops i =>
    simp only [Tts.step] at hstep
    split at hstep
    · exact h.stopRunner hstep
    · cases hstep
  | calledBack i =>
    simp only [Tts.step] at hstep
    split at hstep
    · cases hstep
      exact h.finish ‹_›
    · cases hstep
  | probeStarts within =>
    simp only [Tts.step] at hstep
    split at hstep
    · cases hstep
      exact h
    · split at hstep
      · cases hstep
        exact h.withHealth s.health s.terminal s.closed _ s.probes
      · cases hstep
        rename_i gate token _
        exact (h.withHealth s.health s.terminal s.closed gate (s.probes ++ [token])).withDials _
  | probeSucceeds token =>
    simp only [Tts.step] at hstep
    split at hstep
    · cases hstep
      exact (h.withHealth s.health s.terminal s.closed s.gate _).recordSuccess
    · cases hstep
  | probeFails token kind =>
    simp only [Tts.step] at hstep
    split at hstep
    · cases hstep
      exact (h.withHealth s.health s.terminal s.closed s.gate _).connectFailed token kind
    · cases hstep
  | probeDropped token =>
    simp only [Tts.step] at hstep
    split at hstep
    · cases hstep
      exact h.withHealth s.health s.terminal s.closed s.gate _
    · cases hstep
  | aclose =>
    cases hstep
    exact h.withHealth s.health s.terminal true s.gate s.probes

theorem Owned.start : Owned {} := ⟨Permits.Balanced.start, nofun⟩

theorem owned_of_reachable (h : Reachable step {} s) : Owned s :=
  h.invariant .start fun _ _ _ hs _ hstep => hs.step hstep

-- ---------------------------------------------------------------------------
-- The terminal state
-- ---------------------------------------------------------------------------

/-- From the terminal state `s` on the health has not changed, so no hook was called, no stream or
probe got a token, and no socket was dialled. -/
structure Frozen (s s' : Provider) : Prop where
  terminal : s'.terminal = true
  health : s'.health = s.health
  streamCount : s'.streamCount = s.streamCount
  started : s'.gate.started = s.gate.started
  dialled : s'.dialled = s.dialled

theorem Frozen.refl (h : s.terminal = true) : Frozen s s := ⟨h, rfl, rfl, rfl, rfl⟩

theorem Frozen.trans {s'' : Provider} (h : Frozen s s') (h' : Frozen s' s'') : Frozen s s'' where
  terminal := h'.terminal
  health := h'.health.trans h.health
  streamCount := h'.streamCount.trans h.streamCount
  started := h'.started.trans h.started
  dialled := h'.dialled.trans h.dialled

/-- A terminal provider is degraded. -/
def Degraded (s : Provider) : Prop := s.terminal = true → s.health.state = .degraded

/-- A failure that leaves a terminal provider alone: its class is terminal too, or the gate
ignores it. -/
def harmless (s : Provider) (token : Nat) (kind : ErrorKind) : Bool :=
  !s.terminal || kind.terminal || !s.gate.applies token

/-- A step that leaves the terminal state alone, and dials no socket in it. -/
def ok (s : Provider) : Action → Bool
  | .runner _ .starts | .runner _ .reclosed => !s.terminal
  | .runner i (.connectFails kind) => harmless s (s.streams i).token kind
  | .probeFails token kind => harmless s token kind
  | _ => true

/-- A step that concerns neither the health nor the gate's tokens, and dials nothing. -/
theorem Degraded.keep (h : Degraded s) (hterminal : s'.terminal = s.terminal)
    (hhealth : s'.health = s.health) (hcount : s'.streamCount = s.streamCount)
    (hstarted : s'.gate.started = s.gate.started) (hdialled : s'.dialled = s.dialled) :
    Degraded s' ∧ (s.terminal = true → Frozen s s') := by
  refine ⟨?_, fun hterm => ⟨hterminal.trans hterm, hhealth, hcount, hstarted, hdialled⟩⟩
  intro hterm
  rw [hhealth]
  exact h (hterminal.symm.trans hterm)

/-- Two steps in one. -/
theorem Degraded.next {s'' : Provider} (h : Degraded s' ∧ (s.terminal = true → Frozen s s'))
    (h' : Degraded s' → Degraded s'' ∧ (s'.terminal = true → Frozen s' s'')) :
    Degraded s'' ∧ (s.terminal = true → Frozen s s'') := by
  obtain ⟨hdegraded, hfrozen⟩ := h
  obtain ⟨hdegraded', hfrozen'⟩ := h' hdegraded
  refine ⟨hdegraded', fun hterminal => ?_⟩
  have hfirst := hfrozen hterminal
  exact hfirst.trans (hfrozen' hfirst.terminal)

theorem Degraded.setStream (h : Degraded s) (i : StreamId) (stream : Stream) :
    Degraded (s.setStream i stream) ∧ (s.terminal = true → Frozen s (s.setStream i stream)) :=
  h.keep rfl rfl rfl rfl rfl

/-- A socket is dialled before the provider is terminal. -/
theorem Degraded.dial (h : Degraded s) (i : StreamId) (hok : (!s.terminal) = true) :
    Degraded (s.dial i) ∧ (s.terminal = true → Frozen s (s.dial i)) := by
  rw [Bool.not_eq_true'] at hok
  refine ⟨h, fun hterm => ?_⟩
  cases hok.symm.trans hterm

theorem Degraded.probed (h : Degraded s) (probes : List Nat) :
    Degraded { s with probes } ∧ (s.terminal = true → Frozen s { s with probes }) :=
  h.keep rfl rfl rfl rfl rfl

theorem Degraded.markAuthFailed (h : Degraded s) :
    Degraded s.markAuthFailed ∧ (s.terminal = true → Frozen s s.markAuthFailed) := by
  refine ⟨fun _ => s.health.setState_state .degraded, fun hterminal => ⟨rfl, ?_, rfl, rfl, rfl⟩⟩
  exact ServiceHealth.setState_self (h hterminal)

theorem recordFailure_started (g : LazyBackoffGate) (token : Nat) :
    (g.recordFailure token).started = g.started := by
  unfold LazyBackoffGate.recordFailure
  split <;> rfl

theorem Degraded.connectFailed (h : Degraded s) {token : Nat} {kind : ErrorKind}
    (hok : harmless s token kind = true) :
    Degraded (s.connectFailed token kind) ∧
      (s.terminal = true → Frozen s (s.connectFailed token kind)) := by
  unfold Provider.connectFailed Provider.recordFailure
  split
  · exact h.markAuthFailed
  · rename_i hkind
    split
    · rename_i happlies
      have hterminal : s.terminal = false := by
        simpa [harmless, hkind, happlies] using hok
      refine ⟨fun hterm => ?_, fun hterm => ?_⟩
      · cases hterminal.symm.trans hterm
      · cases hterminal.symm.trans hterm
    · exact ⟨h, .refl⟩

theorem Degraded.recordSuccess (h : Degraded s) :
    Degraded s.recordSuccess ∧ (s.terminal = true → Frozen s s.recordSuccess) := by
  unfold Provider.recordSuccess
  split
  · exact ⟨h, .refl⟩
  · rename_i hterminal
    exact ⟨fun hterm => absurd hterm hterminal, fun hterm => absurd hterm hterminal⟩

theorem Degraded.served (h : Degraded s) (i : StreamId) (outcome : ReadOutcome) :
    Degraded (s.served i outcome) ∧ (s.terminal = true → Frozen s (s.served i outcome)) := by
  cases outcome with
  | closed kind =>
    simp only [Provider.served]
    split
    · exact h.setStream i _
    · cases kind with
      | auth => exact Degraded.next h.markAuthFailed fun h' => h'.setStream i _
      | quota => exact Degraded.next h.markAuthFailed fun h' => h'.setStream i _
      | capacity => exact h.keep rfl rfl rfl (recordFailure_started _ _) rfl
      | other =>
        dsimp only
        split
        · exact h.setStream i _
        · exact h.setStream i _
  | _ => exact h.setStream i _

theorem Degraded.runnerStep (h : Degraded s) {move : Move}
    (hok : ok s (.runner i move) = true) (hstep : runnerStep s i move = some s') :
    Degraded s' ∧ (s.terminal = true → Frozen s s') := by
  simp only [Tts.runnerStep] at hstep
  split at hstep
  · cases hstep
    exact h.dial i hok
  · cases hstep
    exact Degraded.next (h.connectFailed hok) fun h' => h'.setStream i _
  · cases hstep
    exact h.setStream i _
  · split at hstep
    · cases hstep
      exact h.setStream i _
    · cases hstep
  · split at hstep
    · cases hstep
    · cases hstep
      exact Degraded.next (h.setStream i _) fun h' => h'.recordSuccess
  · cases hstep
    exact h.served i _
  · split at hstep
    · cases hstep
    · cases hstep
      exact h.setStream i _
  · cases hstep
    exact h.dial i hok
  · cases hstep
    exact h.setStream i _
  · cases hstep

/-- One step keeps the terminal state and the health it has. -/
theorem Degraded.step (h : Degraded s) {a : Action} (hok : ok s a = true)
    (hstep : step s a = some s') : Degraded s' ∧ (s.terminal = true → Frozen s s') := by
  cases a with
  | connect within raises =>
    cases hstep
    rcases connect_cases s within raises with ⟨gate, heq, hgate⟩ | ⟨hterminal, -, gate, token, heq⟩
    · rw [heq]
      refine ⟨h, fun hterm => ⟨hterm, rfl, rfl, ?_, rfl⟩⟩
      rw [hgate hterm]
    · rw [heq]
      exact ⟨h, fun hterm => by cases hterminal.symm.trans hterm⟩
  | endCalled i =>
    cases hstep
    split
    · exact ⟨h, .refl⟩
    · exact h.setStream i _
  | closeCalled i =>
    cases hstep
    split
    · exact ⟨h, .refl⟩
    · exact h.setStream i _
  | cancels i =>
    simp only [Tts.step] at hstep
    split at hstep
    · cases hstep
      exact h.setStream i _
    · cases hstep
  | runner i move =>
    simp only [Tts.step] at hstep
    split at hstep
    · cases hstep
    · exact h.runnerStep hok hstep
  | stops i =>
    simp only [Tts.step, Tts.stopRunner] at hstep
    split at hstep
    · split at hstep
      · cases hstep
      · cases hstep
      · cases hstep
        exact h.setStream i _
      · cases hstep
        exact h.setStream i _
    · cases hstep
  | calledBack i =>
    simp only [Tts.step] at hstep
    split at hstep
    · cases hstep
      exact h.keep rfl rfl rfl rfl rfl
    · cases hstep
  | probeStarts within =>
    simp only [Tts.step] at hstep
    split at hstep
    · cases hstep
      exact ⟨h, .refl⟩
    · rename_i hopen
      have hterminal : ¬ s.terminal = true := by
        intro hterm
        rw [hterm, Bool.or_true] at hopen
        exact hopen rfl
      split at hstep
      · cases hstep
        exact ⟨h, fun hterm => absurd hterm hterminal⟩
      · cases hstep
        exact ⟨h, fun hterm => absurd hterm hterminal⟩
  | probeSucceeds token =>
    simp only [Tts.step] at hstep
    split at hstep
    · cases hstep
      exact Degraded.next (h.probed _) fun h' => h'.recordSuccess
    · cases hstep
  | probeFails token kind =>
    simp only [Tts.step] at hstep
    split at hstep
    · cases hstep
      exact Degraded.next (h.probed _) fun h' => h'.connectFailed hok
    · cases hstep
  | probeDropped token =>
    simp only [Tts.step] at hstep
    split at hstep
    · cases hstep
      exact h.keep rfl rfl rfl rfl rfl
    · cases hstep
  | aclose =>
    cases hstep
    exact h.keep rfl rfl rfl rfl rfl

/-- The steps that meet `ok`. -/
abbrev Runs : Provider → Provider → Prop := ReachableBy step fun s a => ok s a = true

theorem degraded_of_runs (h : Runs {} s) : Degraded s := by
  induction h with
  | start => exact nofun
  | next _ hok hstep ih => exact (ih.step hok hstep).1

/-- Once terminal, every later state has the same health, and no stream, probe or socket more. -/
theorem frozen_of_runs (h : Runs {} s) (hterminal : s.terminal = true) (h' : Runs s s') :
    Frozen s s' := by
  induction h' with
  | start => exact .refl hterminal
  | next hrun hok hstep ih =>
    have hdegraded := degraded_of_runs (h.trans hrun)
    exact ih.trans ((hdegraded.step hok hstep).2 ih.terminal)

theorem connectFailed_undoes {token : Nat} {kind : ErrorKind}
    (hok : harmless s token kind = false) :
    s.terminal = true ∧ (s.connectFailed token kind).health.state = .reconnecting := by
  simp only [harmless, Bool.or_eq_false_iff, Bool.not_eq_false'] at hok
  obtain ⟨⟨hterminal, hkind⟩, happlies⟩ := hok
  refine ⟨hterminal, ?_⟩
  unfold Provider.connectFailed Provider.recordFailure
  rw [if_neg (ne_true_of_eq_false hkind), if_pos happlies]
  exact s.health.setState_state .reconnecting

theorem dials_of_step {move : Move} (hmove : move = .starts ∨ move = .reclosed)
    (hstep : runnerStep s i move = some s') : s' = s.dial i := by
  rcases hmove with rfl | rfl
  · cases hpc : (s.streams i).pc with
    | created =>
      simp only [Tts.runnerStep, hpc] at hstep
      exact (Option.some.inj hstep).symm
    | _ =>
      simp only [Tts.runnerStep, hpc] at hstep
      cases hstep
  · cases hpc : (s.streams i).pc with
    | reclosing =>
      simp only [Tts.runnerStep, hpc] at hstep
      exact (Option.some.inj hstep).symm
    | _ =>
      simp only [Tts.runnerStep, hpc] at hstep
      cases hstep

/-- An attempt in flight that fails later with another class undoes the degradation, and a
stream that was opened before dials a socket. -/
theorem attempt_undoes {a : Action} (hstep : step s a = some s') (hok : ok s a = false) :
    s.terminal = true ∧ (s'.health.state = .reconnecting ∨ s'.dialled = s.dialled + 1) := by
  cases a with
  | runner i move =>
    simp only [Tts.step] at hstep
    split at hstep
    · cases hstep
    · cases move with
      | starts =>
        rw [ok, Bool.not_eq_false'] at hok
        rw [dials_of_step (.inl rfl) hstep]
        exact ⟨hok, .inr rfl⟩
      | reclosed =>
        rw [ok, Bool.not_eq_false'] at hok
        rw [dials_of_step (.inr rfl) hstep]
        exact ⟨hok, .inr rfl⟩
      | connectFails kind =>
        cases hpc : (s.streams i).pc with
        | connecting =>
          simp only [Tts.runnerStep, hpc] at hstep
          cases hstep
          obtain ⟨hterminal, hhealth⟩ := connectFailed_undoes hok
          exact ⟨hterminal, .inl hhealth⟩
        | _ =>
          simp only [Tts.runnerStep, hpc] at hstep
          cases hstep
      | _ => cases hok
  | probeFails token kind =>
    simp only [Tts.step] at hstep
    split at hstep
    · cases hstep
      have hprobed : harmless { s with probes := s.probes.erase token } token kind = false := hok
      obtain ⟨hterminal, hhealth⟩ := connectFailed_undoes hprobed
      exact ⟨hterminal, .inl hhealth⟩
    · cases hstep
  | _ => cases hok

end ElevenLabs.Tts
