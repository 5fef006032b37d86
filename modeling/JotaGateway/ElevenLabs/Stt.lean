-- SUMMARY: `ElevenLabsSttProvider`, its sessions and their upstream connections: life tasks, readers, probes, health and the semaphore.
import JotaGateway.Base.Permits
import JotaGateway.Base.Transition
import JotaGateway.ElevenLabs.Common
import JotaGateway.Services.Reconnection

/-!
# ElevenLabs speech to text

The provider with any number of sessions. An upstream and its life task are one
id. A life task is at one of its suspensions, and a step takes it to the next; a
reader event, a probe's outcome and a call from outside are steps of their own.
The audio itself is in `SendBuffer`: whether any is pending is up to the step.
-/

namespace ElevenLabs

namespace Stt

abbrev SessionId := Nat
abbrev UpstreamId := Nat

def MAX_SESSIONS : Nat := 15

/-- Where a life task is suspended. With `retry` the attempt runs in
`reconnect_with_backoff`. -/
inductive Pc where
  /-- not started yet -/
  | created
  /-- in `websockets.connect` -/
  | connecting (retry : Bool)
  /-- waiting for `session_started` or the end of the reader -/
  | waiting (retry : Bool)
  /-- closing a socket that never got ready -/
  | closingUnready (retry : Bool)
  /-- in the status callback of a connection that got ready -/
  | clearingBusy (retry : Bool)
  | pumping
  /-- waiting for the reader -/
  | reading
  | closing
  /-- between two attempts -/
  | backingOff
  /-- closing the socket in the `finally` -/
  | finalizing
  /-- done, `_release_permit` is still to be called -/
  | done
  | released
  deriving DecidableEq, Repr

/-- The task is not done. -/
def Pc.live : Pc → Bool
  | .done | .released => false
  | _ => true

/-- Class of the cause of the close. -/
inductive Outcome where
  | auth
  | quota
  | capacity
  | other
  | error
  deriving DecidableEq, Repr

def Outcome.ofKind : ErrorKind → Outcome
  | .auth => .auth
  | .quota => .quota
  | .capacity => .capacity
  | .other => .other

inductive BusyCause where
  | sem
  | error
  deriving DecidableEq, Repr

structure Upstream where
  session : SessionId := 0
  permit : Bool := false
  pc : Pc := .released
  /-- `cancel()` was called on the life task and has not reached it -/
  cancelled : Bool := false
  /-- `up.ws is not None` -/
  opened : Bool := false
  ready : Bool := false
  closing : Bool := false
  outcome : Outcome := .other
  /-- the reader of the current socket is not done -/
  reader : Bool := false
  /-- how often the semaphore was released for it -/
  releases : Nat := 0
  deriving DecidableEq, Repr

structure Session where
  health : ServiceHealth := { state := .connected }
  conn : Option UpstreamId := none
  life : Option UpstreamId := none
  closed : Bool := true
  /-- in `_p._sessions` -/
  registered : Bool := false
  busy : Option BusyCause := none
  deriving DecidableEq, Repr

structure Provider where
  health : ServiceHealth := { state := .connected }
  terminal : Bool := false
  closed : Bool := false
  /-- `_sem._value` -/
  free : Nat := MAX_SESSIONS
  sessions : SessionId → Session := fun _ => {}
  sessionCount : Nat := 0
  upstreams : UpstreamId → Upstream := fun _ => {}
  upstreamCount : Nat := 0
  /-- probes in flight -/
  probes : Nat := 0
  /-- probes that went to the network -/
  probeCount : Nat := 0
  /-- the calls of `websockets.connect`, for an upstream or a probe -/
  dialled : Nat := 0

/-- `task.cancel()` on the life task, which passes it on to the reader it waits for. -/
def Upstream.cancel (up : Upstream) : Upstream :=
  if up.pc.live then { up with cancelled := true, reader := up.reader && up.pc != .reading }
  else up

namespace Provider

def setUp (s : Provider) (u : UpstreamId) (up : Upstream) : Provider :=
  { s with upstreams := Function.update s.upstreams u up }

def setPc (s : Provider) (u : UpstreamId) (pc : Pc) : Provider :=
  s.setUp u { s.upstreams u with pc }

def setSession (s : Provider) (i : SessionId) (session : Session) : Provider :=
  { s with sessions := Function.update s.sessions i session }

/-- `websockets.connect` is called for `u`. -/
def dial (s : Provider) (u : UpstreamId) (retry : Bool) : Provider :=
  { s.setPc u (.connecting retry) with dialled := s.dialled + 1 }

/-- The session of an upstream. -/
def owner (s : Provider) (u : UpstreamId) : Session := s.sessions (s.upstreams u).session

def setHealth (s : Provider) (u : UpstreamId) (state : ConnectionState) : Provider :=
  s.setSession (s.upstreams u).session
    { s.owner u with health := (s.owner u).health.setState state }

-- ---------------------------------------------------------------------------
-- Health
-- ---------------------------------------------------------------------------

/-- `_mark_terminal`, with `_on_provider_degraded` of every session. -/
def markTerminal (s : Provider) : Provider :=
  { s with
    terminal := true
    health := s.health.setState .degraded
    sessions := fun i =>
      let session := s.sessions i
      if session.registered then { session with health := session.health.setState .degraded }
      else session
    upstreams := fun u =>
      let up := s.upstreams u
      if (s.owner u).registered && (s.owner u).life = some u then up.cancel else up }

/-- `_connect_error` -/
def connectError (s : Provider) (kind : ErrorKind) : Provider :=
  if kind.terminal then s.markTerminal else s

def recordSuccess (s : Provider) : Provider :=
  if s.terminal then s else { s with health := s.health.markConnected }

/-- `_probe_failed`; a rejection in the first message of the socket marks terminal too. -/
def probeFailed (s : Provider) (kind : ErrorKind) : Provider :=
  if kind.terminal then s.markTerminal
  else { s with health := s.health.setState .reconnecting }

-- ---------------------------------------------------------------------------
-- The life of an upstream
-- ---------------------------------------------------------------------------

/-- `_set_busy` -/
def setBusy (s : Provider) (i : SessionId) (cause : BusyCause) : Provider :=
  let session := s.sessions i
  s.setSession i { session with busy := some (session.busy.getD cause) }

/-- `_ensure_upstream`, from `send_audio` or spawned by a life task at its end; `cooling`
says that the cooldown is not over. -/
def ensureUpstream (s : Provider) (i : SessionId) (cooling : Bool) : Provider :=
  let session := s.sessions i
  if session.conn.isSome || session.closed || s.terminal then s
  else if cooling then s
  else if s.free = 0 then s.setBusy i .sem
  else
    { s with
      free := s.free - 1
      upstreams := Function.update s.upstreams s.upstreamCount
        { session := i, permit := true, pc := .created }
      upstreamCount := s.upstreamCount + 1
      sessions := Function.update s.sessions i { session with
        conn := some s.upstreamCount
        life := some s.upstreamCount
        busy := if session.busy = some .sem then none else session.busy } }

/-- `_release_permit` -/
def releasePermit (s : Provider) (u : UpstreamId) : Provider :=
  let up := s.upstreams u
  if up.permit then
    { s.setUp u { up with permit := false, releases := up.releases + 1 } with free := s.free + 1 }
  else
    s

/-- The `finally` of `_life_main` once the socket is closed. -/
def exit (s : Provider) (u : UpstreamId) : Provider :=
  let session := s.owner u
  let s := s.setSession (s.upstreams u).session
    { session with conn := if session.conn = some u then none else session.conn }
  (s.setPc u .done).releasePermit u

/-- `_life_main` goes to its `finally`. -/
def leave (s : Provider) (u : UpstreamId) : Provider :=
  if (s.upstreams u).opened then s.setPc u .finalizing else s.exit u

/-- `_connect_once` raised an `Exception`. The first attempt ends the task; in
`reconnect_with_backoff` the next one follows until the window has passed. -/
def attemptFails (s : Provider) (u : UpstreamId) (retry windowOver : Bool) : Provider :=
  match retry, windowOver with
  | false, _ => s.leave u
  | true, false => s.setPc u .backingOff
  | true, true => (s.setHealth u .degraded).leave u

/-- `_connect_once` returned; `reconnect_with_backoff` marks the session connected. -/
def attemptSucceeds (s : Provider) (u : UpstreamId) (retry : Bool) : Provider :=
  (if retry then s.setHealth u .connected else s).setPc u .pumping

/-- The connection got ready: the provider and the session are well, unless terminal. -/
def gotReady (s : Provider) (u : UpstreamId) : Provider :=
  let s := s.recordSuccess
  if s.terminal then s else s.setHealth u .connected

/-- `_connect_once` after its wait for `session_started`. -/
def decides (s : Provider) (u : UpstreamId) (retry : Bool) : Provider :=
  let up := s.upstreams u
  if up.ready then
    let s := s.gotReady u
    if (s.owner u).busy = some .error then
      (s.setSession up.session { s.owner u with busy := none }).setPc u (.clearingBusy retry)
    else
      s.attemptSucceeds u retry
  else
    s.setUp u { up with pc := .closingUnready retry, reader := false }

/-- `_life_main` after the close of a socket whose reader is done; `pending` says that there
is audio to confirm or to send. -/
def afterClose (s : Provider) (u : UpstreamId) (pending : Bool) : Provider :=
  let up := s.upstreams u
  if (s.owner u).closed || s.terminal || up.closing || up.outcome != .other || !pending then
    s.leave u
  else
    (s.setHealth u .reconnecting).dial u true

end Provider

open Provider

/-- What a life task that has not been cancelled does next. -/
inductive Move where
  | starts
  | connectFails (kind : ErrorKind) (windowOver : Bool)
  | opens
  /-- `session_started`, the end of the reader, or the timeout -/
  | decides
  | closedUnready (windowOver : Bool)
  | busyCleared
  | pumped
  | readerDone
  | closed (pending : Bool)
  | wakes
  deriving DecidableEq, Repr

inductive ReaderEvent where
  | sessionStarted
  /-- a message of `_AUTH_ERRORS` or `_TERMINAL_QUOTA` -/
  | rejected (quota : Bool)
  /-- a message of `_CAPACITY_ERRORS` -/
  | refused
  /-- a message of `_OTHER_ERRORS` -/
  | failed
  /-- the reader raised -/
  | aborted
  /-- the socket was closed, with this class of code and reason -/
  | ended (kind : ErrorKind)
  deriving DecidableEq, Repr

inductive Action where
  | openSession
  | ensureUpstream (i : SessionId) (cooling : Bool)
  /-- `_idle_loop` -/
  | clearsBusy (i : SessionId)
  /-- `_drain_and_close` starts the close of an upstream -/
  | drained (u : UpstreamId)
  | closeCalled (i : SessionId)
  /-- the `finally` of `close()` -/
  | closeEnds (i : SessionId)
  /-- anyone cancels the life task, `_graceful_close` for one -/
  | cancels (u : UpstreamId)
  | life (u : UpstreamId) (move : Move)
  /-- the close of the socket in the `finally` is over -/
  | finalizes (u : UpstreamId)
  /-- the cancellation reaches the life task -/
  | stops (u : UpstreamId)
  /-- the done-callback of the life task -/
  | calledBack (u : UpstreamId)
  | reader (u : UpstreamId) (event : ReaderEvent)
  | probeStarts
  | probeSucceeds
  | probeFails (kind : ErrorKind)
  /-- a probe is cancelled -/
  | probeDropped
  | aclose
  deriving DecidableEq, Repr

def lifeStep (s : Provider) (u : UpstreamId) (move : Move) : Option Provider :=
  let up := s.upstreams u
  match move, up.pc with
  | .starts, .created => some (s.dial u false)
  | .connectFails kind windowOver, .connecting retry =>
    some ((s.connectError kind).attemptFails u retry windowOver)
  | .opens, .connecting retry =>
    some (s.setUp u { up with
      pc := .waiting retry, opened := true, ready := false, closing := false, reader := true })
  | .decides, .waiting retry => some (s.decides u retry)
  | .closedUnready windowOver, .closingUnready retry => some (s.attemptFails u retry windowOver)
  | .busyCleared, .clearingBusy retry => some (s.attemptSucceeds u retry)
  | .pumped, .pumping => some (s.setPc u .reading)
  | .readerDone, .reading =>
    if up.reader then none else some (s.setUp u { up with pc := .closing, ready := false })
  | .closed pending, .closing => some (s.afterClose u pending)
  | .wakes, .backingOff => some (s.dial u true)
  | _, _ => none

/-- The cancellation reaches the life task: before its first step and inside the `finally`
what is left of the `finally` does not run. -/
def stopLife (s : Provider) (u : UpstreamId) : Option Provider :=
  let up := s.upstreams u
  match up.pc with
  | .done | .released => none
  | .created | .finalizing => some (s.setUp u { up with pc := .done, cancelled := false })
  | _ => some ((s.setUp u { up with cancelled := false }).leave u)

/-- `_read` and `_on_message` -/
def readerStep (s : Provider) (u : UpstreamId) (event : ReaderEvent) : Provider :=
  let up := s.upstreams u
  match event with
  | .sessionStarted => s.setUp u { up with ready := true }
  | .rejected quota =>
    (s.setUp u { up with
      outcome := if quota then .quota else .auth, closing := true, reader := false }).markTerminal
  | .refused =>
    (s.setUp u { up with outcome := .capacity, closing := true, reader := false }).setBusy
      up.session .error
  | .failed => s.setUp u { up with outcome := .error, closing := true, reader := false }
  | .aborted => s.setUp u { up with outcome := .other, reader := false }
  | .ended kind =>
    if up.closing then
      s.setUp u { up with reader := false }
    else
      let s := s.setUp u { up with outcome := .ofKind kind, reader := false }
      match kind with
      | .auth | .quota => s.markTerminal
      | .capacity => s.setBusy up.session .error
      | .other => s

/-- What an action does, and `none` where it cannot happen. -/
def step (s : Provider) (a : Action) : Option Provider :=
  match a with
  | .openSession =>
    some { s with
      sessions := Function.update s.sessions s.sessionCount
        { health := { state := if s.terminal then .degraded else .connected }
          closed := false
          registered := true }
      sessionCount := s.sessionCount + 1 }
  | .ensureUpstream i cooling => some (s.ensureUpstream i cooling)
  | .clearsBusy i => some (s.setSession i { s.sessions i with busy := none })
  | .drained u => some (s.setUp u { s.upstreams u with closing := true })
  | .closeCalled i =>
    if (s.sessions i).closed then none else some (s.setSession i { s.sessions i with closed := true })
  | .closeEnds i =>
    let session := s.sessions i
    if session.closed && session.registered then
      let s := s.setSession i { session with registered := false }
      some (match session.life with
        | some u => s.setUp u (s.upstreams u).cancel
        | none => s)
    else
      none
  | .cancels u => some (s.setUp u (s.upstreams u).cancel)
  | .life u move => if (s.upstreams u).cancelled then none else lifeStep s u move
  | .finalizes u => if (s.upstreams u).pc = .finalizing then some (s.exit u) else none
  | .stops u => if (s.upstreams u).cancelled then stopLife s u else none
  | .calledBack u =>
    if (s.upstreams u).pc = .done then some ((s.setPc u .released).releasePermit u) else none
  | .reader u event => if (s.upstreams u).reader then some (readerStep s u event) else none
  | .probeStarts =>
    some (if s.closed || s.terminal then s
      else
        { s with
          probes := s.probes + 1, probeCount := s.probeCount + 1, dialled := s.dialled + 1 })
  | .probeSucceeds =>
    if s.probes = 0 then none else some { s with probes := s.probes - 1 }.recordSuccess
  | .probeFails kind =>
    if s.probes = 0 then none else some ({ s with probes := s.probes - 1 }.probeFailed kind)
  | .probeDropped => if s.probes = 0 then none else some { s with probes := s.probes - 1 }
  | .aclose => some { s with closed := true }

-- ---------------------------------------------------------------------------
-- The permits
-- ---------------------------------------------------------------------------

/-- Every permit is free or with one upstream, which is the connection of its session, and
each upstream gives its permit back once. -/
structure Owned (s : Provider) : Prop where
  balanced : Permits.Balanced MAX_SESSIONS s.free (fun u => (s.upstreams u).permit) s.upstreamCount
  conn : ∀ u, (s.upstreams u).permit = true → (s.owner u).conn = some u
  live : ∀ u, (s.upstreams u).pc.live = true → (s.upstreams u).permit = true
  released : ∀ u, (s.upstreams u).pc = .released → (s.upstreams u).permit = false
  releases : ∀ u, u < s.upstreamCount →
    (s.upstreams u).releases = if (s.upstreams u).permit then 0 else 1
  fresh : ∀ i, s.sessionCount ≤ i → (s.sessions i).conn = none ∧ (s.sessions i).closed = true

variable {s s' : Provider} {u v : UpstreamId} {i : SessionId}

/-- Nothing happens to the permits. -/
structure Kept (s s' : Provider) : Prop where
  free : s'.free = s.free
  count : s'.upstreamCount = s.upstreamCount
  session : ∀ u, (s'.upstreams u).session = (s.upstreams u).session
  permit : ∀ u, (s'.upstreams u).permit = (s.upstreams u).permit
  releases : ∀ u, (s'.upstreams u).releases = (s.upstreams u).releases
  live : ∀ u, (s'.upstreams u).pc.live = true → (s.upstreams u).pc.live = true
  released : ∀ u, (s'.upstreams u).pc = .released → (s.upstreams u).pc = .released
  conn : ∀ i, (s'.sessions i).conn = (s.sessions i).conn
  closed : ∀ i, (s.sessions i).closed = true → (s'.sessions i).closed = true
  sessionCount : s'.sessionCount = s.sessionCount

theorem Owned.kept (h : Owned s) (hkept : Kept s s') : Owned s' where
  balanced := by
    rw [hkept.free, hkept.count]
    exact h.balanced.congr hkept.permit
  conn u hpermit := by
    unfold Provider.owner
    rw [hkept.session, hkept.conn]
    exact h.conn u ((hkept.permit u).symm.trans hpermit)
  live u hlive := (hkept.permit u).trans (h.live u (hkept.live u hlive))
  released u hpc := (hkept.permit u).trans (h.released u (hkept.released u hpc))
  releases u hu := by
    rw [hkept.releases, hkept.permit]
    exact h.releases u (hkept.count ▸ hu)
  fresh i hi := by
    obtain ⟨hconn, hclosed⟩ := h.fresh i (hkept.sessionCount ▸ hi)
    exact ⟨(hkept.conn i).trans hconn, hkept.closed i hclosed⟩

theorem setUp_self (s : Provider) (u : UpstreamId) (up : Upstream) :
    (s.setUp u up).upstreams u = up := Function.update_self ..

theorem setUp_of_ne (s : Provider) (h : v ≠ u) (up : Upstream) :
    (s.setUp u up).upstreams v = s.upstreams v := Function.update_of_ne h ..

theorem setSession_self (s : Provider) (i : SessionId) (session : Session) :
    (s.setSession i session).sessions i = session := Function.update_self ..

theorem setSession_of_ne (s : Provider) {j : SessionId} (h : j ≠ i) (session : Session) :
    (s.setSession i session).sessions j = s.sessions j := Function.update_of_ne h ..

theorem Kept.setUp {up : Upstream} (hsession : up.session = (s.upstreams u).session)
    (hpermit : up.permit = (s.upstreams u).permit)
    (hreleases : up.releases = (s.upstreams u).releases)
    (hlive : up.pc.live = true → (s.upstreams u).pc.live = true)
    (hreleased : up.pc = .released → (s.upstreams u).pc = .released) : Kept s (s.setUp u up) := by
  have hcases : ∀ v, v = u ∧ (s.setUp u up).upstreams v = up ∨
      (s.setUp u up).upstreams v = s.upstreams v := by
    intro v
    by_cases heq : v = u
    · subst heq
      exact .inl ⟨rfl, setUp_self ..⟩
    · exact .inr (setUp_of_ne s heq up)
  refine {
    free := rfl
    count := rfl
    session := fun v => ?_
    permit := fun v => ?_
    releases := fun v => ?_
    live := fun v => ?_
    released := fun v => ?_
    conn := fun _ => rfl
    closed := fun _ => id
    sessionCount := rfl }
  all_goals
    rcases hcases v with ⟨rfl, heq⟩ | heq
    · rw [heq]
      assumption
    · rw [heq]
      first | done | exact id

theorem Kept.setPc {pc : Pc} (hlive : pc.live = true → (s.upstreams u).pc.live = true)
    (hreleased : pc ≠ .released) : Kept s (s.setPc u pc) :=
  .setUp rfl rfl rfl hlive fun heq => absurd heq hreleased

theorem Kept.setSession {session : Session} (hconn : session.conn = (s.sessions i).conn)
    (hclosed : (s.sessions i).closed = true → session.closed = true) :
    Kept s (s.setSession i session) := by
  refine ⟨rfl, rfl, fun _ => rfl, fun _ => rfl, fun _ => rfl, fun _ => id, fun _ => id, ?_, ?_, rfl⟩
  · intro j
    by_cases heq : j = i
    · subst heq
      rw [setSession_self]
      exact hconn
    · rw [setSession_of_ne s heq]
  · intro j
    by_cases heq : j = i
    · subst heq
      rw [setSession_self]
      exact hclosed
    · rw [setSession_of_ne s heq]
      exact id

theorem cancel_pc (up : Upstream) : up.cancel.pc = up.pc := by
  unfold Upstream.cancel
  split <;> rfl

theorem cancel_session (up : Upstream) : up.cancel.session = up.session := by
  unfold Upstream.cancel
  split <;> rfl

theorem cancel_permit (up : Upstream) : up.cancel.permit = up.permit := by
  unfold Upstream.cancel
  split <;> rfl

theorem cancel_releases (up : Upstream) : up.cancel.releases = up.releases := by
  unfold Upstream.cancel
  split <;> rfl

theorem Kept.cancel (s : Provider) (u : UpstreamId) : Kept s (s.setUp u (s.upstreams u).cancel) :=
  .setUp (cancel_session _) (cancel_permit _) (cancel_releases _)
    (fun hlive => (cancel_pc _) ▸ hlive) (fun hpc => (cancel_pc _).symm.trans hpc)

theorem markTerminal_upstreams (s : Provider) (u : UpstreamId) :
    s.markTerminal.upstreams u = s.upstreams u ∨
      s.markTerminal.upstreams u = (s.upstreams u).cancel := by
  dsimp only [Provider.markTerminal]
  split
  · exact .inr rfl
  · exact .inl rfl

theorem Kept.markTerminal (s : Provider) : Kept s s.markTerminal where
  free := rfl
  count := rfl
  session u := by
    rcases markTerminal_upstreams s u with heq | heq
    · rw [heq]
    · rw [heq, cancel_session]
  permit u := by
    rcases markTerminal_upstreams s u with heq | heq
    · rw [heq]
    · rw [heq, cancel_permit]
  releases u := by
    rcases markTerminal_upstreams s u with heq | heq
    · rw [heq]
    · rw [heq, cancel_releases]
  live u := by
    rcases markTerminal_upstreams s u with heq | heq
    · rw [heq]
      exact id
    · rw [heq, cancel_pc]
      exact id
  released u := by
    rcases markTerminal_upstreams s u with heq | heq
    · rw [heq]
      exact id
    · rw [heq, cancel_pc]
      exact id
  conn i := by
    dsimp only [Provider.markTerminal]
    split <;> rfl
  closed i := by
    dsimp only [Provider.markTerminal]
    split <;> exact id
  sessionCount := rfl

theorem Owned.setPc (h : Owned s) {pc : Pc} (hlive : (s.upstreams u).pc.live = true)
    (hreleased : pc ≠ .released) : Owned (s.setPc u pc) :=
  h.kept (.setPc (fun _ => hlive) hreleased)

/-- How often a socket was dialled is no part of it. -/
theorem Owned.withDials (h : Owned s) (dialled : Nat) : Owned { s with dialled } :=
  ⟨h.balanced, h.conn, h.live, h.released, h.releases, h.fresh⟩

theorem Owned.dial (h : Owned s) (hlive : (s.upstreams u).pc.live = true) (retry : Bool) :
    Owned (s.dial u retry) := by
  have hconnecting : Owned (s.setPc u (.connecting retry)) := h.setPc hlive Pc.noConfusion
  exact hconnecting.withDials _

theorem Owned.setHealth (h : Owned s) (u : UpstreamId) (state : ConnectionState) :
    Owned (s.setHealth u state) := h.kept (.setSession rfl id)

theorem Owned.setBusy (h : Owned s) (i : SessionId) (cause : BusyCause) :
    Owned (s.setBusy i cause) := h.kept (.setSession rfl id)

theorem Owned.markTerminal (h : Owned s) : Owned s.markTerminal := h.kept (.markTerminal s)

/-- The upstream is done with its permit. -/
theorem Owned.release (h : Owned s) {pc : Pc} (hpc : pc.live = false)
    (hsessions : ∀ i, (s'.sessions i).closed = (s.sessions i).closed ∧
      ((s'.sessions i).conn = (s.sessions i).conn ∨
        (s.sessions i).conn = some u ∧ (s'.sessions i).conn = none))
    (hsessionCount : s'.sessionCount = s.sessionCount)
    (hups : ∀ v, v ≠ u → s'.upstreams v = s.upstreams v) (hcount : s'.upstreamCount = s.upstreamCount)
    (hu : (s.upstreams u).permit = true →
      s'.upstreams u = { s.upstreams u with
        pc, permit := false, releases := (s.upstreams u).releases + 1 } ∧ s'.free = s.free + 1)
    (hu' : (s.upstreams u).permit = false →
      s'.upstreams u = { s.upstreams u with pc } ∧ s'.free = s.free) : Owned s' := by
  have hpermit : (s'.upstreams u).permit = false := by
    cases hold : (s.upstreams u).permit with
    | true => rw [(hu hold).1]
    | false =>
      rw [(hu' hold).1]
      exact hold
  have hdone : (s'.upstreams u).pc = pc := by
    cases hold : (s.upstreams u).permit with
    | true => rw [(hu hold).1]
    | false => rw [(hu' hold).1]
  refine ⟨?_, ?_, ?_, ?_, ?_, ?_⟩
  · rw [hcount]
    have hothers : ∀ v, (s'.upstreams v).permit =
        Function.update (fun u => (s.upstreams u).permit) u false v := by
      intro v
      by_cases heq : v = u
      · subst heq
        rw [Function.update_self]
        exact hpermit
      · rw [Function.update_of_ne heq, hups v heq]
    cases hold : (s.upstreams u).permit with
    | true =>
      rw [(hu hold).2]
      exact (h.balanced.release hold).congr hothers
    | false =>
      rw [(hu' hold).2]
      refine h.balanced.congr fun v => (hothers v).trans ?_
      rw [← hold, Function.update_eq_self]
  · intro v hv
    have hne : v ≠ u := by
      rintro rfl
      cases hpermit.symm.trans hv
    unfold Provider.owner
    rw [hups v hne] at hv ⊢
    have hconn := h.conn v hv
    rcases (hsessions (s.upstreams v).session).2 with hsame | ⟨hold, -⟩
    · exact hsame.trans hconn
    · exact absurd (Option.some.inj (hconn.symm.trans hold)) hne
  · intro v hv
    have hne : v ≠ u := by
      rintro rfl
      rw [hdone, hpc] at hv
      cases hv
    rw [hups v hne] at hv ⊢
    exact h.live v hv
  · intro v hv
    by_cases hne : v = u
    · rw [hne]
      exact hpermit
    · rw [hups v hne] at hv ⊢
      exact h.released v hv
  · intro v hv
    rw [hcount] at hv
    by_cases hne : v = u
    · subst hne
      rw [hpermit, if_neg Bool.false_ne_true]
      have hold := h.releases v hv
      cases hpermit' : (s.upstreams v).permit with
      | true =>
        rw [hpermit', if_pos rfl] at hold
        rw [(hu hpermit').1]
        exact congrArg (· + 1) hold
      | false =>
        rw [hpermit', if_neg Bool.false_ne_true] at hold
        rw [(hu' hpermit').1]
        exact hold
    · rw [hups v hne]
      exact h.releases v hv
  · intro i hi
    obtain ⟨hconn, hclosed⟩ := h.fresh i (hsessionCount ▸ hi)
    refine ⟨?_, (hsessions i).1.trans hclosed⟩
    rcases (hsessions i).2 with hsame | ⟨hold, -⟩
    · exact hsame.trans hconn
    · cases hconn.symm.trans hold

theorem releasePermit_of_permit (h : (s.upstreams u).permit = true) :
    s.releasePermit u = { s.setUp u { s.upstreams u with
      permit := false, releases := (s.upstreams u).releases + 1 } with free := s.free + 1 } :=
  if_pos h

theorem releasePermit_of_not_permit (h : (s.upstreams u).permit = false) : s.releasePermit u = s :=
  if_neg (ne_true_of_eq_false h)

/-- The upstream's bookkeeping reaches `pc` and its permit is free. -/
theorem Owned.releasePermit (h : Owned s) {pc : Pc} (hpc : pc.live = false)
    (hups : s'.upstreams = s.upstreams) (hfree : s'.free = s.free)
    (hcount : s'.upstreamCount = s.upstreamCount)
    (hsessions : ∀ i, (s'.sessions i).closed = (s.sessions i).closed ∧
      ((s'.sessions i).conn = (s.sessions i).conn ∨
        (s.sessions i).conn = some u ∧ (s'.sessions i).conn = none))
    (hsessionCount : s'.sessionCount = s.sessionCount) :
    Owned ((s'.setPc u pc).releasePermit u) := by
  have hself : (s'.setPc u pc).upstreams u = { s.upstreams u with pc } := by
    rw [Provider.setPc, setUp_self, hups]
  have hothers : ∀ v, v ≠ u → (s'.setPc u pc).upstreams v = s.upstreams v := by
    intro v hne
    rw [Provider.setPc, setUp_of_ne s' hne, hups]
  cases hold : (s.upstreams u).permit with
  | true =>
    rw [releasePermit_of_permit (by rw [hself]; exact hold), hself]
    refine h.release hpc hsessions hsessionCount ?_ hcount ?_ ?_
    · intro v hne
      exact (setUp_of_ne _ hne _).trans (hothers v hne)
    · intro _
      exact ⟨setUp_self .., congrArg (· + 1) hfree⟩
    · intro hnot
      cases hold.symm.trans hnot
  | false =>
    rw [releasePermit_of_not_permit (by rw [hself]; exact hold)]
    refine h.release hpc hsessions hsessionCount hothers hcount ?_ ?_
    · intro hpermit
      cases hold.symm.trans hpermit
    · intro _
      exact ⟨hself, hfree⟩

theorem Owned.exit (h : Owned s) (u : UpstreamId) : Owned (s.exit u) := by
  refine h.releasePermit rfl rfl rfl rfl ?_ rfl
  intro i
  by_cases heq : i = (s.upstreams u).session
  · subst heq
    rw [setSession_self]
    refine ⟨rfl, ?_⟩
    dsimp only
    split
    · exact .inr ⟨‹_›, rfl⟩
    · exact .inl rfl
  · rw [setSession_of_ne s heq]
    exact ⟨rfl, .inl rfl⟩

theorem Owned.leave (h : Owned s) (hlive : (s.upstreams u).pc.live = true) : Owned (s.leave u) := by
  unfold Provider.leave
  split
  · exact h.setPc hlive nofun
  · exact h.exit u

theorem Owned.attemptFails (h : Owned s) (hlive : (s.upstreams u).pc.live = true)
    (retry windowOver : Bool) : Owned (s.attemptFails u retry windowOver) := by
  cases retry with
  | false => exact h.leave hlive
  | true =>
    cases windowOver with
    | false => exact h.setPc hlive nofun
    | true => exact (h.setHealth u .degraded).leave hlive

theorem Owned.attemptSucceeds (h : Owned s) (hlive : (s.upstreams u).pc.live = true)
    (retry : Bool) : Owned (s.attemptSucceeds u retry) := by
  cases retry with
  | false => exact h.setPc hlive nofun
  | true => exact (h.setHealth u .connected).setPc hlive nofun

theorem recordSuccess_eq (s : Provider) : ∃ health, s.recordSuccess = { s with health } := by
  unfold Provider.recordSuccess
  split
  · exact ⟨s.health, rfl⟩
  · exact ⟨_, rfl⟩

/-- The health of the provider and its probes are no part of it. -/
theorem Owned.withHealth (h : Owned s) (health : ServiceHealth) (closed : Bool)
    (probes probeCount : Nat) : Owned { s with health, closed, probes, probeCount } :=
  ⟨h.balanced, h.conn, h.live, h.released, h.releases, h.fresh⟩

theorem gotReady_upstreams (s : Provider) (u : UpstreamId) :
    (s.gotReady u).upstreams = s.upstreams := by
  obtain ⟨health, heq⟩ := recordSuccess_eq s
  dsimp only [Provider.gotReady]
  rw [heq]
  split <;> rfl

theorem Owned.gotReady (h : Owned s) (u : UpstreamId) : Owned (s.gotReady u) := by
  obtain ⟨health, heq⟩ := recordSuccess_eq s
  have hrecorded : Owned { s with health } := h.withHealth health s.closed s.probes s.probeCount
  dsimp only [Provider.gotReady]
  rw [heq]
  split
  · exact hrecorded
  · exact hrecorded.setHealth u .connected

theorem Owned.decides (h : Owned s) (hlive : (s.upstreams u).pc.live = true) (retry : Bool) :
    Owned (s.decides u retry) := by
  have hups := gotReady_upstreams s u
  have hready := h.gotReady u
  simp only [Provider.decides]
  split
  · split
    · refine Owned.setPc (hready.kept (.setSession ?_ ?_)) ?_ nofun
      · rw [Provider.owner, hups]
      · rw [Provider.owner, hups]
        exact id
      · rw [Provider.setSession, hups]
        exact hlive
    · exact hready.attemptSucceeds (hups ▸ hlive) retry
  · exact h.kept (.setUp rfl rfl rfl (fun _ => hlive) nofun)

theorem Owned.afterClose (h : Owned s) (hlive : (s.upstreams u).pc.live = true) (pending : Bool) :
    Owned (s.afterClose u pending) := by
  dsimp only [Provider.afterClose]
  split
  · exact h.leave hlive
  · exact (h.setHealth u .reconnecting).dial hlive true

theorem Owned.lifeStep (h : Owned s) {move : Move} (hstep : lifeStep s u move = some s') :
    Owned s' := by
  have hpc : ∀ {pc}, (s.upstreams u).pc = pc → pc.live = true → (s.upstreams u).pc.live = true := by
    rintro pc rfl hlive
    exact hlive
  simp only [Stt.lifeStep] at hstep
  split at hstep
  · cases hstep
    exact h.dial (hpc ‹_› rfl) false
  · rename_i hup
    cases hstep
    unfold Provider.connectError
    split
    · refine h.markTerminal.attemptFails ?_ _ _
      rcases markTerminal_upstreams s u with heq | heq
      · rw [heq]
        exact hpc hup rfl
      · rw [heq, cancel_pc]
        exact hpc hup rfl
    · exact h.attemptFails (hpc hup rfl) _ _
  · cases hstep
    exact h.kept (.setUp rfl rfl rfl (fun _ => hpc ‹_› rfl) nofun)
  · cases hstep
    exact h.decides (hpc ‹_› rfl) _
  · cases hstep
    exact h.attemptFails (hpc ‹_› rfl) _ _
  · cases hstep
    exact h.attemptSucceeds (hpc ‹_› rfl) _
  · cases hstep
    exact h.setPc (hpc ‹_› rfl) nofun
  · split at hstep
    · cases hstep
    · cases hstep
      exact h.kept (.setUp rfl rfl rfl (fun _ => hpc ‹_› rfl) nofun)
  · cases hstep
    exact h.afterClose (hpc ‹_› rfl) _
  · cases hstep
    exact h.dial (hpc ‹_› rfl) true
  · cases hstep

theorem Owned.stopLife (h : Owned s) (hstep : stopLife s u = some s') : Owned s' := by
  simp only [Stt.stopLife] at hstep
  split at hstep
  · cases hstep
  · cases hstep
  · cases hstep
    exact h.kept (.setUp rfl rfl rfl nofun nofun)
  · cases hstep
    exact h.kept (.setUp rfl rfl rfl nofun nofun)
  · rename_i hdone hreleased _ _
    cases hstep
    have hlive : (s.upstreams u).pc.live = true := by
      cases hpc : (s.upstreams u).pc with
      | done => exact absurd hpc hdone
      | released => exact absurd hpc hreleased
      | _ => rfl
    refine Owned.leave (h.kept (.setUp rfl rfl rfl id id)) ?_
    rw [setUp_self]
    exact hlive

theorem Owned.readerStep (h : Owned s) (event : ReaderEvent) : Owned (readerStep s u event) := by
  cases event with
  | sessionStarted => exact h.kept (.setUp rfl rfl rfl id id)
  | rejected quota => exact Owned.markTerminal (h.kept (.setUp rfl rfl rfl id id))
  | refused =>
    refine Owned.setBusy (h.kept ?_) _ _
    exact .setUp rfl rfl rfl id id
  | failed => exact h.kept (.setUp rfl rfl rfl id id)
  | aborted => exact h.kept (.setUp rfl rfl rfl id id)
  | ended kind =>
    simp only [Stt.readerStep]
    split
    · exact h.kept (.setUp rfl rfl rfl id id)
    · cases kind with
      | auth => exact Owned.markTerminal (h.kept (.setUp rfl rfl rfl id id))
      | quota => exact Owned.markTerminal (h.kept (.setUp rfl rfl rfl id id))
      | capacity =>
        refine Owned.setBusy (h.kept ?_) _ _
        exact .setUp rfl rfl rfl id id
      | other => exact h.kept (.setUp rfl rfl rfl id id)

/-- `_ensure_upstream` has nothing to do, or there is no upstream and a permit is free. -/
theorem ensureUpstream_cases (s : Provider) (i : SessionId) (cooling : Bool) :
    s.ensureUpstream i cooling = s ∨ s.terminal = false ∧ s.ensureUpstream i cooling = s.setBusy i .sem ∨
      (s.sessions i).conn = none ∧ (s.sessions i).closed = false ∧ s.terminal = false ∧
        s.free = s.free - 1 + 1 ∧ ∃ busy, s.ensureUpstream i cooling = { s with
          free := s.free - 1
          upstreams := Function.update s.upstreams s.upstreamCount
            { session := i, permit := true, pc := .created }
          upstreamCount := s.upstreamCount + 1
          sessions := Function.update s.sessions i { s.sessions i with
            conn := some s.upstreamCount, life := some s.upstreamCount, busy } } := by
  simp only [Provider.ensureUpstream]
  split
  · exact .inl rfl
  · rename_i hidle
    simp only [Bool.or_eq_true, not_or, Bool.not_eq_true, Option.isSome_eq_false_iff,
      Option.isNone_iff_eq_none] at hidle
    obtain ⟨⟨hconn, hclosed⟩, hterminal⟩ := hidle
    split
    · exact .inl rfl
    · split
      · exact .inr (.inl ⟨hterminal, rfl⟩)
      · exact .inr (.inr ⟨hconn, hclosed, hterminal, by omega, _, rfl⟩)

theorem Owned.ensureUpstream (h : Owned s) (i : SessionId) (cooling : Bool) :
    Owned (s.ensureUpstream i cooling) := by
  rcases ensureUpstream_cases s i cooling with
    heq | ⟨-, heq⟩ | ⟨hconn, hclosed, -, hfree, busy, heq⟩
  · rw [heq]
    exact h
  · rw [heq]
    exact h.setBusy i .sem
  · rw [heq]
    have hcases : ∀ v, v = s.upstreamCount ∨ v ≠ s.upstreamCount ∧
        Function.update s.upstreams s.upstreamCount
          { session := i, permit := true, pc := .created } v = s.upstreams v := by
      intro v
      by_cases hne : v = s.upstreamCount
      · exact .inl hne
      · exact .inr ⟨hne, Function.update_of_ne hne ..⟩
    refine ⟨?_, ?_, ?_, ?_, ?_, ?_⟩
    · refine (Permits.Balanced.acquire (hfree ▸ h.balanced)).congr ?_
      intro v
      rcases hcases v with rfl | ⟨hne, hsame⟩
      · simp only [Function.update_self]
      · simp only [hsame, Function.update_of_ne hne]
    · intro v hpermit
      rcases hcases v with rfl | ⟨hne, hsame⟩
      · simp only [Provider.owner, Function.update_self]
      · simp only [Provider.owner, hsame] at hpermit ⊢
        have hold := h.conn v hpermit
        -- the session of `v` has a connection and `i` has none
        have hother : (s.upstreams v).session ≠ i := by
          rintro rfl
          cases hconn.symm.trans hold
        rw [Function.update_of_ne hother]
        exact hold
    · intro v hlive
      rcases hcases v with rfl | ⟨hne, hsame⟩
      · simp only [Function.update_self]
      · simp only [hsame] at hlive ⊢
        exact h.live v hlive
    · intro v hreleased
      rcases hcases v with rfl | ⟨hne, hsame⟩
      · simp only [Function.update_self] at hreleased
        cases hreleased
      · simp only [hsame] at hreleased ⊢
        exact h.released v hreleased
    · intro v hv
      rcases hcases v with rfl | ⟨hne, hsame⟩
      · simp only [Function.update_self, if_true]
      · simp only [hsame]
        exact h.releases v (Nat.lt_of_le_of_ne (Nat.le_of_lt_succ hv) hne)
    · intro j hj
      obtain ⟨hnone, hshut⟩ := h.fresh j hj
      have hne : j ≠ i := by
        rintro rfl
        cases hclosed.symm.trans hshut
      simp only [Function.update_of_ne hne]
      exact ⟨hnone, hshut⟩

theorem Owned.openSession (h : Owned s) (session : Session) :
    Owned { s with
      sessions := Function.update s.sessions s.sessionCount session
      sessionCount := s.sessionCount + 1 } := by
  refine ⟨h.balanced, ?_, h.live, h.released, h.releases, ?_⟩
  · intro u hpermit
    have hold := h.conn u hpermit
    have hne : (s.upstreams u).session ≠ s.sessionCount := by
      intro heq
      rw [Provider.owner, heq, (h.fresh _ (Nat.le_refl _)).1] at hold
      cases hold
    simp only [Provider.owner, Function.update_of_ne hne]
    exact hold
  · intro i hi
    have hlt : s.sessionCount < i := hi
    simp only [Function.update_of_ne (Nat.ne_of_gt hlt)]
    exact h.fresh i (Nat.le_of_lt hlt)

/-- One step keeps the balance of the permits. -/
theorem Owned.step (h : Owned s) {a : Action} (hstep : step s a = some s') : Owned s' := by
  cases a with
  | openSession =>
    cases hstep
    exact h.openSession _
  | ensureUpstream i cooling =>
    cases hstep
    exact h.ensureUpstream i cooling
  | clearsBusy i =>
    cases hstep
    exact h.kept (.setSession rfl id)
  | drained u =>
    cases hstep
    exact h.kept (.setUp rfl rfl rfl id id)
  | closeCalled i =>
    simp only [Stt.step] at hstep
    split at hstep
    · cases hstep
    · cases hstep
      exact h.kept (.setSession rfl fun _ => rfl)
  | closeEnds i =>
    simp only [Stt.step] at hstep
    split at hstep
    · have hleft : Owned (s.setSession i { s.sessions i with registered := false }) :=
        h.kept (.setSession rfl id)
      cases hstep
      split
      · exact hleft.kept (.cancel _ _)
      · exact hleft
    · cases hstep
  | cancels u =>
    cases hstep
    exact h.kept (.cancel s u)
  | life u move =>
    simp only [Stt.step] at hstep
    split at hstep
    · cases hstep
    · exact h.lifeStep hstep
  | finalizes u =>
    simp only [Stt.step] at hstep
    split at hstep
    · cases hstep
      exact h.exit u
    · cases hstep
  | stops u =>
    simp only [Stt.step] at hstep
    split at hstep
    · exact h.stopLife hstep
    · cases hstep
  | calledBack u =>
    simp only [Stt.step] at hstep
    split at hstep
    · cases hstep
      exact h.releasePermit rfl rfl rfl rfl (fun _ => ⟨rfl, .inl rfl⟩) rfl
    · cases hstep
  | reader u event =>
    simp only [Stt.step] at hstep
    split at hstep
    · cases hstep
      exact h.readerStep event
    · cases hstep
  | probeStarts =>
    cases hstep
    split
    · exact h
    · exact (h.withHealth s.health s.closed (s.probes + 1) (s.probeCount + 1)).withDials _
  | probeSucceeds =>
    simp only [Stt.step] at hstep
    split at hstep
    · cases hstep
    · cases hstep
      obtain ⟨health, heq⟩ := recordSuccess_eq { s with probes := s.probes - 1 }
      rw [heq]
      exact h.withHealth health s.closed (s.probes - 1) s.probeCount
  | probeFails kind =>
    simp only [Stt.step] at hstep
    split at hstep
    · cases hstep
    · cases hstep
      unfold Provider.probeFailed
      have hprobed := h.withHealth s.health s.closed (s.probes - 1) s.probeCount
      split
      · exact hprobed.markTerminal
      · exact h.withHealth _ s.closed (s.probes - 1) s.probeCount
  | probeDropped =>
    simp only [Stt.step] at hstep
    split at hstep
    · cases hstep
    · cases hstep
      exact h.withHealth s.health s.closed (s.probes - 1) s.probeCount
  | aclose =>
    cases hstep
    exact h.withHealth s.health true s.probes s.probeCount

theorem Owned.start : Owned {} where
  balanced := Permits.Balanced.start
  conn := nofun
  live := nofun
  released := fun _ _ => rfl
  releases := nofun
  fresh := fun _ _ => ⟨rfl, rfl⟩

theorem owned_of_reachable (h : Transition.Reachable step {} s) : Owned s :=
  h.invariant .start fun _ _ _ hs _ hstep => hs.step hstep

/-- A session has one upstream at a time. -/
theorem Owned.one_upstream (h : Owned s) (hu : (s.upstreams u).permit = true)
    (hv : (s.upstreams v).permit = true)
    (hsession : (s.upstreams u).session = (s.upstreams v).session) : u = v := by
  have hfirst := h.conn u hu
  have hsecond := h.conn v hv
  rw [Provider.owner, hsession] at hfirst
  exact Option.some.inj (hfirst.symm.trans hsecond)

end Stt

end ElevenLabs
