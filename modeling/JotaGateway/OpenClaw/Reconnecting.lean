-- SUMMARY: `ReconnectingOpenClawClient` over `OpenClawClient`: listener, reconnect and slow-retry tasks, the connect lock, the admin trigger and `close()`.
import JotaGateway.Base.Transition
import JotaGateway.Services.Reconnection
import Mathlib.Logic.Function.Basic

/-!
# Reconnecting to OpenClaw

One wrapper, its background tasks and the inner client they share. An action
takes a task from one suspension to the next, or is a call from outside. A job
id is the id of the task it was made for. The keepalive task is created and
cancelled together with the listener and left out.
-/

namespace Reconnecting

open Transition

abbrev TaskId := Nat
abbrev ListenerId := Nat
abbrev SocketId := Nat

inductive Kind where
  | reconnect
  | slow
  deriving DecidableEq, Repr

/-- Where a background task is suspended. -/
inductive Pc where
  /-- between two attempts -/
  | sleeping
  /-- not started yet, or waiting for `_connect_lock` -/
  | acquiring
  /-- in `_cancel_and_close`, waiting for the keepalive task -/
  | stopsKeepalive
  /-- in `_cancel_and_close`, waiting for the listener -/
  | stopsListener
  /-- in `_cancel_and_close`, closing the socket -/
  | closesSocket
  /-- in `_do_connect`, and whether its socket is open -/
  | handshaking (opened : Bool)
  /-- in the `finally` of `_do_connect` after a failure, or after a cancellation -/
  | cleaningUp (byCancel : Bool)
  deriving DecidableEq, Repr

/-- The task has `_connect_lock`. -/
def Pc.holdsLock : Pc → Bool
  | .sleeping | .acquiring => false
  | _ => true

/-- The task is in `_do_connect`. -/
def Pc.connects : Pc → Bool
  | .handshaking _ | .cleaningUp _ => true
  | _ => false

/-- A background task that is not done. -/
structure Task where
  kind : Kind
  pc : Pc
  /-- `cancel()` was called on it -/
  cancelled : Bool := false
  deriving DecidableEq, Repr

/-- A listener task that is not done, and the socket it reads. -/
structure Listener where
  socket : SocketId
  cancelled : Bool := false
  deriving DecidableEq, Repr

inductive Deed where
  | started (kind : Kind)
  | startedListener
  | closeCalled
  deriving DecidableEq, Repr

structure Wrapper where
  health : ServiceHealth := { state := .degraded }
  exhausted : Bool := false
  closed : Bool := false
  reconnectTask : Option TaskId := none
  reconnectJobId : Option TaskId := none
  slowRetryTask : Option TaskId := none
  lock : Option TaskId := none
  ws : Option SocketId := none
  listenerTask : Option ListenerId := none
  tasks : TaskId → Option Task := fun _ => none
  taskCount : Nat := 0
  listeners : ListenerId → Option Listener := fun _ => none
  listenerCount : Nat := 0
  socketCount : Nat := 0
  log : List Deed := []

namespace Wrapper

/-- `task is None or task.done()`, negated. -/
def live (s : Wrapper) (task : Option TaskId) : Bool :=
  match task with
  | some t => (s.tasks t).isSome
  | none => false

def setTask (s : Wrapper) (t : TaskId) (task : Option Task) : Wrapper :=
  { s with tasks := Function.update s.tasks t task }

/-- `asyncio.create_task`. -/
def createTask (s : Wrapper) (kind : Kind) (pc : Pc) : Wrapper :=
  { s with
    tasks := Function.update s.tasks s.taskCount (some { kind, pc })
    taskCount := s.taskCount + 1
    log := s.log ++ [.started kind] }

/-- `task.cancel()`. -/
def cancelTask (s : Wrapper) (task : Option TaskId) : Wrapper :=
  match task with
  | some t => s.setTask t ((s.tasks t).map fun task => { task with cancelled := true })
  | none => s

def cancelListener (s : Wrapper) : Wrapper :=
  match s.listenerTask with
  | some l =>
    { s with
      listeners := Function.update s.listeners l
        ((s.listeners l).map fun listener => { listener with cancelled := true }) }
  | none => s

-- ---------------------------------------------------------------------------
-- The methods
-- ---------------------------------------------------------------------------

/-- `_ensure_reconnecting`; it returns `_reconnect_job_id`. -/
def ensureReconnecting (s : Wrapper) : Wrapper :=
  if s.exhausted || s.closed then
    s
  else if s.live s.reconnectTask then
    s
  else
    { s.createTask .reconnect .acquiring with
      health := s.health.setState .reconnecting
      reconnectTask := some s.taskCount
      reconnectJobId := some s.taskCount }

/-- `_cancel_slow_retry`. -/
def cancelSlowRetry (s : Wrapper) : Wrapper :=
  { s.cancelTask s.slowRetryTask with slowRetryTask := none }

/-- `trigger_reconnect` -/
def triggerReconnect (s : Wrapper) : Wrapper × Option TaskId :=
  let s := (cancelSlowRetry { s with exhausted := false }).ensureReconnecting
  (s, s.reconnectJobId)

/-- `ping` and `stream_response`, as far as they touch the wrapper. -/
def probe (s : Wrapper) : Wrapper :=
  if s.health.state = .degraded then s.ensureReconnecting else s

/-- `_start_slow_retry` -/
def startSlowRetry (s : Wrapper) : Wrapper :=
  if s.closed then
    s
  else if s.live s.slowRetryTask then
    s
  else
    { s.createTask .slow .sleeping with slowRetryTask := some s.taskCount }

/-- `_reconnect_loop` once the window has passed: it marks DEGRADED, hands over to the slow
retry and is done. -/
def exhaust (s : Wrapper) (t : TaskId) : Wrapper :=
  startSlowRetry { s.setTask t none with
    health := s.health.setState .degraded, exhausted := true }

/-- An attempt of `t` raised an `Exception`. -/
def attemptFails (s : Wrapper) (t : TaskId) (kind : Kind) (windowOver : Bool) : Wrapper :=
  match kind, windowOver with
  | .reconnect, true => s.exhaust t
  | .reconnect, false => s.setTask t (some { kind, pc := .sleeping })
  | .slow, _ =>
    -- `while self._reconnect_exhausted`
    if s.exhausted then s.setTask t (some { kind, pc := .sleeping }) else s.setTask t none

/-- `_do_connect` succeeds, and with it the attempt of `t`: from the new listener to the
end of the task there is no suspension. -/
def connected (s : Wrapper) (t : TaskId) (kind : Kind) (socket : SocketId) : Wrapper :=
  { s.setTask t none with
    lock := none
    listeners := Function.update s.listeners s.listenerCount (some { socket })
    listenerTask := some s.listenerCount
    listenerCount := s.listenerCount + 1
    health := s.health.markConnected
    exhausted := s.exhausted && kind = .reconnect
    log := s.log ++ [.startedListener] }

end Wrapper

open Wrapper

/-- The first `connect()`, which `main` awaits before anything else happens. -/
def connect (succeeds : Bool) : Wrapper :=
  if succeeds then
    { health := ({ state := .degraded } : ServiceHealth).markConnected
      ws := some 0
      socketCount := 1
      listenerTask := some 0
      listeners := Function.update (fun _ => none) 0 (some { socket := 0 })
      listenerCount := 1
      log := [.startedListener] }
  else
    ensureReconnecting {}

inductive Action where
  /-- the connection of listener `l` ends, or its loop fails: `on_disconnect` -/
  | drops (l : ListenerId)
  /-- the cancellation reaches listener `l` -/
  | listenerStops (l : ListenerId)
  | probe
  | triggerReconnect
  /-- the sleep of `t` is over -/
  | wakes (t : TaskId)
  | acquires (t : TaskId)
  /-- the wait of `t` inside `_cancel_and_close` is over -/
  | tearsDown (t : TaskId)
  /-- `websockets.connect` returns -/
  | opens (t : TaskId)
  /-- the handshake of `t` completes -/
  | connects (t : TaskId)
  /-- the handshake of `t` raises, and whether the window is then over -/
  | fails (t : TaskId) (windowOver : Bool)
  /-- the failed socket is closed -/
  | cleans (t : TaskId) (windowOver : Bool)
  /-- the cancellation reaches `t` -/
  | stops (t : TaskId)
  | close
  /-- `close()` goes on to cancel the reconnect task -/
  | closeCancels
  /-- `close()` tears down the inner client, without the lock -/
  | closeTearsDown

/-- What task `t` does next, unless it has been cancelled. -/
def stepTask (s : Wrapper) (t : TaskId) (task : Task) : Action → Option Wrapper
  | .wakes _ =>
    match task.pc, task.kind with
    | .sleeping, .reconnect => some (s.setTask t (some { task with pc := .acquiring }))
    | .sleeping, .slow =>
      -- a direct `connect()` may have recovered the service
      some (s.setTask t (if s.exhausted then some { task with pc := .acquiring } else none))
    | _, _ => none
  | .acquires _ =>
    match task.pc, s.lock with
    | .acquiring, none =>
      some { s.setTask t (some { task with pc := .stopsKeepalive }) with lock := some t }
    | _, _ => none
  | .opens _ =>
    match task.pc with
    | .handshaking false =>
      some { s.setTask t (some { task with pc := .handshaking true }) with
        ws := some s.socketCount, socketCount := s.socketCount + 1 }
    | _ => none
  | .connects _ =>
    match task.pc, s.ws with
    | .handshaking true, some socket => some (s.connected t task.kind socket)
    | _, _ => none
  | .fails _ windowOver =>
    match task.pc with
    | .handshaking false =>
      some (attemptFails { s with lock := none } t task.kind windowOver)
    | .handshaking true => some (s.setTask t (some { task with pc := .cleaningUp false }))
    | _ => none
  | .cleans _ windowOver =>
    match task.pc with
    | .cleaningUp false =>
      some (attemptFails { s with lock := none, ws := none } t task.kind windowOver)
    | _ => none
  | _ => none

/-- `_cancel_and_close` finishes its steps also when `t` has been cancelled, and only then
lets the cancellation through. -/
def tearDown (s : Wrapper) (t : TaskId) (task : Task) : Option Wrapper :=
  match task.pc with
  | .stopsKeepalive =>
    some (cancelListener (s.setTask t (some { task with pc := .stopsListener })))
  | .stopsListener =>
    some { s.setTask t (some { task with pc := .closesSocket }) with listenerTask := none }
  | .closesSocket =>
    if task.cancelled then
      some { s.setTask t none with ws := none, lock := none }
    else
      some { s.setTask t (some { task with pc := .handshaking false }) with ws := none }
  | _ => none

/-- The cancellation reaches `t`. -/
def stopTask (s : Wrapper) (t : TaskId) (task : Task) : Option Wrapper :=
  match task.pc with
  | .sleeping | .acquiring => some (s.setTask t none)
  | .handshaking false => some { s.setTask t none with lock := none }
  | .handshaking true => some (s.setTask t (some { task with pc := .cleaningUp true }))
  -- a cancellation cuts the close of the failed socket short
  | .cleaningUp _ => some { s.setTask t none with lock := none }
  | _ => none

/-- What an action does, and `none` where it cannot happen. -/
def step (s : Wrapper) (a : Action) : Option Wrapper :=
  match a with
  | .drops l =>
    match s.listeners l with
    | some { socket := _, cancelled := false } =>
      some (ensureReconnecting { s with listeners := Function.update s.listeners l none })
    | _ => none
  | .listenerStops l =>
    match s.listeners l with
    | some { socket := _, cancelled := true } =>
      some { s with listeners := Function.update s.listeners l none }
    | _ => none
  | .probe => some s.probe
  | .triggerReconnect => some s.triggerReconnect.1
  | .close =>
    -- `close()` cancels the slow retry; it goes on at once where that is done
    let waits := s.live s.slowRetryTask
    let s := cancelSlowRetry { s with closed := true, log := s.log ++ [.closeCalled] }
    some (if waits then s else s.cancelTask s.reconnectTask)
  | .closeCancels => if s.closed then some (s.cancelTask s.reconnectTask) else none
  | .closeTearsDown =>
    if s.closed then some { s.cancelListener with listenerTask := none, ws := none } else none
  | .tearsDown t => (s.tasks t).bind (tearDown s t)
  | .stops t =>
    (s.tasks t).bind fun task => if task.cancelled then stopTask s t task else none
  | .cleans t windowOver =>
    (s.tasks t).bind fun task =>
      if task.cancelled then
        match task.pc with
        | .cleaningUp true => some { s.setTask t none with ws := none, lock := none }
        | _ => none
      else
        stepTask s t task (.cleans t windowOver)
  | .wakes t | .acquires t | .opens t | .connects t | .fails t _ =>
    (s.tasks t).bind fun task => if task.cancelled then none else stepTask s t task a

-- ---------------------------------------------------------------------------
-- The invariant
-- ---------------------------------------------------------------------------

/-- What the tasks, the references to them and the flags say about each other. -/
structure Tracked (s : Wrapper) : Prop where
  held : ∀ t task, s.tasks t = some task → (task.pc.holdsLock = true ↔ s.lock = some t)
  reconnect : ∀ t task, s.tasks t = some task → task.kind = .reconnect →
    s.reconnectTask = some t ∧ s.reconnectJobId = some t ∧ s.exhausted = false
  reconnectKind : ∀ t task, s.reconnectTask = some t → s.tasks t = some task →
    task.kind = .reconnect
  slow : ∀ t task, s.tasks t = some task → task.kind = .slow → task.cancelled = false →
    s.slowRetryTask = some t ∧ s.exhausted = true
  slowRetry : ∀ t task, s.slowRetryTask = some t → s.tasks t = some task →
    task.kind = .slow ∧ task.cancelled = false
  closed : s.closed = true → ∀ t task, s.tasks t = some task → task.cancelled = true
  opened : s.closed = false → ∀ t task, s.tasks t = some task → task.kind = .reconnect →
    task.cancelled = false
  fresh : ∀ t, s.taskCount ≤ t → s.tasks t = none
  freshReconnect : ∀ t, s.reconnectTask = some t → t < s.taskCount
  freshSlow : ∀ t, s.slowRetryTask = some t → t < s.taskCount
  freshLock : ∀ t, s.lock = some t → t < s.taskCount
  logged : .closeCalled ∈ s.log → s.closed = true
  quiet : s.log.Pairwise fun d e => d = .closeCalled → e = .closeCalled

/-- A reconnect task is live. -/
def Retrying (s : Wrapper) : Prop :=
  s.health.state = .reconnecting ∧ ∃ t task, s.tasks t = some task ∧ task.kind = .reconnect

/-- The listener of the current connection is live, and nobody holds the lock. -/
def Connected (s : Wrapper) : Prop :=
  s.health.state = .connected ∧ s.lock = none ∧ s.exhausted = false ∧
    (∀ t task, s.tasks t = some task → task.kind ≠ .reconnect) ∧
      ∃ l socket, s.listenerTask = some l ∧ s.ws = some socket ∧
        s.listeners l = some { socket }

/-- The slow retry is live. -/
def Degraded (s : Wrapper) : Prop :=
  s.health.state = .degraded ∧ s.exhausted = true ∧
    ∃ t task, s.tasks t = some task ∧ task.kind = .slow ∧ task.cancelled = false

def Alive (s : Wrapper) : Prop := Connected s ∨ Retrying s ∨ Degraded s

structure Inv (s : Wrapper) : Prop where
  tracked : Tracked s
  alive : s.closed = false → Alive s

variable {s s' : Wrapper}

theorem setTask_self (s : Wrapper) (t : TaskId) (task : Option Task) :
    (s.setTask t task).tasks t = task := Function.update_self ..

theorem setTask_of_ne (s : Wrapper) {t t' : TaskId} (h : t' ≠ t) (task : Option Task) :
    (s.setTask t task).tasks t' = s.tasks t' := Function.update_of_ne h ..

/-- In CONNECTED no task can be at work: the reconnect task is done and a slow retry still
about has been cancelled outside the lock. -/
theorem Inv.not_connected (h : Inv s) {t : TaskId} {task : Task} (ht : s.tasks t = some task)
    (hbusy : task.cancelled = false ∨ task.pc.holdsLock = true) : ¬ Connected s := by
  rintro ⟨-, hlock, hexhausted, hnone, -⟩
  rcases hbusy with hcancelled | hholds
  · cases hkind : task.kind with
    | reconnect => exact hnone t task ht hkind
    | slow =>
      have hslow := (h.tracked.slow t task ht hkind hcancelled).2
      rw [hexhausted] at hslow
      cases hslow
  · have hheld := (h.tracked.held t task ht).1 hholds
    rw [hlock] at hheld
    cases hheld

theorem Tracked.lt_taskCount (h : Tracked s) {t : TaskId} {task : Task}
    (ht : s.tasks t = some task) : t < s.taskCount := by
  by_contra hge
  have hnone := h.fresh t (Nat.le_of_not_lt hge)
  rw [ht] at hnone
  cases hnone

/-- Everything a task leaves alone while it works. -/
structure SameRefs (s u : Wrapper) : Prop where
  health : u.health = s.health
  exhausted : u.exhausted = s.exhausted
  closed : u.closed = s.closed
  reconnectTask : u.reconnectTask = s.reconnectTask
  reconnectJobId : u.reconnectJobId = s.reconnectJobId
  slowRetryTask : u.slowRetryTask = s.slowRetryTask
  taskCount : u.taskCount = s.taskCount
  log : u.log = s.log

/-- Task `t` goes on to `x`, or is done, and takes or gives back the lock. -/
theorem Tracked.own (h : Tracked s) {u : Wrapper} {t : TaskId} {task : Task} {x : Option Task}
    (ht : s.tasks t = some task) (hrefs : SameRefs s u)
    (htasks : u.tasks = Function.update s.tasks t x)
    (hx : ∀ task', x = some task' → task'.kind = task.kind ∧ task'.cancelled = task.cancelled ∧
      (task'.pc.holdsLock = true ↔ u.lock = some t))
    (hothers : ∀ t', t' ≠ t → (s.lock = some t' ↔ u.lock = some t')) : Tracked u := by
  -- whatever is live in `u` was live in `s`, of the same kind and as much cancelled
  have hback : ∀ t' task', u.tasks t' = some task' → ∃ old, s.tasks t' = some old ∧
      task'.kind = old.kind ∧ task'.cancelled = old.cancelled := by
    intro t' task' ht'
    rw [htasks] at ht'
    by_cases heq : t' = t
    · subst heq
      rw [Function.update_self] at ht'
      obtain ⟨hkind, hcancelled, -⟩ := hx task' ht'
      exact ⟨task, ht, hkind, hcancelled⟩
    · rw [Function.update_of_ne heq] at ht'
      exact ⟨task', ht', rfl, rfl⟩
  refine {
    held := ?_
    reconnect := ?_
    reconnectKind := ?_
    slow := ?_
    slowRetry := ?_
    closed := ?_
    opened := ?_
    fresh := ?_
    freshReconnect := ?_
    freshSlow := ?_
    freshLock := ?_
    logged := ?_
    quiet := ?_ }
  · intro t' task' ht'
    by_cases heq : t' = t
    · subst heq
      rw [htasks, Function.update_self] at ht'
      exact (hx task' ht').2.2
    · rw [htasks, Function.update_of_ne heq] at ht'
      exact (h.held t' task' ht').trans (hothers t' heq)
  · intro t' task' ht' hkind
    obtain ⟨old, hold, hkind', -⟩ := hback t' task' ht'
    rw [hrefs.reconnectTask, hrefs.reconnectJobId, hrefs.exhausted]
    exact h.reconnect t' old hold (hkind'.symm.trans hkind)
  · intro t' task' hreconnect ht'
    rw [hrefs.reconnectTask] at hreconnect
    obtain ⟨old, hold, hkind', -⟩ := hback t' task' ht'
    exact hkind'.trans (h.reconnectKind t' old hreconnect hold)
  · intro t' task' ht' hkind hcancelled
    obtain ⟨old, hold, hkind', hcancelled'⟩ := hback t' task' ht'
    rw [hrefs.slowRetryTask, hrefs.exhausted]
    exact h.slow t' old hold (hkind'.symm.trans hkind) (hcancelled'.symm.trans hcancelled)
  · intro t' task' hslow ht'
    rw [hrefs.slowRetryTask] at hslow
    obtain ⟨old, hold, hkind', hcancelled'⟩ := hback t' task' ht'
    rw [hkind', hcancelled']
    exact h.slowRetry t' old hslow hold
  · intro hclosed t' task' ht'
    rw [hrefs.closed] at hclosed
    obtain ⟨old, hold, -, hcancelled'⟩ := hback t' task' ht'
    exact hcancelled'.trans (h.closed hclosed t' old hold)
  · intro hclosed t' task' ht' hkind
    rw [hrefs.closed] at hclosed
    obtain ⟨old, hold, hkind', hcancelled'⟩ := hback t' task' ht'
    exact hcancelled'.trans (h.opened hclosed t' old hold (hkind'.symm.trans hkind))
  · intro t' ht'
    rw [hrefs.taskCount] at ht'
    have hold := h.fresh t' ht'
    have hne : t' ≠ t := by
      intro heq
      rw [heq, ht] at hold
      cases hold
    rw [htasks, Function.update_of_ne hne]
    exact hold
  · rw [hrefs.reconnectTask, hrefs.taskCount]
    exact h.freshReconnect
  · rw [hrefs.slowRetryTask, hrefs.taskCount]
    exact h.freshSlow
  · intro t' ht'
    rw [hrefs.taskCount]
    by_cases heq : t' = t
    · subst heq
      exact h.lt_taskCount ht
    · exact h.freshLock t' ((hothers t' heq).2 ht')
  · rw [hrefs.log, hrefs.closed]
    exact h.logged
  · rw [hrefs.log]
    exact h.quiet

/-- A task at work goes on. -/
theorem Inv.move (h : Inv s) {u : Wrapper} {t : TaskId} {task task' : Task}
    (ht : s.tasks t = some task) (hrefs : SameRefs s u)
    (htasks : u.tasks = Function.update s.tasks t (some task')) (hkind : task'.kind = task.kind)
    (hcancelled : task'.cancelled = task.cancelled)
    (hbusy : task.cancelled = false ∨ task.pc.holdsLock = true)
    (hlock : task'.pc.holdsLock = true ↔ u.lock = some t)
    (hothers : ∀ t', t' ≠ t → (s.lock = some t' ↔ u.lock = some t')) : Inv u := by
  refine ⟨h.tracked.own ht hrefs htasks ?_ hothers, ?_⟩
  · intro task'' heq
    cases heq
    exact ⟨hkind, hcancelled, hlock⟩
  · intro hclosed
    rw [hrefs.closed] at hclosed
    have hforth : ∀ t' old, s.tasks t' = some old → ∃ new, u.tasks t' = some new ∧
        new.kind = old.kind ∧ new.cancelled = old.cancelled := by
      intro t' old hold
      rw [htasks]
      by_cases heq : t' = t
      · subst heq
        rw [ht] at hold
        cases hold
        exact ⟨task', Function.update_self .., hkind, hcancelled⟩
      · exact ⟨old, by rw [Function.update_of_ne heq]; exact hold, rfl, rfl⟩
    rcases h.alive hclosed with hconnected | ⟨hhealth, t', old, hold, hold'⟩ |
      ⟨hhealth, hexhausted, t', old, hold, hold', hlive⟩
    · exact absurd hconnected (h.not_connected ht hbusy)
    · obtain ⟨new, hnew, hkind', -⟩ := hforth t' old hold
      exact .inr (.inl ⟨hrefs.health ▸ hhealth, t', new, hnew, hkind'.trans hold'⟩)
    · obtain ⟨new, hnew, hkind', hcancelled'⟩ := hforth t' old hold
      exact .inr (.inr ⟨hrefs.health ▸ hhealth, hrefs.exhausted ▸ hexhausted, t', new, hnew,
        hkind'.trans hold', hcancelled'.trans hlive⟩)

/-- A cancelled task comes to its end. -/
theorem Inv.finish (h : Inv s) {u : Wrapper} {t : TaskId} {task : Task}
    (ht : s.tasks t = some task) (hrefs : SameRefs s u)
    (htasks : u.tasks = Function.update s.tasks t none) (hcancelled : task.cancelled = true)
    (hfree : task.pc.holdsLock = true ∨ u.lock = s.lock ∧ u.ws = s.ws)
    (hlistener : u.listenerTask = s.listenerTask ∧ u.listeners = s.listeners)
    (hothers : ∀ t', t' ≠ t → (s.lock = some t' ↔ u.lock = some t')) : Inv u := by
  refine ⟨h.tracked.own ht hrefs htasks nofun hothers, ?_⟩
  intro hclosed
  rw [hrefs.closed] at hclosed
  have hslow : task.kind ≠ .reconnect := by
    intro hkind
    have hlive := h.tracked.opened hclosed t task ht hkind
    rw [hcancelled] at hlive
    cases hlive
  have hforth : ∀ t' old, s.tasks t' = some old → old ≠ task → u.tasks t' = some old := by
    intro t' old hold hne
    have hne' : t' ≠ t := by
      rintro rfl
      rw [ht] at hold
      cases hold
      exact hne rfl
    rw [htasks, Function.update_of_ne hne']
    exact hold
  have hback : ∀ t' new, u.tasks t' = some new → s.tasks t' = some new := by
    intro t' new hnew
    rw [htasks] at hnew
    by_cases heq : t' = t
    · subst heq
      rw [Function.update_self] at hnew
      cases hnew
    · rwa [Function.update_of_ne heq] at hnew
  rcases h.alive hclosed with hconnected | ⟨hhealth, t', old, hold, hold'⟩ |
    ⟨hhealth, hexhausted, t', old, hold, hold', hlive⟩
  · rcases hfree with hholds | ⟨hlock, hws⟩
    · exact absurd hconnected (h.not_connected ht (.inr hholds))
    · obtain ⟨hhealth, hnone, hexhausted, hno, l, socket, hl, hsocket, hlistens⟩ := hconnected
      refine .inl ⟨hrefs.health ▸ hhealth, hlock.trans hnone, hrefs.exhausted.trans hexhausted,
        fun t' new hnew => hno t' new (hback t' new hnew), l, socket, hlistener.1.trans hl,
        hws.trans hsocket, ?_⟩
      rw [hlistener.2]
      exact hlistens
  · have hne : old ≠ task := by
      rintro rfl
      exact hslow hold'
    exact .inr (.inl ⟨hrefs.health ▸ hhealth, t', old, hforth t' old hold hne, hold'⟩)
  · have hne : old ≠ task := by
      rintro rfl
      rw [hcancelled] at hlive
      cases hlive
    exact .inr (.inr ⟨hrefs.health ▸ hhealth, hrefs.exhausted ▸ hexhausted, t', old,
      hforth t' old hold hne, hold', hlive⟩)

-- ---------------------------------------------------------------------------
-- New tasks
-- ---------------------------------------------------------------------------

/-- No reconnect task is live. -/
def NoReconnect (s : Wrapper) : Prop := ∀ t task, s.tasks t = some task → task.kind ≠ .reconnect

/-- Every slow retry still about has been cancelled. -/
def NoSlow (s : Wrapper) : Prop :=
  ∀ t task, s.tasks t = some task → task.kind = .slow → task.cancelled = true

theorem quiet_append {log : List Deed} (h : log.Pairwise fun d e => d = .closeCalled → e = .closeCalled)
    {d : Deed} (hd : .closeCalled ∈ log → d = .closeCalled) :
    (log ++ [d]).Pairwise fun d e => d = .closeCalled → e = .closeCalled := by
  refine List.pairwise_append.2 ⟨h, List.pairwise_singleton .., ?_⟩
  intro a ha b hb hclose
  obtain rfl := List.mem_singleton.1 hb
  exact hd (hclose ▸ ha)

theorem Tracked.create (h : Tracked s) {kind : Kind} {pc : Pc} {u : Wrapper}
    (hclosed : s.closed = false) (hpc : pc.holdsLock = false)
    (htasks : u.tasks = Function.update s.tasks s.taskCount (some { kind, pc }))
    (hcount : u.taskCount = s.taskCount + 1) (hlock : u.lock = s.lock)
    (hexhausted : u.exhausted = s.exhausted) (hclosed' : u.closed = s.closed)
    (hlog : u.log = s.log ++ [.started kind])
    (hreconnect : NoReconnect s ∧ u.reconnectTask = some s.taskCount ∧
        u.reconnectJobId = some s.taskCount ∧ kind = .reconnect ∧ s.exhausted = false ∨
      u.reconnectTask = s.reconnectTask ∧ u.reconnectJobId = s.reconnectJobId ∧ kind = .slow)
    (hslow : NoSlow s ∧ u.slowRetryTask = some s.taskCount ∧ kind = .slow ∧ s.exhausted = true ∨
      u.slowRetryTask = s.slowRetryTask ∧ kind = .reconnect) : Tracked u := by
  have hopen : .closeCalled ∉ s.log := by
    intro hmem
    have hshut := h.logged hmem
    rw [hclosed] at hshut
    cases hshut
  have hcases : ∀ t task, u.tasks t = some task →
      t = s.taskCount ∧ task = { kind, pc } ∨ s.tasks t = some task ∧ t < s.taskCount := by
    intro t task ht
    rw [htasks] at ht
    by_cases heq : t = s.taskCount
    · subst heq
      rw [Function.update_self] at ht
      cases ht
      exact .inl ⟨rfl, rfl⟩
    · rw [Function.update_of_ne heq] at ht
      exact .inr ⟨ht, h.lt_taskCount ht⟩
  refine {
    held := ?_
    reconnect := ?_
    reconnectKind := ?_
    slow := ?_
    slowRetry := ?_
    closed := ?_
    opened := ?_
    fresh := ?_
    freshReconnect := ?_
    freshSlow := ?_
    freshLock := ?_
    logged := ?_
    quiet := ?_ }
  · intro t task ht
    rw [hlock]
    rcases hcases t task ht with ⟨rfl, rfl⟩ | ⟨hold, -⟩
    · refine ⟨fun hholds => absurd (hpc.symm.trans hholds) nofun, fun hheld => ?_⟩
      exact absurd (h.freshLock _ hheld) (Nat.lt_irrefl _)
    · exact h.held t task hold
  · intro t task ht hkind
    rw [hexhausted]
    rcases hcases t task ht with ⟨rfl, rfl⟩ | ⟨hold, -⟩
    · rcases hreconnect with ⟨-, htask, hjob, -, hrunning⟩ | ⟨-, -, hslow'⟩
      · exact ⟨htask, hjob, hrunning⟩
      · cases hslow'.symm.trans hkind
    · rcases hreconnect with ⟨hnone, -⟩ | ⟨htask, hjob, -⟩
      · exact absurd hkind (hnone t task hold)
      · rw [htask, hjob]
        exact h.reconnect t task hold hkind
  · intro t task htask ht
    rcases hreconnect with ⟨-, htask', -, hkind, -⟩ | ⟨htask', -⟩
    · obtain rfl : s.taskCount = t := Option.some.inj (htask'.symm.trans htask)
      rcases hcases _ task ht with ⟨-, rfl⟩ | ⟨-, hlt⟩
      · exact hkind
      · exact absurd hlt (Nat.lt_irrefl _)
    · rw [htask'] at htask
      rcases hcases t task ht with ⟨rfl, -⟩ | ⟨hold, -⟩
      · exact absurd (h.freshReconnect _ htask) (Nat.lt_irrefl _)
      · exact h.reconnectKind t task htask hold
  · intro t task ht hkind hcancelled
    rw [hexhausted]
    rcases hcases t task ht with ⟨rfl, rfl⟩ | ⟨hold, -⟩
    · rcases hslow with ⟨-, htask, -, hrunning⟩ | ⟨-, hreconnect'⟩
      · exact ⟨htask, hrunning⟩
      · cases hreconnect'.symm.trans hkind
    · rcases hslow with ⟨hnone, -⟩ | ⟨htask, -⟩
      · cases hcancelled.symm.trans (hnone t task hold hkind)
      · rw [htask]
        exact h.slow t task hold hkind hcancelled
  · intro t task hretry ht
    rcases hslow with ⟨-, htask, hkind, -⟩ | ⟨htask, -⟩
    · obtain rfl : s.taskCount = t := Option.some.inj (htask.symm.trans hretry)
      rcases hcases _ task ht with ⟨-, rfl⟩ | ⟨-, hlt⟩
      · exact ⟨hkind, rfl⟩
      · exact absurd hlt (Nat.lt_irrefl _)
    · rw [htask] at hretry
      rcases hcases t task ht with ⟨rfl, -⟩ | ⟨hold, -⟩
      · exact absurd (h.freshSlow _ hretry) (Nat.lt_irrefl _)
      · exact h.slowRetry t task hretry hold
  · intro hshut
    rw [hclosed', hclosed] at hshut
    cases hshut
  · intro _ t task ht hkind
    rcases hcases t task ht with ⟨-, rfl⟩ | ⟨hold, -⟩
    · rfl
    · exact h.opened hclosed t task hold hkind
  · intro t ht
    rw [hcount] at ht
    have hne : t ≠ s.taskCount := by omega
    rw [htasks, Function.update_of_ne hne]
    exact h.fresh t (by omega)
  · intro t ht
    rw [hcount]
    rcases hreconnect with ⟨-, htask, -⟩ | ⟨htask, -⟩
    · obtain rfl : s.taskCount = t := Option.some.inj (htask.symm.trans ht)
      exact Nat.lt_succ_self _
    · exact Nat.lt_succ_of_lt (h.freshReconnect t (htask ▸ ht))
  · intro t ht
    rw [hcount]
    rcases hslow with ⟨-, htask, -⟩ | ⟨htask, -⟩
    · obtain rfl : s.taskCount = t := Option.some.inj (htask.symm.trans ht)
      exact Nat.lt_succ_self _
    · exact Nat.lt_succ_of_lt (h.freshSlow t (htask ▸ ht))
  · intro t ht
    rw [hcount]
    exact Nat.lt_succ_of_lt (h.freshLock t (hlock ▸ ht))
  · intro hmem
    rw [hlog, List.mem_append] at hmem
    rcases hmem with hmem | hmem
    · exact absurd hmem hopen
    · cases List.mem_singleton.1 hmem
  · rw [hlog]
    exact quiet_append h.quiet fun hmem => absurd hmem hopen

theorem not_live {task : Option TaskId} (h : s.live task = false) {t : TaskId}
    (ht : task = some t) : s.tasks t = none := by
  subst ht
  simpa [Wrapper.live] using h

theorem Tracked.noReconnect (h : Tracked s) (hdone : s.live s.reconnectTask = false) :
    NoReconnect s := by
  intro t task ht hkind
  have hnone := not_live hdone (h.reconnect t task ht hkind).1
  rw [ht] at hnone
  cases hnone

/-- `_ensure_reconnecting` starts a task, or has nothing to do. -/
theorem ensureReconnecting_cases (s : Wrapper) :
    s.ensureReconnecting = s ∧ (s.exhausted = true ∨ s.closed = true ∨
        s.live s.reconnectTask = true) ∨
      s.exhausted = false ∧ s.closed = false ∧ s.live s.reconnectTask = false ∧
        s.ensureReconnecting = { s.createTask .reconnect .acquiring with
          health := s.health.setState .reconnecting
          reconnectTask := some s.taskCount
          reconnectJobId := some s.taskCount } := by
  unfold Wrapper.ensureReconnecting
  cases hexhausted : s.exhausted with
  | true => exact .inl ⟨rfl, .inl rfl⟩
  | false =>
    cases hclosed : s.closed with
    | true => exact .inl ⟨rfl, .inr (.inl rfl)⟩
    | false =>
      cases hlive : s.live s.reconnectTask with
      | true => exact .inl ⟨rfl, .inr (.inr rfl)⟩
      | false => exact .inr ⟨rfl, rfl, rfl, rfl⟩

theorem Tracked.ensureReconnecting (h : Tracked s) : Tracked s.ensureReconnecting := by
  rcases ensureReconnecting_cases s with ⟨heq, -⟩ | ⟨hexhausted, hclosed, hdone, heq⟩
  · rw [heq]
    exact h
  · rw [heq]
    exact h.create hclosed rfl rfl rfl rfl rfl rfl rfl
      (.inl ⟨h.noReconnect hdone, rfl, rfl, rfl, hexhausted⟩) (.inr ⟨rfl, rfl⟩)

/-- Not exhausted and not closed, it leaves a live reconnect task. -/
theorem ensures (hexhausted : s.exhausted = false)
    (hclosed : s.closed = false)
    (hretrying : s.live s.reconnectTask = true → Retrying s) : Retrying s.ensureReconnecting := by
  rcases ensureReconnecting_cases s with ⟨heq, hexhausted' | hclosed' | hlive⟩ | ⟨-, -, -, heq⟩
  · rw [hexhausted] at hexhausted'
    cases hexhausted'
  · rw [hclosed] at hclosed'
    cases hclosed'
  · rw [heq]
    exact hretrying hlive
  · rw [heq]
    exact ⟨by simp, s.taskCount, { kind := .reconnect, pc := .acquiring },
      Function.update_self .., rfl⟩

-- ---------------------------------------------------------------------------
-- Cancelling
-- ---------------------------------------------------------------------------

/-- The tasks of `u` are those of `s`, some of them cancelled meanwhile. -/
def Flags (s u : Wrapper) : Prop :=
  ∀ t task, u.tasks t = some task → ∃ old, s.tasks t = some old ∧ task.kind = old.kind ∧
    task.pc = old.pc ∧ (task.cancelled = old.cancelled ∨ task.cancelled = true)

theorem Flags.trans {v : Wrapper} (h : Flags s s') (h' : Flags s' v) : Flags s v := by
  intro t task ht
  obtain ⟨mid, hmid, hkind, hpc, hcancelled⟩ := h' t task ht
  obtain ⟨old, hold, hkind', hpc', hcancelled'⟩ := h t mid hmid
  refine ⟨old, hold, hkind.trans hkind', hpc.trans hpc', ?_⟩
  rcases hcancelled with hsame | htrue
  · rw [hsame]
    exact hcancelled'
  · exact .inr htrue

theorem cancelTask_eq (s : Wrapper) (task : Option TaskId) :
    ∃ tasks, s.cancelTask task = { s with tasks } ∧ Flags s { s with tasks } ∧
      (∀ t, task ≠ some t → tasks t = s.tasks t) ∧
        ∀ t new, task = some t → tasks t = some new → new.cancelled = true := by
  cases task with
  | none => exact ⟨s.tasks, rfl, fun t task ht => ⟨task, ht, rfl, rfl, .inl rfl⟩, fun t _ => rfl, nofun⟩
  | some t =>
    refine ⟨_, rfl, ?_, ?_, ?_⟩
    · intro t' task ht'
      by_cases heq : t' = t
      · subst heq
        dsimp only at ht'
        rw [Function.update_self, Option.map_eq_some_iff] at ht'
        obtain ⟨old, hold, rfl⟩ := ht'
        exact ⟨old, hold, rfl, rfl, .inr rfl⟩
      · dsimp only at ht'
        rw [Function.update_of_ne heq] at ht'
        exact ⟨task, ht', rfl, rfl, .inl rfl⟩
    · intro t' hne
      exact Function.update_of_ne (fun heq => hne (congrArg some heq.symm)) ..
    · intro t' new heq hnew
      cases heq
      rw [Function.update_self, Option.map_eq_some_iff] at hnew
      obtain ⟨old, -, rfl⟩ := hnew
      rfl

theorem cancelSlowRetry_eq (s : Wrapper) :
    ∃ tasks, s.cancelSlowRetry = { s with tasks, slowRetryTask := none } ∧
      Flags s { s with tasks } ∧ (∀ t, s.slowRetryTask ≠ some t → tasks t = s.tasks t) ∧
        ∀ t new, s.slowRetryTask = some t → tasks t = some new → new.cancelled = true := by
  obtain ⟨tasks, heq, hflags, hsame, htrue⟩ := cancelTask_eq s s.slowRetryTask
  refine ⟨tasks, ?_, hflags, hsame, htrue⟩
  unfold Wrapper.cancelSlowRetry
  rw [heq]

theorem Tracked.flag (h : Tracked s) {u : Wrapper} (hflags : Flags s u) (hlock : u.lock = s.lock)
    (hreconnect : u.reconnectTask = s.reconnectTask ∧ u.reconnectJobId = s.reconnectJobId)
    (hcount : u.taskCount = s.taskCount)
    (hslowRetry : u.slowRetryTask = none ∨ u.slowRetryTask = s.slowRetryTask ∧ s.closed = true)
    (hexhausted : u.exhausted = true → NoReconnect s) (hslow : NoSlow u)
    (hclosed : u.closed = true → ∀ t task, u.tasks t = some task → task.cancelled = true)
    (hopened : u.closed = false → ∀ t task, u.tasks t = some task → task.kind = .reconnect →
      task.cancelled = false)
    (hlogged : .closeCalled ∈ u.log → u.closed = true)
    (hquiet : u.log.Pairwise fun d e => d = .closeCalled → e = .closeCalled) : Tracked u where
  held t task ht := by
    obtain ⟨old, hold, -, hpc, -⟩ := hflags t task ht
    rw [hpc, hlock]
    exact h.held t old hold
  reconnect t task ht hkind := by
    obtain ⟨old, hold, hkind', -⟩ := hflags t task ht
    obtain ⟨htask, hjob, -⟩ := h.reconnect t old hold (hkind'.symm.trans hkind)
    refine ⟨hreconnect.1.trans htask, hreconnect.2.trans hjob, ?_⟩
    by_contra hrunning
    exact hexhausted (eq_true_of_ne_false hrunning) t old hold (hkind'.symm.trans hkind)
  reconnectKind t task htask ht := by
    obtain ⟨old, hold, hkind, -⟩ := hflags t task ht
    exact hkind.trans (h.reconnectKind t old (hreconnect.1 ▸ htask) hold)
  slow t task ht hkind hcancelled := by
    cases hcancelled.symm.trans (hslow t task ht hkind)
  slowRetry t task hretry ht := by
    rcases hslowRetry with hnone | ⟨hsame, hshut⟩
    · rw [hnone] at hretry
      cases hretry
    · obtain ⟨old, hold, -⟩ := hflags t task ht
      have hlive := (h.slowRetry t old (hsame ▸ hretry) hold).2
      cases hlive.symm.trans (h.closed hshut t old hold)
  closed := hclosed
  opened := hopened
  fresh t ht := by
    cases hu : u.tasks t with
    | none => rfl
    | some task =>
      obtain ⟨old, hold, -⟩ := hflags t task hu
      rw [h.fresh t (hcount ▸ ht)] at hold
      cases hold
  freshReconnect t ht := hcount ▸ h.freshReconnect t (hreconnect.1 ▸ ht)
  freshSlow t ht := by
    rcases hslowRetry with hnone | ⟨hsame, -⟩
    · rw [hnone] at ht
      cases ht
    · exact hcount ▸ h.freshSlow t (hsame ▸ ht)
  freshLock t ht := hcount ▸ h.freshLock t (hlock ▸ ht)
  logged := hlogged
  quiet := hquiet

/-- What `cancelSlowRetry` leaves is cancelled. -/
theorem Tracked.noSlow (h : Tracked s) {tasks : TaskId → Option Task}
    (hflags : Flags s { s with tasks })
    (htrue : ∀ t new, s.slowRetryTask = some t → tasks t = some new → new.cancelled = true) :
    NoSlow { s with tasks } := by
  intro t task ht hkind
  obtain ⟨old, hold, hkind', -, hsame | hcancelled⟩ := hflags t task ht
  · cases hcancelled : old.cancelled with
    | true => exact hsame.trans hcancelled
    | false =>
      have hretry := (h.slow t old hold (hkind'.symm.trans hkind) hcancelled).1
      exact htrue t task hretry ht
  · exact hcancelled

/-- `trigger_reconnect` up to `_ensure_reconnecting`. -/
theorem Tracked.trigger (h : Tracked s) :
    Tracked (cancelSlowRetry { s with exhausted := false }) := by
  obtain ⟨tasks, heq, hflags, hsame, htrue⟩ := cancelSlowRetry_eq { s with exhausted := false }
  rw [heq]
  have hnoSlow : NoSlow { s with tasks } := h.noSlow hflags htrue
  refine h.flag hflags rfl ⟨rfl, rfl⟩ rfl (.inl rfl) nofun hnoSlow ?_ ?_ h.logged h.quiet
  · intro hclosed t task ht
    obtain ⟨old, hold, -, -, hsame' | hcancelled⟩ := hflags t task ht
    · exact hsame'.trans (h.closed hclosed t old hold)
    · exact hcancelled
  · intro hclosed t task ht hkind
    have hne : s.slowRetryTask ≠ some t := by
      intro hretry
      obtain ⟨old, hold, hkind', -⟩ := hflags t task ht
      have hslow := (h.slowRetry t old hretry hold).1
      rw [← hkind', hkind] at hslow
      cases hslow
    have hkept := hsame t hne
    dsimp only at hkept ht
    rw [hkept] at ht
    exact h.opened hclosed t task ht hkind

theorem Tracked.noReconnect_of_exhausted (h : Tracked s) (hexhausted : s.exhausted = true) :
    NoReconnect s := by
  intro t task ht hkind
  cases (h.reconnect t task ht hkind).2.2.symm.trans hexhausted

/-- The first part of `close()` cancels whatever is live: the slow retry and the reconnect
task are never both live. -/
theorem Tracked.close (h : Tracked s) (hstep : step s .close = some s') : Tracked s' := by
  simp only [step, Option.some.injEq] at hstep
  obtain ⟨tasks, heq, hflags, hsame, htrue⟩ :=
    cancelSlowRetry_eq { s with closed := true, log := s.log ++ [.closeCalled] }
  rw [heq] at hstep
  have hnoSlow : NoSlow { s with tasks } := h.noSlow hflags htrue
  have hquiet := quiet_append h.quiet (d := .closeCalled) fun _ => rfl
  cases hwaits : s.live s.slowRetryTask with
  | true =>
    rw [hwaits] at hstep
    subst hstep
    have hexhausted : s.exhausted = true := by
      cases hretry : s.slowRetryTask with
      | none => simp [Wrapper.live, hretry] at hwaits
      | some t =>
        simp only [Wrapper.live, hretry] at hwaits
        obtain ⟨task, ht⟩ := Option.isSome_iff_exists.1 hwaits
        obtain ⟨hkind, hlive⟩ := h.slowRetry t task hretry ht
        exact (h.slow t task ht hkind hlive).2
    have hnone := h.noReconnect_of_exhausted hexhausted
    refine h.flag hflags rfl ⟨rfl, rfl⟩ rfl (.inl rfl) (fun _ => hnone) hnoSlow ?_ nofun
      (fun _ => rfl) hquiet
    intro _ t task ht
    cases hkind : task.kind with
    | slow => exact hnoSlow t task ht hkind
    | reconnect =>
      obtain ⟨old, hold, hkind', -⟩ := hflags t task ht
      exact absurd (hkind'.symm.trans hkind) (hnone t old hold)
  | false =>
    rw [hwaits] at hstep
    subst hstep
    obtain ⟨tasks', heq', hflags', hsame', htrue'⟩ := cancelTask_eq
      { s with closed := true, log := s.log ++ [.closeCalled], tasks, slowRetryTask := none }
      s.reconnectTask
    rw [if_neg nofun, heq']
    have hboth : Flags s { s with tasks := tasks' } := Flags.trans hflags hflags'
    have hnoSlow' : NoSlow { s with tasks := tasks' } := by
      intro t task ht hkind
      obtain ⟨mid, hmid, hkind', -, hsame'' | hcancelled⟩ := hflags' t task ht
      · exact hsame''.trans (hnoSlow t mid hmid (hkind'.symm.trans hkind))
      · exact hcancelled
    refine h.flag hboth rfl ⟨rfl, rfl⟩ rfl (.inl rfl) h.noReconnect_of_exhausted hnoSlow' ?_ nofun
      (fun _ => rfl) hquiet
    intro _ t task ht
    cases hkind : task.kind with
    | slow => exact hnoSlow' t task ht hkind
    | reconnect =>
      obtain ⟨old, hold, hkind', -⟩ := hboth t task ht
      have hretry := (h.reconnect t old hold (hkind'.symm.trans hkind)).1
      exact htrue' t task hretry ht

/-- After `close()` a further cancellation changes nothing that matters. -/
theorem Tracked.closeCancels (h : Tracked s) (hclosed : s.closed = true) :
    Tracked (s.cancelTask s.reconnectTask) := by
  obtain ⟨tasks, heq, hflags, -⟩ := cancelTask_eq s s.reconnectTask
  rw [heq]
  have hall : ∀ t task, tasks t = some task → task.cancelled = true := by
    intro t task ht
    obtain ⟨old, hold, -, -, hsame | hcancelled⟩ := hflags t task ht
    · exact hsame.trans (h.closed hclosed t old hold)
    · exact hcancelled
  exact h.flag hflags rfl ⟨rfl, rfl⟩ rfl (.inr ⟨rfl, hclosed⟩) h.noReconnect_of_exhausted
    (fun t task ht _ => hall t task ht) (fun _ => hall)
    (fun hopen => by cases hclosed.symm.trans hopen) h.logged h.quiet

-- ---------------------------------------------------------------------------
-- The end of an attempt
-- ---------------------------------------------------------------------------

/-- Beside a task that has not been cancelled every other live task is a cancelled slow
retry. -/
theorem Tracked.sole (h : Tracked s) {t : TaskId} {task : Task} (ht : s.tasks t = some task)
    (hlive : task.cancelled = false) {t' : TaskId} {task' : Task} (ht' : s.tasks t' = some task')
    (hne : t' ≠ t) : task'.kind = .slow ∧ task'.cancelled = true := by
  cases hkind : task.kind with
  | reconnect =>
    obtain ⟨htask, -, hrunning⟩ := h.reconnect t task ht hkind
    cases hkind' : task'.kind with
    | reconnect =>
      have htask' := (h.reconnect t' task' ht' hkind').1
      exact absurd (Option.some.inj (htask'.symm.trans htask)) hne
    | slow =>
      refine ⟨rfl, ?_⟩
      by_contra hcancelled
      have hexhausted := (h.slow t' task' ht' hkind' (eq_false_of_ne_true hcancelled)).2
      cases hrunning.symm.trans hexhausted
  | slow =>
    obtain ⟨htask, hexhausted⟩ := h.slow t task ht hkind hlive
    cases hkind' : task'.kind with
    | reconnect => exact absurd hkind' (h.noReconnect_of_exhausted hexhausted t' task' ht')
    | slow =>
      refine ⟨rfl, ?_⟩
      by_contra hcancelled
      have htask' := (h.slow t' task' ht' hkind' (eq_false_of_ne_true hcancelled)).1
      exact hne (Option.some.inj (htask'.symm.trans htask))

theorem Tracked.not_closed (h : Tracked s) {t : TaskId} {task : Task} (ht : s.tasks t = some task)
    (hlive : task.cancelled = false) : s.closed = false := by
  by_contra hclosed
  cases hlive.symm.trans (h.closed (eq_true_of_ne_false hclosed) t task ht)

theorem Tracked.not_closeCalled (h : Tracked s) (hclosed : s.closed = false) :
    .closeCalled ∉ s.log := by
  intro hmem
  cases hclosed.symm.trans (h.logged hmem)

/-- With nobody at work the flag `_reconnect_exhausted` and the client are free to change. -/
theorem Tracked.idle (h : Tracked s) (hnone : NoReconnect s) (hnoSlow : NoSlow s) {u : Wrapper}
    (htasks : u.tasks = s.tasks) (hlock : u.lock = s.lock) (hclosed : u.closed = s.closed)
    (hreconnect : u.reconnectTask = s.reconnectTask) (hslow : u.slowRetryTask = s.slowRetryTask)
    (hcount : u.taskCount = s.taskCount) (hlogged : .closeCalled ∈ u.log → u.closed = true)
    (hquiet : u.log.Pairwise fun d e => d = .closeCalled → e = .closeCalled) : Tracked u where
  held := by
    rw [htasks, hlock]
    exact h.held
  reconnect t task ht hkind := absurd hkind (hnone t task (htasks ▸ ht))
  reconnectKind := by
    rw [htasks, hreconnect]
    exact h.reconnectKind
  slow t task ht hkind hlive := by
    cases hlive.symm.trans (hnoSlow t task (htasks ▸ ht) hkind)
  slowRetry := by
    rw [htasks, hslow]
    exact h.slowRetry
  closed := by
    rw [htasks, hclosed]
    exact h.closed
  opened := by
    rw [htasks, hclosed]
    exact h.opened
  fresh := by
    rw [htasks, hcount]
    exact h.fresh
  freshReconnect := by
    rw [hreconnect, hcount]
    exact h.freshReconnect
  freshSlow := by
    rw [hslow, hcount]
    exact h.freshSlow
  freshLock := by
    rw [hlock, hcount]
    exact h.freshLock
  logged := hlogged
  quiet := hquiet

/-- The task that held the lock is done and nobody is at work. -/
theorem Tracked.leave (h : Tracked s) {t : TaskId} {task : Task} (ht : s.tasks t = some task)
    (hlive : task.cancelled = false) (hheld : s.lock = some t) (ws : Option SocketId) :
    Tracked { s.setTask t none with lock := none, ws } ∧
      NoReconnect { s.setTask t none with lock := none, ws } ∧
        NoSlow { s.setTask t none with lock := none, ws } := by
  have hothers : ∀ t' task', (s.setTask t none).tasks t' = some task' →
      task'.kind = .slow ∧ task'.cancelled = true := by
    intro t' task' ht'
    by_cases heq : t' = t
    · subst heq
      rw [setTask_self] at ht'
      cases ht'
    · rw [setTask_of_ne s heq] at ht'
      exact h.sole ht hlive ht' heq
  refine ⟨?_, ?_, fun t' task' ht' _ => (hothers t' task' ht').2⟩
  · refine h.own ht ⟨rfl, rfl, rfl, rfl, rfl, rfl, rfl, rfl⟩ rfl nofun ?_
    intro t' hne
    rw [hheld]
    refine ⟨fun heq => absurd (Option.some.inj heq).symm hne, nofun⟩
  · intro t' task' ht' hkind
    cases (hothers t' task' ht').1.symm.trans hkind

theorem Inv.exhaust (h : Inv s) {t : TaskId} {task : Task} (ht : s.tasks t = some task)
    (hlive : task.cancelled = false) (hheld : s.lock = some t) (hkind : task.kind = .reconnect)
    (ws : Option SocketId) : Inv (Wrapper.exhaust { s with lock := none, ws } t) := by
  obtain ⟨hleft, hnone, hnoSlow⟩ := h.tracked.leave ht hlive hheld ws
  have hclosed := h.tracked.not_closed ht hlive
  have hexhausted := (h.tracked.reconnect t task ht hkind).2.2
  have hidle : Tracked { s.setTask t none with
      lock := none, ws, health := s.health.setState .degraded, exhausted := true } :=
    hleft.idle hnone hnoSlow rfl rfl rfl rfl rfl rfl hleft.logged hleft.quiet
  have hdone : Wrapper.live { s.setTask t none with
      lock := none, ws, health := s.health.setState .degraded, exhausted := true }
      s.slowRetryTask = false := by
    cases hretry : s.slowRetryTask with
    | none => rfl
    | some t' =>
      cases ht' : (s.setTask t none).tasks t' with
      | none => exact Option.isSome_eq_false_iff.2 (Option.isNone_iff_eq_none.2 ht')
      | some task' =>
        have hslow := hleft.slowRetry t' task' hretry ht'
        cases hslow.2.symm.trans (hnoSlow t' task' ht' hslow.1)
  unfold Wrapper.exhaust Wrapper.startSlowRetry
  rw [if_neg, if_neg]
  · refine ⟨?_, fun _ => .inr (.inr ⟨s.health.setState_state .degraded, rfl, s.taskCount,
      { kind := .slow, pc := .sleeping }, Function.update_self .., rfl, rfl⟩)⟩
    exact hidle.create hclosed rfl rfl rfl rfl rfl rfl rfl (.inr ⟨rfl, rfl, rfl⟩)
      (.inl ⟨hnoSlow, rfl, rfl, rfl⟩)
  · exact ne_true_of_eq_false hdone
  · exact ne_true_of_eq_false hclosed

/-- `_do_connect` succeeds. -/
theorem Inv.connected (h : Inv s) {t : TaskId} {task : Task} {socket : SocketId}
    (ht : s.tasks t = some task) (hlive : task.cancelled = false) (hheld : s.lock = some t)
    (hws : s.ws = some socket) : Inv (s.connected t task.kind socket) := by
  obtain ⟨hleft, hnone, hnoSlow⟩ := h.tracked.leave ht hlive hheld s.ws
  have hquiet := h.tracked.not_closeCalled (h.tracked.not_closed ht hlive)
  have hexhausted : (s.exhausted && decide (task.kind = .reconnect)) = false := by
    cases hkind : task.kind with
    | slow => rw [decide_eq_false nofun, Bool.and_false]
    | reconnect => rw [(h.tracked.reconnect t task ht hkind).2.2, Bool.false_and]
  refine ⟨?_, fun _ => .inl ⟨s.health.markConnected_state, rfl, hexhausted, hnone,
    s.listenerCount, socket, rfl, hws, Function.update_self ..⟩⟩
  refine hleft.idle hnone hnoSlow rfl rfl rfl rfl rfl rfl ?_ ?_
  · intro hmem
    rcases List.mem_append.1 hmem with hmem | hmem
    · exact absurd hmem hquiet
    · cases List.mem_singleton.1 hmem
  · exact quiet_append h.tracked.quiet fun hmem => absurd hmem hquiet

theorem released {t : TaskId} (hheld : s.lock = some t) (t' : TaskId) (hne : t' ≠ t) :
    s.lock = some t' ↔ none = some t' := by
  rw [hheld]
  exact ⟨fun heq => absurd (Option.some.inj heq).symm hne, nofun⟩

/-- An attempt fails: the task sleeps until the next one, or hands over to the slow
retry. -/
theorem Inv.attemptFails (h : Inv s) {t : TaskId} {task : Task} (ht : s.tasks t = some task)
    (hlive : task.cancelled = false) (hheld : s.lock = some t) (ws : Option SocketId)
    (windowOver : Bool) :
    Inv (Wrapper.attemptFails { s with lock := none, ws } t task.kind windowOver) := by
  have hsleeps : Inv (Wrapper.setTask { s with lock := none, ws } t
      (some { kind := task.kind, pc := .sleeping })) :=
    h.move ht ⟨rfl, rfl, rfl, rfl, rfl, rfl, rfl, rfl⟩ rfl rfl hlive.symm (.inl hlive)
      ⟨nofun, nofun⟩ (released hheld)
  cases hkind : task.kind with
  | reconnect =>
    cases windowOver with
    | true => exact h.exhaust ht hlive hheld hkind ws
    | false =>
      rw [hkind] at hsleeps
      exact hsleeps
  | slow =>
    have hexhausted := (h.tracked.slow t task ht hkind hlive).2
    unfold Wrapper.attemptFails
    rw [if_pos hexhausted]
    rw [hkind] at hsleeps
    exact hsleeps

-- ---------------------------------------------------------------------------
-- The steps
-- ---------------------------------------------------------------------------

/-- What only the inner client sees. -/
theorem Tracked.client (h : Tracked s) (ws : Option SocketId) (listenerTask : Option ListenerId)
    (listeners : ListenerId → Option Listener) : Tracked { s with ws, listenerTask, listeners } :=
  ⟨h.held, h.reconnect, h.reconnectKind, h.slow, h.slowRetry, h.closed, h.opened, h.fresh,
    h.freshReconnect, h.freshSlow, h.freshLock, h.logged, h.quiet⟩

theorem cancelListener_eq (s : Wrapper) :
    ∃ listeners, s.cancelListener = { s with listeners } := by
  unfold Wrapper.cancelListener
  split
  · exact ⟨_, rfl⟩
  · exact ⟨s.listeners, rfl⟩

theorem ensureReconnecting_closed (s : Wrapper) : s.ensureReconnecting.closed = s.closed := by
  rcases ensureReconnecting_cases s with ⟨heq, -⟩ | ⟨-, -, -, heq⟩
  · rw [heq]
  · rw [heq]
    rfl

theorem Tracked.live_reconnect (h : Tracked s) (hlive : s.live s.reconnectTask = true) :
    ∃ t task, s.reconnectTask = some t ∧ s.tasks t = some task ∧ task.kind = .reconnect := by
  cases htask : s.reconnectTask with
  | none =>
    rw [htask] at hlive
    cases hlive
  | some t =>
    rw [htask] at hlive
    obtain ⟨task, ht⟩ := Option.isSome_iff_exists.1 hlive
    exact ⟨t, task, rfl, ht, h.reconnectKind t task htask ht⟩

/-- A live reconnect task means RECONNECTING. -/
theorem Inv.retrying (h : Inv s) (hopen : s.closed = false) {t : TaskId} {task : Task}
    (ht : s.tasks t = some task) (hkind : task.kind = .reconnect) : Retrying s := by
  rcases h.alive hopen with hconnected | hretrying | hdegraded
  · exact absurd hkind (hconnected.2.2.2.1 t task ht)
  · exact hretrying
  · exact absurd hkind (h.tracked.noReconnect_of_exhausted hdegraded.2.1 t task ht)

/-- In DEGRADED `_ensure_reconnecting` has nothing to do: the slow retry is at work. -/
theorem Inv.probe_eq (h : Inv s) : s.probe = s := by
  unfold Wrapper.probe
  split
  · rename_i hdegraded
    rcases ensureReconnecting_cases s with ⟨heq, -⟩ | ⟨hexhausted, hopen, -, -⟩
    · exact heq
    · rcases h.alive hopen with hconnected | hretrying | hdegraded'
      · cases hdegraded.symm.trans hconnected.1
      · cases hdegraded.symm.trans hretrying.1
      · cases hexhausted.symm.trans hdegraded'.2.1
  · rfl

/-- A listener that ends by itself while CONNECTED starts the reconnect task. -/
theorem Inv.drop (h : Inv s) (hopen : s.closed = false) (hconnected : Connected s)
    (listeners : ListenerId → Option Listener) :
    Retrying (ensureReconnecting { s with listeners }) := by
  refine ensures hconnected.2.2.1 hopen ?_
  intro hlive
  obtain ⟨t, task, -, ht, hkind⟩ := h.tracked.live_reconnect hlive
  exact absurd hkind (hconnected.2.2.2.1 t task ht)

theorem Inv.drops (h : Inv s) (listeners : ListenerId → Option Listener) :
    Inv (ensureReconnecting { s with listeners }) := by
  refine ⟨(h.tracked.client s.ws s.listenerTask listeners).ensureReconnecting, ?_⟩
  intro hopen
  rw [ensureReconnecting_closed] at hopen
  rcases h.alive hopen with hconnected | hretrying | hdegraded
  · exact .inr (.inl (h.drop hopen hconnected listeners))
  · obtain ⟨t, task, ht, hkind⟩ := hretrying.2
    have hrunning := (h.tracked.reconnect t task ht hkind).2.2
    exact .inr (.inl (ensures hrunning hopen fun _ => hretrying))
  · rcases ensureReconnecting_cases { s with listeners } with ⟨heq, -⟩ | ⟨hrunning, -⟩
    · rw [heq]
      exact .inr (.inr hdegraded)
    · cases hrunning.symm.trans hdegraded.2.1

/-- `trigger_reconnect` leaves a live reconnect task, the one that was live before if there
was one. -/
theorem Inv.trigger (h : Inv s) (hopen : s.closed = false) : Retrying s.triggerReconnect.1 := by
  obtain ⟨tasks, heq, hflags, -⟩ := cancelSlowRetry_eq { s with exhausted := false }
  unfold Wrapper.triggerReconnect
  have htracked := h.tracked.trigger
  rw [heq] at htracked ⊢
  refine ensures rfl hopen ?_
  intro hlive
  obtain ⟨t, task, -, ht, hkind⟩ := htracked.live_reconnect hlive
  obtain ⟨old, hold, hkind', -⟩ := hflags t task ht
  exact ⟨(h.retrying hopen hold (hkind'.symm.trans hkind)).1, t, task, ht, hkind⟩

theorem triggerReconnect_closed (s : Wrapper) : s.triggerReconnect.1.closed = s.closed := by
  obtain ⟨tasks, heq, -⟩ := cancelSlowRetry_eq { s with exhausted := false }
  unfold Wrapper.triggerReconnect
  rw [ensureReconnecting_closed, heq]

theorem Inv.stepTask (h : Inv s) {t : TaskId} {task : Task} {a : Action}
    (ht : s.tasks t = some task) (hlive : task.cancelled = false)
    (hstep : stepTask s t task a = some s') : Inv s' := by
  have hheld := h.tracked.held t task ht
  have hlock : task.pc.holdsLock = false → ¬ s.lock = some t := by
    intro hfree heq
    cases hfree.symm.trans (hheld.2 heq)
  have hrefs : ∀ x, SameRefs s (s.setTask t x) := fun _ => ⟨rfl, rfl, rfl, rfl, rfl, rfl, rfl, rfl⟩
  cases a with
  | wakes =>
    simp only [Reconnecting.stepTask] at hstep
    split at hstep
    · rename_i hpc hkind
      cases hstep
      exact h.move ht (hrefs _) rfl rfl rfl (.inl hlive)
        ⟨nofun, fun heq => absurd heq (hlock (by rw [hpc]; rfl))⟩ fun _ _ => Iff.rfl
    · rename_i hpc hkind
      rw [(h.tracked.slow t task ht hkind hlive).2, if_pos rfl] at hstep
      cases hstep
      exact h.move ht (hrefs _) rfl rfl rfl (.inl hlive)
        ⟨nofun, fun heq => absurd heq (hlock (by rw [hpc]; rfl))⟩ fun _ _ => Iff.rfl
    · cases hstep
  | acquires =>
    simp only [Reconnecting.stepTask] at hstep
    split at hstep
    · rename_i hpc hnone
      cases hstep
      refine h.move ht ⟨rfl, rfl, rfl, rfl, rfl, rfl, rfl, rfl⟩ rfl rfl rfl (.inl hlive)
        ⟨fun _ => rfl, fun _ => rfl⟩ ?_
      intro t' hne
      rw [hnone]
      exact ⟨nofun, fun heq => absurd (Option.some.inj heq).symm hne⟩
    · cases hstep
  | opens =>
    simp only [Reconnecting.stepTask] at hstep
    split at hstep
    · rename_i hpc
      cases hstep
      exact h.move ht ⟨rfl, rfl, rfl, rfl, rfl, rfl, rfl, rfl⟩ rfl rfl rfl (.inl hlive)
        ⟨fun _ => hheld.1 (by rw [hpc]; rfl), fun _ => rfl⟩ fun _ _ => Iff.rfl
    · cases hstep
  | connects =>
    simp only [Reconnecting.stepTask] at hstep
    split at hstep
    · rename_i hpc hws
      cases hstep
      exact h.connected ht hlive (hheld.1 (by rw [hpc]; rfl)) hws
    · cases hstep
  | fails _ windowOver =>
    simp only [Reconnecting.stepTask] at hstep
    split at hstep
    · rename_i hpc
      cases hstep
      exact h.attemptFails ht hlive (hheld.1 (by rw [hpc]; rfl)) s.ws windowOver
    · rename_i hpc
      cases hstep
      exact h.move ht (hrefs _) rfl rfl rfl (.inl hlive)
        ⟨fun _ => hheld.1 (by rw [hpc]; rfl), fun _ => rfl⟩ fun _ _ => Iff.rfl
    · cases hstep
  | cleans _ windowOver =>
    simp only [Reconnecting.stepTask] at hstep
    split at hstep
    · rename_i hpc
      cases hstep
      exact h.attemptFails ht hlive (hheld.1 (by rw [hpc]; rfl)) none windowOver
    · cases hstep
  | _ => cases hstep

theorem Inv.tearDown (h : Inv s) {t : TaskId} {task : Task} (ht : s.tasks t = some task)
    (hstep : tearDown s t task = some s') : Inv s' := by
  have hheld := h.tracked.held t task ht
  unfold Reconnecting.tearDown at hstep
  split at hstep
  · rename_i hpc
    have hholds : task.pc.holdsLock = true := by rw [hpc]; rfl
    obtain ⟨listeners, heq⟩ := cancelListener_eq
      (s.setTask t (some { task with pc := .stopsListener }))
    rw [heq] at hstep
    cases hstep
    exact h.move ht ⟨rfl, rfl, rfl, rfl, rfl, rfl, rfl, rfl⟩ rfl rfl rfl (.inr hholds)
      ⟨fun _ => hheld.1 hholds, fun _ => rfl⟩ fun _ _ => Iff.rfl
  · rename_i hpc
    have hholds : task.pc.holdsLock = true := by rw [hpc]; rfl
    cases hstep
    exact h.move ht ⟨rfl, rfl, rfl, rfl, rfl, rfl, rfl, rfl⟩ rfl rfl rfl (.inr hholds)
      ⟨fun _ => hheld.1 hholds, fun _ => rfl⟩ fun _ _ => Iff.rfl
  · rename_i hpc
    have hholds : task.pc.holdsLock = true := by rw [hpc]; rfl
    split at hstep
    · rename_i hcancelled
      cases hstep
      exact h.finish ht ⟨rfl, rfl, rfl, rfl, rfl, rfl, rfl, rfl⟩ rfl hcancelled (.inl hholds)
        ⟨rfl, rfl⟩ (released (hheld.1 hholds))
    · cases hstep
      exact h.move ht ⟨rfl, rfl, rfl, rfl, rfl, rfl, rfl, rfl⟩ rfl rfl rfl (.inr hholds)
        ⟨fun _ => hheld.1 hholds, fun _ => rfl⟩ fun _ _ => Iff.rfl
  · cases hstep

theorem Inv.stopTask (h : Inv s) {t : TaskId} {task : Task} (ht : s.tasks t = some task)
    (hcancelled : task.cancelled = true) (hstep : stopTask s t task = some s') : Inv s' := by
  have hheld := h.tracked.held t task ht
  unfold Reconnecting.stopTask at hstep
  split at hstep
  · cases hstep
    exact h.finish ht ⟨rfl, rfl, rfl, rfl, rfl, rfl, rfl, rfl⟩ rfl hcancelled (.inr ⟨rfl, rfl⟩)
      ⟨rfl, rfl⟩ fun _ _ => Iff.rfl
  · cases hstep
    exact h.finish ht ⟨rfl, rfl, rfl, rfl, rfl, rfl, rfl, rfl⟩ rfl hcancelled (.inr ⟨rfl, rfl⟩)
      ⟨rfl, rfl⟩ fun _ _ => Iff.rfl
  · rename_i hpc
    have hholds : task.pc.holdsLock = true := by rw [hpc]; rfl
    cases hstep
    exact h.finish ht ⟨rfl, rfl, rfl, rfl, rfl, rfl, rfl, rfl⟩ rfl hcancelled (.inl hholds)
      ⟨rfl, rfl⟩ (released (hheld.1 hholds))
  · rename_i hpc
    have hholds : task.pc.holdsLock = true := by rw [hpc]; rfl
    cases hstep
    exact h.move ht ⟨rfl, rfl, rfl, rfl, rfl, rfl, rfl, rfl⟩ rfl rfl rfl (.inr hholds)
      ⟨fun _ => hheld.1 hholds, fun _ => rfl⟩ fun _ _ => Iff.rfl
  · rename_i hpc
    have hholds : task.pc.holdsLock = true := by rw [hpc]; rfl
    cases hstep
    exact h.finish ht ⟨rfl, rfl, rfl, rfl, rfl, rfl, rfl, rfl⟩ rfl hcancelled (.inl hholds)
      ⟨rfl, rfl⟩ (released (hheld.1 hholds))
  · cases hstep

/-- One step keeps the invariant. -/
theorem Inv.step (h : Inv s) {a : Action} (hstep : step s a = some s') : Inv s' := by
  have htask : ∀ {t}, ((s.tasks t).bind fun task =>
      if task.cancelled then none else Reconnecting.stepTask s t task a) = some s' → Inv s' := by
    intro t hstep
    obtain ⟨task, ht, hrest⟩ := Option.bind_eq_some_iff.1 hstep
    cases hcancelled : task.cancelled with
    | true =>
      rw [if_pos hcancelled] at hrest
      cases hrest
    | false =>
      rw [if_neg (ne_true_of_eq_false hcancelled)] at hrest
      exact h.stepTask ht hcancelled hrest
  cases a with
  | drops l =>
    simp only [Reconnecting.step] at hstep
    split at hstep
    · cases hstep
      exact h.drops _
    · cases hstep
  | listenerStops l =>
    simp only [Reconnecting.step] at hstep
    split at hstep
    · rename_i socket hl
      cases hstep
      refine ⟨h.tracked.client s.ws s.listenerTask _, ?_⟩
      intro hopen
      rcases h.alive hopen with hconnected | hretrying | hdegraded
      · -- the listener that is stopped is not the current one, which nobody has cancelled
        obtain ⟨hhealth, hlock, hexhausted, hnone, l', socket', hcurrent, hws, hlistens⟩ := hconnected
        have hne : l' ≠ l := by
          intro heq
          rw [heq, hl] at hlistens
          cases hlistens
        exact .inl ⟨hhealth, hlock, hexhausted, hnone, l', socket', hcurrent, hws,
          (Function.update_of_ne hne ..).trans hlistens⟩
      · exact .inr (.inl hretrying)
      · exact .inr (.inr hdegraded)
    · cases hstep
  | probe =>
    simp only [Reconnecting.step, h.probe_eq, Option.some.injEq] at hstep
    exact hstep ▸ h
  | triggerReconnect =>
    simp only [Reconnecting.step, Option.some.injEq] at hstep
    subst hstep
    refine ⟨h.tracked.trigger.ensureReconnecting, ?_⟩
    intro hopen
    rw [triggerReconnect_closed] at hopen
    exact .inr (.inl (h.trigger hopen))
  | close =>
    refine ⟨h.tracked.close hstep, ?_⟩
    intro hopen
    simp only [Reconnecting.step, Option.some.injEq] at hstep
    obtain ⟨tasks, heq, -⟩ :=
      cancelSlowRetry_eq { s with closed := true, log := s.log ++ [.closeCalled] }
    rw [heq] at hstep
    split at hstep
    · subst hstep
      cases hopen
    · obtain ⟨tasks', heq', -⟩ := cancelTask_eq
        { s with closed := true, log := s.log ++ [.closeCalled], tasks, slowRetryTask := none }
        s.reconnectTask
      rw [heq'] at hstep
      subst hstep
      cases hopen
  | closeCancels =>
    simp only [Reconnecting.step] at hstep
    split at hstep
    · rename_i hclosed
      cases hstep
      refine ⟨h.tracked.closeCancels hclosed, ?_⟩
      obtain ⟨tasks, heq, -⟩ := cancelTask_eq s s.reconnectTask
      rw [heq]
      exact fun hopen => absurd (hclosed.symm.trans hopen) nofun
    · cases hstep
  | closeTearsDown =>
    simp only [Reconnecting.step] at hstep
    split at hstep
    · rename_i hclosed
      obtain ⟨listeners, heq⟩ := cancelListener_eq s
      rw [heq] at hstep
      cases hstep
      exact ⟨h.tracked.client none none listeners,
        fun hopen => absurd (hclosed.symm.trans hopen) nofun⟩
    · cases hstep
  | tearsDown t =>
    obtain ⟨task, ht, hrest⟩ := Option.bind_eq_some_iff.1 hstep
    exact h.tearDown ht hrest
  | stops t =>
    obtain ⟨task, ht, hrest⟩ := Option.bind_eq_some_iff.1 hstep
    split at hrest
    · exact h.stopTask ht ‹_› hrest
    · cases hrest
  | cleans t windowOver =>
    obtain ⟨task, ht, hrest⟩ := Option.bind_eq_some_iff.1 hstep
    have hheld := h.tracked.held t task ht
    split at hrest
    · rename_i hcancelled
      split at hrest
      · rename_i hpc
        have hholds : task.pc.holdsLock = true := by rw [hpc]; rfl
        cases hrest
        exact h.finish ht ⟨rfl, rfl, rfl, rfl, rfl, rfl, rfl, rfl⟩ rfl hcancelled (.inl hholds)
          ⟨rfl, rfl⟩ (released (hheld.1 hholds))
      · cases hrest
    · rename_i hcancelled
      exact h.stepTask ht (eq_false_of_ne_true hcancelled) hrest
  | _ => exact htask hstep

/-- After the first `connect()`. -/
theorem Inv.connect (succeeds : Bool) : Inv (connect succeeds) := by
  have hempty : Tracked {} := {
    held := nofun
    reconnect := nofun
    reconnectKind := nofun
    slow := nofun
    slowRetry := nofun
    closed := nofun
    opened := nofun
    fresh := fun _ _ => rfl
    freshReconnect := nofun
    freshSlow := nofun
    freshLock := nofun
    logged := nofun
    quiet := .nil }
  cases succeeds with
  | true =>
    refine ⟨?_, fun _ => .inl ⟨rfl, rfl, rfl, nofun, 0, 0, rfl, rfl, rfl⟩⟩
    refine hempty.idle nofun nofun rfl rfl rfl rfl rfl rfl ?_ (List.pairwise_singleton ..)
    intro hmem
    cases List.mem_singleton.1 hmem
  | false =>
    have hretries : Retrying (ensureReconnecting {}) := ensures rfl rfl nofun
    exact ⟨hempty.ensureReconnecting, fun _ => .inr (.inl hretries)⟩

theorem inv_of_reachable {succeeds : Bool} (h : Reachable step (connect succeeds) s) : Inv s :=
  h.invariant (.connect succeeds) fun _ _ _ hs _ hstep => hs.step hstep

-- ---------------------------------------------------------------------------
-- Supervision
-- ---------------------------------------------------------------------------

/-- `trigger_reconnect` returns the job of a live reconnect task and leaves what there is
to it. -/
theorem Inv.coalesces (h : Inv s) {t : TaskId} {task : Task} (ht : s.tasks t = some task)
    (hkind : task.kind = .reconnect) :
    s.triggerReconnect.2 = some t ∧ s.triggerReconnect.1.tasks t = some task ∧
      s.triggerReconnect.1.log = s.log := by
  obtain ⟨htask, hjob, -⟩ := h.tracked.reconnect t task ht hkind
  obtain ⟨tasks, heq, -, hsame, -⟩ := cancelSlowRetry_eq { s with exhausted := false }
  have hkept : tasks t = some task := by
    refine (hsame t ?_).trans ht
    intro hretry
    cases hkind.symm.trans (h.tracked.slowRetry t task hretry ht).1
  unfold Wrapper.triggerReconnect
  rw [heq]
  rcases ensureReconnecting_cases { s with tasks, exhausted := false, slowRetryTask := none } with
    ⟨hidle, -⟩ | ⟨-, -, hdone, -⟩
  · rw [hidle]
    exact ⟨hjob, hkept, rfl⟩
  · have hnone := not_live hdone htask
    cases hkept.symm.trans hnone

/-- Where no reconnect task is live the job it returns is the one it starts. -/
theorem Inv.triggers (h : Inv s) (hopen : s.closed = false) :
    ∃ t task, s.triggerReconnect.2 = some t ∧ s.triggerReconnect.1.tasks t = some task ∧
      task.kind = .reconnect := by
  obtain ⟨t, task, ht, hkind⟩ := (h.trigger hopen).2
  have htracked := h.tracked.trigger.ensureReconnecting
  exact ⟨t, task, (htracked.reconnect t task ht hkind).2.1, ht, hkind⟩

theorem Inv.one_reconnect (h : Inv s) {t t' : TaskId} {task task' : Task}
    (ht : s.tasks t = some task) (ht' : s.tasks t' = some task') (hkind : task.kind = .reconnect)
    (hkind' : task'.kind = .reconnect) : t = t' := by
  have hfirst := (h.tracked.reconnect t task ht hkind).1
  have hsecond := (h.tracked.reconnect t' task' ht' hkind').1
  exact Option.some.inj (hfirst.symm.trans hsecond)

/-- The connect lock admits one `_do_connect`. -/
theorem Inv.one_connect (h : Inv s) {t t' : TaskId} {task task' : Task}
    (ht : s.tasks t = some task) (ht' : s.tasks t' = some task') (hpc : task.pc.connects = true)
    (hpc' : task'.pc.connects = true) : t = t' := by
  have hholds : ∀ {pc : Pc}, pc.connects = true → pc.holdsLock = true := by
    intro pc hconnects
    cases pc with
    | handshaking => rfl
    | cleaningUp => rfl
    | _ => cases hconnects
  have hfirst := (h.tracked.held t task ht).1 (hholds hpc)
  have hsecond := (h.tracked.held t' task' ht').1 (hholds hpc')
  exact Option.some.inj (hfirst.symm.trans hsecond)

theorem Inv.drop_enabled (h : Inv s) (hopen : s.closed = false)
    (hconnected : s.health.state = .connected) {l : ListenerId} (hl : s.listenerTask = some l) :
    ∃ s', Reconnecting.step s (.drops l) = some s' ∧ Retrying s' := by
  rcases h.alive hopen with halive | hretrying | hdegraded
  · obtain ⟨-, -, -, -, l', socket, hl', -, hlistens⟩ := id halive
    obtain rfl : l' = l := Option.some.inj (hl'.symm.trans hl)
    refine ⟨_, ?_, h.drop hopen halive (Function.update s.listeners l' none)⟩
    simp only [Reconnecting.step, hlistens]
  · cases hconnected.symm.trans hretrying.1
  · cases hconnected.symm.trans hdegraded.1

/-- After the first `connect()`, in every interleaving: something brings the connection
back until `close()`, one task at a time, and nothing starts after it. -/
theorem reconnection (succeeds : Bool) (h : Reachable step (connect succeeds) s) :
    (s.closed = false →
      (Connected s ∨ Retrying s ∨ Degraded s) ∧
        (∀ l, s.health.state = .connected → s.listenerTask = some l →
          ∃ s', step s (.drops l) = some s' ∧ Retrying s') ∧
        ∃ t task, s.triggerReconnect.2 = some t ∧ s.triggerReconnect.1.tasks t = some task ∧
          task.kind = .reconnect) ∧
      (∀ t task, s.tasks t = some task → task.kind = .reconnect →
        s.triggerReconnect.2 = some t ∧ s.triggerReconnect.1.tasks t = some task ∧
          s.triggerReconnect.1.log = s.log) ∧
      (∀ t t' task task', s.tasks t = some task → s.tasks t' = some task' →
        task.kind = .reconnect → task'.kind = .reconnect → t = t') ∧
      (∀ t t' task task', s.tasks t = some task → s.tasks t' = some task' →
        task.pc.connects = true → task'.pc.connects = true → t = t') ∧
      s.log.Pairwise fun d e => d = .closeCalled → e = .closeCalled := by
  have hinv := inv_of_reachable h
  refine ⟨?_, ?_, ?_, ?_, hinv.tracked.quiet⟩
  · intro hopen
    exact ⟨hinv.alive hopen, fun l hconnected hl => hinv.drop_enabled hopen hconnected hl,
      hinv.triggers hopen⟩
  · intro t task ht hkind
    exact hinv.coalesces ht hkind
  · intro t t' task task' ht ht' hkind hkind'
    exact hinv.one_reconnect ht ht' hkind hkind'
  · intro t t' task task' ht ht' hpc hpc'
    exact hinv.one_connect ht ht' hpc hpc'

/-- The first connect fails, and the window passes while the slow retry takes over; the
admin trigger cancels it in its handshake and the reconnect task waits for the lock. -/
theorem reconnection_overtaken :
    ∃ s t, run step (connect false)
        [.acquires 0, .tearsDown 0, .tearsDown 0, .tearsDown 0, .fails 0 true, .wakes 1,
          .acquires 1, .tearsDown 1, .tearsDown 1, .tearsDown 1, .opens 1, .triggerReconnect,
          .stops 1] = some s ∧
      s.lock = some 1 ∧ s.tasks t = some { kind := .reconnect, pc := .acquiring } ∧
        s.triggerReconnect.2 = some t := by
  obtain ⟨s, hs⟩ : ∃ s, run step (connect false)
      [.acquires 0, .tearsDown 0, .tearsDown 0, .tearsDown 0, .fails 0 true, .wakes 1,
        .acquires 1, .tearsDown 1, .tearsDown 1, .tearsDown 1, .opens 1, .triggerReconnect,
        .stops 1] = some s := ⟨_, rfl⟩
  have hreachable := reachable_of_run hs
  cases hs
  exact ⟨_, 2, rfl, rfl, rfl, ((reconnection false hreachable).2.1 2 _ rfl rfl).1⟩

end Reconnecting
