-- SUMMARY: The sockets of a transcriber session under cancellation: each one opened is closed, or has a task that will close it.
import JotaGateway.Base.Transition
import JotaGateway.Services.Reconnection
import Mathlib.Logic.Function.Basic

/-!
# The sockets of a transcriber session

`start()`, `run()` and the calls of `close()` share one `TranscriberClient` and
its socket. An action takes one of them from a suspension to the next. A
cancellation may reach `start()` and `run()` at any of their awaits; one of
`close()` is noted by its `Teardown` and skips none of its steps.
-/

namespace Transcriber

open Transition

abbrev Socket := Nat

-- ---------------------------------------------------------------------------
-- The client
-- ---------------------------------------------------------------------------

/-- `TranscriberClient`. -/
structure Client where
  ws : Option Socket := none
  isReady : Bool := false
  droppedUnexpectedly : Bool := false
  /-- the sockets that `websockets.connect` has returned are those below -/
  opened : Nat := 0
  /-- `ws.close()` has been called -/
  closeInvoked : Socket → Bool := fun _ => false
  /-- the network has ended the connection -/
  ended : Socket → Bool := fun _ => false

/-- Where `connect` is suspended. -/
inductive ConnectPc where
  /-- in `websockets.connect` -/
  | opening
  /-- in `ws.send(config)` -/
  | sending
  /-- in `ws.recv()`, under `wait_for` -/
  | receiving
  /-- in `ws.close()`, for an exception or a cancellation -/
  | closing (cancelled : Bool)
  deriving DecidableEq

/-- How `connect` ends. -/
inductive ConnectEnd where
  | ready
  | failed
  | cancelled
  deriving DecidableEq

inductive ConnectAct where
  | opened
  | sent
  /-- the `ready` frame -/
  | ready
  /-- an `Exception`: of the socket, the limit of `recv`, a bad frame or an `error` frame -/
  | fails
  /-- `ws.close()` returns or raises -/
  | closed
  | cancelled
  deriving DecidableEq

namespace Client

def invokeClose (c : Client) (w : Socket) : Client :=
  { c with closeInvoked := Function.update c.closeInvoked w true }

/-- The `finally` of `connect` without `ok`. -/
def leave (c : Client) (cancelled : Bool) : Client × (ConnectPc ⊕ ConnectEnd) :=
  match c.ws with
  | some w => (c.invokeClose w, .inl (.closing cancelled))
  | none => (c, .inr (if cancelled then .cancelled else .failed))

/-- `connect`. A cancellation of `ws.close()` leaves `self.ws` as it is. -/
def connect (c : Client) : ConnectPc → ConnectAct → Option (Client × (ConnectPc ⊕ ConnectEnd))
  | .opening, .opened => some ({ c with ws := some c.opened, opened := c.opened + 1 }, .inl .sending)
  | .sending, .sent => some (c, .inl .receiving)
  | .receiving, .ready => some ({ c with isReady := true }, .inr .ready)
  | .closing cancelled, .closed =>
    some ({ c with ws := none }, .inr (if cancelled then .cancelled else .failed))
  | .closing _, .cancelled => some (c, .inr .cancelled)
  | .opening, .fails | .sending, .fails | .receiving, .fails => some (c.leave false)
  | .opening, .cancelled | .sending, .cancelled | .receiving, .cancelled => some (c.leave true)
  | _, _ => none

/-- `close()` up to its `ws.close()`, and whether there is one to wait for. -/
def close (c : Client) : Client × Bool :=
  match c.ws with
  | some w => ({ c with isReady := false }.invokeClose w, true)
  | none => ({ c with isReady := false }, false)

/-- The connection is over: the network ended it, or `ws.close()` was called. A socket whose
`ws.close()` was cancelled counts as over too, although its transport may still be there. -/
def isOver (c : Client) (w : Socket) : Bool := c.closeInvoked w || c.ended w

end Client

-- ---------------------------------------------------------------------------
-- The session
-- ---------------------------------------------------------------------------

namespace Supervision

/-- Where `start()` is. -/
inductive StartPc where
  | idle
  | connecting (pc : ConnectPc)
  /-- it closes a client that a `close()` meanwhile has left -/
  | closing
  | returned
  | cancelled
  deriving DecidableEq

/-- Where the task of `run()` is. -/
inductive RunPc where
  | idle
  /-- created by `JotaBridge.run`, not run yet -/
  | spawned
  | connecting (pc : ConnectPc)
  /-- between two attempts of `reconnect_with_backoff` -/
  | sleeping
  | listening (w : Socket)
  /-- in a callback of `listen_loop` -/
  | callback (w : Socket)
  | done
  deriving DecidableEq

/-- Where a call of `close()` is. -/
inductive ClosePc where
  | idle
  /-- `td.cancel(self._run_task, ..)` -/
  | waitsRun
  /-- the task of `self._client.close()` has been created -/
  | closes
  /-- in its `ws.close()` -/
  | closing
  | returned
  deriving DecidableEq

structure State where
  client : Client := {}
  health : ServiceHealth := { state := .degraded }
  /-- `_closed` -/
  closed : Bool := false
  start : StartPc := .idle
  run : RunPc := .idle
  /-- a cancellation of the task of `run()` that it has not got yet -/
  cancelReq : Bool := false
  closers : Nat → ClosePc := fun _ => .idle

def RunPc.live : RunPc → Bool
  | .idle | .done => false
  | _ => true

/-- `run()` has set `_run_task`, and has not ended. -/
def RunPc.begun : RunPc → Bool
  | .idle | .spawned | .done => false
  | _ => true

namespace State

variable (s : State)

def endRun : State := { s with run := .done }

def setCloser (k : Nat) (pc : ClosePc) : State := { s with closers := Function.update s.closers k pc }

/-- `run()` calls `listen_loop`. -/
def listen : State :=
  let s := { s with client.droppedUnexpectedly := false }
  match s.client.ws with
  | some w => { s with run := .listening w }
  | none => s.endRun

/-- `run()` from the head of its loop. -/
def loop : State :=
  if s.closed then s.endRun
  else if s.health.state = .connected then s.listen
  else { s with run := .connecting .opening }

/-- `run()` once `listen_loop` has returned. -/
def afterListening : State :=
  if s.closed then s.endRun
  else if s.client.droppedUnexpectedly then loop { s with health := s.health.setState .reconnecting }
  else s.endRun

/-- `start()` once `connect` has ended. -/
def afterStart : ConnectEnd → State
  | .cancelled => { s with start := .cancelled }
  | end_ =>
    let s := match end_ with
      | .ready => { s with health := s.health.markConnected }
      | _ => { s with health := s.health.setState .reconnecting }
    if s.closed then
      let (client, waits) := s.client.close
      { s with client := client, start := if waits then .closing else .returned }
    else { s with start := .returned }

/-- `run()` once an attempt to connect has ended; `exhausted` says that `max_duration` has passed. -/
def afterAttempt (exhausted : Bool) : ConnectEnd → State
  | .ready => listen { s with health := s.health.markConnected }
  | .failed =>
    if exhausted then { s with health := s.health.setState .degraded }.endRun
    else { s with run := .sleeping }
  | .cancelled => s.endRun

end State

inductive Action where
  | startCalled
  | starts (a : ConnectAct)
  /-- the `ws.close()` at the end of `start()` returns -/
  | startCloses
  | startCancelled
  | runSpawned
  | runStarts
  | connects (a : ConnectAct) (exhausted : Bool)
  /-- the sleep of the backoff is over -/
  | wakes
  /-- the socket of `listen_loop` ends it, with `ConnectionClosed` or without an exception -/
  | learns (raises clean : Bool)
  | calls
  | callbackReturns
  /-- a callback raises an `Exception` -/
  | crashes
  /-- a callback gets the cancellation and does not pass it on -/
  | swallows
  | runCancelled
  /-- `close_all` cancels the task of `run()` -/
  | cancelRun
  /-- `send_audio` and `send_end` meet a closed connection -/
  | sendFails
  | drops (w : Socket)
  | closeCalled (k : Nat)
  /-- what `close()` waits for is done, or its limit reached -/
  | closerWaited (k : Nat)

/-- What an action does, and `none` where it cannot happen. -/
def step (s : State) : Action → Option State
  | .startCalled =>
    if s.start = .idle then
      some { s with start := if s.closed then .returned else .connecting .opening }
    else none
  | .starts a =>
    match s.start with
    | .connecting pc => (s.client.connect pc a).map fun
      | (client, .inl pc) => { s with client := client, start := .connecting pc }
      | (client, .inr end_) => { s with client := client }.afterStart end_
    | _ => none
  | .startCloses => if s.start = .closing then some { s with start := .returned } else none
  | .startCancelled => if s.start = .closing then some { s with start := .cancelled } else none
  | .runSpawned =>
    if s.start = .returned ∧ s.run = .idle then some { s with run := .spawned } else none
  | .runStarts =>
    if s.run = .spawned ∧ s.cancelReq = false then some s.loop else none
  | .connects a exhausted =>
    match s.run with
    | .connecting pc =>
      -- a pending cancellation is what the task gets next
      if s.cancelReq = decide (a = .cancelled) then
        (s.client.connect pc a).map fun
          | (client, .inl pc) =>
            { s with client := client, run := .connecting pc, cancelReq := false }
          | (client, .inr end_) =>
            { s with client := client, cancelReq := false }.afterAttempt exhausted end_
      else none
    | _ => none
  | .wakes =>
    if s.run = .sleeping ∧ s.cancelReq = false then some { s with run := .connecting .opening }
    else none
  | .learns raises clean =>
    match s.run with
    | .listening w =>
      if s.cancelReq = false ∧ s.client.isOver w = true then
        some (if raises then
          { s with
            client.droppedUnexpectedly :=
              s.client.droppedUnexpectedly || (s.client.isReady && !clean)
            client.isReady := false }.afterListening
        else s.afterListening)
      else none
    | _ => none
  | .calls =>
    match s.run with
    | .listening w => if s.cancelReq then none else some { s with run := .callback w }
    | _ => none
  | .callbackReturns =>
    match s.run with
    | .callback w => if s.cancelReq then none else some { s with run := .listening w }
    | _ => none
  | .crashes =>
    match s.run with
    | .callback _ => some { s with health := s.health.setState .degraded, cancelReq := false }.endRun
    | _ => none
  | .swallows =>
    match s.run with
    | .callback w =>
      if s.cancelReq then some { s with run := .callback w, cancelReq := false } else none
    | _ => none
  | .runCancelled =>
    match s.run with
    | .spawned | .sleeping | .listening _ | .callback _ =>
      if s.cancelReq then some { s with cancelReq := false }.endRun else none
    | _ => none
  | .cancelRun => if s.run.live then some { s with cancelReq := true } else none
  | .sendFails =>
    match s.client.ws with
    | some w => if s.client.isOver w then some { s with client.isReady := false } else none
    | none => none
  | .drops w =>
    if w < s.client.opened then
      some { s with client.ended := Function.update s.client.ended w true }
    else none
  | .closeCalled k =>
    if s.closers k = .idle then
      -- a `_run_task` that has ended is neither cancelled nor waited for
      if s.run.begun then
        some (State.setCloser { s with closed := true, cancelReq := true } k .waitsRun)
      else some (State.setCloser { s with closed := true } k .closes)
    else none
  | .closerWaited k =>
    match s.closers k with
    | .waitsRun => some (s.setCloser k .closes)
    | .closes =>
      let (client, waits) := s.client.close
      some ({ s with client := client }.setCloser k (if waits then .closing else .returned))
    | .closing => some (s.setCloser k .returned)
    | _ => none

-- ---------------------------------------------------------------------------
-- What the client keeps
-- ---------------------------------------------------------------------------

end Supervision

namespace Client

variable {c c' : Client} {pc : ConnectPc} {a : ConnectAct} {r : ConnectPc ⊕ ConnectEnd}

/-- The client has nothing open. -/
def spent (c : Client) : Prop := ∀ w, c.ws = some w → c.isOver w = true

/-- The only socket that may be open is the client's. -/
structure Kept (c : Client) : Prop where
  bound : ∀ w, c.ws = some w → w < c.opened
  others : ∀ w, w < c.opened → c.isOver w = true ∨ c.ws = some w

/-- `connect` opens a socket over one that is over, and waits for the close of one it has closed. -/
def At (c : Client) : ConnectPc → Prop
  | .opening | .closing _ => c.spent
  | .sending | .receiving => True

/-- It leaves nothing open, unless it is ready. -/
def After (c : Client) : ConnectPc ⊕ ConnectEnd → Prop
  | .inl pc => c.At pc
  | .inr .ready => True
  | .inr _ => c.spent

theorem spent_of_none (h : c.ws = none) : c.spent := by
  intro w hw
  rw [h] at hw
  cases hw

theorem isOver_invokeClose (c : Client) (w : Socket) : (c.invokeClose w).isOver w = true := by
  simp only [isOver, invokeClose, Function.update_self, Bool.true_or]

theorem isOver_invokeClose_of_isOver {w w' : Socket} (h : c.isOver w' = true) :
    (c.invokeClose w).isOver w' = true := by
  rcases eq_or_ne w' w with rfl | hne
  · exact isOver_invokeClose c w'
  · simpa only [isOver, invokeClose, Function.update_of_ne hne] using h

theorem Kept.invokeClose (h : c.Kept) (w : Socket) : (c.invokeClose w).Kept :=
  ⟨h.bound, fun w' hw' => (h.others w' hw').imp isOver_invokeClose_of_isOver id⟩

theorem spent_invokeClose {w : Socket} (h : c.ws = some w) : (c.invokeClose w).spent := by
  intro w' hw'
  obtain rfl : w = w' := Option.some.inj (h.symm.trans hw')
  exact isOver_invokeClose c w

theorem leave_after (h : c.Kept) (cancelled : Bool) :
    (c.leave cancelled).1.Kept ∧ (c.leave cancelled).1.After (c.leave cancelled).2 := by
  unfold leave
  split
  · rename_i w hws
    exact ⟨h.invokeClose w, spent_invokeClose hws⟩
  · rename_i hws
    refine ⟨h, ?_⟩
    cases cancelled <;> exact spent_of_none hws

theorem connect_after (h : c.Kept) (hat : c.At pc) (hstep : c.connect pc a = some (c', r)) :
    c'.Kept ∧ c'.After r := by
  unfold connect at hstep
  split at hstep
  case h_1 =>
    cases hstep
    refine ⟨⟨fun w hw => ?_, fun w hw => ?_⟩, trivial⟩
    · obtain rfl : c.opened = w := Option.some.inj hw
      exact Nat.lt_succ_self _
    · rcases Nat.lt_succ_iff_lt_or_eq.mp hw with hlt | rfl
      · exact .inl ((h.others w hlt).elim id (hat w))
      · exact .inr rfl
  case h_2 | h_3 =>
    cases hstep
    exact ⟨⟨h.bound, h.others⟩, trivial⟩
  case h_4 cancelled =>
    cases hstep
    refine ⟨⟨fun w hw => (by cases hw), fun w hw => .inl ((h.others w hw).elim id (hat w))⟩, ?_⟩
    cases cancelled <;> exact spent_of_none rfl
  case h_5 =>
    cases hstep
    exact ⟨h, hat⟩
  case h_6 | h_7 | h_8 =>
    have heq := Option.some.inj hstep
    rw [← show (c.leave false).1 = c' from congrArg Prod.fst heq,
      ← show (c.leave false).2 = r from congrArg Prod.snd heq]
    exact leave_after h false
  case h_9 | h_10 | h_11 =>
    have heq := Option.some.inj hstep
    rw [← show (c.leave true).1 = c' from congrArg Prod.fst heq,
      ← show (c.leave true).2 = r from congrArg Prod.snd heq]
    exact leave_after h true
  case h_12 => cases hstep

/-- A cancelled `connect` closes what it has opened and goes on to nothing else. -/
theorem connect_cancelled (hstep : c.connect pc .cancelled = some (c', r)) :
    r = .inl (.closing true) ∨ r = .inr .cancelled := by
  have hleave : (c.leave true).2 = .inl (.closing true) ∨ (c.leave true).2 = .inr .cancelled := by
    unfold leave
    split
    · exact .inl rfl
    · exact .inr rfl
  have hreturns : c.leave true = (c', r) → r = .inl (.closing true) ∨ r = .inr .cancelled := by
    intro heq
    rw [heq] at hleave
    exact hleave
  cases pc with
  | closing =>
    cases hstep
    exact .inr rfl
  | _ => exact hreturns (Option.some.inj hstep)

theorem connect_closing (hstep : c.connect (.closing true) a = some (c', r)) : r = .inr .cancelled := by
  cases a with
  | closed | cancelled =>
    cases hstep
    rfl
  | _ => cases hstep

/-- A call of `close` leaves nothing open. -/
theorem close_spent (h : c.Kept) : c.close.1.Kept ∧ c.close.1.spent := by
  have hkept : Kept { c with isReady := false } := ⟨h.bound, h.others⟩
  unfold close
  split
  · rename_i w hws
    exact ⟨hkept.invokeClose w, spent_invokeClose hws⟩
  · rename_i hws
    exact ⟨hkept, spent_of_none hws⟩

end Client

namespace Client

/-- Only more of the sockets are over. -/
structure Fades (c c' : Client) : Prop where
  ws : c'.ws = c.ws
  opened : c'.opened = c.opened
  grows : ∀ w, c.isOver w = true → c'.isOver w = true

variable {c c' : Client} {pc : ConnectPc}

theorem Fades.refl (c : Client) : Fades c c := ⟨rfl, rfl, fun _ h => h⟩

theorem Fades.kept (h : Fades c c') (hkept : c.Kept) : c'.Kept := by
  refine ⟨fun w hw => ?_, fun w hw => ?_⟩
  · rw [h.opened]
    exact hkept.bound w (h.ws ▸ hw)
  · rw [h.ws]
    exact (hkept.others w (h.opened ▸ hw)).imp_left (h.grows w)

theorem Fades.spent (h : Fades c c') (hspent : c.spent) : c'.spent :=
  fun w hw => h.grows w (hspent w (h.ws ▸ hw))

theorem Fades.at (h : Fades c c') (hat : c.At pc) : c'.At pc := by
  cases pc with
  | opening | closing _ => exact h.spent hat
  | sending | receiving => trivial

theorem fades_close (c : Client) : Fades c c.close.1 := by
  unfold close
  split
  · exact ⟨rfl, rfl, fun w hw => isOver_invokeClose_of_isOver hw⟩
  · exact ⟨rfl, rfl, fun _ hw => hw⟩

end Client

-- ---------------------------------------------------------------------------
-- The invariant
-- ---------------------------------------------------------------------------

namespace Supervision

/-- The task goes on to no new socket. -/
def RunPc.stops : RunPc → Bool
  | .idle | .spawned | .done | .listening _ | .callback _ | .connecting (.closing true) => true
  | _ => false

def ClosePc.pending : ClosePc → Bool
  | .waitsRun | .closes => true
  | _ => false

namespace State

variable {s s' : State}

/-- A call of `close()` has still to close the client. -/
def ToClose (s : State) : Prop := ∃ k, (s.closers k).pending = true

def StartAt (s : State) : Prop :=
  match s.start with
  | .idle => s.client.ws = none
  | .connecting pc => s.client.At pc
  | .closing => s.client.spent
  | .returned | .cancelled => True

def RunAt (s : State) : Prop :=
  match s.run with
  | .connecting pc => s.client.At pc
  | .sleeping => s.client.spent
  | .listening w | .callback w => s.client.ws = some w
  | _ => True

theorem StartAt.of_eq {s : State} {pc : StartPc} (h : s.StartAt) (hpc : s.start = pc) :
    StartAt { s with start := pc } := by
  subst hpc
  exact h

theorem RunAt.of_eq {s : State} {pc : RunPc} (h : s.RunAt) (hpc : s.run = pc) :
    RunAt { s with run := pc } := by
  subst hpc
  exact h

/-- Once the session is closed, a socket left open has a task that will close it. -/
def Owned (s : State) : Prop :=
  s.client.spent ∨ s.ToClose ∨ (∃ pc, s.start = .connecting pc) ∨
    ∃ pc, s.run = .connecting pc ∧ s.cancelReq = true

structure Ok (s : State) : Prop where
  kept : s.client.Kept
  order : s.run ≠ .idle → s.start = .returned
  start : s.StartAt
  run : s.RunAt
  stopped : s.closed = true → s.cancelReq = true ∨ s.run.stops = true
  owned : s.closed = true → s.Owned
  /-- where `start()` has failed to connect -/
  unready : s.start = .returned → s.run = .idle ∨ s.run = .spawned → s.health.state ≠ .connected →
    s.client.spent

theorem Ok.init : Ok {} :=
  ⟨⟨fun _ h => (by cases h), fun _ h => absurd h (Nat.not_lt_zero _)⟩, fun h => absurd rfl h, rfl,
    trivial, Bool.noConfusion, Bool.noConfusion, fun h => (by cases h)⟩

/-- While `run()` is at work. -/
theorem Ok.running (hkept : s.client.Kept) (hstart : s.start = .returned) (hrun : s.RunAt)
    (hstopped : s.closed = true → s.cancelReq = true ∨ s.run.stops = true)
    (howned : s.closed = true → s.Owned) (hstarted : s.run ≠ .idle ∧ s.run ≠ .spawned) : Ok s := by
  refine ⟨hkept, fun _ => hstart, ?_, hrun, hstopped, howned, fun _ hidle => ?_⟩
  · unfold StartAt
    rw [hstart]
    exact trivial
  · rcases hidle with heq | heq
    · exact absurd heq hstarted.1
    · exact absurd heq hstarted.2

theorem Ok.toClose (h : Ok s) (hstart : s.start = .returned) (hrun : ∀ pc, s.run ≠ .connecting pc)
    (hclosed : s.closed = true) : s.client.spent ∨ s.ToClose := by
  rcases h.owned hclosed with hspent | hclose | ⟨pc, hpc⟩ | ⟨pc, hpc, -⟩
  · exact .inl hspent
  · exact .inr hclose
  · rw [hstart] at hpc
    cases hpc
  · exact absurd hpc (hrun pc)

theorem endRun_ok (hkept : s.client.Kept) (hstart : s.start = .returned)
    (howned : s.closed = true → s.client.spent ∨ s.ToClose) : Ok s.endRun :=
  .running hkept hstart trivial (fun _ => .inr rfl) (fun hclosed => (howned hclosed).imp_right .inl)
    ⟨RunPc.noConfusion, RunPc.noConfusion⟩

theorem listen_ok (hkept : s.client.Kept) (hstart : s.start = .returned) (hclosed : s.closed = false) :
    Ok s.listen := by
  have hopen : ¬s.closed = true := Bool.eq_false_iff.mp hclosed
  have hkept' : Client.Kept { s.client with droppedUnexpectedly := false } := ⟨hkept.bound, hkept.others⟩
  unfold listen
  dsimp only
  split
  · rename_i w hws
    exact .running hkept' hstart hws (fun h => absurd h hopen) (fun h => absurd h hopen)
      ⟨RunPc.noConfusion, RunPc.noConfusion⟩
  · exact endRun_ok hkept' hstart fun h => absurd h hopen

theorem loop_ok (hkept : s.client.Kept) (hstart : s.start = .returned)
    (hspent : s.health.state ≠ .connected → s.client.spent)
    (howned : s.closed = true → s.client.spent ∨ s.ToClose) : Ok s.loop := by
  unfold loop
  split
  · exact endRun_ok hkept hstart howned
  · rename_i hopen
    split
    · exact listen_ok hkept hstart (Bool.eq_false_iff.mpr hopen)
    · rename_i hstate
      exact .running hkept hstart (hspent hstate) (fun h => absurd h hopen) (fun h => absurd h hopen)
        ⟨RunPc.noConfusion, RunPc.noConfusion⟩

theorem Ok.fade (h : Ok s) (hfades : s.client.Fades s'.client) (hstart : s'.start = s.start)
    (hrun : s'.run = s.run) (hhealth : s'.health = s.health)
    (hstopped : s'.closed = true → s'.cancelReq = true ∨ s'.run.stops = true)
    (howned : s'.closed = true → s'.Owned) : Ok s' := by
  refine ⟨hfades.kept h.kept, ?_, ?_, ?_, hstopped, howned, ?_⟩
  · rw [hrun, hstart]
    exact h.order
  · have hat := h.start
    unfold StartAt at hat ⊢
    rw [hstart]
    revert hat
    cases s.start with
    | idle => exact hfades.ws.trans
    | connecting pc => exact hfades.at
    | closing => exact hfades.spent
    | _ => exact fun _ => trivial
  · have hat := h.run
    unfold RunAt at hat ⊢
    rw [hrun]
    revert hat
    cases s.run with
    | connecting pc => exact hfades.at
    | sleeping => exact hfades.spent
    | listening w | callback w => exact hfades.ws.trans
    | _ => exact fun _ => trivial
  · rw [hstart, hrun, hhealth]
    exact fun h₁ h₂ h₃ => hfades.spent (h.unready h₁ h₂ h₃)

/-- What owns the sockets does not change. -/
theorem Owned.fade (h : s.Owned) (hfades : s.client.Fades s'.client) (hstart : s'.start = s.start)
    (hrun : s'.run = s.run) (hcancel : s.cancelReq = true → s'.cancelReq = true)
    (hclosers : s'.closers = s.closers) : s'.Owned := by
  rcases h with hspent | hclose | hconnecting | ⟨pc, hpc, hreq⟩
  · exact .inl (hfades.spent hspent)
  · refine .inr (.inl ?_)
    unfold ToClose
    rw [hclosers]
    exact hclose
  · refine .inr (.inr (.inl ?_))
    rw [hstart]
    exact hconnecting
  · refine .inr (.inr (.inr ⟨pc, ?_, hcancel hreq⟩))
    rw [hrun]
    exact hpc

theorem afterListening_ok {w : Socket} (h : Ok s) (hkept : s'.client.Kept) (hrun : s.run = .listening w)
    (hws : s'.client.ws = s.client.ws) (hover : s'.client.isOver w = true)
    (hstart : s'.start = s.start) : Ok s'.afterListening := by
  have hreturned : s'.start = .returned := by
    rw [hstart]
    exact h.order (hrun ▸ RunPc.noConfusion)
  have hspent : s'.client.spent := by
    intro w' hw'
    have hat : s.client.ws = some w := h.run.of_eq hrun
    obtain rfl : w = w' := Option.some.inj (hat.symm.trans (hws ▸ hw'))
    exact hover
  unfold afterListening
  split
  · exact endRun_ok hkept hreturned fun _ => .inl hspent
  · split
    · exact loop_ok hkept hreturned (fun _ => hspent) fun _ => .inl hspent
    · exact endRun_ok hkept hreturned fun _ => .inl hspent

/-- Before `run()` is called. -/
theorem Ok.starting (hkept : s.client.Kept) (hrun : s.run = .idle) (hstart : s.StartAt)
    (howned : s.closed = true → s.Owned)
    (hunready : s.start = .returned → s.health.state ≠ .connected → s.client.spent) : Ok s := by
  refine ⟨hkept, fun h => absurd hrun h, hstart, ?_, fun _ => .inr ?_, howned,
    fun h _ => hunready h⟩
  · unfold RunAt
    rw [hrun]
    exact trivial
  · rw [hrun]
    rfl

theorem closes_ok (hkept : s.client.Kept) (hrun : s.run = .idle)
    (hspent : s.closed = true ∨ s.health.state ≠ .connected → s.client.spent) {pc : StartPc}
    (hpc : pc = .closing ∧ s.client.spent ∨ pc = .returned ∨ pc = .cancelled) :
    Ok { s with start := pc } := by
  refine .starting hkept hrun ?_ (fun h => .inl (hspent (.inl h))) fun _ h => hspent (.inr h)
  rcases hpc with ⟨rfl, hclosing⟩ | rfl | rfl
  · exact hclosing
  · trivial
  · trivial

theorem afterStart_ok {end_ : ConnectEnd} (hkept : s.client.Kept) (hafter : s.client.After (.inr end_))
    (hrun : s.run = .idle) : Ok (s.afterStart end_) := by
  unfold afterStart
  split
  · exact closes_ok hkept hrun (fun _ => hafter) (.inr (.inr rfl))
  · extract_lets s₁
    have hclient : s₁.client = s.client := by
      unfold s₁
      split <;> rfl
    have hrun₁ : s₁.run = .idle := by
      unfold s₁
      split <;> exact hrun
    have hunready : s₁.health.state ≠ .connected → s₁.client.spent := by
      rw [hclient]
      unfold s₁
      split
      · exact fun h => absurd (s.health.setState_state .connected) h
      · rename_i hcancelled hready
        cases end_ with
        | ready => exact absurd rfl hready
        | failed | cancelled => exact fun _ => hafter
    rw [← hclient] at hkept
    split
    · obtain ⟨hkept', hspent⟩ := Client.close_spent hkept
      refine closes_ok (s := { s₁ with client := s₁.client.close.1 }) hkept' hrun₁ (fun _ => hspent) ?_
      split
      · exact .inl ⟨rfl, hspent⟩
      · exact .inr (.inl rfl)
    · rename_i hopen
      refine closes_ok hkept hrun₁ (fun h => ?_) (.inr (.inl rfl))
      exact h.elim (fun h => absurd h hopen) hunready

theorem afterAttempt_ok {end_ : ConnectEnd} {exhausted : Bool} (hkept : s.client.Kept)
    (hafter : s.client.After (.inr end_)) (hstart : s.start = .returned)
    (hready : end_ = .ready → s.closed = false)
    (hstopped : end_ = .failed → s.closed = false) : Ok (s.afterAttempt exhausted end_) := by
  unfold afterAttempt
  split
  · exact listen_ok hkept hstart (hready rfl)
  · have hopen : ¬s.closed = true := Bool.eq_false_iff.mp (hstopped rfl)
    split
    · exact endRun_ok hkept hstart fun _ => .inl hafter
    · exact .running hkept hstart hafter (fun h => absurd h hopen) (fun h => absurd h hopen)
        ⟨RunPc.noConfusion, RunPc.noConfusion⟩
  · exact endRun_ok hkept hstart fun _ => .inl hafter

theorem Ok.run_idle (h : Ok s) (hstart : s.start ≠ .returned) : s.run = .idle := by
  by_contra hrun
  exact hstart (h.order hrun)

theorem starts_ok {a : ConnectAct} (h : Ok s) (hstep : step s (.starts a) = some s') : Ok s' := by
  simp only [step] at hstep
  split at hstep
  · rename_i pc hpc
    have hrun := h.run_idle (hpc ▸ StartPc.noConfusion)
    have hat : s.client.At pc := h.start.of_eq hpc
    obtain ⟨⟨client, r⟩, hconnect, heq⟩ := Option.map_eq_some_iff.mp hstep
    obtain ⟨hkept, hafter⟩ := Client.connect_after h.kept hat hconnect
    cases r with
    | inl pc' =>
      subst heq
      exact .starting hkept hrun hafter (fun _ => .inr (.inr (.inl ⟨pc', rfl⟩))) fun h => (by cases h)
    | inr end_ =>
      subst heq
      exact afterStart_ok hkept hafter hrun
  · cases hstep

theorem pc_of_stops {pc : ConnectPc} (h : (RunPc.connecting pc).stops = true) :
    pc = .closing true := by
  cases pc with
  | closing cancelled =>
    cases cancelled with
    | true => rfl
    | false => cases h
  | _ => cases h

theorem connects_ok {a : ConnectAct} {exhausted : Bool} (h : Ok s)
    (hstep : step s (.connects a exhausted) = some s') : Ok s' := by
  simp only [step] at hstep
  split at hstep
  · rename_i pc hpc
    have hstart := h.order (hpc ▸ RunPc.noConfusion)
    have hat : s.client.At pc := h.run.of_eq hpc
    split at hstep
    · rename_i hreq
      obtain ⟨⟨client, r⟩, hconnect, heq⟩ := Option.map_eq_some_iff.mp hstep
      obtain ⟨hkept, hafter⟩ := Client.connect_after h.kept hat hconnect
      have hclosed : s.closed = true → r = .inl (.closing true) ∨ r = .inr .cancelled := by
        intro hclosed
        rcases h.stopped hclosed with hcancel | hstops
        · obtain rfl : a = .cancelled := of_decide_eq_true (hreq.symm.trans hcancel)
          exact Client.connect_cancelled hconnect
        · rw [hpc] at hstops
          exact .inr (Client.connect_closing (pc_of_stops hstops ▸ hconnect))
      cases r with
      | inl pc' =>
        subst heq
        refine .running hkept hstart hafter (fun hc => .inr ?_) (fun hc => .inl ?_)
          ⟨RunPc.noConfusion, RunPc.noConfusion⟩
        all_goals
          obtain rfl : pc' = .closing true := (hclosed hc).elim Sum.inl.inj fun h => (by cases h)
        · rfl
        · exact hafter
      | inr end_ =>
        subst heq
        refine afterAttempt_ok hkept hafter hstart ?_ ?_
        all_goals
          rintro rfl
          refine Bool.eq_false_iff.mpr fun hc => ?_
          rcases hclosed hc with heq | heq <;> cases heq
    · cases hstep
  · cases hstep

theorem runStarts_ok (h : Ok s) (hstep : step s .runStarts = some s') : Ok s' := by
  simp only [step] at hstep
  split at hstep
  · rename_i hpc
    cases hstep
    have hstart := h.order (hpc.1 ▸ RunPc.noConfusion)
    refine loop_ok h.kept hstart (h.unready hstart (.inr hpc.1)) (h.toClose hstart fun _ heq => ?_)
    rw [hpc.1] at heq
    cases heq
  · cases hstep

theorem learns_ok {raises clean : Bool} (h : Ok s) (hstep : step s (.learns raises clean) = some s') :
    Ok s' := by
  simp only [step] at hstep
  split at hstep
  · rename_i w hpc
    split at hstep
    · rename_i hover
      cases hstep
      split
      · exact afterListening_ok h ⟨h.kept.bound, h.kept.others⟩ hpc rfl hover.2 rfl
      · exact afterListening_ok h h.kept hpc rfl hover.2 rfl
    · cases hstep
  · cases hstep

/-- The task of `run()` goes between the listen loop and a callback, or ends. -/
theorem Ok.goes (h : Ok s) (hstart : s.start = .returned) {pc : RunPc}
    (hrun : ∀ pc', s.run ≠ .connecting pc') (hstops : pc.stops = true)
    (hpc : pc ≠ .idle ∧ pc ≠ .spawned) (hat : State.RunAt { s with run := pc }) (health : ServiceHealth)
    (cancelReq : Bool) : Ok { s with health := health, run := pc, cancelReq := cancelReq } :=
  .running h.kept hstart hat (fun _ => .inr hstops) (fun hc => (h.toClose hstart hrun hc).imp_right .inl)
    hpc

theorem Ok.ws_of_run {w : Socket} (h : Ok s) (hrun : s.run = .listening w ∨ s.run = .callback w) :
    s.client.ws = some w := by
  cases hrun with
  | inl heq => exact h.run.of_eq heq
  | inr heq => exact h.run.of_eq heq

/-- The task of `run()` ends. -/
theorem Ok.ends (h : Ok s) (hlive : s.run.live = true) (hrun : ∀ pc', s.run ≠ .connecting pc')
    (health : ServiceHealth) : Ok { s with health := health, run := .done, cancelReq := false } := by
  have hidle : s.run ≠ .idle := by
    intro heq
    rw [heq] at hlive
    cases hlive
  have hat : RunAt { s with run := .done } := trivial
  exact h.goes (h.order hidle) hrun rfl ⟨RunPc.noConfusion, RunPc.noConfusion⟩ hat health false

theorem wakes_ok (h : Ok s) (hstep : step s .wakes = some s') : Ok s' := by
  simp only [step] at hstep
  split at hstep
  · rename_i hpc
    cases hstep
    have hspent : s.client.spent := h.run.of_eq hpc.1
    have hopen : ¬s.closed = true := by
      intro hc
      have hstops := h.stopped hc
      rw [hpc.1, hpc.2] at hstops
      rcases hstops with heq | heq <;> cases heq
    exact .running h.kept (h.order (hpc.1 ▸ RunPc.noConfusion)) hspent (fun hc => absurd hc hopen)
      (fun hc => absurd hc hopen) ⟨RunPc.noConfusion, RunPc.noConfusion⟩
  · cases hstep

/-- `listen_loop` calls a callback or goes on after it. -/
theorem Ok.callback {w : Socket} {pc : RunPc} (h : Ok s)
    (hrun : s.run = .listening w ∨ s.run = .callback w) (hpc : pc = .listening w ∨ pc = .callback w) :
    Ok { s with run := pc, cancelReq := false } := by
  have hws := h.ws_of_run hrun
  have hnot : ∀ pc', s.run ≠ .connecting pc' := by
    intro pc' heq
    rcases hrun with heq' | heq' <;> rw [heq'] at heq <;> cases heq
  have hstart : s.start = .returned := by
    refine h.order fun heq => ?_
    rcases hrun with heq' | heq' <;> rw [heq'] at heq <;> cases heq
  rcases hpc with rfl | rfl
  · have hat : RunAt { s with run := .listening w } := hws
    exact h.goes hstart hnot rfl ⟨RunPc.noConfusion, RunPc.noConfusion⟩ hat s.health false
  · have hat : RunAt { s with run := .callback w } := hws
    exact h.goes hstart hnot rfl ⟨RunPc.noConfusion, RunPc.noConfusion⟩ hat s.health false

theorem callbacks_ok {a : Action} (h : Ok s)
    (ha : a = .calls ∨ a = .callbackReturns ∨ a = .swallows) (hstep : step s a = some s') : Ok s' := by
  have hsame : ∀ {pc : RunPc}, s.cancelReq = false → Ok { s with run := pc, cancelReq := false } →
      Ok { s with run := pc } := by
    intro pc hreq hok
    rw [← hreq] at hok
    exact hok
  rcases ha with rfl | rfl | rfl
  all_goals
    simp only [step] at hstep
    split at hstep
  · rename_i w hpc
    split at hstep
    · cases hstep
    · rename_i hreq
      cases hstep
      exact hsame (Bool.eq_false_iff.mpr hreq) (h.callback (.inl hpc) (.inr rfl))
  · cases hstep
  · rename_i w hpc
    split at hstep
    · cases hstep
    · rename_i hreq
      cases hstep
      exact hsame (Bool.eq_false_iff.mpr hreq) (h.callback (.inr hpc) (.inl rfl))
  · cases hstep
  · rename_i w hpc
    split at hstep
    · cases hstep
      exact h.callback (.inr hpc) (.inr rfl)
    · cases hstep
  · cases hstep

theorem crashes_ok (h : Ok s) (hstep : step s .crashes = some s') : Ok s' := by
  simp only [step] at hstep
  split at hstep
  · rename_i w hpc
    cases hstep
    exact h.ends (hpc ▸ rfl) (hpc ▸ fun _ => RunPc.noConfusion) _
  · cases hstep

theorem runCancelled_ok (h : Ok s) (hstep : step s .runCancelled = some s') : Ok s' := by
  have hends : s.run.live = true → (∀ pc', s.run ≠ .connecting pc') →
      (if s.cancelReq then some (State.endRun { s with cancelReq := false }) else none) = some s' →
        Ok s' := by
    intro hlive hrun hstep
    split at hstep
    · cases hstep
      exact h.ends hlive hrun s.health
    · cases hstep
  simp only [step] at hstep
  split at hstep
  case h_5 => cases hstep
  all_goals
    rename_i hpc
    exact hends (hpc ▸ rfl) (hpc ▸ fun _ => RunPc.noConfusion) hstep

theorem closeCalled_ok {k : Nat} (h : Ok s) (hstep : step s (.closeCalled k) = some s') : Ok s' := by
  have hpending : ∀ {pc : ClosePc}, pc.pending = true → ∃ j, (Function.update s.closers k pc j).pending = true :=
    fun hpc => ⟨k, by rw [Function.update_self]; exact hpc⟩
  simp only [step] at hstep
  split at hstep
  · split at hstep
    · cases hstep
      exact h.fade (.refl _) rfl rfl rfl (fun _ => .inl rfl) fun _ => .inr (.inl (hpending rfl))
    · rename_i hbegun
      cases hstep
      refine h.fade (.refl _) rfl rfl rfl (fun _ => .inr ?_) fun _ => .inr (.inl (hpending rfl))
      change s.run.stops = true
      cases hrun : s.run with
      | idle | spawned | done => rfl
      | _ =>
        rw [hrun] at hbegun
        exact absurd rfl hbegun
  · cases hstep

theorem closerWaited_ok {k : Nat} (h : Ok s) (hstep : step s (.closerWaited k) = some s') : Ok s' := by
  simp only [step] at hstep
  split at hstep
  · cases hstep
    refine h.fade (.refl _) rfl rfl rfl h.stopped fun _ => .inr (.inl ⟨k, ?_⟩)
    simp only [setCloser, Function.update_self]
    rfl
  · cases hstep
    exact h.fade s.client.fades_close rfl rfl rfl h.stopped fun _ => .inl (Client.close_spent h.kept).2
  · rename_i hpc
    cases hstep
    refine h.fade (.refl _) rfl rfl rfl h.stopped fun hc => ?_
    rcases h.owned hc with hspent | ⟨j, hj⟩ | hrest
    · exact .inl hspent
    · refine .inr (.inl ⟨j, ?_⟩)
      have hne : j ≠ k := by
        rintro rfl
        rw [hpc] at hj
        cases hj
      simp only [setCloser, Function.update_of_ne hne]
      exact hj
    · exact .inr (.inr hrest)
  · cases hstep

theorem startCalled_ok (h : Ok s) (hpc : s.start = .idle) :
    Ok { s with start := if s.closed then .returned else .connecting .opening } := by
  have hrun := h.run_idle (hpc ▸ StartPc.noConfusion)
  have hnone : s.client.ws = none := h.start.of_eq hpc
  have hspent := Client.spent_of_none hnone
  refine .starting h.kept hrun ?_ (fun _ => .inl hspent) fun _ _ => hspent
  unfold StartAt
  split <;> rename_i heq
  · split at heq <;> cases heq
  · split at heq
    · cases heq
    · cases heq
      exact hspent
  · exact hspent
  · trivial
  · trivial

/-- `start()` closes the client in a session that is closed by then. -/
theorem startEnds_ok {pc : StartPc} (h : Ok s) (hpc : s.start = .closing)
    (hend : pc = .returned ∨ pc = .cancelled) : Ok { s with start := pc } := by
  have hspent : s.client.spent := h.start.of_eq hpc
  exact closes_ok h.kept (h.run_idle (hpc ▸ StartPc.noConfusion)) (fun _ => hspent) (.inr hend)

theorem step_ok {a : Action} (h : Ok s) (hstep : step s a = some s') : Ok s' := by
  cases a with
  | starts a => exact starts_ok h hstep
  | connects a exhausted => exact connects_ok h hstep
  | runStarts => exact runStarts_ok h hstep
  | learns raises clean => exact learns_ok h hstep
  | wakes => exact wakes_ok h hstep
  | calls => exact callbacks_ok h (.inl rfl) hstep
  | callbackReturns => exact callbacks_ok h (.inr (.inl rfl)) hstep
  | swallows => exact callbacks_ok h (.inr (.inr rfl)) hstep
  | crashes => exact crashes_ok h hstep
  | runCancelled => exact runCancelled_ok h hstep
  | closeCalled k => exact closeCalled_ok h hstep
  | closerWaited k => exact closerWaited_ok h hstep
  | startCalled =>
    simp only [step, Option.ite_none_right_eq_some, Option.some.injEq] at hstep
    obtain ⟨hpc, rfl⟩ := hstep
    exact startCalled_ok h hpc
  | startCloses =>
    simp only [step, Option.ite_none_right_eq_some, Option.some.injEq] at hstep
    obtain ⟨hpc, rfl⟩ := hstep
    exact startEnds_ok h hpc (.inl rfl)
  | startCancelled =>
    simp only [step, Option.ite_none_right_eq_some, Option.some.injEq] at hstep
    obtain ⟨hpc, rfl⟩ := hstep
    exact startEnds_ok h hpc (.inr rfl)
  | runSpawned =>
    simp only [step, Option.ite_none_right_eq_some, Option.some.injEq] at hstep
    obtain ⟨⟨hstart, hrun⟩, rfl⟩ := hstep
    refine ⟨h.kept, fun _ => hstart, h.start, trivial, fun _ => .inr rfl, fun hc => ?_, fun _ _ =>
      h.unready hstart (.inl hrun)⟩
    refine (h.toClose hstart (fun _ heq => ?_) hc).imp_right .inl
    rw [hrun] at heq
    cases heq
  | cancelRun =>
    simp only [step, Option.ite_none_right_eq_some, Option.some.injEq] at hstep
    obtain ⟨-, rfl⟩ := hstep
    exact h.fade (.refl _) rfl rfl rfl (fun _ => .inl rfl) fun hc =>
      (h.owned hc).fade (.refl _) rfl rfl (fun _ => rfl) rfl
  | sendFails =>
    simp only [step] at hstep
    split at hstep
    · simp only [Option.ite_none_right_eq_some, Option.some.injEq] at hstep
      obtain ⟨-, rfl⟩ := hstep
      have hfades : s.client.Fades { s.client with isReady := false } := ⟨rfl, rfl, fun _ hw => hw⟩
      exact h.fade hfades rfl rfl rfl h.stopped fun hc => (h.owned hc).fade hfades rfl rfl id rfl
    · cases hstep
  | drops w =>
    simp only [step, Option.ite_none_right_eq_some, Option.some.injEq] at hstep
    obtain ⟨-, rfl⟩ := hstep
    have hfades : s.client.Fades
        { s.client with ended := Function.update s.client.ended w true } := by
      refine ⟨rfl, rfl, fun w' hw' => ?_⟩
      rcases eq_or_ne w' w with rfl | hne
      · simp only [Client.isOver, Function.update_self, Bool.or_true]
      · simpa only [Client.isOver, Function.update_of_ne hne] using hw'
    exact h.fade hfades rfl rfl rfl h.stopped fun hc => (h.owned hc).fade hfades rfl rfl id rfl

/-- The invariant of every run. -/
theorem ok_of_reachable (h : Reachable step {} s) : Ok s :=
  h.invariant .init fun _ _ _ hok _ hstep => step_ok hok hstep

/-- In a closed session `run()` opens no socket. -/
theorem Ok.opens_none (h : Ok s) (hclosed : s.closed = true) (exhausted : Bool) :
    step s (.connects .opened exhausted) = none := by
  simp only [step]
  split
  · rename_i pc hpc
    split
    · rename_i hreq
      rcases h.stopped hclosed with hcancel | hstops
      · rw [hcancel] at hreq
        cases hreq
      · rw [hpc] at hstops
        rw [pc_of_stops hstops]
        rfl
    · rfl
  · rfl

/-- In every run at most one socket is open (not over, that is), and it is the client's. Once a call
of `close()` has closed the client, one is open only within the `connect` of a `start()` still under
way or of a `run()` that is about to be cancelled there, and `run()` opens no other. -/
theorem sockets_owned (s : State) (h : Reachable step {} s) :
    (∀ w, w < s.client.opened → s.client.isOver w = false → s.client.ws = some w) ∧
      (s.closed = true →
        (∀ exhausted, step s (.connects .opened exhausted) = none) ∧
          ((∀ k, (s.closers k).pending = false) →
            ∀ w, w < s.client.opened → s.client.isOver w = false →
              (∃ pc, s.start = .connecting pc) ∨
                ∃ pc, s.run = .connecting pc ∧ s.cancelReq = true)) := by
  have hok := ok_of_reachable h
  have hws : ∀ w, w < s.client.opened → s.client.isOver w = false → s.client.ws = some w := by
    intro w hw hopen
    refine (hok.kept.others w hw).resolve_left fun hover => ?_
    rw [hopen] at hover
    cases hover
  refine ⟨hws, fun hclosed => ⟨hok.opens_none hclosed, fun hnone w hw hopen => ?_⟩⟩
  rcases hok.owned hclosed with hspent | ⟨k, hk⟩ | hconnecting
  · have hover := hspent w (hws w hw hopen)
    rw [hopen] at hover
    cases hover
  · rw [hnone k] at hk
    cases hk
  · exact hconnecting

/-- The connection is lost, and `close()` comes while `run()` has opened another. -/
def closedWhileReconnecting : List Action :=
  [.startCalled, .starts .opened, .starts .sent, .starts .ready, .runSpawned, .runStarts, .drops 0,
    .learns true false, .connects .opened false, .closeCalled 0, .connects .cancelled false,
    .closerWaited 0, .closerWaited 0, .connects .closed false]

theorem sockets_owned_reconnecting :
    ∃ s : State, Transition.run step {} closedWhileReconnecting = some s ∧ s.client.opened = 2 ∧ s.run = .done ∧
      s.closed = true ∧ ∀ w, w < 2 → s.client.isOver w = true := by
  have hrun : (Transition.run step {} closedWhileReconnecting).isSome = true := rfl
  have howned := (sockets_owned _ (reachable_of_run (Option.some_get hrun).symm)).1
  refine ⟨_, rfl, rfl, rfl, rfl, fun w hw => ?_⟩
  by_contra hopen
  -- `connect` has left the client without a socket
  have hws := howned w hw (Bool.eq_false_iff.mpr hopen)
  cases hws

end State

end Supervision

end Transcriber
