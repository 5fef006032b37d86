-- SUMMARY: `ReconnectingOpenClawClient.stream_response` over `OpenClawClient.stream_response`, with the texts of what is raised and of what OpenClaw reports.
import JotaGateway.OpenClaw.ErrorText
import JotaGateway.OpenClaw.StreamResponse
import JotaGateway.Services.Orchestration
import JotaGateway.Services.Reconnection

/-!
# The stream of a turn

What `call_orchestrator` reads: the generator of the wrapper around the
generator of the client. Exceptions and error frames come with their texts;
none of them decides what the stream does next.
-/

namespace TurnStream

open StreamResponse

-- ---------------------------------------------------------------------------
-- The stream
-- ---------------------------------------------------------------------------

/-- What the consumer sees of a step of the stream: no `Exception` leaves the wrapper. -/
inductive Seen where
  | event (e : OrchestratorEvent)
  | exhausted
  /-- a `CancelledError` leaves `__anext__` -/
  | cancelled
  /-- `aclose` returns -/
  | closed
  /-- a `CancelledError` leaves `aclose` -/
  | cancelledInClose

def Seen.move : Seen → CallOrchestrator.StreamMove
  | .event e => .event e
  | .exhausted => .exhausted
  | .cancelled => .raises .base
  | .closed => .closed
  | .cancelledInClose => .closeRaises .base

/-- How the inner generator is left. -/
inductive Leaving where
  | exhausted
  /-- an `Exception` leaves it -/
  | fails (text : PyStr)
  | cancelled
  | closed
  /-- a `CancelledError` leaves its `aclose` -/
  | cancelledInClose

/-- Where the generator of the wrapper is. -/
inductive Outer where
  | unstarted
  /-- at the yield of a wrapper that is not connected -/
  | unavailable
  /-- in the loop over the inner generator -/
  | inner
  /-- at the yield of its `except Exception` -/
  | failed
  | ended

structure State where
  conn : Connection
  /-- the `state` of the wrapper -/
  health : ConnectionState
  outer : Outer := .unstarted
  call : Call := {}
  /-- how the inner generator is left, while its `finally` runs -/
  leaving : Leaving := .exhausted

inductive Action where
  /-- `__anext__` of the consumer -/
  | pull
  /-- `aclose` of the consumer -/
  | close
  | sendReturns
  /-- `self._ws.send` raises -/
  | sendFails (text : PyStr)
  /-- `queue.get` returns; `text` is that of the exception a payload may raise -/
  | get (text : PyStr)
  | timeout
  /-- any other `Exception` in an await of the client -/
  | fails (text : PyStr)
  | cancel
  /-- the send of chat.abort is over; its exception is only logged -/
  | abortEnds (failure : Option PyStr)

/-- What happens to the connection the stream reads from. -/
inductive ConnAction where
  | frame (clients : ClientRegistry) (now : Time) (run : Run) (frame : PyDict)
  /-- a frame that raises is dropped -/
  | badFrame (text : PyStr)
  /-- `_listen` ends: a close reason, or the text of an exception -/
  | listenEnds (reason : PyStr)
  | socket (ws : Bool)
  /-- the wrapper reconnects, or fails to -/
  | health (health : ConnectionState) (reason : PyStr)
  /-- the turns and aborts of others -/
  | register (reqId : ReqId) (sk : SessionKey)
  | unregister (sk : SessionKey) (reqId : ReqId)
  | get (q : QueueRef)

namespace State

def setRegistry (s : State) (registry : TurnRegistry TurnItem) : State :=
  { s with conn := { s.conn with registry } }

def act (s : State) : ConnAction → State
  | .frame clients now run frame =>
    s.setRegistry (FrameDispatcher.dispatch clients now s.conn.registry run frame).1
  | .badFrame _ => s
  | .listenEnds _ => s.setRegistry (s.conn.registry.errorAll (py "orchestrator_disconnected"))
  | .socket ws => { s with conn := { s.conn with ws } }
  | .health health _ => { s with health }
  | .register reqId sk => s.setRegistry (s.conn.registry.apply (.register reqId sk))
  | .unregister sk reqId => s.setRegistry (s.conn.registry.apply (.unregister sk reqId))
  | .get q => s.setRegistry (s.conn.registry.apply (.get q))

/-- The inner generator is over, and with it the loop of the wrapper. -/
def left (s : State) : Leaving → State × Option Seen
  | .exhausted => ({ s with outer := .ended }, some .exhausted)
  | .fails _ => ({ s with outer := .failed }, some (.event (.error (py "orchestrator_error"))))
  | .cancelled => ({ s with outer := .ended }, some .cancelled)
  | .closed => ({ s with outer := .ended }, some .closed)
  | .cancelledInClose => ({ s with outer := .ended }, some .cancelledInClose)

/-- The inner generator has moved; `how` is how it is left, if it is. -/
def moved (s : State) (how : Leaving) (p : Connection × Call) : State × Option Seen :=
  let s := { s with conn := p.1, call := p.2 }
  match p.2.phase with
  | .yielded y => (s, some (.event y.event))
  | .aborting => ({ s with leaving := how }, none)
  | .done => s.left how
  | _ => (s, none)

/-- The inner generator takes a step. -/
def stepInner (turn : Turn) (s : State) (a : StreamResponse.Action) (how : Leaving) :
    Option (State × Option Seen) :=
  (s.call.step turn s.conn a).map (s.moved how)

/-- An exception of no particular kind in an await of the inner generator. -/
def failInner (turn : Turn) (s : State) (text : PyStr) : Option (State × Option Seen) :=
  match s.call.phase with
  | .sending | .waiting =>
    some (s.moved (.fails text) (Call.finish turn s.conn (s.call.settle .failed)))
  | _ => none

/-- How a cancellation leaves the inner generator. -/
def onCancel (s : State) : Leaving :=
  match s.leaving with
  | .closed => .cancelledInClose
  | _ => .cancelled

/-- The first `__anext__`. -/
def begin (turn : Turn) (s : State) : Option (State × Option Seen) :=
  match s.health with
  | .connected => { s with outer := .inner }.stepInner turn .start .exhausted
  | _ =>
    some ({ s with outer := .unavailable },
      some (.event (.error (py "orchestrator_unavailable"))))

end State

/-- A step of the stream, and what its consumer sees of it. -/
def step (turn : Turn) (s : State) (a : Action) : Option (State × Option Seen) :=
  match s.outer, a with
  | .unstarted, .pull => s.begin turn
  | .unavailable, .pull | .failed, .pull => some ({ s with outer := .ended }, some .exhausted)
  | .unstarted, .close | .unavailable, .close | .failed, .close | .ended, .close =>
    some ({ s with outer := .ended }, some .closed)
  | .inner, .pull => s.stepInner turn .next .exhausted
  | .inner, .close => s.stepInner turn .close .closed
  | .inner, .sendReturns => s.stepInner turn .sendReturns .exhausted
  | .inner, .sendFails text => s.stepInner turn .sendFails (.fails text)
  | .inner, .get text => s.stepInner turn .get (.fails text)
  | .inner, .timeout => s.stepInner turn .timeout .exhausted
  | .inner, .fails text => s.failInner turn text
  | .inner, .cancel => s.stepInner turn .cancel s.onCancel
  | .inner, .abortEnds _ => s.stepInner turn .abortEnds s.leaving
  | _, _ => none

end TurnStream

-- ---------------------------------------------------------------------------
-- The client without the texts
-- ---------------------------------------------------------------------------

def Connection.scrub (conn : Connection) : Connection :=
  { conn with registry := conn.registry.map TurnItem.scrub }

namespace StreamResponse

def Yield.scrub : Yield → Yield
  | .token delta run payload => .token delta run (scrubPayload payload)
  | y => y

@[simp] theorem Yield.event_scrub (y : Yield) : y.scrub.event = y.event := by
  cases y <;> rfl

def Phase.scrub : Phase → Phase
  | .yielded y => .yielded y.scrub
  | phase => phase

namespace Call

def scrub (call : Call) : Call :=
  { call with
    phase := call.phase.scrub
    got := call.got.map (Item.map TurnItem.scrub)
    closedAt := call.closedAt.map Yield.scrub }

variable (turn : Turn) (conn : Connection) (call : Call)

theorem scrub_finish :
    finish turn conn.scrub call.scrub = ((finish turn conn call).1.scrub, (finish turn conn call).2.scrub) := by
  have hunregister := conn.registry.map_unregister TurnItem.scrub turn.sessionKey turn.reqId
  have hphase : ∀ b : Bool, (if b then Phase.aborting else Phase.done).scrub =
      if b then Phase.aborting else Phase.done := by
    intro b
    cases b <;> rfl
  simp only [finish, Connection.scrub, scrub, hunregister, hphase]
  rfl

theorem scrub_afterChat (run : Run) (payload : PyDict) :
    call.scrub.afterChat run (scrubPayload payload) = (call.afterChat run payload).scrub := by
  have hstate : (scrubPayload payload).get "state" = payload.get "state" :=
    PyDict.get_without payload (by decide)
  unfold afterChat
  rw [hstate]
  split
  · rfl
  · split
    · rfl
    · rfl

theorem scrub_receiveItem (i : TurnItem) :
    receiveItem turn conn.scrub call.scrub i.scrub =
      ((receiveItem turn conn call i).1.scrub, (receiveItem turn conn call i).2.scrub) := by
  obtain ⟨run, msg⟩ := i
  cases msg with
  | chat payload =>
    have hfeed := feed_scrub call.textTracker payload
    cases hfed : call.textTracker.feed payload with
    | mk tracker delta =>
      have hfed' : call.scrub.textTracker.feed (scrubPayload payload) = (tracker, delta) :=
        hfeed.trans hfed
      simp only [receiveItem, TurnItem.scrub, TurnMsg.scrub, hfed, hfed']
      split
      · exact congrArg (conn.scrub, ·)
          (scrub_afterChat { call with textTracker := tracker } run payload)
      · rfl
  | tool data =>
    simp only [receiveItem, TurnItem.scrub, TurnMsg.scrub]
    cases ToolCallEvent.fromSessionToolPayload data with
    | none => exact scrub_finish turn conn (call.settle .failed)
    | some event? =>
      cases event? with
      | none => rfl
      | some event => rfl
  | done frame => rfl

theorem scrub_receive (i : Item TurnItem) :
    receive turn conn.scrub call.scrub (i.map TurnItem.scrub) =
      ((receive turn conn call i).1.scrub, (receive turn conn call i).2.scrub) := by
  have hgot : ({ call.scrub with got := call.scrub.got ++ [i.map TurnItem.scrub] } : Call) =
      ({ call with got := call.got ++ [i] } : Call).scrub := by
    simp only [scrub, List.map_append, List.map_singleton]
  unfold receive
  rw [hgot]
  cases i with
  | item i => exact scrub_receiveItem turn conn { call with got := call.got ++ [.item i] } i
  | overflow => rfl
  | error message => rfl

theorem scrub_resume (y : Yield) :
    resume turn conn.scrub call.scrub y.scrub =
      ((resume turn conn call y).1.scrub, (resume turn conn call y).2.scrub) := by
  cases y with
  | token delta run payload => exact congrArg (conn.scrub, ·) (scrub_afterChat call run payload)
  | sendFailed => exact scrub_finish turn conn { call with finished := true }
  | unavailable | turnInProgress | toolCall => rfl
  | turnTimeout | statusDone | agentError | rejected | overflow | error =>
    exact scrub_finish turn conn call

theorem scrub_close (y : Yield) :
    close turn conn.scrub call.scrub y.scrub =
      ((close turn conn call y).1.scrub, (close turn conn call y).2.scrub) := by
  cases y with
  | unavailable | turnInProgress => rfl
  | token | sendFailed | toolCall | turnTimeout | statusDone | agentError | rejected | overflow
    | error => exact scrub_finish turn conn { call.settle .cancelled with closedAt := some _ }

/-- The generator of the client takes the same steps without the texts. -/
theorem scrub_step (a : StreamResponse.Action) :
    call.scrub.step turn conn.scrub a =
      (call.step turn conn a).map fun p => (p.1.scrub, p.2.scrub) := by
  have hphase : call.scrub.phase = call.phase.scrub := rfl
  have hqueue : call.scrub.queue = call.queue := rfl
  have hws : conn.scrub.ws = conn.ws := rfl
  unfold Call.step
  rw [hphase, hqueue, hws]
  cases hat : call.phase with
  | unstarted =>
    cases a with
    | start =>
      have hregister := conn.registry.map_register TurnItem.scrub turn.reqId turn.sessionKey
      simp only [Phase.scrub, Connection.scrub, hregister]
      split
      · cases conn.registry.register turn.reqId turn.sessionKey with
        | none => rfl
        | some p => rfl
      · rfl
    | close => rfl
    | _ => rfl
  | sending =>
    cases a with
    | cancel => exact congrArg some (scrub_finish turn conn (call.settle .cancelled))
    | _ => rfl
  | waiting =>
    cases a with
    | get =>
      have hget := conn.registry.map_get TurnItem.scrub call.queue
      simp only [Phase.scrub, Connection.scrub, hget]
      cases conn.registry.get call.queue with
      | none => rfl
      | some p => exact congrArg some (scrub_receive turn { conn with registry := p.1 } call p.2)
    | cancel => exact congrArg some (scrub_finish turn conn (call.settle .cancelled))
    | _ => rfl
  | yielded y =>
    cases a with
    | next => exact congrArg some (scrub_resume turn conn call y)
    | close => exact congrArg some (scrub_close turn conn call y)
    | _ => rfl
  | aborting => cases a <;> rfl
  | done => cases a <;> rfl

end Call

end StreamResponse

-- ---------------------------------------------------------------------------
-- The stream without the texts
-- ---------------------------------------------------------------------------

namespace TurnStream

open StreamResponse

def Leaving.scrub : Leaving → Leaving
  | .fails _ => .fails []
  | how => how

def Action.scrub : Action → Action
  | .sendFails _ => .sendFails []
  | .get _ => .get []
  | .fails _ => .fails []
  | .abortEnds failure => .abortEnds (failure.map fun _ => [])
  | a => a

def ConnAction.scrub : ConnAction → ConnAction
  | .frame clients now run fields => .frame clients now run (scrubFrame fields)
  | .badFrame _ => .badFrame []
  | .listenEnds _ => .listenEnds []
  | .health state _ => .health state []
  | a => a

namespace State

def scrub (s : State) : State :=
  { s with conn := s.conn.scrub, call := s.call.scrub, leaving := s.leaving.scrub }

variable (turn : Turn) (s : State)

/-- What happens to the connection is the same without the texts. -/
theorem scrub_act (a : ConnAction) : s.scrub.act a.scrub = (s.act a).scrub := by
  cases a with
  | frame clients now run frame =>
    have hdispatch := FrameDispatcher.scrub_dispatch clients now s.conn.registry run frame
    exact congrArg (fun out : FrameDispatcher.Outcome => s.scrub.setRegistry out.1) hdispatch
  | listenEnds reason =>
    exact congrArg s.scrub.setRegistry (s.conn.registry.map_errorAll TurnItem.scrub _)
  | register reqId sk =>
    have hregister := s.conn.registry.map_register TurnItem.scrub reqId sk
    simp only [ConnAction.scrub, act, TurnRegistry.apply, scrub, Connection.scrub, hregister]
    cases s.conn.registry.register reqId sk with
    | none => rfl
    | some p => rfl
  | unregister sk reqId =>
    exact congrArg s.scrub.setRegistry (s.conn.registry.map_unregister TurnItem.scrub sk reqId)
  | get q =>
    have hget := s.conn.registry.map_get TurnItem.scrub q
    simp only [ConnAction.scrub, act, TurnRegistry.apply, scrub, Connection.scrub, hget]
    cases s.conn.registry.get q with
    | none => rfl
    | some p => rfl
  | badFrame | socket | health => rfl

theorem scrub_left (how : Leaving) :
    s.scrub.left how.scrub = ((s.left how).1.scrub, (s.left how).2) := by
  cases how <;> rfl

theorem scrub_moved (how : Leaving) (p : Connection × Call) :
    s.scrub.moved how.scrub (p.1.scrub, p.2.scrub) =
      ((s.moved how p).1.scrub, (s.moved how p).2) := by
  have hphase : p.2.scrub.phase = p.2.phase.scrub := rfl
  unfold moved
  rw [hphase]
  cases p.2.phase with
  | yielded y => exact congrArg (fun e => (_, some (Seen.event e))) y.event_scrub
  | done => exact scrub_left { s with conn := p.1, call := p.2 } how
  | unstarted | sending | waiting | aborting => rfl

theorem scrub_stepInner (a : StreamResponse.Action) (how : Leaving) :
    s.scrub.stepInner turn a how.scrub =
      (s.stepInner turn a how).map fun p => (p.1.scrub, p.2) := by
  have hstep := Call.scrub_step turn s.conn s.call a
  unfold stepInner
  simp only [scrub, hstep, Option.map_map]
  congr 1
  funext p
  exact s.scrub_moved how p

theorem scrub_failInner (text : PyStr) :
    s.scrub.failInner turn [] = (s.failInner turn text).map fun p => (p.1.scrub, p.2) := by
  have hfinish := Call.scrub_finish turn s.conn (s.call.settle .failed)
  have hseend := s.scrub_moved (.fails text) (Call.finish turn s.conn (s.call.settle .failed))
  have hphase : s.scrub.call.phase = s.call.phase.scrub := rfl
  unfold failInner
  rw [hphase]
  cases s.call.phase with
  | sending | waiting => exact congrArg some ((congrArg _ hfinish).trans hseend)
  | unstarted | yielded | aborting | done => rfl

theorem scrub_begin :
    s.scrub.begin turn = (s.begin turn).map fun p => (p.1.scrub, p.2) := by
  obtain ⟨conn, health, outer, call, leaving⟩ := s
  cases health with
  | connected =>
    exact scrub_stepInner turn { conn, health := .connected, outer := .inner, call, leaving }
      .start .exhausted
  | reconnecting | degraded => rfl

end State

/-- The stream takes the same steps without the texts, and its consumer sees the same of it. -/
theorem scrub_step (turn : Turn) (s : State) (a : Action) :
    step turn s.scrub a.scrub = (step turn s a).map fun p => (p.1.scrub, p.2) := by
  have houter : s.scrub.outer = s.outer := rfl
  unfold step
  rw [houter]
  cases s.outer with
  | unstarted =>
    cases a with
    | pull => exact s.scrub_begin turn
    | _ => rfl
  | unavailable => cases a <;> rfl
  | failed => cases a <;> rfl
  | ended => cases a <;> rfl
  | inner =>
    cases a with
    | pull => exact s.scrub_stepInner turn .next .exhausted
    | close => exact s.scrub_stepInner turn .close .closed
    | sendReturns => exact s.scrub_stepInner turn .sendReturns .exhausted
    | sendFails text => exact s.scrub_stepInner turn .sendFails (.fails text)
    | get text => exact s.scrub_stepInner turn .get (.fails text)
    | timeout => exact s.scrub_stepInner turn .timeout .exhausted
    | fails text => exact s.scrub_failInner turn text
    | cancel =>
      have hcancel : s.scrub.onCancel = s.onCancel.scrub := by
        unfold State.onCancel State.scrub
        cases s.leaving <;> rfl
      exact (congrArg _ hcancel).trans (s.scrub_stepInner turn .cancel s.onCancel)
    | abortEnds failure => exact s.scrub_stepInner turn .abortEnds s.leaving

end TurnStream

-- ---------------------------------------------------------------------------
-- The codes of the stream
-- ---------------------------------------------------------------------------

/-- The `content` an error event may have. -/
def orchestratorCodes : List PyStr :=
  [py "orchestrator_unavailable", py "turn_in_progress", py "orchestrator_send_failed",
    py "turn_timeout", py "orchestrator_error", py "turn_overflow", py "orchestrator_disconnected"]

/-- The internal errors that are queued carry codes. -/
def TurnRegistry.Coded (r : TurnRegistry TurnItem) : Prop :=
  ∀ q message, .error message ∈ r.queues q → message ∈ orchestratorCodes

namespace TurnRegistry

variable {r : TurnRegistry TurnItem}

theorem Coded.update (h : r.Coded) {r' : TurnRegistry TurnItem} {q : QueueRef}
    {items : List (Item TurnItem)} (hqueues : r'.queues = Function.update r.queues q items)
    (hitems : ∀ message, .error message ∈ items → .error message ∈ r.queues q) : r'.Coded := by
  intro q' message hmem
  rw [hqueues] at hmem
  by_cases hq : q' = q
  · subst hq
    rw [Function.update_self] at hmem
    exact h q' message (hitems message hmem)
  · rw [Function.update_of_ne hq] at hmem
    exact h q' message hmem

theorem Coded.register (h : r.Coded) {reqId : ReqId} {sk : SessionKey} {p : TurnRegistry TurnItem × QueueRef}
    (hregister : r.register reqId sk = some p) : p.1.Coded := by
  obtain ⟨-, -, hreg⟩ := register_eq_some hregister
  rw [hreg]
  exact h

theorem Coded.unregister (h : r.Coded) (sk : SessionKey) (reqId : ReqId) :
    (r.unregister sk reqId).Coded := by
  unfold TurnRegistry.unregister
  split
  · exact h
  · exact h

theorem Coded.deliver (h : r.Coded) (sk : SessionKey) (q : QueueRef) (i : TurnItem) (now : Time) :
    (r.deliver sk q i now).Coded := by
  obtain ⟨_, hdeliver⟩ | ⟨_, _, peak, hdeliver⟩ | ⟨_, _, hdeliver⟩ := r.deliver_cases sk q i now
  · rw [hdeliver]
    exact h
  · rw [hdeliver]
    apply h.update rfl
    intro message hmem
    simpa using hmem
  · rw [hdeliver]
    apply h.update rfl
    intro message hmem
    simp at hmem

theorem Coded.get (h : r.Coded) {q : QueueRef} {p : TurnRegistry TurnItem × Item TurnItem}
    (hget : r.get q = some p) :
    p.1.Coded ∧ ∀ message, p.2 = .error message → message ∈ orchestratorCodes := by
  obtain ⟨r', i⟩ := p
  obtain ⟨rest, hqueue, rfl⟩ := get_eq_some hget
  constructor
  · apply h.update rfl
    intro message hmem
    rw [hqueue]
    exact List.mem_cons_of_mem _ hmem
  · intro message hi
    apply h q message
    rw [hqueue, ← hi]
    exact List.mem_cons_self

/-- `error_all` queues nothing but its message. -/
theorem Coded.errorAll (h : r.Coded) {message : PyStr} (hmessage : message ∈ orchestratorCodes) :
    (r.errorAll message).Coded := by
  refine List.foldlRecOn (motive := fun queues : QueueRef → List (Item TurnItem) =>
    ∀ q m, Item.error m ∈ queues q → m ∈ orchestratorCodes) _ _ h ?_
  intro queues hqueues e _ q m hmem
  by_cases hq : q = e.2
  · subst hq
    rw [Function.update_self] at hmem
    cases BoundedQueue.mem_forcePut hmem with
    | inl hold => exact hqueues _ _ hold
    | inr hnew =>
      cases hnew
      exact hmessage
  · rw [Function.update_of_ne hq] at hmem
    exact hqueues _ _ hmem

end TurnRegistry

namespace StreamResponse.Call

/-- What the generator is about to yield for an internal error is a code. -/
def Coded (call : Call) : Prop :=
  ∀ message, call.phase = .yielded (.error message) → message ∈ orchestratorCodes

variable {turn : Turn} {conn : Connection} {call : Call}

theorem finish_coded (h : conn.registry.Coded) :
    (finish turn conn call).1.registry.Coded ∧ (finish turn conn call).2.Coded := by
  refine ⟨h.unregister turn.sessionKey turn.reqId, ?_⟩
  intro message hphase
  unfold finish at hphase
  dsimp only at hphase
  split at hphase
  · cases hphase
  · cases hphase

theorem afterChat_coded (run : Run) (payload : PyDict) : (call.afterChat run payload).Coded := by
  intro message hphase
  unfold afterChat at hphase
  split at hphase
  · cases hphase
  · split at hphase
    · cases hphase
    · cases hphase

theorem receive_coded (h : conn.registry.Coded) {i : Item TurnItem}
    (hi : ∀ message, i = .error message → message ∈ orchestratorCodes) :
    (receive turn conn call i).1.registry.Coded ∧ (receive turn conn call i).2.Coded := by
  cases i with
  | overflow => exact ⟨h, fun _ hphase => by cases hphase⟩
  | error message =>
    refine ⟨h, ?_⟩
    intro m hphase
    cases hphase
    exact hi message rfl
  | item i =>
    obtain ⟨run, msg⟩ := i
    cases msg with
    | chat payload =>
      simp only [receive, receiveItem]
      split
      · exact ⟨h, afterChat_coded run payload⟩
      · exact ⟨h, fun _ hphase => by cases hphase⟩
    | tool data =>
      simp only [receive, receiveItem]
      split
      · exact finish_coded h
      · exact ⟨h, fun _ hphase => by cases hphase⟩
      · exact ⟨h, fun _ hphase => by cases hphase⟩
    | done frame => exact ⟨h, fun _ hphase => by cases hphase⟩

/-- The step lemma: every internal error that is yielded was queued. -/
theorem step_coded (h : conn.registry.Coded) {a : StreamResponse.Action} {p : Connection × Call}
    (hstep : call.step turn conn a = some p) : p.1.registry.Coded ∧ p.2.Coded := by
  unfold Call.step at hstep
  split at hstep
  · split at hstep
    · split at hstep
      · cases hstep
        exact ⟨h, nofun⟩
      · rename_i hregister
        cases hstep
        exact ⟨h.register hregister, nofun⟩
    · cases hstep
      exact ⟨h, nofun⟩
  · cases hstep
    exact ⟨h, nofun⟩
  · cases hstep
    exact ⟨h, nofun⟩
  · split at hstep
    · cases hstep
    · rename_i hget
      cases hstep
      obtain ⟨hregistry, hitem⟩ := h.get hget
      exact receive_coded hregistry hitem
  · cases hstep
    exact ⟨h, nofun⟩
  · rename_i y _
    cases hstep
    cases y with
    | unavailable | turnInProgress | toolCall => exact ⟨h, nofun⟩
    | token delta run payload => exact ⟨h, afterChat_coded run payload⟩
    | sendFailed | turnTimeout | statusDone | agentError | rejected | overflow | error =>
      exact finish_coded h
  · rename_i y _
    cases hstep
    cases y with
    | unavailable | turnInProgress => exact ⟨h, nofun⟩
    | token | sendFailed | toolCall | turnTimeout | statusDone | agentError | rejected | overflow
      | error => exact finish_coded h
  · cases hstep
    exact ⟨h, nofun⟩
  · cases hstep
    exact finish_coded h
  · cases hstep
    exact finish_coded h
  · cases hstep
    exact ⟨h, nofun⟩
  · cases hstep
    exact ⟨h, nofun⟩
  · cases hstep

end StreamResponse.Call

namespace TurnStream

open StreamResponse

/-- Every error the stream yields has a code for its content. -/
def CodedSeen (seen? : Option Seen) : Prop :=
  ∀ content, seen? = some (.event (.error content)) → content ∈ orchestratorCodes

structure Coded (s : State) : Prop where
  queued : s.conn.registry.Coded
  yielded : s.call.Coded

theorem Coded.act {s : State} (h : Coded s) (a : ConnAction) : Coded (s.act a) := by
  refine ⟨?_, ?_⟩
  · cases a with
    | frame clients now run fields =>
      have heffect : FrameDispatcher.Effect now s.conn.registry run fields
          (FrameDispatcher.dispatch clients now s.conn.registry run fields) :=
        FrameDispatcher.dispatch_effect
      cases heffect with
      | turn sk q i hq hreg hpush hrun hkey =>
        simp only [State.act, State.setRegistry, hreg]
        exact h.queued.deliver sk q i now
      | push tombstones hreg hpush =>
        simp only [State.act, State.setRegistry, hreg]
        exact h.queued
    | badFrame | socket | health => exact h.queued
    | listenEnds reason => exact h.queued.errorAll (by decide)
    | register reqId sk =>
      simp only [State.act, State.setRegistry, TurnRegistry.apply]
      cases hregister : s.conn.registry.register reqId sk with
      | none => exact h.queued
      | some p => exact h.queued.register hregister
    | unregister sk reqId => exact h.queued.unregister sk reqId
    | get q =>
      simp only [State.act, State.setRegistry, TurnRegistry.apply]
      cases hget : s.conn.registry.get q with
      | none => exact h.queued
      | some p => exact (h.queued.get hget).1
  · cases a <;> exact h.yielded

theorem Coded.moved {s : State} {how : Leaving} {p : Connection × Call} (hregistry : p.1.registry.Coded)
    (hcall : p.2.Coded) : Coded (s.moved how p).1 ∧ CodedSeen (s.moved how p).2 := by
  unfold State.moved
  dsimp only
  split
  · rename_i y hphase
    refine ⟨⟨hregistry, hcall⟩, ?_⟩
    intro content hseen
    have hevent : y.event = .error content := by simpa using hseen
    cases y with
    | error message =>
      cases hevent
      exact hcall content hphase
    | token | statusDone | toolCall => cases hevent
    | unavailable | turnInProgress | sendFailed | turnTimeout | agentError | rejected | overflow =>
      cases hevent
      decide
  · exact ⟨⟨hregistry, hcall⟩, nofun⟩
  · cases how with
    | fails text =>
      refine ⟨⟨hregistry, hcall⟩, ?_⟩
      intro content hseen
      cases hseen
      decide
    | exhausted | cancelled | closed | cancelledInClose => exact ⟨⟨hregistry, hcall⟩, nofun⟩
  · exact ⟨⟨hregistry, hcall⟩, nofun⟩

theorem Coded.stepInner {turn : Turn} {s : State} (h : Coded s) {a : StreamResponse.Action}
    {how : Leaving} {p : State × Option Seen} (hstep : s.stepInner turn a how = some p) :
    Coded p.1 ∧ CodedSeen p.2 := by
  obtain ⟨q, hcall, rfl⟩ := Option.map_eq_some_iff.mp hstep
  obtain ⟨hregistry, hyielded⟩ := Call.step_coded h.queued hcall
  exact Coded.moved hregistry hyielded

/-- The step lemma: what the consumer sees of the stream holds no text but a code. -/
theorem step_coded {turn : Turn} {s : State} (h : Coded s) {a : Action}
    {p : State × Option Seen} (hstep : step turn s a = some p) :
    Coded p.1 ∧ CodedSeen p.2 := by
  unfold step at hstep
  split at hstep
  · unfold State.begin at hstep
    split at hstep
    · exact Coded.stepInner (s := { s with outer := .inner }) ⟨h.queued, h.yielded⟩ hstep
    · cases hstep
      refine ⟨⟨h.queued, h.yielded⟩, ?_⟩
      intro content hseen
      cases hseen
      decide
  · cases hstep
    exact ⟨⟨h.queued, h.yielded⟩, nofun⟩
  · cases hstep
    exact ⟨⟨h.queued, h.yielded⟩, nofun⟩
  · cases hstep
    exact ⟨⟨h.queued, h.yielded⟩, nofun⟩
  · cases hstep
    exact ⟨⟨h.queued, h.yielded⟩, nofun⟩
  · cases hstep
    exact ⟨⟨h.queued, h.yielded⟩, nofun⟩
  · cases hstep
    exact ⟨⟨h.queued, h.yielded⟩, nofun⟩
  · exact h.stepInner hstep
  · exact h.stepInner hstep
  · exact h.stepInner hstep
  · exact h.stepInner hstep
  · exact h.stepInner hstep
  · exact h.stepInner hstep
  · unfold State.failInner at hstep
    split at hstep
    · cases hstep
      obtain ⟨hregistry, hcall⟩ := Call.finish_coded h.queued
      exact Coded.moved hregistry hcall
    · cases hstep
      obtain ⟨hregistry, hcall⟩ := Call.finish_coded h.queued
      exact Coded.moved hregistry hcall
    · cases hstep
  · exact h.stepInner hstep
  · exact h.stepInner hstep
  · cases hstep

end TurnStream
