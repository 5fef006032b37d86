-- SUMMARY: `OpenClawClient.stream_response`: the generator of one turn, and when it sends chat.abort.
import JotaGateway.Base.Transition
import JotaGateway.OpenClaw.ChatText
import JotaGateway.OpenClaw.Models

/-!
# stream_response

The generator of one turn as a state machine over its suspension points. The
registry and the socket are shared: other parties act on them between any two
steps.
-/

/-- What `stream_response` shares with the rest of the connection. -/
structure Connection where
  registry : TurnRegistry TurnItem
  /-- `self._ws` is set -/
  ws : Bool

namespace StreamResponse

-- ---------------------------------------------------------------------------
-- The generator
-- ---------------------------------------------------------------------------

/-- The yields of the source. -/
inductive Yield where
  | unavailable
  | turnInProgress
  | sendFailed
  | turnTimeout
  | token (delta : PyStr) (run : Run) (payload : PyDict)
  | statusDone
  | agentError
  | toolCall (call : ToolCallEvent)
  | rejected
  | overflow
  | error (message : PyStr)

def Yield.event : Yield → OrchestratorEvent
  | .unavailable => .error (py "orchestrator_unavailable")
  | .turnInProgress => .error (py "turn_in_progress")
  | .sendFailed => .error (py "orchestrator_send_failed")
  | .turnTimeout => .error (py "turn_timeout")
  | .token delta _ _ => .token delta
  | .statusDone => .status (py "done")
  | .agentError => .error (py "orchestrator_error")
  | .toolCall call => .toolCall call
  | .rejected => .error (py "orchestrator_error")
  | .overflow => .error (py "turn_overflow")
  | .error message => .error message

/-- Where the generator is suspended. -/
inductive Phase where
  | unstarted
  | sending
  | waiting
  | yielded (y : Yield)
  | aborting
  | done

/-- How a turn went. -/
inductive Outcome where
  | completed
  | failed
  | timedOut
  | overflowed
  | cancelled
deriving DecidableEq

/-- One request: the id it registers under, and its key. -/
structure Turn where
  reqId : ReqId
  sessionKey : SessionKey

/-- The generator of one turn: its locals, and a log of what it has done. -/
structure Call where
  phase : Phase := .unstarted
  queue : QueueRef := 0
  sent : Bool := false
  finished : Bool := false
  textTracker : ChatTextTracker := {}
  /-- what was dequeued -/
  got : List (Item TurnItem) := []
  /-- what was yielded for an item, with the run the item belongs to -/
  replies : List (Run × OrchestratorEvent) := []
  outcome : Option Outcome := none
  /-- how many times chat.abort was sent -/
  aborts : Nat := 0
  closedAt : Option Yield := none
  /-- `self._ws` as the `finally` read it -/
  socketAtExit : Bool := false

namespace Call

def suspend (call : Call) (y : Yield) : Call := { call with phase := .yielded y }

/-- The first outcome stays. -/
def settle (call : Call) (outcome : Outcome) : Call :=
  { call with outcome := call.outcome.or (some outcome) }

/-- Suspends at the yield of something that came in a frame of `run`. -/
def reply (call : Call) (run : Run) (y : Yield) : Call :=
  { call.suspend y with replies := call.replies ++ [(run, y.event)] }

/-- The `finally`. -/
def finish (turn : Turn) (conn : Connection) (call : Call) : Connection × Call :=
  let aborts := call.sent && !call.finished && conn.ws
  ({ conn with registry := conn.registry.unregister turn.sessionKey turn.reqId },
    { call with
      phase := if aborts then .aborting else .done
      aborts := call.aborts + if aborts then 1 else 0
      socketAtExit := conn.ws })

/-- What follows the token of a `chat` item. -/
def afterChat (call : Call) (run : Run) (payload : PyDict) : Call :=
  if (payload.get "state").isStr "final" then
    { (call.reply run .statusDone).settle .completed with finished := true }
  else if (payload.get "state").isStr "error" then
    { (call.reply run .agentError).settle .failed with finished := true }
  else
    { call with phase := .waiting }

def receiveItem (turn : Turn) (conn : Connection) (call : Call) (i : TurnItem) : Connection × Call :=
  match i.msg with
  | .chat payload =>
    let (textTracker, delta) := call.textTracker.feed payload
    let call := { call with textTracker := textTracker }
    (conn, if delta.isEmpty then call.afterChat i.run payload
      else call.reply i.run (.token delta i.run payload))
  | .tool data =>
    match ToolCallEvent.fromSessionToolPayload data with
    | none => finish turn conn (call.settle .failed)
    | some none => (conn, { call with phase := .waiting })
    | some (some event) => (conn, call.reply i.run (.toolCall event))
  | .done _ => (conn, { (call.reply i.run .rejected).settle .failed with finished := true })

/-- One round of the consumer loop, on what `queue.get` returned. -/
def receive (turn : Turn) (conn : Connection) (call : Call) (i : Item TurnItem) : Connection × Call :=
  let call := { call with got := call.got ++ [i] }
  match i with
  | .item i => receiveItem turn conn call i
  | .overflow => (conn, (call.suspend .overflow).settle .overflowed)
  | .error message =>
    (conn, { (call.suspend (.error message)).settle .failed with finished := true })

/-- `__anext__` of the consumer, at a yield. -/
def resume (turn : Turn) (conn : Connection) (call : Call) : Yield → Connection × Call
  | .unavailable | .turnInProgress => (conn, { call with phase := .done })
  | .sendFailed => finish turn conn { call with finished := true }
  | .token _ run payload => (conn, call.afterChat run payload)
  | .toolCall _ => (conn, { call with phase := .waiting })
  | _ => finish turn conn call

/-- `aclose` of the consumer, at a yield. -/
def close (turn : Turn) (conn : Connection) (call : Call) (y : Yield) : Connection × Call :=
  let call := { call.settle .cancelled with closedAt := some y }
  match y with
  | .unavailable | .turnInProgress => (conn, { call with phase := .done })
  | _ => finish turn conn call

end Call

inductive Action where
  /-- the first `__anext__` -/
  | start
  | sendReturns
  | sendFails
  | get
  | timeout
  | next
  | close
  /-- the consumer's task is cancelled in an await of the generator -/
  | cancel
  | abortEnds

def Call.step (turn : Turn) (conn : Connection) (call : Call) (a : Action) : Option (Connection × Call) :=
  match a, call.phase with
  | .start, .unstarted =>
    if conn.ws then
      match conn.registry.register turn.reqId turn.sessionKey with
      | none => some (conn, (call.suspend .turnInProgress).settle .failed)
      | some (registry, queue) =>
        some ({ conn with registry := registry },
          { call with phase := .sending, queue := queue })
    else
      some (conn, (call.suspend .unavailable).settle .failed)
  | .sendReturns, .sending => some (conn, { call with phase := .waiting, sent := true })
  | .sendFails, .sending => some (conn, (call.suspend .sendFailed).settle .failed)
  | .get, .waiting =>
    match conn.registry.get call.queue with
    | none => none
    | some (registry, i) => some (Call.receive turn { conn with registry := registry } call i)
  | .timeout, .waiting => some (conn, (call.suspend .turnTimeout).settle .timedOut)
  | .next, .yielded y => some (Call.resume turn conn call y)
  | .close, .yielded y => some (Call.close turn conn call y)
  | .close, .unstarted => some (conn, { call with phase := .done })
  | .cancel, .sending => some (Call.finish turn conn (call.settle .cancelled))
  | .cancel, .waiting => some (Call.finish turn conn (call.settle .cancelled))
  | .cancel, .aborting => some (conn, { call with phase := .done })
  | .abortEnds, .aborting => some (conn, { call with phase := .done })
  | _, _ => none

-- ---------------------------------------------------------------------------
-- What one step of the generator does
-- ---------------------------------------------------------------------------

/-- `_sent` at a yield. -/
def Yield.sent : Yield → Bool
  | .unavailable | .turnInProgress | .sendFailed => false
  | _ => true

/-- `_finished` at a yield. -/
def Yield.finished : Yield → Bool
  | .statusDone | .agentError | .rejected | .error _ => true
  | _ => false

/-- Whether a terminal item had been dequeued at a yield. -/
def Yield.ended : Yield → Bool
  | .token _ _ payload => endsReply payload
  | y => y.finished

/-- The entry ends the run of the turn. -/
def endsTurn : Item TurnItem → Bool
  | .item i => i.endsRun
  | .error _ => true
  | .overflow => false

namespace Call

/-- An item that ends the run has been dequeued. -/
def ended (call : Call) : Bool := call.got.any endsTurn

/-- The consumer closed the generator at the token of a terminal payload. -/
def closedAtTail (call : Call) : Bool :=
  match call.closedAt with
  | some (.token _ _ payload) => endsReply payload
  | _ => false

/-- A turn that goes on: its flags, and no abort yet. -/
structure Open (sent finished ended : Bool) (call : Call) : Prop where
  sent : call.sent = sent
  finished : call.finished = finished
  ended : call.ended = ended
  aborts : call.aborts = 0
  closedAt : call.closedAt = none

/-- Moving the generator keeps an open turn open. -/
theorem Open.keep {sent finished ended : Bool} {call call' : Call}
    (h : Open sent finished ended call)
    (hkeep : (call'.sent, call'.finished, call'.got, call'.aborts, call'.closedAt) =
      (call.sent, call.finished, call.got, call.aborts, call.closedAt)) :
    Open sent finished ended call' := by
  simp only [Prod.mk.injEq] at hkeep
  obtain ⟨hsent, hfinished, hgot, haborts, hclosed⟩ := hkeep
  have hended : call'.ended = call.ended := by rw [Call.ended, hgot, Call.ended]
  exact ⟨hsent.trans h.sent, hfinished.trans h.finished, hended.trans h.ended,
    haborts.trans h.aborts, hclosed.trans h.closedAt⟩

/-- A turn past its `finally`. -/
structure Settled (call : Call) : Prop where
  aborts : call.aborts = if call.sent && !call.finished && call.socketAtExit then 1 else 0
  tail : call.closedAtTail = true →
    call.sent = true ∧ call.finished = false ∧ call.ended = true
  other : call.closedAtTail = false → call.sent = true → call.finished = call.ended

def Inv (call : Call) : Prop :=
  match call.phase with
  | .unstarted | .sending => Open false false false call
  | .waiting => Open true false false call
  | .yielded y => Open y.sent y.finished y.ended call
  | .aborting | .done => Settled call

variable {turn : Turn} {conn : Connection} {call : Call}

theorem finish_inv (haborts : call.aborts = 0)
    (htail : call.closedAtTail = true →
      call.sent = true ∧ call.finished = false ∧ call.ended = true)
    (hother : call.closedAtTail = false → call.sent = true → call.finished = call.ended) :
    (finish turn conn call).2.Inv := by
  have hsettled : Settled (finish turn conn call).2 := by
    refine ⟨?_, htail, hother⟩
    simp [finish, haborts]
  unfold Inv
  cases haborting : call.sent && !call.finished && conn.ws with
  | true => simpa only [finish, haborting, if_true] using hsettled
  | false => simpa only [finish, haborting, Bool.false_eq_true, if_false] using hsettled

/-- An open turn whose flag says whether its run has ended leaves by the `finally`. -/
theorem Open.finish_inv {sent finished ended : Bool} (h : Open sent finished ended call)
    (hflag : sent = true → finished = ended) : (finish turn conn call).2.Inv := by
  have hclosed : call.closedAtTail = false := by simp only [closedAtTail, h.closedAt]
  apply Call.finish_inv h.aborts
  · intro htail
    rw [hclosed] at htail
    cases htail
  · intro _ hsent
    rw [h.finished, h.ended]
    exact hflag (h.sent.symm.trans hsent)

/-- The tail of a `chat` item: the flag is set exactly where the payload is terminal. -/
theorem afterChat_inv {run : Run} {payload : PyDict}
    (h : Open true false (endsReply payload) call) : (call.afterChat run payload).Inv := by
  unfold afterChat
  split
  · rename_i hfinal
    have hends : endsReply payload = true := by simp [endsReply, hfinal]
    exact ⟨h.sent, rfl, h.ended.trans hends, h.aborts, h.closedAt⟩
  · rename_i hfinal
    split
    · rename_i herror
      have hends : endsReply payload = true := by simp [endsReply, herror]
      exact ⟨h.sent, rfl, h.ended.trans hends, h.aborts, h.closedAt⟩
    · rename_i herror
      have hends : endsReply payload = false := by simp [endsReply, hfinal, herror]
      rw [hends] at h
      exact h.keep rfl

/-- An item was dequeued, and nothing has been yielded for it yet. -/
theorem receiveItem_inv {i : TurnItem} (h : Open true false i.endsRun call) :
    (receiveItem turn conn call i).2.Inv := by
  unfold TurnItem.endsRun at h
  cases hmsg : i.msg with
  | chat payload =>
    simp only [hmsg] at h
    simp only [receiveItem, hmsg]
    split
    · exact afterChat_inv (h.keep rfl)
    · exact h.keep rfl
  | tool data =>
    simp only [hmsg] at h
    simp only [receiveItem, hmsg]
    cases ToolCallEvent.fromSessionToolPayload data with
    | none =>
      have hopen : Open true false false (call.settle .failed) := h.keep rfl
      exact hopen.finish_inv fun _ => rfl
    | some event? =>
      cases event? with
      | none => exact h.keep rfl
      | some event => exact h.keep rfl
  | done frame =>
    simp only [hmsg] at h
    simp only [receiveItem, hmsg]
    exact ⟨h.sent, rfl, h.ended, h.aborts, h.closedAt⟩

theorem receive_inv (h : Open true false false call) (i : Item TurnItem) :
    (receive turn conn call i).2.Inv := by
  have hended : ({ call with got := call.got ++ [i] } : Call).ended = endsTurn i := by
    have h := h.ended
    unfold ended at h ⊢
    rw [List.any_append, h]
    simp
  cases i with
  | item i =>
    apply receiveItem_inv
    exact ⟨h.sent, h.finished, hended, h.aborts, h.closedAt⟩
  | error message => exact ⟨h.sent, rfl, hended, h.aborts, h.closedAt⟩
  | overflow => exact ⟨h.sent, h.finished, hended, h.aborts, h.closedAt⟩

/-- A turn that ends without having sent anything. -/
theorem unsent_settled (hsent : call.sent = false) (haborts : call.aborts = 0)
    (htail : call.closedAtTail = false) : Settled call := by
  refine ⟨?_, ?_, ?_⟩
  · rw [haborts, hsent]
    rfl
  · intro h
    rw [htail] at h
    cases h
  · intro _ h
    rw [hsent] at h
    cases h

theorem Open.closedAtTail_eq {sent finished ended : Bool} (h : Open sent finished ended call) :
    call.closedAtTail = false := by
  simp only [closedAtTail, h.closedAt]

theorem resume_inv {y : Yield} (h : Open y.sent y.finished y.ended call) :
    (resume turn conn call y).2.Inv := by
  cases y with
  | unavailable => exact unsent_settled h.sent h.aborts h.closedAtTail_eq
  | turnInProgress => exact unsent_settled h.sent h.aborts h.closedAtTail_eq
  | sendFailed =>
    have hopen : Open false true false { call with finished := true } :=
      ⟨h.sent, rfl, h.ended, h.aborts, h.closedAt⟩
    exact hopen.finish_inv fun hsent => by cases hsent
  | token delta run payload => exact afterChat_inv h
  | toolCall event => exact h.keep rfl
  | turnTimeout => exact h.finish_inv fun _ => rfl
  | statusDone => exact h.finish_inv fun _ => rfl
  | agentError => exact h.finish_inv fun _ => rfl
  | rejected => exact h.finish_inv fun _ => rfl
  | overflow => exact h.finish_inv fun _ => rfl
  | error message => exact h.finish_inv fun _ => rfl

/-- Closing at a yield where flag and fact agree. -/
theorem close_finish_inv {y : Yield} (h : Open y.sent y.finished y.ended call)
    (htail : ({ call with closedAt := some y } : Call).closedAtTail = false)
    (hflag : y.finished = y.ended) :
    (finish turn conn { call.settle .cancelled with closedAt := some y }).2.Inv := by
  refine Call.finish_inv h.aborts ?_ ?_
  · intro hyes
    exact absurd (hyes.symm.trans htail) (by decide)
  · intro _ _
    exact h.finished.trans (hflag.trans h.ended.symm)

theorem close_inv {y : Yield} (h : Open y.sent y.finished y.ended call) :
    (close turn conn call y).2.Inv := by
  cases y with
  | unavailable => exact unsent_settled h.sent h.aborts rfl
  | turnInProgress => exact unsent_settled h.sent h.aborts rfl
  | token delta run payload =>
    refine Call.finish_inv h.aborts ?_ ?_
    · intro htail
      exact ⟨h.sent, h.finished, h.ended.trans htail⟩
    · intro htail _
      exact h.finished.trans (h.ended.trans htail).symm
  | sendFailed => exact close_finish_inv h rfl rfl
  | turnTimeout => exact close_finish_inv h rfl rfl
  | statusDone => exact close_finish_inv h rfl rfl
  | agentError => exact close_finish_inv h rfl rfl
  | toolCall event => exact close_finish_inv h rfl rfl
  | rejected => exact close_finish_inv h rfl rfl
  | overflow => exact close_finish_inv h rfl rfl
  | error message => exact close_finish_inv h rfl rfl

theorem step_inv {a : Action} {p : Connection × Call} (h : call.Inv)
    (hstep : call.step turn conn a = some p) : p.2.Inv := by
  unfold Inv at h
  cases hphase : call.phase with
  | unstarted =>
    rw [hphase] at h
    cases a <;> simp only [step, hphase] at hstep <;> try cases hstep
    · split at hstep
      · split at hstep <;> cases hstep
        · exact h.keep rfl
        · exact h.keep rfl
      · cases hstep
        exact h.keep rfl
    · exact unsent_settled h.sent h.aborts h.closedAtTail_eq
  | sending =>
    rw [hphase] at h
    cases a <;> simp only [step, hphase] at hstep <;> try cases hstep
    · exact ⟨rfl, h.finished, h.ended, h.aborts, h.closedAt⟩
    · exact h.keep rfl
    · have hopen : Open false false false (call.settle .cancelled) := h.keep rfl
      exact hopen.finish_inv fun _ => rfl
  | waiting =>
    rw [hphase] at h
    cases a <;> simp only [step, hphase] at hstep <;> try cases hstep
    · split at hstep <;> cases hstep
      exact receive_inv h _
    · exact h.keep rfl
    · have hopen : Open true false false (call.settle .cancelled) := h.keep rfl
      exact hopen.finish_inv fun _ => rfl
  | yielded y =>
    rw [hphase] at h
    cases a <;> simp only [step, hphase] at hstep <;> try cases hstep
    · exact resume_inv h
    · exact close_inv h
  | aborting =>
    rw [hphase] at h
    cases a <;> simp only [step, hphase] at hstep <;> try cases hstep
    · exact ⟨h.aborts, h.tail, h.other⟩
    · exact ⟨h.aborts, h.tail, h.other⟩
  | done =>
    cases a <;> simp only [step, hphase] at hstep <;> cases hstep

-- ---------------------------------------------------------------------------
-- What one step does to the registry
-- ---------------------------------------------------------------------------

/-- The turn has registered its key and its `finally` has not run. -/
def registered (call : Call) : Bool :=
  match call.phase with
  | .sending | .waiting => true
  | .yielded .unavailable | .yielded .turnInProgress => false
  | .yielded _ => true
  | _ => false

/-- A step leaves the registry alone, registers, dequeues, or leaves through the `finally`. -/
inductive Effect (turn : Turn) (conn : Connection) (call : Call) (p : Connection × Call) : Prop where
  | keep (hreg : p.1.registry = conn.registry) (hqueue : p.2.queue = call.queue)
      (hheld : p.2.registered = call.registered)
  | register (hreg : conn.registry.register turn.reqId turn.sessionKey =
        some (p.1.registry, p.2.queue))
      (hbefore : call.registered = false) (hafter : p.2.registered = true)
  | get (i : Item TurnItem) (hget : conn.registry.get call.queue = some (p.1.registry, i))
      (hqueue : p.2.queue = call.queue) (hbefore : call.registered = true)
      (hafter : p.2.registered = true)
  | leave (registry : TurnRegistry TurnItem)
      (hget : registry = conn.registry ∨ ∃ i, conn.registry.get call.queue = some (registry, i))
      (hreg : p.1.registry = registry.unregister turn.sessionKey turn.reqId)
      (hqueue : p.2.queue = call.queue) (hafter : p.2.registered = false)

theorem finish_registered : (finish turn conn call).2.registered = false := by
  cases haborting : call.sent && !call.finished && conn.ws with
  | true => simp only [finish, registered, haborting, if_true]
  | false => simp only [finish, registered, haborting, Bool.false_eq_true, if_false]

theorem finish_effect {call' : Call} (hqueue : call'.queue = call.queue) :
    Effect turn conn call (finish turn conn call') :=
  .leave conn.registry (.inl rfl) rfl hqueue finish_registered

theorem afterChat_registered (run : Run) (payload : PyDict) :
    (call.afterChat run payload).registered = true := by
  unfold afterChat
  split
  · rfl
  · split <;> rfl

theorem afterChat_queue (run : Run) (payload : PyDict) :
    (call.afterChat run payload).queue = call.queue := by
  unfold afterChat
  split
  · rfl
  · split <;> rfl

/-- After a dequeue, the turn is still registered or has left. -/
theorem receive_effect {registry : TurnRegistry TurnItem} {i : Item TurnItem}
    (hget : conn.registry.get call.queue = some (registry, i))
    (hbefore : call.registered = true) :
    Effect turn conn call (receive turn { conn with registry := registry } call i) := by
  cases i with
  | overflow => exact .get _ hget rfl hbefore rfl
  | error message => exact .get _ hget rfl hbefore rfl
  | item i =>
    simp only [receive, receiveItem]
    cases hmsg : i.msg with
    | chat payload =>
      simp only
      split
      · exact .get _ hget (afterChat_queue _ _) hbefore (afterChat_registered _ _)
      · exact .get _ hget rfl hbefore rfl
    | tool data =>
      simp only
      split
      · exact .leave registry (.inr ⟨_, hget⟩) rfl rfl finish_registered
      · exact .get _ hget rfl hbefore rfl
      · exact .get _ hget rfl hbefore rfl
    | done frame => exact .get _ hget rfl hbefore rfl

theorem resume_effect {y : Yield} (hphase : call.phase = .yielded y) :
    Effect turn conn call (resume turn conn call y) := by
  cases y with
  | unavailable => exact .keep rfl rfl (by simp only [registered, hphase, resume])
  | turnInProgress => exact .keep rfl rfl (by simp only [registered, hphase, resume])
  | token delta run payload =>
    refine .keep rfl (afterChat_queue _ _) ?_
    rw [resume, afterChat_registered, registered, hphase]
  | toolCall event => exact .keep rfl rfl (by simp only [registered, hphase, resume])
  | _ => exact finish_effect rfl

theorem close_effect {y : Yield} (hphase : call.phase = .yielded y) :
    Effect turn conn call (close turn conn call y) := by
  cases y with
  | unavailable => exact .keep rfl rfl (by simp only [registered, hphase, close])
  | turnInProgress => exact .keep rfl rfl (by simp only [registered, hphase, close])
  | _ => exact finish_effect rfl

theorem step_effect {a : Action} {p : Connection × Call} (hstep : call.step turn conn a = some p) :
    Effect turn conn call p := by
  cases hphase : call.phase with
  | unstarted =>
    have hbefore : call.registered = false := by simp only [registered, hphase]
    cases a <;> simp only [step, hphase] at hstep <;> try cases hstep
    · split at hstep
      · split at hstep <;> cases hstep
        · exact .keep rfl rfl hbefore.symm
        · rename_i hreg
          exact .register hreg hbefore rfl
      · cases hstep
        exact .keep rfl rfl hbefore.symm
    · exact .keep rfl rfl hbefore.symm
  | sending =>
    have hbefore : call.registered = true := by simp only [registered, hphase]
    cases a <;> simp only [step, hphase] at hstep <;> try cases hstep
    · exact .keep rfl rfl hbefore.symm
    · exact .keep rfl rfl hbefore.symm
    · exact finish_effect rfl
  | waiting =>
    have hbefore : call.registered = true := by simp only [registered, hphase]
    cases a <;> simp only [step, hphase] at hstep <;> try cases hstep
    · split at hstep <;> cases hstep
      rename_i hget
      exact receive_effect hget hbefore
    · exact .keep rfl rfl hbefore.symm
    · exact finish_effect rfl
  | yielded y =>
    cases a <;> simp only [step, hphase] at hstep <;> try cases hstep
    · exact resume_effect hphase
    · exact close_effect hphase
  | aborting =>
    have hbefore : call.registered = false := by simp only [registered, hphase]
    cases a <;> simp only [step, hphase] at hstep <;> try cases hstep
    · exact .keep rfl rfl hbefore.symm
    · exact .keep rfl rfl hbefore.symm
  | done =>
    cases a <;> simp only [step, hphase] at hstep <;> cases hstep

end Call

-- ---------------------------------------------------------------------------
-- One turn on a shared connection
-- ---------------------------------------------------------------------------

/-- Other parties use the registry under request ids of their own. -/
def foreign (turn : Turn) : TurnRegistry.Op TurnItem → Bool
  | .register reqId _ => reqId != turn.reqId
  | .unregister _ reqId => reqId != turn.reqId
  | _ => true

structure World where
  conn : Connection
  call : Call := {}

inductive World.Action where
  | call (a : StreamResponse.Action)
  | others (op : TurnRegistry.Op TurnItem)
  /-- the socket is lost, or set again -/
  | socket (up : Bool)

namespace World

def step (turn : Turn) (w : World) : Action → Option World
  | .call a => (w.call.step turn w.conn a).map fun p => { conn := p.1, call := p.2 }
  | .others op =>
    if foreign turn op then
      some { w with conn := { w.conn with registry := w.conn.registry.apply op } }
    else none
  | .socket up => some { w with conn := { w.conn with ws := up } }

def start (maxsize : Nat) : World := { conn := { registry := { maxQueueSize := maxsize }, ws := false } }

/-- Only a turn between its `register` and its `finally` owns a key under its id. -/
structure Inv (turn : Turn) (w : World) : Prop where
  call : w.call.Inv
  wf : w.conn.registry.Wf
  owner : ∀ {sk}, w.conn.registry.sessionOwner.lookup sk = some turn.reqId →
    w.call.registered = true ∧ sk = turn.sessionKey

theorem Inv.init (turn : Turn) (maxsize : Nat) : Inv turn (start maxsize) where
  call := ⟨rfl, rfl, rfl, rfl, rfl⟩
  wf := .init maxsize
  owner h := by simp [start] at h

theorem Inv.callStep {turn : Turn} {w : World} (h : Inv turn w) {a : StreamResponse.Action}
    {p : Connection × Call} (hstep : w.call.step turn w.conn a = some p) :
    Inv turn { conn := p.1, call := p.2 } := by
  have hcall := Call.step_inv h.call hstep
  cases Call.step_effect hstep with
  | keep hreg hqueue hheld =>
    refine ⟨hcall, ?_, ?_⟩
    · rw [hreg]
      exact h.wf
    · intro sk hsk
      rw [hreg] at hsk
      rw [hheld]
      exact h.owner hsk
  | register hreg hbefore hafter =>
    refine ⟨hcall, h.wf.register hreg, ?_⟩
    intro sk hsk
    rcases TurnRegistry.owner_of_register hreg hsk with hsk | ⟨heq, -⟩
    · have hbefore' := (h.owner hsk).1
      rw [hbefore] at hbefore'
      cases hbefore'
    · exact ⟨hafter, heq⟩
  | get i hget hqueue hbefore hafter =>
    refine ⟨hcall, h.wf.get hget, ?_⟩
    intro sk hsk
    obtain ⟨rest, -, heq⟩ := TurnRegistry.get_eq_some hget
    rw [heq] at hsk
    exact ⟨hafter, (h.owner hsk).2⟩
  | leave registry hget hreg hqueue hafter =>
    have hwf : registry.Wf ∧ registry.sessionOwner = w.conn.registry.sessionOwner := by
      rcases hget with rfl | ⟨i, hget⟩
      · exact ⟨h.wf, rfl⟩
      · obtain ⟨rest, -, heq⟩ := TurnRegistry.get_eq_some hget
        exact ⟨h.wf.get hget, by rw [heq]⟩
    refine ⟨hcall, ?_, ?_⟩
    · rw [hreg]
      exact hwf.1.unregister
    · intro sk hsk
      rw [hreg] at hsk
      -- the key the turn registered is the only one its id can own
      obtain ⟨hbefore, hne⟩ := TurnRegistry.owner_of_unregister hsk
      rw [hwf.2] at hbefore
      exact absurd rfl (hne (h.owner hbefore).2)

theorem Inv.step {turn : Turn} {w w' : World} {a : Action} (h : Inv turn w)
    (hstep : World.step turn w a = some w') : Inv turn w' := by
  cases a with
  | call a =>
    simp only [World.step, Option.map_eq_some_iff] at hstep
    obtain ⟨p, hp, rfl⟩ := hstep
    exact h.callStep hp
  | others op =>
    simp only [World.step] at hstep
    split at hstep <;> cases hstep
    rename_i hforeign
    refine ⟨h.call, h.wf.apply op, ?_⟩
    intro sk hsk
    rcases TurnRegistry.owner_of_apply hsk with hsk | rfl
    · exact h.owner hsk
    · simp [foreign] at hforeign
  | socket up =>
    cases hstep
    exact ⟨h.call, h.wf, h.owner⟩

/-- The key is free, unless another request has taken it since. -/
def unregistered (turn : Turn) (w : World) : Prop :=
  turn.sessionKey ∈ w.conn.registry.sessions →
    ∃ owner, w.conn.registry.sessionOwner.lookup turn.sessionKey = some owner ∧
      owner ≠ turn.reqId

/-- What a finished turn owes: its key is given up, and the run it started and did not see
end is aborted, once. -/
structure CleanExit (turn : Turn) (w : World) : Prop where
  unregistered : unregistered turn w
  aborts : w.call.aborts =
    if w.call.sent = true ∧ w.call.socketAtExit = true ∧ w.call.ended = false then 1 else 0

open Transition

/-- Over every run, a finished turn exits cleanly unless its consumer closed it at the token
of a terminal payload, with the socket still set. -/
theorem cleanExit_iff {turn : Turn} {maxsize : Nat} {w : World}
    (h : Reachable (step turn) (start maxsize) w) (hdone : w.call.phase = .done) :
    CleanExit turn w ↔ ¬ (w.call.closedAtTail = true ∧ w.call.socketAtExit = true) := by
  have hinv : Inv turn w := h.invariant (.init turn maxsize) fun _ _ _ hi _ hs => hi.step hs
  have hsettled : w.call.Settled := by
    have hcall := hinv.call
    unfold Call.Inv at hcall
    rwa [hdone] at hcall
  constructor
  · rintro hclean ⟨htail, hsocket⟩
    obtain ⟨hsent, hfinished, hended⟩ := hsettled.tail htail
    have haborts := hclean.aborts
    rw [hsettled.aborts, hsent, hfinished, hsocket, hended] at haborts
    cases haborts
  · intro hno
    refine ⟨?_, ?_⟩
    · intro hkey
      rw [hinv.wf.owned, ← AList.lookup_isSome, Option.isSome_iff_exists] at hkey
      obtain ⟨owner, howner⟩ := hkey
      refine ⟨owner, howner, ?_⟩
      intro heq
      subst heq
      have hheld := (hinv.owner howner).1
      simp only [Call.registered, hdone] at hheld
      cases hheld
    · rw [hsettled.aborts]
      cases htail : w.call.closedAtTail with
      | true =>
        have hsocket : w.call.socketAtExit = false := by
          cases hs : w.call.socketAtExit with
          | false => rfl
          | true => exact absurd ⟨htail, hs⟩ hno
        simp [hsocket]
      | false =>
        cases hsent : w.call.sent with
        | false => simp
        | true =>
          rw [hsettled.other htail hsent]
          cases w.call.ended <;> simp

def client : Turn := { reqId := py "r", sessionKey := py "agent:main:c" }

/-- A reply that comes whole in its `final`. -/
def wholeReply : TurnItem :=
  { run := .ofRequest (py "r")
    msg := .chat [(py "state", .str (py "final")),
      (py "message", .obj [(py "content", .str (py "hola"))])] }

def delta : TurnItem :=
  { run := .ofRequest (py "r"), msg := .chat [(py "deltaText", .str (py "hola"))] }

/-- The consumer of a turn closes it at the first token of its reply. -/
def closedAtToken (reply : TurnItem) : List Action :=
  [.socket true, .call .start, .call .sendReturns,
    .others (.deliverBySession client.sessionKey reply 0), .call .get, .call .close,
    .call .abortEnds]

/-- A run that a `final` had ended is aborted. -/
theorem tail_close_aborts_ended_run :
    ∃ w, Reachable (step client) (start 8) w ∧ w.call.phase = .done ∧ w.call.sent = true ∧
      w.call.ended = true ∧ w.call.aborts = 1 ∧ ¬ CleanExit client w := by
  refine ⟨(run (step client) (start 8) (closedAtToken wholeReply)).get rfl,
    reachable_of_run (Option.some_get _).symm, rfl, rfl, rfl, rfl, ?_⟩
  intro h
  exact absurd h.aborts (by decide)

/-- A run that goes on is aborted, and its key given up. -/
theorem cleanExit_closed_early :
    ∃ w, Reachable (step client) (start 8) w ∧ w.call.aborts = 1 ∧ CleanExit client w := by
  have hrun : Reachable (step client) (start 8)
      ((run (step client) (start 8) (closedAtToken delta)).get rfl) :=
    reachable_of_run (Option.some_get _).symm
  exact ⟨_, hrun, rfl, (cleanExit_iff hrun rfl).mpr (by decide)⟩

end World

end StreamResponse
