-- SUMMARY: Sessions multiplexed over one connection: what a client sees of its own sessions does not depend on those of the others.
import JotaGateway.OpenClaw.Dispatcher

/-!
# Multiplexed sessions

All sessions share one registry, one connection and one clock. `Net.view` is
what concerns the sessions of one client, and `View.step` what happens to it:
a step about another client leaves the view alone. That two runs that differ
in the others' steps agree on the view follows.
-/

namespace Multiplex

open FrameDispatcher

-- ---------------------------------------------------------------------------
-- The connection
-- ---------------------------------------------------------------------------

/-- What an operation returned, or a frame put in a push backlog. -/
inductive Result where
  /-- refused is `TurnInProgress` -/
  | registered (reqId : ReqId) (accepted : Bool)
  | got (reqId : ReqId) (i : Item TurnItem)
  | aborted (sk : SessionKey) (flag : Bool)
  | pushed (sk : SessionKey) (bridge : BridgeRef) (event : PushEvent)

inductive Action where
  /-- the clock goes on -/
  | tick (dt : Time)
  | frame (run : Run) (frame : PyDict)
  | register (reqId : ReqId)
  | unregister (reqId : ReqId)
  /-- the consumer's `queue.get()`; an empty queue makes it wait -/
  | get (reqId : ReqId)
  | isAborted (sk : SessionKey)
  | errorAll (message : PyStr)
  | registerClient (clientId : PyStr) (bridge : BridgeRef)
  | unregisterClient (clientId : PyStr) (bridge : BridgeRef)

structure Net where
  registry : TurnRegistry TurnItem
  clients : ClientRegistry := {}
  now : Time := 0
  /-- the queue `register` returned -/
  handles : ReqId → Option QueueRef := fun _ => none
  log : List Result := []

def start (maxsize : Nat) : Net := { registry := { maxQueueSize := maxsize } }

/-- The key of a frame about a session. -/
def frameKey (frame : PyDict) : SessionKey :=
  (sessionKey? (asDict (frame.get "payload"))).getD []

/-- The outcome of a frame. -/
def Net.put (net : Net) (sk : SessionKey) (out : Outcome) : Net :=
  { net with
    registry := out.1
    log := net.log ++ (out.2.map fun p => .pushed sk p.1 p.2).toList }

section
variable (requests : ReqId → SessionKey)

namespace Net

/-- `requests` is the key each request id is made for. -/
def step (net : Net) : Action → Net
  | .tick dt => { net with now := net.now + dt }
  | .frame run frame =>
    net.put (frameKey frame) (dispatch net.clients net.now net.registry run frame)
  | .register reqId =>
    match net.registry.register reqId (requests reqId) with
    | none => { net with log := net.log ++ [.registered reqId false] }
    | some (registry, q) =>
      { net with
        registry
        handles := Function.update net.handles reqId (some q)
        log := net.log ++ [.registered reqId true] }
  | .unregister reqId =>
    { net with registry := net.registry.unregister (requests reqId) reqId }
  | .get reqId =>
    match (net.handles reqId).bind net.registry.get with
    | none => net
    | some (registry, i) => { net with registry, log := net.log ++ [.got reqId i] }
  | .isAborted sk =>
    let (registry, flag) := net.registry.isAborted sk net.now
    { net with registry, log := net.log ++ [.aborted sk flag] }
  | .errorAll message => { net with registry := net.registry.errorAll message }
  | .registerClient clientId bridge =>
    { net with clients := net.clients.register clientId bridge }
  | .unregisterClient clientId bridge =>
    { net with clients := net.clients.unregister clientId bridge }

def run (net : Net) (actions : List Action) : Net := actions.foldl (step requests) net

end Net

-- ---------------------------------------------------------------------------
-- Where a frame goes
-- ---------------------------------------------------------------------------

/-- What a frame asks for, by its shape alone. -/
inductive Route where
  | nothing
  /-- it raises, and only the tombstones have been purged -/
  | purges
  | rejected (reqId : ReqId) (i : TurnItem)
  | content (sk : SessionKey) (i : TurnItem) (event : PushEvent)
  | started (sk : SessionKey)
  | ended (sk : SessionKey)

def keyRoute (payload : PyDict) (k : SessionKey → Route) : Route :=
  match payload.get "sessionKey" with
  | .null => .nothing
  | .str sk => k sk
  | key => if hashable key then .purges else .nothing

def agentRoute (phase : Json) (sk : SessionKey) : Route :=
  if phase.isStr "start" then .started sk
  else if phase.isStr "end" || phase.isStr "error" then .ended sk
  else .nothing

def eventRoute (run : Run) (event : Json) (payload : PyDict) : Route :=
  let data := asDict (payload.get "data")
  let phase := data.get "phase"
  if event.isStr "chat" then
    keyRoute payload fun sk => .content sk { run, msg := .chat payload } (.chat payload)
  else if event.isStr "agent" then
    ((sessionKey? payload).map (agentRoute phase)).getD .nothing
  else if event.isStr "session.tool" then
    if phase.isStr "start" || phase.isStr "result" then
      keyRoute payload fun sk => .content sk { run, msg := .tool data } (.tool data)
    else .nothing
  else .nothing

def resRoute (run : Run) (frame : PyDict) : Route :=
  match frame.get "ok", ((frame.lookup (py "id")).getD (.str [])).str? with
  | .bool false, some reqId => .rejected reqId { run, msg := .done frame }
  | _, _ => .nothing

def route (run : Run) (frame : PyDict) : Route :=
  let ftype := frame.get "type"
  if ftype.isStr "res" then resRoute run frame
  else if ftype.isStr "event" then
    eventRoute run (frame.get "event") (asDict (frame.get "payload"))
  else .nothing

/-- The client a frame is about. -/
def Route.client : Route → Option PyStr
  | .nothing | .purges => none
  | .rejected reqId _ => some (clientIdFromSessionKey (requests reqId))
  | .content sk _ _ | .started sk | .ended sk => some (clientIdFromSessionKey sk)

/-- The key of the session it names. -/
def Route.key : Route → Option SessionKey
  | .content sk _ _ | .started sk | .ended sk => some sk
  | _ => none

def Route.follow (clients : ClientRegistry) (now : Time) (r : TurnRegistry TurnItem) :
    Route → Outcome
  | .nothing => (r, none)
  | .purges => ((r.isAborted [] now).1, none)
  | .rejected reqId i => ((r.deliverByReq reqId i now).1, none)
  | .content sk i event => deliverOrPush clients now r sk i event
  | .started sk =>
    if (clients.get (clientIdFromSessionKey sk)).isNone || decide (sk ∈ r.sessions) then (r, none)
    else
      match r.isAborted sk now with
      | (r, true) => (r, none)
      | (r, false) => (r, toBridge clients sk (.turnStart sk))
  | .ended sk => (r, toBridge clients sk (.turnEnd sk))

theorem keyRoute_follow (clients : ClientRegistry) (now : Time) (r : TurnRegistry TurnItem)
    (payload : PyDict) (k : SessionKey → Route) :
    (keyRoute payload k).follow clients now r =
      match payload.get "sessionKey" with
      | .null => (r, none)
      | .str sk => (k sk).follow clients now r
      | key => (raiseOnKey now r key, none) := by
  unfold keyRoute raiseOnKey
  split
  · rfl
  · rfl
  · split <;> rfl

theorem handleAgentLifecycle_route (clients : ClientRegistry) (now : Time)
    (r : TurnRegistry TurnItem) (payload : PyDict) :
    handleAgentLifecycle clients now r payload =
      (((sessionKey? payload).map
        (agentRoute ((asDict (payload.get "data")).get "phase"))).getD .nothing).follow
          clients now r := by
  unfold handleAgentLifecycle
  cases sessionKey? payload with
  | none => rfl
  | some sk =>
    have hqueue : (r.getQueueBySession sk).isSome = decide (sk ∈ r.sessions) := by
      rw [Bool.eq_iff_iff, TurnRegistry.getQueueBySession, AList.lookup_isSome,
        decide_eq_true_iff]
    generalize (asDict (payload.get "data")).get "phase" = phase
    simp only [Option.map_some, Option.getD_some, agentRoute, hqueue]
    cases hclient : clients.get (clientIdFromSessionKey sk) with
    | none =>
      cases phase.isStr "start" with
      | true => simp only [Route.follow, hclient, Option.isNone_none, Bool.true_or, if_true]
      | false =>
        cases phase.isStr "end" || phase.isStr "error" with
        | true =>
          simp only [Route.follow, toBridge, hclient, Option.map_none, if_true,
            Bool.false_eq_true, if_false]
        | false => rfl
    | some bridge =>
      cases phase.isStr "start" with
      | true =>
        cases hin : decide (sk ∈ r.sessions) with
        | true =>
          simp only [Route.follow, hclient, Option.isNone_some, Bool.false_or, if_true, hin]
        | false =>
          cases hflag : r.isAborted sk now with
          | mk r' flag =>
            cases flag with
            | true => simp [Route.follow, hclient, hin, hflag]
            | false => simp [Route.follow, hclient, toBridge, hin, hflag]
      | false =>
        cases phase.isStr "end" || phase.isStr "error" with
        | true =>
          simp only [Route.follow, toBridge, hclient, Option.map_some, if_true,
            Bool.false_eq_true, if_false]
        | false => rfl

theorem handleRes_route (clients : ClientRegistry) (now : Time) (r : TurnRegistry TurnItem)
    (run : Run) (frame : PyDict) :
    handleRes now r run frame = (resRoute run frame).follow clients now r := by
  unfold handleRes resRoute
  generalize frame.get "ok" = ok
  generalize ((frame.lookup (py "id")).getD (.str [])).str? = reqId
  cases ok with
  | bool b => cases b <;> cases reqId <;> rfl
  | _ => rfl

/-- What a dispatch does depends on the shape of the frame alone. -/
theorem dispatch_route (clients : ClientRegistry) (now : Time) (r : TurnRegistry TurnItem)
    (run : Run) (frame : PyDict) :
    dispatch clients now r run frame = (route run frame).follow clients now r := by
  unfold dispatch route handleEvent eventRoute
  dsimp only
  split
  · exact handleRes_route clients now r run frame
  · split
    · split
      · rw [keyRoute_follow]
        rfl
      · split
        · exact handleAgentLifecycle_route clients now r _
        · split
          · unfold handleSessionTool
            dsimp only
            split
            · rw [keyRoute_follow]
              rfl
            · rfl
          · rfl
    · rfl

-- ---------------------------------------------------------------------------
-- The sessions of one client
-- ---------------------------------------------------------------------------

def Result.client : Result → PyStr
  | .registered reqId _ | .got reqId _ => clientIdFromSessionKey (requests reqId)
  | .aborted sk _ | .pushed sk _ _ => clientIdFromSessionKey sk

/-- The action concerns the sessions of client `c`. The clock, `error_all` and the bridges
concern all. -/
def concerns (c : PyStr) : Action → Bool
  | .tick _ | .errorAll _ | .registerClient _ _ | .unregisterClient _ _ => true
  | .frame run frame => (route run frame).client requests = some c
  | .register reqId | .unregister reqId | .get reqId => clientIdFromSessionKey (requests reqId) = c
  | .isAborted sk => clientIdFromSessionKey sk = c

/-- What concerns the sessions of one client; a tombstone only until it expires. -/
@[ext] structure View where
  maxQueueSize : Nat
  now : Time
  clients : ClientRegistry
  owner : SessionKey → Option ReqId
  reqs : ReqId → Option SessionKey
  /-- what is pending for the consumer of a request -/
  queue : ReqId → Option (List (Item TurnItem))
  overflowed : SessionKey → Bool
  tombstone : SessionKey → Option Time
  log : List Result

def Net.view (c : PyStr) (net : Net) : View where
  maxQueueSize := net.registry.maxQueueSize
  now := net.now
  clients := net.clients
  owner sk := if clientIdFromSessionKey sk = c then net.registry.sessionOwner.lookup sk else none
  reqs reqId :=
    if clientIdFromSessionKey (requests reqId) = c then net.registry.reqToSession.lookup reqId
    else none
  queue reqId :=
    if clientIdFromSessionKey (requests reqId) = c then
      (net.handles reqId).map net.registry.queues
    else none
  overflowed sk := decide (clientIdFromSessionKey sk = c ∧ sk ∈ net.registry.overflowed)
  tombstone sk :=
    if clientIdFromSessionKey sk = c then
      (net.registry.tombstones.lookup sk).filter (net.now < ·)
    else none
  log := net.log.filter fun r => r.client requests = c

namespace View

def deliver (v : View) (sk : SessionKey) (i : TurnItem) : View :=
  match v.owner sk with
  | none => v
  | some reqId =>
    if v.overflowed sk then v
    else
      match BoundedQueue.putNowait v.maxQueueSize ((v.queue reqId).getD []) (.item i) with
      | some items => { v with queue := Function.update v.queue reqId (some items) }
      | none =>
        { v with
          overflowed := Function.update v.overflowed sk true
          tombstone := Function.update v.tombstone sk (some (v.now + TURN_ABORT_TOMBSTONE_S))
          queue := Function.update v.queue reqId (some [.overflow]) }

def aborted (v : View) (sk : SessionKey) : Bool := (v.tombstone sk).isSome

def push (v : View) (sk : SessionKey) (event : PushEvent) : View :=
  { v with
    log := v.log ++ ((toBridge v.clients sk event).map fun p => .pushed sk p.1 p.2).toList }

def follow (v : View) : Route → View
  | .nothing | .purges => v
  | .rejected reqId i =>
    match v.reqs reqId with
    | none => v
    | some sk => v.deliver sk i
  | .content sk i event =>
    if (v.owner sk).isSome then v.deliver sk i
    else if v.aborted sk then v
    else v.push sk event
  | .started sk =>
    if (v.owner sk).isSome || v.aborted sk then v else v.push sk (.turnStart sk)
  | .ended sk => v.push sk (.turnEnd sk)

/-- What a step about the sessions of the client does to them. -/
def step (v : View) : Action → View
  | .tick dt =>
    { v with now := v.now + dt, tombstone := fun sk => (v.tombstone sk).filter (v.now + dt < ·) }
  | .frame run frame => v.follow (route run frame)
  | .register reqId =>
    let sk := requests reqId
    if (v.owner sk).isSome then { v with log := v.log ++ [.registered reqId false] }
    else
      { v with
        owner := Function.update v.owner sk (some reqId)
        reqs := Function.update v.reqs reqId (some sk)
        queue := Function.update v.queue reqId (some [])
        log := v.log ++ [.registered reqId true] }
  | .unregister reqId =>
    let sk := requests reqId
    let v :=
      if v.owner sk = some reqId then
        { v with
          owner := Function.update v.owner sk none
          overflowed := Function.update v.overflowed sk false }
      else v
    { v with reqs := Function.update v.reqs reqId none }
  | .get reqId =>
    match v.queue reqId with
    | some (i :: rest) =>
      { v with
        queue := Function.update v.queue reqId (some rest)
        log := v.log ++ [.got reqId i] }
    | _ => v
  | .isAborted sk => { v with log := v.log ++ [.aborted sk (v.aborted sk)] }
  | .errorAll message =>
    { v with
      owner := fun _ => none
      reqs := fun _ => none
      overflowed := fun _ => false
      queue := fun reqId =>
        if v.owner (requests reqId) = some reqId then
          (v.queue reqId).map fun items =>
            BoundedQueue.forcePut v.maxQueueSize items (.error message)
        else v.queue reqId }
  | .registerClient clientId bridge => { v with clients := v.clients.register clientId bridge }
  | .unregisterClient clientId bridge => { v with clients := v.clients.unregister clientId bridge }

end View

-- ---------------------------------------------------------------------------
-- The handles
-- ---------------------------------------------------------------------------

/-- The consumer of the turn in flight holds its queue, and no other consumer does. -/
structure Sound (net : Net) : Prop where
  wf : net.registry.Wf
  owner : ∀ {sk reqId}, net.registry.sessionOwner.lookup sk = some reqId →
    requests reqId = sk ∧ net.handles reqId = net.registry.sessions.lookup sk
  inj : ∀ {reqId reqId' q}, net.handles reqId = some q → net.handles reqId' = some q →
    reqId = reqId'
  fresh : ∀ {reqId q}, net.handles reqId = some q → q < net.registry.created
  reqs : ∀ {reqId sk}, net.registry.reqToSession.lookup reqId = some sk → requests reqId = sk

variable {requests} {net : Net} {c : PyStr}

namespace Sound

theorem init (maxsize : Nat) : Sound requests (start maxsize) where
  wf := .init maxsize
  owner h := by simp [start] at h
  inj h := by cases h
  fresh h := by cases h
  reqs h := by simp [start] at h

/-- Only queues, flags and tombstones of the registry change. -/
theorem keep (h : Sound requests net) {r : TurnRegistry TurnItem} (hwf : r.Wf)
    (hsessions : r.sessions = net.registry.sessions)
    (howner : r.sessionOwner = net.registry.sessionOwner)
    (hreqs : r.reqToSession = net.registry.reqToSession)
    (hcreated : r.created = net.registry.created) (now : Time) (clients : ClientRegistry)
    (log : List Result) :
    Sound requests { registry := r, clients, now, handles := net.handles, log } := by
  refine ⟨hwf, ?_, h.inj, ?_, ?_⟩
  · rw [howner, hsessions]
    exact h.owner
  · rw [hcreated]
    exact h.fresh
  · rw [hreqs]
    exact h.reqs

/-- The turn in flight of a key: its request and its queue. -/
theorem inFlight (h : Sound requests net) {sk : SessionKey} {q : QueueRef}
    (hq : net.registry.sessions.lookup sk = some q) :
    ∃ reqId, net.registry.sessionOwner.lookup sk = some reqId ∧ requests reqId = sk ∧
      net.handles reqId = some q := by
  have hmem : sk ∈ net.registry.sessionOwner :=
    h.wf.owned.mp (TurnRegistry.mem_sessions_iff.mpr ⟨q, hq⟩)
  obtain ⟨reqId, howner⟩ := Option.isSome_iff_exists.mp (AList.lookup_isSome.mpr hmem)
  obtain ⟨hkey, hhandle⟩ := h.owner howner
  exact ⟨reqId, howner, hkey, hhandle.trans hq⟩

/-- A queue that changes changes for its consumer alone. -/
theorem pending_update (h : Sound requests net) {reqId reqId' : ReqId} {q : QueueRef}
    (hq : net.handles reqId = some q) (items : List (Item TurnItem)) (hne : reqId' ≠ reqId) :
    (net.handles reqId').map (Function.update net.registry.queues q items) =
      (net.handles reqId').map net.registry.queues := by
  refine Option.map_congr fun q' hq' => ?_
  refine Function.update_of_ne (fun heq => hne ?_) _ _
  exact h.inj hq' (heq ▸ hq)

theorem queue_mine (h : Sound requests net) {reqId : ReqId} {q : QueueRef}
    (hq : net.handles reqId = some q) (items : List (Item TurnItem))
    (hmine : clientIdFromSessionKey (requests reqId) = c) :
    (fun reqId' => if clientIdFromSessionKey (requests reqId') = c then
        (net.handles reqId').map (Function.update net.registry.queues q items) else none) =
      Function.update (net.view requests c).queue reqId (some items) := by
  funext reqId'
  rcases eq_or_ne reqId' reqId with rfl | hne
  · rw [if_pos hmine, hq, Option.map_some, Function.update_self, Function.update_self]
  · rw [Function.update_of_ne hne, h.pending_update hq items hne]
    rfl

theorem queue_other (h : Sound requests net) {reqId : ReqId} {q : QueueRef}
    (hq : net.handles reqId = some q) (items : List (Item TurnItem))
    (hother : clientIdFromSessionKey (requests reqId) ≠ c) :
    (fun reqId' => if clientIdFromSessionKey (requests reqId') = c then
        (net.handles reqId').map (Function.update net.registry.queues q items) else none) =
      (net.view requests c).queue := by
  funext reqId'
  rcases eq_or_ne reqId' reqId with rfl | hne
  · rw [if_neg hother]
    exact (if_neg hother).symm
  · rw [h.pending_update hq items hne]
    rfl

end Sound

-- ---------------------------------------------------------------------------
-- A delivery
-- ---------------------------------------------------------------------------

/-- A registry operation that touches neither the handles nor the log. -/
abbrev Net.withRegistry (net : Net) (r : TurnRegistry TurnItem) : Net := { net with registry := r }

theorem Sound.deliverBySession (h : Sound requests net) (sk : SessionKey) (i : TurnItem)
    (now : Time) : Sound requests (net.withRegistry (net.registry.deliverBySession sk i now).1) := by
  have hwf : (net.registry.deliverBySession sk i now).1.Wf := h.wf.deliverBySession
  obtain ⟨howner, hreqs⟩ := TurnRegistry.deliverBySession_owners net.registry sk i now
  have hkeys : (net.registry.deliverBySession sk i now).1.sessions = net.registry.sessions ∧
      (net.registry.deliverBySession sk i now).1.created = net.registry.created := by
    unfold TurnRegistry.deliverBySession
    split
    · exact ⟨rfl, rfl⟩
    · exact TurnRegistry.deliver_keys _ _ _ _ _
  exact h.keep hwf hkeys.1 howner hreqs hkeys.2 _ _ _

theorem view_owner {sk : SessionKey} (hmine : clientIdFromSessionKey sk = c) :
    (net.view requests c).owner sk = net.registry.sessionOwner.lookup sk := if_pos hmine

/-- A delivery to a session of the client. -/
theorem view_deliver_mine (h : Sound requests net) {sk : SessionKey} (i : TurnItem)
    (hmine : clientIdFromSessionKey sk = c) :
    (net.withRegistry (net.registry.deliverBySession sk i net.now).1).view requests c =
      (net.view requests c).deliver sk i := by
  unfold TurnRegistry.deliverBySession View.deliver
  cases hq : net.registry.sessions.lookup sk with
  | none =>
    have hfree : net.registry.sessionOwner.lookup sk = none := by
      refine AList.lookup_eq_none.mpr fun hmem => ?_
      exact AList.lookup_eq_none.mp hq (h.wf.owned.mpr hmem)
    rw [view_owner hmine, hfree]
  | some q =>
    obtain ⟨reqId, howner, rfl, hhandle⟩ := h.inFlight hq
    have hpending : (net.view requests c).queue reqId = some (net.registry.queues q) := by
      simp only [Net.view, hmine, if_true, hhandle, Option.map_some]
    have hflag : (net.view requests c).overflowed (requests reqId) =
        decide (requests reqId ∈ net.registry.overflowed) := by
      simp only [Net.view, hmine, true_and]
    simp only [view_owner hmine, howner, hpending, Option.getD_some, hflag, decide_eq_true_eq,
      TurnRegistry.deliver]
    split
    · rfl
    · rw [show (net.view requests c).maxQueueSize = net.registry.maxQueueSize from rfl]
      cases BoundedQueue.putNowait net.registry.maxQueueSize (net.registry.queues q) (.item i) with
      | some items => exact View.ext rfl rfl rfl rfl rfl (h.queue_mine hhandle _ hmine) rfl rfl rfl
      | none =>
        refine View.ext rfl rfl rfl rfl rfl (h.queue_mine hhandle _ hmine) ?_ ?_ rfl
        · funext sk
          rcases eq_or_ne sk (requests reqId) with rfl | hne
          · simp only [Net.view, hmine, Finset.mem_insert, true_or, and_self, decide_true,
              Function.update_self]
          · simp only [Net.view, Finset.mem_insert, hne, false_or, Function.update_of_ne hne]
        · funext sk
          rcases eq_or_ne sk (requests reqId) with rfl | hne
          · have hlive : net.now < net.now + TURN_ABORT_TOMBSTONE_S :=
              Nat.lt_add_of_pos_right (by decide)
            simp only [Net.view, hmine, if_true, AList.lookup_insert, Option.filter_some, hlive,
              decide_true, Function.update_self]
          · simp only [Net.view, AList.lookup_insert_ne hne, Function.update_of_ne hne]

/-- A delivery to a session of another client. -/
theorem view_deliver_other (h : Sound requests net) {sk : SessionKey} (i : TurnItem) (now : Time)
    (hother : clientIdFromSessionKey sk ≠ c) :
    (net.withRegistry (net.registry.deliverBySession sk i now).1).view requests c =
      net.view requests c := by
  unfold TurnRegistry.deliverBySession
  cases hq : net.registry.sessions.lookup sk with
  | none => rfl
  | some q =>
    obtain ⟨reqId, -, rfl, hhandle⟩ := h.inFlight hq
    have hkeys : ∀ sk, clientIdFromSessionKey sk = c → sk ≠ requests reqId := by
      rintro sk hmine rfl
      exact hother hmine
    dsimp only
    obtain ⟨-, heq⟩ | ⟨-, -, peak, heq⟩ | ⟨-, -, heq⟩ :=
      net.registry.deliver_cases (requests reqId) q i now <;> rw [heq]
    · exact View.ext rfl rfl rfl rfl rfl (h.queue_other hhandle _ hother) rfl rfl rfl
    · refine View.ext rfl rfl rfl rfl rfl (h.queue_other hhandle _ hother) ?_ ?_ rfl
      · funext sk
        simp only [Net.view, decide_eq_decide, Finset.mem_insert]
        exact and_congr_right fun hmine => or_iff_right (hkeys sk hmine)
      · funext sk
        simp only [Net.view]
        split
        · rename_i hmine
          rw [AList.lookup_insert_ne (hkeys sk hmine)]
        · rfl

-- ---------------------------------------------------------------------------
-- A frame
-- ---------------------------------------------------------------------------

/-- Purging the expired tombstones changes no view. -/
theorem view_purge (sk : SessionKey) :
    (net.withRegistry (net.registry.isAborted sk net.now).1).view requests c =
      net.view requests c := by
  refine View.ext rfl rfl rfl rfl rfl rfl rfl ?_ rfl
  funext sk'
  simp only [Net.view, TurnRegistry.isAborted_lookup, Option.filter_filter, Bool.and_self]

theorem view_aborted {sk : SessionKey} (hmine : clientIdFromSessionKey sk = c) :
    (net.registry.isAborted sk net.now).2 = (net.view requests c).aborted sk := by
  rw [TurnRegistry.isAborted_flag]
  simp only [View.aborted, Net.view, hmine, if_true]

theorem owner_isSome (h : Sound requests net) {sk : SessionKey}
    (hmine : clientIdFromSessionKey sk = c) :
    ((net.view requests c).owner sk).isSome = (net.registry.sessions.lookup sk).isSome := by
  rw [view_owner hmine, Bool.eq_iff_iff, AList.lookup_isSome, AList.lookup_isSome]
  exact h.wf.owned.symm

theorem put_none (sk : SessionKey) (r : TurnRegistry TurnItem) :
    net.put sk (r, none) = net.withRegistry r := by
  simp only [Net.put, Option.map_none, Option.toList_none, List.append_nil]

theorem view_push_mine {sk : SessionKey} (hmine : clientIdFromSessionKey sk = c)
    (r : TurnRegistry TurnItem) (event : PushEvent) :
    (net.put sk (r, toBridge net.clients sk event)).view requests c =
      ((net.withRegistry r).view requests c).push sk event := by
  refine View.ext rfl rfl rfl rfl rfl rfl rfl rfl ?_
  simp only [Net.view, Net.put, View.push, List.filter_append]
  cases toBridge net.clients sk event with
  | none => rfl
  | some p =>
    simp only [Option.map_some, Option.toList_some, List.filter_cons, Result.client, hmine,
      decide_true, if_true, List.filter_nil]

theorem view_push_other {sk : SessionKey} (hother : clientIdFromSessionKey sk ≠ c)
    (out : Outcome) :
    (net.put sk out).view requests c = (net.withRegistry out.1).view requests c := by
  refine View.ext rfl rfl rfl rfl rfl rfl rfl rfl ?_
  simp only [Net.view, Net.put, List.filter_append]
  cases out.2 with
  | none => exact List.append_nil _
  | some p =>
    simp only [Option.map_some, Option.toList_some, List.filter_cons, Result.client, hother,
      decide_false, Bool.false_eq_true, if_false, List.filter_nil, List.append_nil]

/-- A push event unless a tombstone drops it. -/
theorem view_push_unless {sk : SessionKey} (hmine : clientIdFromSessionKey sk = c)
    (event : PushEvent) :
    (net.put sk (match net.registry.isAborted sk net.now with
      | (r, true) => (r, none)
      | (r, false) => (r, toBridge net.clients sk event))).view requests c =
      if (net.view requests c).aborted sk then net.view requests c
      else (net.view requests c).push sk event := by
  have hpurge := @view_purge requests net c sk
  rw [← view_aborted hmine]
  cases hab : net.registry.isAborted sk net.now with
  | mk r flag =>
    rw [hab] at hpurge
    cases flag with
    | true =>
      simp only [put_none, if_true]
      exact hpurge
    | false =>
      simp only [Bool.false_eq_true, if_false]
      rw [view_push_mine hmine, hpurge]

/-- A frame about a session of the client. -/
theorem view_follow_mine (h : Sound requests net) {route : Route} {sk : SessionKey}
    (hmine : route.client requests = some c) (hsk : ∀ sk', route.key = some sk' → sk' = sk) :
    (net.put sk (route.follow net.clients net.now net.registry)).view requests c =
      (net.view requests c).follow route := by
  cases route with
  | nothing | purges => cases hmine
  | rejected reqId i =>
    have hmine : clientIdFromSessionKey (requests reqId) = c := Option.some.inj hmine
    have hreqs : (net.view requests c).reqs reqId = net.registry.reqToSession.lookup reqId :=
      if_pos hmine
    rw [Route.follow, put_none, View.follow, hreqs, TurnRegistry.deliverByReq]
    cases hlookup : net.registry.reqToSession.lookup reqId with
    | none => rfl
    | some sk' =>
      obtain rfl := h.reqs hlookup
      exact view_deliver_mine h i hmine
  | content sk' i event =>
    obtain rfl := hsk sk' rfl
    have hmine : clientIdFromSessionKey sk' = c := Option.some.inj hmine
    have howner := owner_isSome h hmine
    have hdeliver := view_deliver_mine h i hmine
    simp only [Route.follow, View.follow, deliverOrPush]
    rw [howner]
    unfold TurnRegistry.deliverBySession at hdeliver ⊢
    cases hq : net.registry.sessions.lookup sk' with
    | some q =>
      rw [hq] at hdeliver
      simp only [put_none, Option.isSome_some, if_true]
      exact hdeliver
    | none =>
      simp only [Option.isSome_none, Bool.false_eq_true, if_false]
      exact view_push_unless hmine event
  | started sk' =>
    obtain rfl := hsk sk' rfl
    have hmine : clientIdFromSessionKey sk' = c := Option.some.inj hmine
    have hmem : decide (sk' ∈ net.registry.sessions) = ((net.view requests c).owner sk').isSome := by
      rw [owner_isSome h hmine, Bool.eq_iff_iff, AList.lookup_isSome, decide_eq_true_iff]
    simp only [Route.follow, View.follow, hmem]
    cases ((net.view requests c).owner sk').isSome with
    | true => simp only [Bool.or_true, Bool.true_or, if_true, put_none]
    | false =>
      simp only [Bool.or_false, Bool.false_or]
      split
      · rename_i hgone
        have hnone : net.clients.get (clientIdFromSessionKey sk') = none :=
          Option.isNone_iff_eq_none.mp hgone
        have hpush : (net.view requests c).push sk' (.turnStart sk') = net.view requests c := by
          simp only [View.push, toBridge, Net.view, hnone, Option.map_none, Option.toList_none,
            List.append_nil]
        rw [hpush, ite_self, put_none]
      · exact view_push_unless hmine _
  | ended sk' =>
    obtain rfl := hsk sk' rfl
    exact view_push_mine (Option.some.inj hmine) _ _

/-- A frame about no session of the client. -/
theorem view_follow_other (h : Sound requests net) {route : Route} {sk : SessionKey}
    (hother : route.client requests ≠ some c) (hsk : ∀ sk', route.key = some sk' → sk' = sk) :
    (net.put sk (route.follow net.clients net.now net.registry)).view requests c =
      net.view requests c := by
  have hunless : ∀ {event : PushEvent}, clientIdFromSessionKey sk ≠ c →
      (net.put sk (match net.registry.isAborted sk net.now with
        | (r, true) => (r, none)
        | (r, false) => (r, toBridge net.clients sk event))).view requests c =
      net.view requests c := by
    intro event hother
    have hpurge := @view_purge requests net c sk
    rw [view_push_other hother]
    cases hab : net.registry.isAborted sk net.now with
    | mk r flag =>
      rw [hab] at hpurge
      cases flag <;> exact hpurge
  cases route with
  | nothing => rw [Route.follow, put_none]
  | purges =>
    rw [Route.follow, put_none]
    exact view_purge []
  | rejected reqId i =>
    have hother : clientIdFromSessionKey (requests reqId) ≠ c := fun heq => hother (congrArg some heq)
    rw [Route.follow, put_none, TurnRegistry.deliverByReq]
    cases hlookup : net.registry.reqToSession.lookup reqId with
    | none => rfl
    | some sk' =>
      obtain rfl := h.reqs hlookup
      exact view_deliver_other h i net.now hother
  | content sk' i event =>
    obtain rfl := hsk sk' rfl
    have hother : clientIdFromSessionKey sk' ≠ c := fun heq => hother (congrArg some heq)
    have hdeliver := view_deliver_other h i net.now hother
    simp only [Route.follow, deliverOrPush]
    unfold TurnRegistry.deliverBySession at hdeliver ⊢
    cases hq : net.registry.sessions.lookup sk' with
    | some q =>
      rw [hq] at hdeliver
      simp only [put_none]
      exact hdeliver
    | none => exact hunless hother
  | started sk' =>
    obtain rfl := hsk sk' rfl
    have hother : clientIdFromSessionKey sk' ≠ c := fun heq => hother (congrArg some heq)
    rw [Route.follow]
    split
    · rw [put_none]
    · exact hunless hother
  | ended sk' =>
    obtain rfl := hsk sk' rfl
    have hother : clientIdFromSessionKey sk' ≠ c := fun heq => hother (congrArg some heq)
    rw [Route.follow, view_push_other hother]

/-- A frame changes no handle, owner or request. -/
theorem Sound.follow (h : Sound requests net) (route : Route) (sk : SessionKey) :
    Sound requests (net.put sk (route.follow net.clients net.now net.registry)) := by
  have hsame : ∀ push, Sound requests (net.put sk (net.registry, push)) :=
    fun push => h.keep h.wf rfl rfl rfl rfl _ _ _
  have hpurge : ∀ sk' push, Sound requests (net.put sk ((net.registry.isAborted sk' net.now).1, push)) :=
    fun sk' push => h.keep (h.wf.apply (.isAborted sk' net.now)) rfl rfl rfl rfl _ _ _
  have hunless : ∀ sk' push, Sound requests (net.put sk
      (match net.registry.isAborted sk' net.now with
        | (r, true) => (r, none)
        | (r, false) => (r, push))) := by
    intro sk' push
    have hpurge := hpurge sk'
    cases hab : net.registry.isAborted sk' net.now with
    | mk r flag =>
      rw [hab] at hpurge
      cases flag <;> exact hpurge _
  have hdeliver : ∀ sk' i push, Sound requests
      (net.put sk ((net.registry.deliverBySession sk' i net.now).1, push)) := by
    intro sk' i push
    have hreg := h.deliverBySession sk' i net.now
    exact ⟨hreg.wf, hreg.owner, hreg.inj, hreg.fresh, hreg.reqs⟩
  cases route with
  | nothing => exact hsame none
  | purges => exact hpurge [] none
  | rejected reqId i =>
    rw [Route.follow, TurnRegistry.deliverByReq]
    cases net.registry.reqToSession.lookup reqId with
    | none => exact hsame none
    | some sk' => exact hdeliver sk' i none
  | content sk' i event =>
    have hdeliver := hdeliver sk' i none
    simp only [Route.follow, deliverOrPush]
    unfold TurnRegistry.deliverBySession at hdeliver ⊢
    cases hq : net.registry.sessions.lookup sk' with
    | some q =>
      rw [hq] at hdeliver
      exact hdeliver
    | none => exact hunless sk' _
  | started sk' =>
    rw [Route.follow]
    split
    · exact hsame none
    · exact hunless sk' _
  | ended sk' => exact hsame _

theorem keyRoute_key {payload : PyDict} {k : SessionKey → Route} {sk : SessionKey}
    (hk : ∀ sk', (k sk').key = some sk → sk' = sk) (h : (keyRoute payload k).key = some sk) :
    sessionKey? payload = some sk := by
  unfold keyRoute at h
  split at h
  · cases h
  · rename_i sk' hsk
    rw [sessionKey?_of_str hsk, hk sk' h]
  · split at h <;> cases h

theorem route_key {run : Run} {frame : PyDict} {sk : SessionKey}
    (h : (route run frame).key = some sk) : sk = frameKey frame := by
  have hkey : sessionKey? (asDict (frame.get "payload")) = some sk := by
    unfold route resRoute eventRoute at h
    dsimp only at h
    split at h
    · split at h <;> cases h
    · split at h
      · split at h
        · refine keyRoute_key (fun sk' hk => ?_) h
          exact Option.some.inj hk
        · split at h
          · unfold agentRoute at h
            cases hsk : sessionKey? (asDict (frame.get "payload")) with
            | none =>
              rw [hsk] at h
              cases h
            | some sk' =>
              rw [hsk, Option.map_some, Option.getD_some] at h
              split at h
              · exact h
              · split at h
                · exact h
                · cases h
          · split at h
            · split at h
              · refine keyRoute_key (fun sk' hk => ?_) h
                exact Option.some.inj hk
              · cases h
            · cases h
      · cases h
  rw [frameKey, hkey, Option.getD_some]

-- ---------------------------------------------------------------------------
-- Every step
-- ---------------------------------------------------------------------------

theorem Sound.register (h : Sound requests net) {r : TurnRegistry TurnItem} {reqId : ReqId}
    {q : QueueRef} (hreg : net.registry.register reqId (requests reqId) = some (r, q))
    (log : List Result) :
    Sound requests { net with
      registry := r, handles := Function.update net.handles reqId (some q), log } := by
  have hwf : r.Wf := h.wf.register hreg
  obtain ⟨hsk, rfl, rfl⟩ := TurnRegistry.register_eq_some hreg
  have hnew : ∀ {reqId'}, net.handles reqId' ≠ some net.registry.created :=
    fun hq => Nat.lt_irrefl _ (h.fresh hq)
  refine ⟨hwf, ?_, ?_, ?_, ?_⟩
  · intro sk reqId' howner
    rcases eq_or_ne sk (requests reqId) with rfl | hne
    · rw [AList.lookup_insert] at howner
      obtain rfl := Option.some.inj howner
      refine ⟨rfl, ?_⟩
      dsimp only
      rw [Function.update_self, AList.lookup_insert]
    · rw [AList.lookup_insert_ne hne] at howner
      obtain ⟨rfl, hhandle⟩ := h.owner howner
      have hreq : reqId' ≠ reqId := fun heq => hne (congrArg requests heq)
      refine ⟨rfl, ?_⟩
      dsimp only
      rw [Function.update_of_ne hreq, hhandle, AList.lookup_insert_ne hne]
  · intro a b q' ha hb
    dsimp only at ha hb
    rcases eq_or_ne a reqId with rfl | hane
    · rw [Function.update_self] at ha
      rcases eq_or_ne b a with rfl | hbne
      · rfl
      · rw [Function.update_of_ne hbne, ← Option.some.inj ha] at hb
        exact absurd hb hnew
    · rw [Function.update_of_ne hane] at ha
      rcases eq_or_ne b reqId with rfl | hbne
      · rw [Function.update_self] at hb
        rw [← Option.some.inj hb] at ha
        exact absurd ha hnew
      · rw [Function.update_of_ne hbne] at hb
        exact h.inj ha hb
  · intro reqId' q' hq'
    dsimp only at hq' ⊢
    rcases eq_or_ne reqId' reqId with rfl | hne
    · rw [Function.update_self] at hq'
      rw [← Option.some.inj hq']
      exact Nat.lt_succ_self _
    · rw [Function.update_of_ne hne] at hq'
      exact Nat.lt_succ_of_lt (h.fresh hq')
  · intro reqId' sk hreqs
    rcases eq_or_ne reqId' reqId with rfl | hne
    · rw [AList.lookup_insert] at hreqs
      exact Option.some.inj hreqs
    · rw [AList.lookup_insert_ne hne] at hreqs
      exact h.reqs hreqs

theorem Sound.unregister (h : Sound requests net) (sk : SessionKey) (reqId : ReqId) :
    Sound requests (net.withRegistry (net.registry.unregister sk reqId)) := by
  have hwf : (net.registry.unregister sk reqId).Wf := h.wf.unregister
  refine ⟨hwf, ?_, h.inj, ?_, ?_⟩
  · intro sk' reqId' howner
    obtain ⟨hkey, hhandle⟩ := h.owner (TurnRegistry.owner_of_unregister howner).1
    refine ⟨hkey, ?_⟩
    have hmem : sk' ∈ (net.registry.unregister sk reqId).sessions :=
      hwf.owned.mpr (AList.lookup_isSome.mp (by rw [howner]; rfl))
    obtain ⟨q, hq⟩ := TurnRegistry.mem_sessions_iff.mp hmem
    exact (hhandle.trans (TurnRegistry.lookup_of_unregister hq).1).trans hq.symm
  · intro reqId' q hq
    exact (TurnRegistry.unregister_queues net.registry sk reqId).2.symm ▸ h.fresh hq
  · intro reqId' sk' hreqs
    have hlookup : net.registry.reqToSession.lookup reqId' = some sk' := by
      rw [TurnRegistry.unregister_reqToSession] at hreqs
      rcases eq_or_ne reqId' reqId with rfl | hne
      · rw [AList.lookup_erase] at hreqs
        cases hreqs
      · rwa [AList.lookup_erase_ne hne] at hreqs
    exact h.reqs hlookup

theorem Sound.step (h : Sound requests net) (a : Action) : Sound requests (net.step requests a) := by
  cases a with
  | tick dt => exact h.keep h.wf rfl rfl rfl rfl _ _ _
  | frame run frame =>
    rw [Net.step, dispatch_route]
    exact h.follow _ _
  | register reqId =>
    rw [Net.step]
    cases hreg : net.registry.register reqId (requests reqId) with
    | none => exact h.keep h.wf rfl rfl rfl rfl _ _ _
    | some p => exact h.register hreg _
  | unregister reqId => exact h.unregister (requests reqId) reqId
  | get reqId =>
    rw [Net.step]
    cases hget : (net.handles reqId).bind net.registry.get with
    | none => exact h
    | some p =>
      obtain ⟨q, -, hget⟩ := Option.bind_eq_some_iff.mp hget
      have hwf : p.1.Wf := h.wf.get hget
      obtain ⟨rest, -, heq⟩ := TurnRegistry.get_eq_some hget
      obtain ⟨r, i⟩ := p
      dsimp only at heq hwf ⊢
      rw [heq] at hwf ⊢
      exact h.keep hwf rfl rfl rfl rfl _ _ _
  | isAborted sk => exact h.keep (h.wf.apply (.isAborted sk net.now)) rfl rfl rfl rfl _ _ _
  | errorAll message =>
    refine ⟨h.wf.errorAll, ?_, h.inj, h.fresh, ?_⟩
    · rintro sk reqId ⟨⟩
    · rintro reqId sk ⟨⟩
  | registerClient clientId bridge => exact h.keep h.wf rfl rfl rfl rfl _ _ _
  | unregisterClient clientId bridge => exact h.keep h.wf rfl rfl rfl rfl _ _ _

theorem log_mine (r : Result) (hmine : r.client requests = c) (log : List Result) :
    (log ++ [r]).filter (fun r => decide (r.client requests = c)) =
      log.filter (fun r => decide (r.client requests = c)) ++ [r] := by
  simp only [List.filter_append, List.filter_cons, hmine, decide_true, if_true, List.filter_nil]

theorem log_other (r : Result) (hother : r.client requests ≠ c) (log : List Result) :
    (log ++ [r]).filter (fun r => decide (r.client requests = c)) =
      log.filter (fun r => decide (r.client requests = c)) := by
  simp only [List.filter_append, List.filter_cons, hother, decide_false, Bool.false_eq_true,
    if_false, List.filter_nil, List.append_nil]

/-- `error_all` ends the turns in flight, and puts its error in their queues alone. -/
theorem view_errorAll (h : Sound requests net) (message : PyStr) :
    (net.step requests (.errorAll message)).view requests c =
      (net.view requests c).step requests (.errorAll message) := by
  refine View.ext rfl rfl rfl ?_ ?_ ?_ ?_ rfl rfl
  · funext sk
    exact ite_self none
  · funext reqId
    exact ite_self none
  · funext reqId
    simp only [Net.view, Net.step, View.step]
    split
    · rename_i hmine
      cases hq : net.handles reqId with
      | none => simp only [Option.map_none, ite_self]
      | some q =>
        have hlive : net.registry.live q = true ↔
            net.registry.sessionOwner.lookup (requests reqId) = some reqId := by
          rw [TurnRegistry.live_iff]
          constructor
          · rintro ⟨sk, hsk⟩
            obtain ⟨reqId', howner, rfl, hq'⟩ := h.inFlight hsk
            rw [h.inj hq hq']
            exact howner
          · intro howner
            exact ⟨requests reqId, (h.owner howner).2.symm.trans hq⟩
        simp only [Option.map_some, h.wf.errorAll_queues, hlive]
        split <;> rfl
    · exact (ite_self none).symm
  · funext sk
    simp only [Net.view, Net.step, View.step, TurnRegistry.errorAll, Finset.notMem_empty, and_false,
      decide_false]

theorem view_register (h : Sound requests net) {reqId : ReqId}
    (hmine : clientIdFromSessionKey (requests reqId) = c) :
    (net.step requests (.register reqId)).view requests c =
      (net.view requests c).step requests (.register reqId) := by
  have howner := owner_isSome h hmine
  simp only [Net.step, View.step, howner, AList.lookup_isSome]
  cases hreg : net.registry.register reqId (requests reqId) with
  | none =>
    have hmem : requests reqId ∈ net.registry.sessions := by
      by_contra hno
      simp only [TurnRegistry.register, hno, if_false, reduceCtorEq] at hreg
    rw [if_pos hmem]
    exact View.ext rfl rfl rfl rfl rfl rfl rfl rfl (log_mine (.registered reqId false) hmine _)
  | some p =>
    obtain ⟨r, q⟩ := p
    obtain ⟨hno, rfl, rfl⟩ := TurnRegistry.register_eq_some hreg
    rw [if_neg hno]
    refine View.ext rfl rfl rfl ?_ ?_ ?_ rfl rfl (log_mine (.registered reqId true) hmine _)
    · funext sk
      rcases eq_or_ne sk (requests reqId) with rfl | hne
      · simp only [Net.view, hmine, if_true, AList.lookup_insert, Function.update_self]
      · simp only [Net.view, AList.lookup_insert_ne hne, Function.update_of_ne hne]
    · funext reqId'
      rcases eq_or_ne reqId' reqId with rfl | hne
      · simp only [Net.view, hmine, if_true, AList.lookup_insert, Function.update_self]
      · simp only [Net.view, AList.lookup_insert_ne hne, Function.update_of_ne hne]
    · funext reqId'
      rcases eq_or_ne reqId' reqId with rfl | hne
      · have hempty : net.registry.queues net.registry.created = [] :=
          h.wf.empty _ (Nat.le_refl _)
        simp only [Net.view, hmine, if_true, Function.update_self, Option.map_some, hempty]
      · simp only [Net.view, Function.update_of_ne hne]

theorem view_unregister {reqId : ReqId}
    (hmine : clientIdFromSessionKey (requests reqId) = c) :
    (net.step requests (.unregister reqId)).view requests c =
      (net.view requests c).step requests (.unregister reqId) := by
  have hreqs : (fun reqId' => if clientIdFromSessionKey (requests reqId') = c then
      (net.registry.reqToSession.erase reqId).lookup reqId' else none) =
        Function.update (net.view requests c).reqs reqId none := by
    funext reqId'
    rcases eq_or_ne reqId' reqId with rfl | hne
    · simp only [AList.lookup_erase, ite_self, Function.update_self]
    · simp only [Net.view, AList.lookup_erase_ne hne, Function.update_of_ne hne]
  simp only [Net.step, View.step, TurnRegistry.unregister, view_owner hmine]
  split
  · refine View.ext rfl rfl rfl ?_ hreqs rfl ?_ rfl rfl
    · funext sk
      rcases eq_or_ne sk (requests reqId) with rfl | hne
      · simp only [Net.view, AList.lookup_erase, ite_self, Function.update_self]
      · simp only [Net.view, AList.lookup_erase_ne hne, Function.update_of_ne hne]
    · funext sk
      rcases eq_or_ne sk (requests reqId) with rfl | hne
      · simp only [Net.view, Finset.mem_erase, ne_eq, not_true_eq_false, false_and, and_false,
          decide_false, Function.update_self]
      · simp only [Net.view, Finset.mem_erase, ne_eq, hne, not_false_eq_true, true_and,
          Function.update_of_ne]
  · exact View.ext rfl rfl rfl rfl hreqs rfl rfl rfl rfl

theorem view_get (h : Sound requests net) {reqId : ReqId}
    (hmine : clientIdFromSessionKey (requests reqId) = c) :
    (net.step requests (.get reqId)).view requests c =
      (net.view requests c).step requests (.get reqId) := by
  have hqueue : (net.view requests c).queue reqId =
      (net.handles reqId).map net.registry.queues := if_pos hmine
  simp only [Net.step, View.step, hqueue]
  cases hq : net.handles reqId with
  | none => rfl
  | some q =>
    simp only [Option.bind_some, Option.map_some]
    cases hitems : net.registry.queues q with
    | nil =>
      have hget : net.registry.get q = none := by rw [TurnRegistry.get, hitems]
      rw [hget]
    | cons i rest =>
      have hget : net.registry.get q = some
          ({ net.registry with queues := Function.update net.registry.queues q rest }, i) := by
        rw [TurnRegistry.get, hitems]
      rw [hget]
      exact View.ext rfl rfl rfl rfl rfl (h.queue_mine hq rest hmine) rfl rfl
        (log_mine (.got reqId i) hmine _)

/-- What concerns the client happens to its view. -/
theorem view_step_mine (h : Sound requests net) {a : Action} (hmine : concerns requests c a = true) :
    (net.step requests a).view requests c = (net.view requests c).step requests a := by
  cases a with
  | tick dt =>
    have hlater : (fun deadline => decide (net.now < deadline) && decide (net.now + dt < deadline)) =
        fun deadline => decide (net.now + dt < deadline) := by
      funext deadline
      rw [Bool.eq_iff_iff, Bool.and_eq_true, decide_eq_true_eq, decide_eq_true_eq]
      exact ⟨And.right, fun hlt => ⟨(Nat.le_add_right _ _).trans_lt hlt, hlt⟩⟩
    have hfilter : ∀ o : Option Time, o.filter (fun deadline => decide (net.now + dt < deadline)) =
        (o.filter fun deadline => decide (net.now < deadline)).filter
          fun deadline => decide (net.now + dt < deadline) := by
      intro o
      rw [Option.filter_filter, hlater]
    refine View.ext rfl rfl rfl rfl rfl rfl rfl ?_ rfl
    funext sk
    simp only [Net.view, View.step]
    split
    · exact hfilter _
    · rfl
  | frame run frame =>
    rw [Net.step, dispatch_route, View.step]
    exact view_follow_mine h (of_decide_eq_true hmine) fun _ => route_key
  | register reqId => exact view_register h (of_decide_eq_true hmine)
  | unregister reqId => exact view_unregister (of_decide_eq_true hmine)
  | get reqId => exact view_get h (of_decide_eq_true hmine)
  | isAborted sk =>
    have hmine : clientIdFromSessionKey sk = c := of_decide_eq_true hmine
    have hpurge := congrArg View.tombstone (@view_purge requests net c sk)
    rw [View.step, ← view_aborted hmine]
    exact View.ext rfl rfl rfl rfl rfl rfl rfl hpurge (log_mine (.aborted sk _) hmine _)
  | errorAll message => exact view_errorAll h message
  | registerClient clientId bridge => rfl
  | unregisterClient clientId bridge => rfl

/-- What does not concern the client leaves its view alone. -/
theorem view_step_other (h : Sound requests net) {a : Action}
    (hother : concerns requests c a = false) :
    (net.step requests a).view requests c = net.view requests c := by
  cases a with
  | tick | errorAll | registerClient | unregisterClient => cases hother
  | frame run frame =>
    rw [Net.step, dispatch_route]
    exact view_follow_other h (of_decide_eq_false hother) fun _ => route_key
  | register reqId =>
    have hother : clientIdFromSessionKey (requests reqId) ≠ c := of_decide_eq_false hother
    have hkey : ∀ sk, clientIdFromSessionKey sk = c → sk ≠ requests reqId := by
      rintro sk hmine rfl
      exact hother hmine
    have hreq : ∀ reqId', clientIdFromSessionKey (requests reqId') = c → reqId' ≠ reqId := by
      rintro reqId' hmine rfl
      exact hother hmine
    rw [Net.step]
    cases hreg : net.registry.register reqId (requests reqId) with
    | none => exact View.ext rfl rfl rfl rfl rfl rfl rfl rfl (log_other (.registered reqId false) hother _)
    | some p =>
      obtain ⟨r, q⟩ := p
      obtain ⟨-, rfl, rfl⟩ := TurnRegistry.register_eq_some hreg
      refine View.ext rfl rfl rfl ?_ ?_ ?_ rfl rfl (log_other (.registered reqId true) hother _)
      · funext sk
        refine ite_congr rfl (fun hmine => ?_) fun _ => rfl
        exact AList.lookup_insert_ne (hkey sk hmine)
      · funext reqId'
        refine ite_congr rfl (fun hmine => ?_) fun _ => rfl
        exact AList.lookup_insert_ne (hreq reqId' hmine)
      · funext reqId'
        refine ite_congr rfl (fun hmine => ?_) fun _ => rfl
        exact congrArg (Option.map net.registry.queues) (Function.update_of_ne (hreq reqId' hmine) _ _)
  | unregister reqId =>
    have hother : clientIdFromSessionKey (requests reqId) ≠ c := of_decide_eq_false hother
    have hkey : ∀ sk, clientIdFromSessionKey sk = c → sk ≠ requests reqId := by
      rintro sk hmine rfl
      exact hother hmine
    have hreqs : (fun reqId' => if clientIdFromSessionKey (requests reqId') = c then
        (net.registry.reqToSession.erase reqId).lookup reqId' else none) =
          (net.view requests c).reqs := by
      funext reqId'
      refine ite_congr rfl (fun hmine => AList.lookup_erase_ne ?_) fun _ => rfl
      rintro rfl
      exact hother hmine
    simp only [Net.step, TurnRegistry.unregister]
    split
    · refine View.ext rfl rfl rfl ?_ hreqs rfl ?_ rfl rfl
      · funext sk
        refine ite_congr rfl (fun hmine => ?_) fun _ => rfl
        exact AList.lookup_erase_ne (hkey sk hmine)
      · funext sk
        simp only [Net.view, decide_eq_decide, Finset.mem_erase]
        exact and_congr_right fun hmine => and_iff_right (hkey sk hmine)
    · exact View.ext rfl rfl rfl rfl hreqs rfl rfl rfl rfl
  | get reqId =>
    have hother : clientIdFromSessionKey (requests reqId) ≠ c := of_decide_eq_false hother
    rw [Net.step]
    cases hget : (net.handles reqId).bind net.registry.get with
    | none => rfl
    | some p =>
      obtain ⟨q, hq, hget⟩ := Option.bind_eq_some_iff.mp hget
      obtain ⟨r, i⟩ := p
      obtain ⟨rest, -, rfl⟩ := TurnRegistry.get_eq_some hget
      exact View.ext rfl rfl rfl rfl rfl (h.queue_other hq rest hother) rfl rfl
        (log_other (.got reqId i) hother _)
  | isAborted sk =>
    have hother : clientIdFromSessionKey sk ≠ c := of_decide_eq_false hother
    have hpurge := congrArg View.tombstone (@view_purge requests net c sk)
    exact View.ext rfl rfl rfl rfl rfl rfl rfl hpurge (log_other (.aborted sk _) hother _)

theorem view_queue {reqId : ReqId} (hmine : clientIdFromSessionKey (requests reqId) = c) :
    (net.view requests c).queue reqId = (net.handles reqId).map net.registry.queues :=
  if_pos hmine

theorem sound_run (h : Sound requests net) (actions : List Action) :
    Sound requests (net.run requests actions) := by
  induction actions generalizing net with
  | nil => exact h
  | cons a actions ih => exact ih (h.step a)

/-- The queue of a key is the one its request holds. -/
theorem Sound.pending (h : Sound requests net) (sk : SessionKey) :
    (net.registry.sessions.lookup sk).map net.registry.queues =
      (net.registry.sessionOwner.lookup sk).bind fun reqId =>
        (net.handles reqId).map net.registry.queues := by
  cases howner : net.registry.sessionOwner.lookup sk with
  | none =>
    have hfree : net.registry.sessions.lookup sk = none := by
      refine AList.lookup_eq_none.mpr fun hmem => ?_
      exact AList.lookup_eq_none.mp howner (h.wf.owned.mp hmem)
    rw [hfree]
    rfl
  | some reqId => rw [Option.bind_some, (h.owner howner).2]

theorem route_of_event {run : Run} {frame : PyDict}
    (hevent : (frame.get "type").isStr "event" = true) (reqId : ReqId) (i : TurnItem) :
    route run frame ≠ .rejected reqId i := by
  have hres : (frame.get "type").isStr "res" = false := by
    unfold Json.isStr at hevent ⊢
    split at hevent
    · rw [eq_of_beq hevent]
      decide
    · cases hevent
  have hkeyRoute : ∀ {payload : PyDict} {k : SessionKey → Route},
      (∀ sk, k sk ≠ .rejected reqId i) → keyRoute payload k ≠ .rejected reqId i := by
    intro payload k hk
    unfold keyRoute
    split
    · exact nofun
    · exact hk _
    · split <;> exact nofun
  simp only [route, hres, hevent, Bool.false_eq_true, if_false, if_true, eventRoute]
  split
  · exact hkeyRoute fun _ => nofun
  · split
    · cases sessionKey? (asDict (frame.get "payload")) with
      | none => exact nofun
      | some sk =>
        rw [Option.map_some, Option.getD_some, agentRoute]
        split
        · exact nofun
        · split <;> exact nofun
    · split
      · split
        · exact hkeyRoute fun _ => nofun
        · exact nofun
      · exact nofun

-- ---------------------------------------------------------------------------
-- Whole runs
-- ---------------------------------------------------------------------------

/-- Two runs that agree on the client's sessions, and differ only in steps about others. -/
theorem view_run {keep : Action → Bool} (hkeep : ∀ a, concerns requests c a = true → keep a = true)
    (actions : List Action) {net net' : Net} (h : Sound requests net) (h' : Sound requests net')
    (hview : net.view requests c = net'.view requests c) :
    (net.run requests actions).view requests c =
      (net'.run requests (actions.filter keep)).view requests c := by
  induction actions generalizing net net' with
  | nil => exact hview
  | cons a actions ih =>
    rw [Net.run, List.foldl_cons]
    cases hmine : concerns requests c a with
    | true =>
      rw [List.filter_cons_of_pos (hkeep a hmine)]
      refine ih (h.step a) (h'.step a) ?_
      rw [view_step_mine h hmine, view_step_mine h' hmine, hview]
    | false =>
      cases hkept : keep a with
      | true =>
        rw [List.filter_cons_of_pos hkept]
        refine ih (h.step a) (h'.step a) ?_
        rw [view_step_other h hmine, view_step_other h' hmine, hview]
      | false =>
        rw [List.filter_cons_of_neg (by rw [hkept]; exact Bool.false_ne_true)]
        refine ih (h.step a) h' ?_
        rw [view_step_other h hmine, hview]

/-- An event frame goes to the turn queue of its key, to the backlog of its client, or
nowhere. -/
theorem frame_once (clients : ClientRegistry) (now : Time) (r : TurnRegistry TurnItem) (run : Run)
    {frame : PyDict} (hevent : (frame.get "type").isStr "event" = true) :
    let out := dispatch clients now r run frame
    (out.2 = none ∨ out.1.queues = r.queues) ∧
    (∀ q, r.sessions.lookup (frameKey frame) ≠ some q → out.1.queues q = r.queues q) ∧
    ∀ bridge event, out.2 = some (bridge, event) →
      clients.get (clientIdFromSessionKey (frameKey frame)) = some bridge := by
  intro out
  have hbridge : ∀ sk bridge event event', toBridge clients sk event = some (bridge, event') →
      clients.get (clientIdFromSessionKey sk) = some bridge := by
    intro sk bridge event event' hpush
    obtain ⟨b, hb, heq⟩ := Option.map_eq_some_iff.mp hpush
    cases heq
    exact hb
  have hunless : ∀ sk event, ∀ out : Outcome, out = (match r.isAborted sk now with
        | (r, true) => (r, none)
        | (r, false) => (r, toBridge clients sk event)) →
      out.1.queues = r.queues ∧ ∀ bridge event', out.2 = some (bridge, event') →
        clients.get (clientIdFromSessionKey sk) = some bridge := by
    rintro sk event _ rfl
    have hqueues : (r.isAborted sk now).1.queues = r.queues := rfl
    cases hab : r.isAborted sk now with
    | mk r' flag =>
      rw [hab] at hqueues
      cases flag with
      | true => exact ⟨hqueues, fun _ _ hpush => by cases hpush⟩
      | false => exact ⟨hqueues, fun bridge event' => hbridge sk bridge event event'⟩
  have hout : out = (route run frame).follow clients now r := dispatch_route clients now r run frame
  have hkey : ∀ sk, (route run frame).key = some sk → sk = frameKey frame := fun _ => route_key
  have hres : ∀ reqId i, route run frame ≠ .rejected reqId i := route_of_event hevent
  cases hroute : route run frame with
  | nothing | purges =>
    rw [hroute] at hout
    rw [hout]
    exact ⟨.inl rfl, fun _ _ => rfl, fun _ _ hpush => by cases hpush⟩
  | rejected reqId i => exact absurd hroute (hres reqId i)
  | content sk i event =>
    rw [hroute] at hout hkey
    obtain rfl := hkey sk rfl
    rw [Route.follow, deliverOrPush, TurnRegistry.deliverBySession] at hout
    cases hq : r.sessions.lookup (frameKey frame) with
    | some q =>
      rw [hq] at hout
      rw [hout]
      refine ⟨.inl rfl, fun q' hne => ?_, fun _ _ hpush => by cases hpush⟩
      have hne : q' ≠ q := fun heq => hne (congrArg some heq.symm)
      dsimp only
      obtain ⟨-, heq⟩ | ⟨-, -, peak, heq⟩ | ⟨-, -, heq⟩ :=
        r.deliver_cases (frameKey frame) q i now <;> rw [heq]
      · exact Function.update_of_ne hne _ _
      · exact Function.update_of_ne hne _ _
    | none =>
      rw [hq] at hout
      obtain ⟨hqueues, hpush⟩ := hunless _ event out hout
      exact ⟨.inr hqueues, fun q _ => congrFun hqueues q, hpush⟩
  | started sk =>
    rw [hroute] at hout hkey
    obtain rfl := hkey sk rfl
    rw [Route.follow] at hout
    split at hout
    · rw [hout]
      exact ⟨.inl rfl, fun _ _ => rfl, fun _ _ hpush => by cases hpush⟩
    · obtain ⟨hqueues, hpush⟩ := hunless _ _ out hout
      exact ⟨.inr hqueues, fun q _ => congrFun hqueues q, hpush⟩
  | ended sk =>
    rw [hroute] at hout hkey
    obtain rfl := hkey sk rfl
    rw [hout]
    exact ⟨.inr rfl, fun _ _ => rfl, fun bridge event => hbridge _ bridge _ event⟩

/-- Leaving out any steps about the sessions of other clients changes nothing for those of
client `c`: the results of its operations, its pushes, its queues and its tombstones. -/
theorem sessions_isolated (requests : ReqId → SessionKey) (maxsize : Nat) (c : PyStr)
    (actions : List Action) (keep : Action → Bool)
    (hkeep : ∀ a, concerns requests c a = true → keep a = true) :
    let full := (start maxsize).run requests actions
    let alone := (start maxsize).run requests (actions.filter keep)
    full.log.filter (fun r => r.client requests = c) =
      alone.log.filter (fun r => r.client requests = c) ∧
    (∀ sk, clientIdFromSessionKey sk = c →
      full.registry.sessionOwner.lookup sk = alone.registry.sessionOwner.lookup sk ∧
      (full.registry.sessions.lookup sk).map full.registry.queues =
        (alone.registry.sessions.lookup sk).map alone.registry.queues ∧
      (full.registry.isAborted sk full.now).2 = (alone.registry.isAborted sk alone.now).2) ∧
    (∀ reqId, clientIdFromSessionKey (requests reqId) = c →
      (full.handles reqId).map full.registry.queues =
        (alone.handles reqId).map alone.registry.queues) ∧
    ∀ run frame, (frame.get "type").isStr "event" = true →
      let out := dispatch full.clients full.now full.registry run frame
      (out.2 = none ∨ out.1.queues = full.registry.queues) ∧
      (∀ q, full.registry.sessions.lookup (frameKey frame) ≠ some q →
        out.1.queues q = full.registry.queues q) ∧
      ∀ bridge event, out.2 = some (bridge, event) →
        full.clients.get (clientIdFromSessionKey (frameKey frame)) = some bridge := by
  intro full alone
  have hfull : Sound requests full := sound_run (.init maxsize) actions
  have halone : Sound requests alone := sound_run (.init maxsize) _
  have hview : full.view requests c = alone.view requests c :=
    view_run hkeep actions (.init maxsize) (.init maxsize) rfl
  have howner : ∀ sk, clientIdFromSessionKey sk = c →
      full.registry.sessionOwner.lookup sk = alone.registry.sessionOwner.lookup sk := by
    intro sk hmine
    rw [← view_owner hmine, ← view_owner hmine, hview]
  have hqueue : ∀ reqId, clientIdFromSessionKey (requests reqId) = c →
      (full.handles reqId).map full.registry.queues =
        (alone.handles reqId).map alone.registry.queues := by
    intro reqId hmine
    rw [← view_queue hmine, ← view_queue hmine, hview]
  refine ⟨congrArg View.log hview, fun sk hmine => ⟨howner sk hmine, ?_, ?_⟩, hqueue,
    fun run frame => frame_once full.clients full.now full.registry run⟩
  · rw [hfull.pending, halone.pending, howner sk hmine]
    refine Option.bind_congr fun reqId hreq => ?_
    refine hqueue reqId ?_
    rw [(halone.owner hreq).1]
    exact hmine
  · rw [view_aborted hmine, view_aborted hmine, hview]

end

/-- A chat frame of a key. -/
def chatFrame (sk : SessionKey) (text : String) : PyDict :=
  [(py "type", .str (py "event")), (py "event", .str (py "chat")),
    (py "payload", .obj [(py "sessionKey", .str sk), (py "deltaText", .str (py text))])]

/-- The turn of "b" overflows its queue of one while "a" gets its reply. -/
def noisyNeighbour : List Action :=
  [.register (py "a"), .register (py "b"),
    .frame (.ofRequest (py "b")) (chatFrame (py "agent:main:b") "x"),
    .frame (.ofRequest (py "a")) (chatFrame (py "agent:main:a") "hola"),
    .frame (.ofRequest (py "b")) (chatFrame (py "agent:main:b") "y"), .get (py "a")]

def keyOf (reqId : ReqId) : SessionKey := py "agent:main:" ++ reqId

/-- Without "b" three steps are left, and "a" has got the same. -/
theorem sessions_isolated_noisy :
    (noisyNeighbour.filter (concerns keyOf (py "a"))).length = 3 ∧
    ((start 1).run keyOf noisyNeighbour).log.filter (fun r => r.client keyOf = py "a") =
      ((start 1).run keyOf (noisyNeighbour.filter (concerns keyOf (py "a")))).log.filter
        fun r => r.client keyOf = py "a" :=
  ⟨by decide, (sessions_isolated keyOf 1 (py "a") noisyNeighbour _ fun _ h => h).1⟩

end Multiplex
