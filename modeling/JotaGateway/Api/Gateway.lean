-- SUMMARY: `gateway_websocket` from its handshake to the end of its `finally`, for any number of connections over one client registry, one set of counters and one client database.
import JotaGateway.Admin.Clients
import JotaGateway.Api.Handshake
import JotaGateway.Bridge.CloseAll
import JotaGateway.OpenClaw.Dispatcher

/-!
# The gateway

Any number of connections run `gateway_websocket` at once. One that got as far as a
`JotaBridge` has a `Bridge.Session`, which goes on taking its steps while the route
waits for it. The client registry, the counters and the rows of the clients are
shared, and the admin API changes the rows at any time.
-/

namespace Gateway

open Bridge (Session CloserRef CloseReason CloseSite CloseStep Queued RunEnd)
open Admin (ClientRecord ClientConfig Database LookupError resolveAgent)

/-- A connection; its bridge has the same reference. -/
abbrev ConnRef := BridgeRef

structure Env where
  handshake : ClientHandshake.Env
  /-- what the validator of the admin API strips -/
  blank : Nat → Bool
  /-- the columns of a row that the session reads -/
  config : ClientRecord → Bridge.Config

-- ---------------------------------------------------------------------------
-- Connections
-- ---------------------------------------------------------------------------

/-- What `get_session` returns or raises. -/
abbrev Lookup := Except LookupError (ClientRecord × ClientConfig)

/-- How far the construction of a session gets. -/
inductive Build where
  | done
  /-- the tracker or its registration raises -/
  | tracker
  /-- `JotaBridge` raises, after it counted the session -/
  | bridge

/-- How `gateway_websocket` is left. -/
inductive Outcome where
  | returned
  | raised
  | cancelled
deriving DecidableEq

/-- The `await` at which `gateway_websocket` is. -/
inductive Pc where
  | idle
  | handshake
  /-- the close with 1008 -/
  | rejecting
  /-- `get_session`, in a thread; `found` is what it read -/
  | resolving (handshake : ClientHandshake.Handshake) (found : Option Lookup)
  /-- the `Teardown` of a session that was built by half -/
  | abortSender
  | abortSocket
  /-- `connect_internal_services` -/
  | connecting
  /-- the close with 1011 -/
  | refusing
  | healthCheck
  | flushing
  /-- the flush of `ready` -/
  | ready
  | run
  /-- the `Teardown` of the `finally` -/
  | closeAll
  | draining
  | hangUp
  | left (outcome : Outcome)

/-- What a `JotaBridge` is made for. -/
structure Tenant where
  handshake : ClientHandshake.Handshake
  client : ClientRecord
  agent : PyStr
  cfg : Bridge.Config

structure Conn where
  pc : Pc := .idle
  bridge : Option Tenant := none
  session : Session := {}
  /-- a `QueuedSender` was made, and its `aclose` called so often -/
  sender : Bool := false
  acloses : Nat := 0
  /-- the codes of `websocket.close` -/
  closes : List Nat := []
  /-- the reasons of `handshake_rejected` -/
  rejected : List String := []
  /-- `session_opened` was called -/
  counted : Bool := false
  /-- the record of a session that was built by half, in the `SessionRegistry` -/
  record : Option Bridge.SessionStatus := none
  /-- `run` has spawned its tasks, and has come to its `close_all` -/
  ran : Bool := false
  runCloses : Bool := false
  /-- the `close_all` of the `finally` has begun -/
  routeCloses : Bool := false
  /-- what `_session_revalidation_loop` has read -/
  current : Option Lookup := none
  /-- the route was cancelled, or an exception is on its way out of it -/
  cancelling : Bool := false
  raising : Bool := false

/-- The callers of `close_all` that the route waits for. -/
def runCloser : CloserRef := 0

def routeCloser : CloserRef := 1

namespace Conn

def outcome (conn : Conn) : Outcome :=
  if conn.cancelling then .cancelled else if conn.raising then .raised else .returned

def leave (conn : Conn) : Conn := { conn with pc := .left conn.outcome }

/-- `websocket.close(code)` -/
def close (conn : Conn) (code : Nat) (pc : Pc) : Conn :=
  { conn with closes := conn.closes ++ [code], pc := pc }

def noteCloseReason (conn : Conn) (reason : CloseReason) : Conn :=
  { conn with session := conn.session.noteCloseReason (some reason) }

/-- The `finally`: `close_all` gets a task of its own. -/
def tearDown (conn : Conn) : Conn := { conn with pc := .closeAll }

def cancelled (conn : Conn) : Conn := { conn with cancelling := true }

def raised (conn : Conn) : Conn := { conn with raising := true }

/-- `session_registry.close(session_id, "error")` -/
def recordError (conn : Conn) : Conn := { conn with record := conn.record.map fun _ => .error }

def aclose (conn : Conn) (pc : Pc) : Conn :=
  { conn with
    acloses := conn.acloses + 1
    session.bridge.out.senderOpen := false
    pc := pc }

/-- Its record in the `SessionRegistry`. -/
def recorded (conn : Conn) : Option Bridge.SessionStatus :=
  if conn.bridge.isSome then some conn.session.close.status else conn.record

/-- Nobody else takes these steps: the route is one caller of `close_all` and `run` another, which
only the cancellation of the route cancels. -/
def permits (conn : Conn) : Bridge.Act → Bool
  | .call k site =>
    conn.ran && 2 ≤ k && (site == .silenceWatchdog || site == .idleWatchdog || site == .idleCrash)
  | .cancelCloser k => 2 ≤ k
  | .enqueue _ => false
  | .begin _ _ | .disconnected => conn.ran
  | _ => true

end Conn

-- ---------------------------------------------------------------------------
-- What the connections share
-- ---------------------------------------------------------------------------

structure GatewayStats where
  sessionsOpened : Nat := 0
  /-- the calls of `session_closed` -/
  sessionsClosed : List CloseReason := []
  /-- the calls of `handshake_rejected` -/
  handshakeRejected : List String := []

end Gateway

open Gateway in
structure Gateway where
  db : Admin.Database := []
  clients : ClientRegistry := {}
  stats : GatewayStats := {}
  count : Nat := 0
  conns : ConnRef → Conn := fun _ => {}
  /-- the calls of `ClientRegistry.register`: nothing in the gateway reads them -/
  registrations : List ConnRef := []

namespace Gateway

open Bridge (Session CloserRef CloseReason CloseSite CloseStep Queued RunEnd)
open Admin (ClientRecord ClientConfig Database LookupError resolveAgent)

def setConn (g : Gateway) (c : ConnRef) (conn : Conn) : Gateway :=
  { g with conns := Function.update g.conns c conn }

def clientId (g : Gateway) (c : ConnRef) : Option PyStr :=
  (g.conns c).bridge.map fun tenant => tenant.client.id

/-- The step has come to `unregister`. -/
def unregisters (s s' : Session) : Bool :=
  s'.close.trace.contains .unregister && !s.close.trace.contains .unregister

/-- The session of `c` has taken a step: what it did to the registry and to the counters. -/
def setSession (g : Gateway) (c : ConnRef) (s' : Session) : Gateway :=
  let conn := g.conns c
  let s := conn.session
  let clients := match conn.bridge with
    | some tenant =>
      if unregisters s s' then g.clients.unregister tenant.client.id c else g.clients
    | none => g.clients
  let closed := s'.close.sessionsClosed.drop s.close.sessionsClosed.length
  { g with
    clients
    stats.sessionsClosed := g.stats.sessionsClosed ++ closed }.setConn c { conn with session := s' }

/-- Where a reply to the handshake leads: to the close, out of the endpoint, or on. -/
def Conn.replied (conn : Conn) (reply : ClientHandshake.Reply) : Conn :=
  let conn := { conn with
    rejected := conn.rejected ++ reply.rejected
    closes := conn.closes ++ reply.closes.map Prod.fst }
  match reply.result with
  | .error _ => conn.raised.leave
  | .ok (some handshake) => { conn with pc := .resolving handshake none }
  | .ok none => if reply.closes.isEmpty then conn.leave else { conn with pc := .rejecting }

/-- A rejection is counted. -/
def reply (g : Gateway) (c : ConnRef) (reply : ClientHandshake.Reply) : Gateway :=
  { g with
    stats.handshakeRejected := g.stats.handshakeRejected ++ reply.rejected }.setConn c
    ((g.conns c).replied reply)

/-- `str(e)` of an `AgentPolicyError` -/
def policyText : Admin.AgentPolicyError → String
  | .notPermitted agent =>
    "Agent '" ++ String.ofList (agent.map Char.ofNat) ++ "' not permitted for this client."
  | .notAvailable agent => "Agent '" ++ String.ofList (agent.map Char.ofNat) ++ "' not available."

/-- `connect_internal_services` ends with it. -/
def registers (g : Gateway) (c : ConnRef) (tenant : Tenant) : Gateway :=
  { g with
    clients := g.clients.register tenant.client.id c
    registrations := g.registrations ++ [c] }.setConn c { g.conns c with pc := .healthCheck }

def tenant (env : Env) (handshake : ClientHandshake.Handshake) (client : ClientRecord)
    (agent : PyStr) : Tenant where
  handshake := handshake
  client := client
  agent := agent
  cfg := { env.config client with
    outputText := handshake.outputMode.contains .text
    outputAudio := handshake.outputMode.contains .audio
    hasTranscriber := handshake.inputMode = .audio
    sessionKey := makeSessionKey agent client.id }

/-- From the agent of the session to its first `await`. -/
def build (env : Env) (g : Gateway) (c : ConnRef) (handshake : ClientHandshake.Handshake)
    (client : ClientRecord) (agent : PyStr) : Build → Gateway
  | .done =>
    let tenant := tenant env handshake client agent
    let conn := { g.conns c with bridge := some tenant, sender := true, counted := true }
    let g := { g with stats.sessionsOpened := g.stats.sessionsOpened + 1 }
    -- a session without a transcriber has nothing to wait for
    if tenant.cfg.hasTranscriber then g.setConn c { conn with pc := .connecting }
    else (g.setConn c conn).registers c tenant
  | .tracker =>
    g.setConn c ({ g.conns c with sender := true }.recordError.aclose .abortSender)
  | .bridge =>
    let conn := { g.conns c with sender := true, counted := true, record := some .active }
    { g with stats.sessionsOpened := g.stats.sessionsOpened + 1 }.setConn c
      (conn.recordError.aclose .abortSender)

/-- What follows `get_session`; `gatewayInfo` is what OpenClaw has said by then. -/
def resolved (env : Env) (g : Gateway) (c : ConnRef) (handshake : ClientHandshake.Handshake)
    (gatewayInfo : Option Admin.GatewayInfo) (b : Build) : Lookup → Gateway
  | .error .valueError => g.setConn c (g.conns c).raised.leave
  | .error _ =>
    g.reply c (ClientHandshake.reject "invalid_key" "Clave de cliente invalida o inactiva.")
  | .ok (client, config) =>
    match resolveAgent handshake.agent (some config) gatewayInfo with
    | .error e => g.reply c (ClientHandshake.reject "agent" (policyText e))
    | .ok agent => g.build env c handshake client agent b

-- ---------------------------------------------------------------------------
-- The route
-- ---------------------------------------------------------------------------

/-- How an `await` of the route ends. -/
inductive RouteAct where
  | received (first : ClientHandshake.First)
  /-- the thread of `get_session` reads the row -/
  | reads
  | resolved (gatewayInfo : Option Admin.GatewayInfo) (b : Build)
  | returns
  /-- `health_check` returns `None` -/
  | unavailable
  /-- `ClientGone` -/
  | clientGone
  | raises
  /-- `client_task` is done, as far as `run` can tell -/
  | runEnds (e : RunEnd)
  /-- the task of `close_all` begins -/
  | begins
  /-- the sender is drained; the client has disconnected by then, or not -/
  | drained (disconnected : Bool)
  | cancelled

/-- The cancellation arrives within `run`, which comes to its `close_all` or is in it. -/
def cancelRun (conn : Conn) : Option Session :=
  if conn.runCloses then some (conn.session.setCloser runCloser
    (Session.cancelCloser (conn.session.closers runCloser)))
  else conn.session.call runCloser (.run .cancelled)

def runEnds (conn : Conn) (e : RunEnd) : Option Session :=
  -- only a `close_all` cancels the input loop
  if conn.runCloses || e == .cancelled || e == .loopCancelled &&
      !conn.session.close.trace.contains .tasks then none
  else conn.session.call runCloser (.run e)

/-- `health_check` has returned the capabilities: `ready` is sent. -/
def sendReady (conn : Conn) : Conn :=
  if conn.session.bridge.out.senderOpen then { conn with pc := .ready }
  else (conn.noteCloseReason .clientDisconnect).tearDown

/-- `health_check` has returned `None`: what is queued is sent before the close. -/
def refuse (conn : Conn) : Conn :=
  let conn := conn.noteCloseReason .error
  if conn.session.bridge.out.senderOpen then { conn with pc := .flushing }
  else conn.close 1011 .refusing

/-- A closer that the route waits for has come back. -/
def closerDone (conn : Conn) (called : Bool) (k : CloserRef) : Bool :=
  called && (conn.session.closers k).pc == .idle

def goes (g : Gateway) (c : ConnRef) (conn : Conn) : Option Gateway := some (g.setConn c conn)

/-- `receive_text` under `wait_for` -/
def awaitHandshake (env : Env) (g : Gateway) (c : ConnRef) : RouteAct → Option Gateway
  | .received first => some (g.reply c (ClientHandshake.gatewayWebsocket env.handshake first))
  | .cancelled => g.goes c (g.conns c).cancelled.leave
  | _ => none

/-- The close with 1008. -/
def awaitRejection (g : Gateway) (c : ConnRef) : RouteAct → Option Gateway
  | .returns => g.goes c (g.conns c).leave
  | .raises => g.goes c (g.conns c).raised.leave
  | .cancelled => g.goes c (g.conns c).cancelled.leave
  | _ => none

/-- `get_session` -/
def awaitClient (env : Env) (g : Gateway) (c : ConnRef) (handshake : ClientHandshake.Handshake)
    (found : Option Lookup) : RouteAct → Option Gateway
  | .reads =>
    if found.isSome then none
    else g.goes c { g.conns c with
      pc := .resolving handshake (some (g.db.lookup handshake.clientKey)) }
  | .resolved gatewayInfo b => found.map (g.resolved env c handshake gatewayInfo b)
  -- the database is busy, say
  | .raises => if found.isSome then none else g.goes c (g.conns c).raised.leave
  | .cancelled => g.goes c (g.conns c).cancelled.leave
  | _ => none

/-- `sender.aclose` of a session that was built by half -/
def awaitAbortSender (g : Gateway) (c : ConnRef) : RouteAct → Option Gateway
  | .returns => g.goes c ((g.conns c).close 1011 .abortSocket)
  | .cancelled => g.goes c (g.conns c).cancelled
  | _ => none

/-- The last step of a `Teardown`. -/
def awaitLast (g : Gateway) (c : ConnRef) : RouteAct → Option Gateway
  | .returns => g.goes c (g.conns c).leave
  | .cancelled => g.goes c (g.conns c).cancelled
  | _ => none

/-- `connect_internal_services`, of a session with a transcriber -/
def awaitConnect (g : Gateway) (c : ConnRef) : RouteAct → Option Gateway
  | .returns => (g.conns c).bridge.map (g.registers c)
  | .raises => g.goes c ((g.conns c).close 1011 .refusing)
  | .cancelled => g.goes c (g.conns c).cancelled.tearDown
  | _ => none

/-- The close with 1011, in the setup. -/
def awaitRefusal (g : Gateway) (c : ConnRef) : RouteAct → Option Gateway
  | .returns => g.goes c (g.conns c).tearDown
  | .raises => g.goes c (g.conns c).raised.tearDown
  | .cancelled => g.goes c (g.conns c).cancelled.tearDown
  | _ => none

/-- `health_check` -/
def awaitHealth (g : Gateway) (c : ConnRef) : RouteAct → Option Gateway
  | .returns => g.goes c (sendReady (g.conns c))
  | .unavailable => g.goes c (refuse (g.conns c))
  | .clientGone => g.goes c ((g.conns c).noteCloseReason .clientDisconnect).tearDown
  | .raises => g.goes c (g.conns c).raised.tearDown
  | .cancelled => g.goes c (g.conns c).cancelled.tearDown
  | _ => none

/-- `sender.flush` before the close with 1011 -/
def awaitFlush (g : Gateway) (c : ConnRef) : RouteAct → Option Gateway
  | .returns | .clientGone => g.goes c ((g.conns c).close 1011 .refusing)
  | .cancelled => g.goes c (g.conns c).cancelled.tearDown
  | _ => none

/-- `sender.flush` of `ready`; `run` begins after it -/
def awaitReady (g : Gateway) (c : ConnRef) : RouteAct → Option Gateway
  | .returns => g.goes c { g.conns c with pc := .run, ran := true }
  | .clientGone => g.goes c ((g.conns c).noteCloseReason .clientDisconnect).tearDown
  | .raises => g.goes c ((g.conns c).noteCloseReason .error).tearDown
  | .cancelled => g.goes c (g.conns c).cancelled.tearDown
  | _ => none

/-- `bridge.run()` -/
def awaitRun (g : Gateway) (c : ConnRef) : RouteAct → Option Gateway
  | .runEnds e => (runEnds (g.conns c) e).map
    ((g.setConn c { g.conns c with runCloses := true }).setSession c)
  | .returns =>
    if closerDone (g.conns c) (g.conns c).runCloses runCloser then g.goes c (g.conns c).tearDown
    else none
  | .cancelled => (cancelRun (g.conns c)).map
    ((g.setConn c { (g.conns c).cancelled with runCloses := true }).setSession c)
  | _ => none

/-- `td.step(bridge.close_all(status="error"))` -/
def awaitCloseAll (g : Gateway) (c : ConnRef) : RouteAct → Option Gateway
  | .begins =>
    if (g.conns c).routeCloses then none
    else ((g.conns c).session.call routeCloser .route).map
      ((g.setConn c { g.conns c with routeCloses := true }).setSession c)
  | .returns =>
    if closerDone (g.conns c) (g.conns c).routeCloses routeCloser then
      g.goes c ((g.conns c).aclose .draining)
    else none
  | .cancelled => g.goes c (g.conns c).cancelled
  | _ => none

/-- `td.step(sender.aclose(…))` -/
def awaitDrain (g : Gateway) (c : ConnRef) : RouteAct → Option Gateway
  | .drained disconnected =>
    g.goes c (if disconnected then (g.conns c).leave else (g.conns c).close 1000 .hangUp)
  | .cancelled => g.goes c (g.conns c).cancelled
  | _ => none

def routeStep (env : Env) (g : Gateway) (c : ConnRef) (a : RouteAct) : Option Gateway :=
  match (g.conns c).pc with
  | .idle | .left _ => none
  | .handshake => g.awaitHandshake env c a
  | .rejecting => g.awaitRejection c a
  | .resolving handshake found => g.awaitClient env c handshake found a
  | .abortSender => g.awaitAbortSender c a
  | .connecting => g.awaitConnect c a
  | .refusing => g.awaitRefusal c a
  | .healthCheck => g.awaitHealth c a
  | .flushing => g.awaitFlush c a
  | .ready => g.awaitReady c a
  | .run => g.awaitRun c a
  | .closeAll => g.awaitCloseAll c a
  | .draining => g.awaitDrain c a
  | .abortSocket | .hangUp => g.awaitLast c a

-- ---------------------------------------------------------------------------
-- The gateway
-- ---------------------------------------------------------------------------

/-- The key no longer is that client's, or the client is not active. -/
def refuses (clientId : PyStr) : Lookup → Bool
  | .ok (client, _) => client.id != clientId
  | .error .valueError => false
  | .error _ => true

inductive Act where
  | admin (request : Admin.Request)
  | accept
  | route (c : ConnRef) (a : RouteAct)
  | session (c : ConnRef) (a : Bridge.Act)
  /-- the dispatcher has push content for a session key -/
  | push (sk : SessionKey) (q : Queued)
  /-- a tick of `_session_revalidation_loop`: its thread reads the row -/
  | revalidates (c : ConnRef)
  /-- and the loop goes on with it, `k` being free for a call of `close_all` -/
  | revalidated (c : ConnRef) (k : CloserRef)

/-- `_session_revalidation_loop` with what it read: `_revoke_session`, or the next tick. -/
def revalidated (g : Gateway) (c : ConnRef) (k : CloserRef) : Option Gateway :=
  let conn := g.conns c
  match conn.bridge, conn.current with
  | some tenant, some found =>
    let g := g.setConn c { conn with current := none }
    if refuses tenant.client.id found then
      if 2 ≤ k then (conn.session.call k .revocation).map (g.setSession c) else none
    else some g
  | _, _ => none

def step (env : Env) (g : Gateway) : Act → Option Gateway
  | .admin request => some { g with db := (g.db.handle env.blank request).1 }
  | .accept =>
    some ({ g with count := g.count + 1 }.setConn g.count { g.conns g.count with pc := .handshake })
  | .route c a => g.routeStep env c a
  | .session c a =>
    let conn := g.conns c
    match conn.bridge with
    | some tenant =>
      if conn.permits a then (conn.session.step tenant.cfg a).map (g.setSession c) else none
    | none => none
  | .push sk q =>
    match g.clients.get (clientIdFromSessionKey sk) with
    | some c =>
      let s := (g.conns c).session
      some (g.setSession c { s with bridge := s.bridge.enqueuePush q })
    | none => some g
  | .revalidates c =>
    let conn := g.conns c
    match conn.bridge with
    | some tenant =>
      if conn.ran && conn.current.isNone then
        some (g.setConn c { conn with current := some (g.db.lookup tenant.client.clientKey) })
      else none
    | none => none
  | .revalidated c k => g.revalidated c k

end Gateway
