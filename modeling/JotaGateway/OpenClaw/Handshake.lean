-- SUMMARY: `OpenClawClient.connect`: the handshake, the agent roster it leaves behind, and the roster after any chain of attempts.
import JotaGateway.Python.Value
import Mathlib.Data.List.Induction

/-!
# The OpenClaw handshake

`connect()` runs under `_connect_lock`, so the attempts of one client form a
sequence. An attempt is given by what the socket does during it; its only effect
that outlives a failure is `gateway_info`, which is rebuilt at hello-ok, before
`agents.list` has been answered.
-/

-- ---------------------------------------------------------------------------
-- GatewayInfo
-- ---------------------------------------------------------------------------

structure GatewayInfo where
  defaultAgentId : Json
  tickIntervalMs : Json
  maxPayload : Json
  agents : List Json := []

/-- `a["id"]`, where it does not raise. -/
def agentId (a : Json) : Option Json :=
  a.dict?.bind fun fields => fields.lookup (py "id")

/-- The iteration over `payload.get("agents", [])`: an empty `dict` or `str` is also an
empty roster, and the items of a non-empty one are strings, which have no `"id"`. -/
def roster : Json → Option (List Json)
  | .arr items => items.mapM agentId
  | .obj [] => some []
  | .str [] => some []
  | _ => none

/-- `GatewayInfo.update_agents_from_list`, where it does not raise. The list is built
before it is assigned. -/
def GatewayInfo.updateAgentsFromList (info : GatewayInfo) (payload : Json) : Option GatewayInfo := do
  let payload ← payload.dict?
  let agents ← roster (PyDict.getOr payload "agents" (.arr []))
  return { info with
    agents, defaultAgentId := PyDict.getOr payload "defaultId" info.defaultAgentId }

/-- `GatewayInfo.from_hello_ok`, where it does not raise. -/
def GatewayInfo.fromHelloOk (payload : PyDict) : Option GatewayInfo := do
  let policy ← (PyDict.getOr payload "policy" (.obj [])).dict?
  let snapshot ← (PyDict.getOr payload "snapshot" (.obj [])).dict?
  let sessionDefaults ← (PyDict.getOr snapshot "sessionDefaults" (.obj [])).dict?
  let agentId := PyDict.get sessionDefaults "defaultAgentId"
  return {
    defaultAgentId := if agentId.truthy then agentId else .str (py "main")
    tickIntervalMs := PyDict.getOr policy "tickIntervalMs" (.num 15000 0)
    maxPayload := PyDict.getOr policy "maxPayload" (.num 26214400 0) }

theorem GatewayInfo.fromHelloOk_agents {payload : PyDict} {info : GatewayInfo}
    (h : fromHelloOk payload = some info) : info.agents = [] := by
  simp only [fromHelloOk, Option.bind_eq_bind, Option.bind_eq_some_iff] at h
  obtain ⟨policy, -, snapshot, -, sessionDefaults, -, h⟩ := h
  cases h
  rfl

-- ---------------------------------------------------------------------------
-- One attempt
-- ---------------------------------------------------------------------------

inductive ConnectError where
  /-- `OrchestratorHandshakeError` -/
  | handshake
  /-- whatever else a step raises: a timeout, a closed socket, a cancellation, a
  payload of the wrong shape -/
  | other
  deriving DecidableEq, Repr

/-- How `ws.recv()` ends: it raises, or it returns a text and what that parses as. -/
inductive Recv where
  | raised
  | text (frame : Option Json)

/-- What the socket and the callers do to one `connect()`. -/
structure Attempt where
  /-- `_cancel_and_close` was not cancelled -/
  tornDown : Bool
  /-- `websockets.connect` returned -/
  opened : Bool
  challenge : Recv
  connectSent : Bool
  hello : Recv
  agentsListSent : Bool
  agentsReqId : PyStr
  /-- the frames `_recv_matching` reads until its deadline or until a `recv` raises -/
  frames : List (Option Json)
  subscribeSent : Bool
  /-- the acknowledgement of `sessions.subscribe` arrived -/
  subscribed : Bool

/-- `_parse_handshake_frame` on what `recv` gave. -/
def parseHandshakeFrame : Recv → Except ConnectError PyDict
  | .raised => .error .other
  | .text (some (.obj frame)) => .ok frame
  | .text _ => .error .handshake

/-- `hello.get("payload") or {}`, which has to be a `dict`. -/
def helloPayload (hello : PyDict) : Except ConnectError PyDict :=
  if (hello.get "payload").truthy then
    match (hello.get "payload").dict? with
    | some payload => .ok payload
    | none => .error .handshake
  else
    .ok []

/-- `_recv_matching`. -/
def recvMatching (reqId : PyStr) : List (Option Json) → Except ConnectError PyDict
  | some (.obj frame) :: rest =>
    if (PyDict.get frame "id").str? = some reqId then .ok frame else recvMatching reqId rest
  | _ => .error .other

/-- A step that goes on, or raises `e`. -/
def require (e : ConnectError) (goesOn : Bool) : Except ConnectError Unit :=
  if goesOn then .ok () else .error e

namespace Attempt

/-- The handshake up to the moment `gateway_info` is rebuilt. -/
def helloOk (a : Attempt) : Except ConnectError GatewayInfo := do
  require .other a.tornDown
  require .other a.opened
  let frame ← parseHandshakeFrame a.challenge
  require .handshake ((frame.get "event").isStr "connect.challenge")
  require .other a.connectSent
  let hello ← parseHandshakeFrame a.hello
  require .handshake (hello.get "ok").truthy
  let payload ← helloPayload hello
  match GatewayInfo.fromHelloOk payload with
  | some info => return info
  | none => throw .other

/-- `agents_res`. -/
def agentsRes (a : Attempt) : Except ConnectError PyDict := do
  require .other a.agentsListSent
  recvMatching a.agentsReqId a.frames

/-- The subscription that ends the handshake. -/
def subscribe (a : Attempt) : Except ConnectError Unit := do
  require .other a.subscribeSent
  require .other a.subscribed

end Attempt

/-- `_do_connect` once hello-ok has rebuilt `gateway_info` as `info`: what
`gateway_info` is in the end, and what the call returns or raises. -/
def afterHello (previousAgents : List Json) (info : GatewayInfo) (a : Attempt) :
    GatewayInfo × Except ConnectError GatewayInfo :=
  match a.agentsRes with
  | .error e => (info, .error e)
  | .ok agentsRes =>
    if (agentsRes.get "ok").truthy then
      match info.updateAgentsFromList (PyDict.getOr agentsRes "payload" (.obj [])) with
      | none => (info, .error .other)
      | some info => (info, a.subscribe.map fun _ => info)
    else
      let info :=
        if previousAgents.isEmpty then info else { info with agents := previousAgents }
      (info, a.subscribe.map fun _ => info)

/-- `connect()` on a client whose `gateway_info` is `info?`. -/
def connect (info? : Option GatewayInfo) (a : Attempt) :
    Option GatewayInfo × Except ConnectError GatewayInfo :=
  let previousAgents := (info?.map (·.agents)).getD []
  match a.helloOk with
  | .error e => (info?, .error e)
  | .ok info =>
    let (info, result) := afterHello previousAgents info a
    (some info, result)

/-- `gateway_info` after the attempts, in order, on a new client. -/
def gatewayInfo (attempts : List Attempt) : Option GatewayInfo :=
  attempts.foldl (fun info? a => (connect info? a).1) none

/-- The agents a `gateway_info` names. -/
def agentsOf (info? : Option GatewayInfo) : List Json := (info?.map (·.agents)).getD []

-- ---------------------------------------------------------------------------
-- How `agents.list` was answered
-- ---------------------------------------------------------------------------

/-- The roster an accepted `agents.list` carries. -/
def payloadRoster (payload : Json) : Option (List Json) :=
  payload.dict?.bind fun payload => roster (PyDict.getOr payload "agents" (.arr []))

theorem GatewayInfo.updateAgentsFromList_agents (info : GatewayInfo) (payload : Json) :
    (info.updateAgentsFromList payload).map (·.agents) = payloadRoster payload := by
  cases hdict : payload.dict? with
  | none => simp [updateAgentsFromList, payloadRoster, hdict]
  | some fields =>
    cases hroster : roster (PyDict.getOr fields "agents" (.arr [])) with
    | none => simp [updateAgentsFromList, payloadRoster, hdict, hroster]
    | some agents => simp [updateAgentsFromList, payloadRoster, hdict, hroster]

/-- What became of `agents.list` in an attempt. -/
inductive Answer where
  /-- the attempt ended before hello-ok -/
  | unasked
  /-- hello-ok came, and no usable answer after it -/
  | unanswered
  | accepted (agents : List Json)
  | rejected

/-- Read off what the socket does, with the predicates of the handshake itself. -/
def Attempt.answer (a : Attempt) : Answer :=
  match a.helloOk with
  | .error _ => .unasked
  | .ok _ =>
    match a.agentsRes with
    | .error _ => .unanswered
    | .ok agentsRes =>
      if (agentsRes.get "ok").truthy then
        match payloadRoster (PyDict.getOr agentsRes "payload" (.obj [])) with
        | some agents => .accepted agents
        | none => .unanswered
      else
        .rejected

/-- The most recent roster accepted, and `[]` if none was. -/
def lastAccepted (attempts : List Attempt) : List Json :=
  attempts.foldl
    (fun last a =>
      match a.answer with
      | .accepted agents => agents
      | _ => last)
    []

/-- Since the last accepted roster, some attempt got past hello-ok and no further. -/
def cutShort (attempts : List Attempt) : Bool :=
  attempts.foldl
    (fun cut a =>
      match a.answer with
      | .accepted _ => false
      | .unanswered => true
      | _ => cut)
    false

-- ---------------------------------------------------------------------------
-- The roster after a chain of attempts
-- ---------------------------------------------------------------------------

theorem bind_eq_ok {ε α β : Type} {x : Except ε α} {f : α → Except ε β} {b : β} :
    x >>= f = .ok b ↔ ∃ a, x = .ok a ∧ f a = .ok b := by
  cases x with
  | error e => simp [bind, Except.bind]
  | ok a => simp [bind, Except.bind]

theorem Attempt.helloOk_agents {a : Attempt} {info : GatewayInfo} (h : a.helloOk = .ok info) :
    info.agents = [] := by
  simp only [helloOk, bind_eq_ok] at h
  obtain ⟨-, -, -, -, frame, -, -, -, -, -, hello, -, -, -, payload, -, h⟩ := h
  split at h
  · rename_i built hbuilt
    cases h
    exact GatewayInfo.fromHelloOk_agents hbuilt
  · cases h

/-- What one attempt does to the roster, failed or not. -/
theorem connect_agents (info? : Option GatewayInfo) (a : Attempt) :
    agentsOf (connect info? a).1 =
      match a.answer with
      | .accepted agents => agents
      | .unanswered => []
      | _ => agentsOf info? := by
  unfold connect Attempt.answer
  cases hhello : a.helloOk with
  | error e => rfl
  | ok info =>
    have hempty := Attempt.helloOk_agents hhello
    cases hres : a.agentsRes with
    | error e => simp [afterHello, hres, agentsOf, hempty]
    | ok agentsRes =>
      simp only [afterHello, hres]
      have hagents := info.updateAgentsFromList_agents (PyDict.getOr agentsRes "payload" (.obj []))
      split
      · rw [← hagents]
        cases hupdate : info.updateAgentsFromList (PyDict.getOr agentsRes "payload" (.obj [])) with
        | none => simp [agentsOf, hempty]
        | some updated => simp [agentsOf]
      · change (if (agentsOf info?).isEmpty then info else _ : GatewayInfo).agents = agentsOf info?
        cases hprevious : agentsOf info? with
        | nil => exact hempty
        | cons agent rest => exact hprevious

theorem map_eq_ok {ε α β : Type} {x : Except ε α} {b b' : β}
    (h : x.map (fun _ => b) = .ok b') : b = b' := by
  cases x with
  | error e => cases h
  | ok a =>
    cases h
    rfl

theorem afterHello_returned {previousAgents : List Json} {built info : GatewayInfo} {a : Attempt} :
    (afterHello previousAgents built a).2 = .ok info →
      (afterHello previousAgents built a).1 = info := by
  unfold afterHello
  cases a.agentsRes with
  | error e => simp
  | ok agentsRes =>
    dsimp only
    split
    · cases built.updateAgentsFromList (PyDict.getOr agentsRes "payload" (.obj [])) with
      | none => simp
      | some updated => exact map_eq_ok
    · exact map_eq_ok

theorem connect_returned {info? : Option GatewayInfo} {a : Attempt} {info : GatewayInfo} :
    (connect info? a).2 = .ok info → (connect info? a).1 = some info := by
  unfold connect
  cases a.helloOk with
  | error e => simp
  | ok built => exact fun h => congrArg some (afterHello_returned h)

theorem gatewayInfo_append (attempts : List Attempt) (a : Attempt) :
    gatewayInfo (attempts ++ [a]) = (connect (gatewayInfo attempts) a).1 := by
  simp [gatewayInfo]

/-- The roster a chain of attempts leaves. -/
theorem gatewayInfo_agents (attempts : List Attempt) :
    agentsOf (gatewayInfo attempts) =
      if cutShort attempts then [] else lastAccepted attempts := by
  induction attempts using List.reverseRecOn with
  | nil => rfl
  | append_singleton attempts a ih =>
    rw [gatewayInfo_append, connect_agents, ih]
    simp only [cutShort, lastAccepted, List.foldl_append, List.foldl_cons, List.foldl_nil]
    cases a.answer with
    | unasked => rfl
    | unanswered => rfl
    | accepted agents => rfl
    | rejected => rfl

theorem Attempt.answer_rejected {info? : Option GatewayInfo} {a : Attempt} {info : GatewayInfo}
    (h : (connect info? a).2 = .ok info) (hrejected : a.answer = .rejected) :
    info.agents = agentsOf info? := by
  have hagents := connect_agents info? a
  rw [hrejected, connect_returned h] at hagents
  exact hagents

/-- After a successful connect whose `agents.list` was rejected the roster is the last
one accepted, unless an attempt in between was cut short after hello-ok: then it is
empty. -/
theorem rejected_roster (attempts : List Attempt) (a : Attempt) {info : GatewayInfo}
    (hconnected : (connect (gatewayInfo attempts) a).2 = .ok info)
    (hrejected : a.answer = .rejected) :
    info.agents = lastAccepted attempts ↔
      (cutShort attempts = false ∨ lastAccepted attempts = []) := by
  rw [Attempt.answer_rejected hconnected hrejected, gatewayInfo_agents]
  cases cutShort attempts with
  | false => simp
  | true => simp [eq_comm]

/-- An attempt in which the server answers everything, with `frames` to `agents.list`. -/
def answered (frames : List (Option Json)) : Attempt where
  tornDown := true
  opened := true
  challenge := .text (some (.obj [(py "event", .str (py "connect.challenge"))]))
  connectSent := true
  hello := .text (some (.obj [(py "ok", .bool true)]))
  agentsListSent := true
  agentsReqId := py "list"
  frames := frames
  subscribeSent := true
  subscribed := true

/-- The response to `agents.list` that names the agent `main`. -/
def listed : Json :=
  .obj [(py "id", .str (py "list")), (py "ok", .bool true),
    (py "payload", .obj [(py "agents", .arr [.obj [(py "id", .str (py "main"))]])])]

/-- The response that rejects `agents.list`. -/
def refused : Json := .obj [(py "id", .str (py "list")), (py "ok", .bool false)]

theorem rejected_roster_kept :
    ∃ info, (connect (gatewayInfo [answered [some listed]]) (answered [some refused])).2 = .ok info ∧
      (info.agents = lastAccepted [answered [some listed]] ↔
        (cutShort [answered [some listed]] = false ∨ lastAccepted [answered [some listed]] = [])) :=
  ⟨_, rfl, rejected_roster [answered [some listed]] (answered [some refused]) rfl rfl⟩

/-- `agents.list` accepted, then an attempt in which it times out, then one in which it is
rejected: the roster is gone. -/
theorem rejected_roster_lost :
    ¬ ∀ (attempts : List Attempt) (a : Attempt) (info : GatewayInfo),
      (connect (gatewayInfo attempts) a).2 = .ok info → a.answer = .rejected →
        info.agents = lastAccepted attempts := by
  intro h
  have hkept := h [answered [some listed], answered []] (answered [some refused]) _ rfl rfl
  cases hkept
