-- SUMMARY: `dispatcher.py`: where each incoming OpenClaw frame goes, a turn queue or the push backlog of a bridge.
import JotaGateway.OpenClaw.ChatText
import JotaGateway.OpenClaw.Models

/-!
# Frame dispatch

A frame goes to the turn that owns its `sessionKey`, or else to the bridge of
its client, unless a tombstone drops it. The handlers are synchronous: one
dispatch is one step.
-/

/-- A session's bridge, as `ClientRegistry` refers to it. -/
abbrev BridgeRef := Nat

/-- What `enqueue_push` receives. -/
inductive PushEvent where
  | turnStart (sk : SessionKey)
  | chat (payload : PyDict)
  | tool (data : PyDict)
  | turnEnd (sk : SessionKey)

-- ---------------------------------------------------------------------------
-- The clients
-- ---------------------------------------------------------------------------

/-- Maps an active client_id to its bridge. -/
structure ClientRegistry where
  clients : AList (fun _ : PyStr => BridgeRef) := ∅

namespace ClientRegistry

def register (c : ClientRegistry) (clientId : PyStr) (bridge : BridgeRef) : ClientRegistry :=
  { clients := c.clients.insert clientId bridge }

/-- A bridge that closes late does not remove a newer one. -/
def unregister (c : ClientRegistry) (clientId : PyStr) (expected : BridgeRef) : ClientRegistry :=
  if c.clients.lookup clientId = some expected then
    { clients := c.clients.erase clientId }
  else c

def get (c : ClientRegistry) (clientId : PyStr) : Option BridgeRef := c.clients.lookup clientId

end ClientRegistry

-- ---------------------------------------------------------------------------
-- The dispatcher
-- ---------------------------------------------------------------------------

namespace FrameDispatcher

/-- A payload of an odd shape reads as empty. -/
def asDict (value : Json) : PyDict := value.dict?.getD []

/-- `sessionKey` of a payload, if it is a string. -/
def sessionKey? (payload : PyDict) : Option SessionKey := (payload.get "sessionKey").str?

/-- `hash(value)` does not raise. -/
def hashable : Json → Bool
  | .arr _ | .obj _ => false
  | _ => true

/-- What a dispatch does: the registry after it, and the `enqueue_push` it calls. -/
abbrev Outcome := TurnRegistry TurnItem × Option (BridgeRef × PushEvent)

variable (clients : ClientRegistry) (now : Time)

def toBridge (sk : SessionKey) (event : PushEvent) : Option (BridgeRef × PushEvent) :=
  (clients.get (clientIdFromSessionKey sk)).map (·, event)

/-- For the turn that owns the key, or as push content if none does. -/
def deliverOrPush (r : TurnRegistry TurnItem) (sk : SessionKey) (i : TurnItem)
    (event : PushEvent) : Outcome :=
  match r.deliverBySession sk i now with
  | (r, true) => (r, none)
  | (r, false) =>
    match r.isAborted sk now with
    | (r, true) => (r, none)
    | (r, false) => (r, toBridge clients sk event)

/-- A key that is no string is no turn's, and `client_id_from_session_key` raises on it: by then
`is_aborted` has purged the tombstones, unless the look-up of the turn has raised. -/
def raiseOnKey (r : TurnRegistry TurnItem) (key : Json) : TurnRegistry TurnItem :=
  if hashable key then (r.isAborted [] now).1 else r

def handleChat (r : TurnRegistry TurnItem) (run : Run) (payload : PyDict) : Outcome :=
  match payload.get "sessionKey" with
  | .null => (r, none)
  | .str sk => deliverOrPush clients now r sk { run, msg := .chat payload } (.chat payload)
  | key => (raiseOnKey now r key, none)

def handleAgentLifecycle (r : TurnRegistry TurnItem) (payload : PyDict) : Outcome :=
  match sessionKey? payload with
  | none => (r, none)
  | some sk =>
    let phase := (asDict (payload.get "data")).get "phase"
    match clients.get (clientIdFromSessionKey sk) with
    | none => (r, none)
    | some bridge =>
      if phase.isStr "start" then
        if (r.getQueueBySession sk).isSome then
          (r, none)
        else
          match r.isAborted sk now with
          | (r, true) => (r, none)
          | (r, false) => (r, some (bridge, .turnStart sk))
      else if phase.isStr "end" || phase.isStr "error" then
        (r, some (bridge, .turnEnd sk))
      else
        (r, none)

def handleSessionTool (r : TurnRegistry TurnItem) (run : Run) (payload : PyDict) : Outcome :=
  let data := asDict (payload.get "data")
  let phase := data.get "phase"
  if phase.isStr "start" || phase.isStr "result" then
    match payload.get "sessionKey" with
    | .null => (r, none)
    | .str sk => deliverOrPush clients now r sk { run, msg := .tool data } (.tool data)
    | key => (raiseOnKey now r key, none)
  else
    (r, none)

def handleEvent (r : TurnRegistry TurnItem) (run : Run) (frame : PyDict) : Outcome :=
  let event := frame.get "event"
  let payload := asDict (frame.get "payload")
  if event.isStr "chat" then handleChat clients now r run payload
  else if event.isStr "agent" then handleAgentLifecycle clients now r payload
  else if event.isStr "session.tool" then handleSessionTool clients now r run payload
  else (r, none)

/-- A rejected `res` ends its turn; an accepted one does not. -/
def handleRes (r : TurnRegistry TurnItem) (run : Run) (frame : PyDict) : Outcome :=
  match frame.get "ok", ((frame.lookup (py "id")).getD (.str [])).str? with
  | .bool false, some reqId => ((r.deliverByReq reqId { run, msg := .done frame } now).1, none)
  | _, _ => (r, none)

/-- `run` is the run the frame belongs to: the dispatcher does not read it. -/
def dispatch (r : TurnRegistry TurnItem) (run : Run) (frame : PyDict) : Outcome :=
  let ftype := frame.get "type"
  if ftype.isStr "res" then handleRes now r run frame
  else if ftype.isStr "event" then handleEvent clients now r run frame
  else (r, none)

end FrameDispatcher

-- ---------------------------------------------------------------------------
-- Content
-- ---------------------------------------------------------------------------

/-- The `data` of a `session.tool` event that parses as a tool call. -/
def carriesToolCall (data : PyDict) : Bool :=
  match ToolCallEvent.fromSessionToolPayload data with
  | some (some _) => true
  | _ => false

/-- An item that can put something of its run before the client. -/
def TurnItem.carries (i : TurnItem) : Bool :=
  match i.msg with
  | .chat payload => carriesText payload
  | .tool data => carriesToolCall data
  | .done _ => false

/-- A push event that opens a turn or carries content for one. -/
def PushEvent.carries : PushEvent → Bool
  | .turnStart _ => true
  | .chat payload => carriesText payload
  | .tool data => carriesToolCall data
  | .turnEnd _ => false

namespace FrameDispatcher

def isEvent (frame : PyDict) (event : String) : Bool :=
  (frame.get "type").isStr "event" && (frame.get "event").isStr event

/-- The key of a `chat` or `session.tool` frame that carries text or a tool call. -/
def contentKey (frame : PyDict) : Option SessionKey :=
  let payload := asDict (frame.get "payload")
  if isEvent frame "chat" && carriesText payload ||
      isEvent frame "session.tool" && carriesToolCall (asDict (payload.get "data")) then
    sessionKey? payload
  else none

/-- The key of an `agent` frame that announces a run. -/
def startKey (frame : PyDict) : Option SessionKey :=
  let payload := asDict (frame.get "payload")
  if isEvent frame "agent" && ((asDict (payload.get "data")).get "phase").isStr "start" then
    sessionKey? payload
  else none

/-- A frame reaches the queue of one turn, or only the tombstones and a push backlog. -/
inductive Effect (now : Time) (r : TurnRegistry TurnItem) (run : Run) (frame : PyDict)
    (out : Outcome) : Prop where
  | turn (sk : SessionKey) (q : QueueRef) (i : TurnItem)
      (hq : r.sessions.lookup sk = some q) (hreg : out.1 = r.deliver sk q i now)
      (hpush : out.2 = none) (hrun : i.run = run)
      (hkey : i.carries = true → contentKey frame = some sk)
  | push (tombstones : AList (fun _ : SessionKey => Time))
      (hreg : out.1 = { r with tombstones := tombstones })
      (hpush : ∀ bridge event, out.2 = some (bridge, event) → event.carries = true →
        ∃ sk, (contentKey frame = some sk ∨ startKey frame = some sk) ∧ sk ∉ r.sessions ∧
          (r.isAborted sk now).2 = false)

variable {clients : ClientRegistry} {now : Time} {r : TurnRegistry TurnItem} {run : Run}
  {frame : PyDict}

theorem Effect.nothing : Effect now r run frame (r, none) := by
  refine .push r.tombstones rfl ?_
  intro bridge event hpush
  cases hpush

theorem deliverOrPush_effect {sk : SessionKey} {i : TurnItem} {event : PushEvent}
    (hrun : i.run = run) (hitem : i.carries = true → contentKey frame = some sk)
    (hevent : event.carries = true → contentKey frame = some sk) :
    Effect now r run frame (deliverOrPush clients now r sk i event) := by
  simp only [deliverOrPush, TurnRegistry.deliverBySession]
  cases hq : r.sessions.lookup sk with
  | some q => exact .turn sk q i hq rfl rfl hrun hitem
  | none =>
    have hkey : sk ∉ r.sessions := AList.lookup_eq_none.mp hq
    simp only
    split
    · rename_i haborted
      exact .push _ (congrArg Prod.fst haborted).symm (by intro _ _ h; cases h)
    · rename_i haborted
      refine .push _ (congrArg Prod.fst haborted).symm ?_
      intro bridge event' hpush hcarries
      unfold toBridge at hpush
      cases hclient : clients.get (clientIdFromSessionKey sk) with
      | none => simp [hclient] at hpush
      | some b =>
        simp only [hclient, Option.map_some, Option.some.injEq, Prod.mk.injEq] at hpush
        obtain ⟨-, rfl⟩ := hpush
        exact ⟨sk, .inl (hevent hcarries), hkey, congrArg Prod.snd haborted⟩

theorem raiseOnKey_effect (key : Json) : Effect now r run frame (raiseOnKey now r key, none) := by
  unfold raiseOnKey
  split
  · exact .push _ rfl (by intro _ _ h; cases h)
  · exact .nothing

theorem sessionKey?_of_str {payload : PyDict} {sk : SessionKey}
    (h : payload.get "sessionKey" = .str sk) : sessionKey? payload = some sk := by
  rw [sessionKey?, h]
  rfl

theorem handleChat_effect (hframe : isEvent frame "chat" = true) :
    Effect now r run frame (handleChat clients now r run (asDict (frame.get "payload"))) := by
  unfold handleChat
  split
  · exact .nothing
  · rename_i sk hsk
    have hkey : carriesText (asDict (frame.get "payload")) = true →
        contentKey frame = some sk := by
      intro htext
      simp only [contentKey, hframe, htext, Bool.and_self, Bool.true_or, if_true,
        sessionKey?_of_str hsk]
    exact deliverOrPush_effect rfl hkey hkey
  · exact raiseOnKey_effect _

theorem handleSessionTool_effect (hframe : isEvent frame "session.tool" = true) :
    Effect now r run frame
      (handleSessionTool clients now r run (asDict (frame.get "payload"))) := by
  unfold handleSessionTool
  dsimp only
  split
  · split
    · exact .nothing
    · rename_i sk hsk
      have hkey : carriesToolCall (asDict ((asDict (frame.get "payload")).get "data")) = true →
          contentKey frame = some sk := by
        intro hcall
        simp only [contentKey, hframe, hcall, Bool.and_self, Bool.or_true, if_true,
          sessionKey?_of_str hsk]
      exact deliverOrPush_effect rfl hkey hkey
    · exact raiseOnKey_effect _
  · exact .nothing

theorem handleAgentLifecycle_effect (hframe : isEvent frame "agent" = true) :
    Effect now r run frame
      (handleAgentLifecycle clients now r (asDict (frame.get "payload"))) := by
  unfold handleAgentLifecycle
  cases hsk : sessionKey? (asDict (frame.get "payload")) with
  | none => exact .nothing
  | some sk =>
    simp only
    split
    · exact .nothing
    · split
      · rename_i hstart
        split
        · exact .nothing
        · rename_i hfree
          have hkey : sk ∉ r.sessions := by
            rw [← AList.lookup_isSome]
            exact hfree
          have hopen : startKey frame = some sk := by
            simp only [startKey, hframe, hstart, Bool.and_self, if_true, hsk]
          split
          · rename_i haborted
            exact .push _ (congrArg Prod.fst haborted).symm (by intro _ _ h; cases h)
          · rename_i haborted
            refine .push _ (congrArg Prod.fst haborted).symm ?_
            intro _ _ _ _
            exact ⟨sk, .inr hopen, hkey, congrArg Prod.snd haborted⟩
      · split
        · refine .push r.tombstones rfl ?_
          intro _ event hpush hcarries
          cases hpush
          cases hcarries
        · exact .nothing

theorem handleRes_effect : Effect now r run frame (handleRes now r run frame) := by
  unfold handleRes
  split
  · rename_i reqId _ _
    simp only [TurnRegistry.deliverByReq, TurnRegistry.deliverBySession]
    cases r.reqToSession.lookup reqId with
    | none => exact .nothing
    | some sk =>
      cases hq : r.sessions.lookup sk with
      | none =>
        simp only [hq]
        exact .nothing
      | some q =>
        simp only [hq]
        exact .turn sk q _ hq rfl rfl rfl (by intro h; cases h)
  · exact .nothing

theorem dispatch_effect : Effect now r run frame (dispatch clients now r run frame) := by
  simp only [dispatch, handleEvent]
  split
  · exact handleRes_effect
  · split
    · rename_i htype
      split
      · rename_i hevent
        exact handleChat_effect (by simp only [isEvent, htype, hevent, Bool.and_self])
      · split
        · rename_i hevent
          exact handleAgentLifecycle_effect (by simp only [isEvent, htype, hevent, Bool.and_self])
        · split
          · rename_i hevent
            exact handleSessionTool_effect (by simp only [isEvent, htype, hevent, Bool.and_self])
          · exact .nothing
    · exact .nothing

end FrameDispatcher
