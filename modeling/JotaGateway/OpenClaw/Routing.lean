-- SUMMARY: The turns of one connection together: which run the tokens of a turn and the push content come from.
import JotaGateway.OpenClaw.Dispatcher
import JotaGateway.OpenClaw.StreamResponse

/-!
# Routing by session key

All requests of one connection, the frames that come back, and what they put
before the clients. Frames carry no request id: the dispatcher goes by
`sessionKey` alone, so what a turn yields is its own run's only as long as the
frames of other runs stay clear of its key.
-/

namespace Routing

open StreamResponse

-- ---------------------------------------------------------------------------
-- The connection
-- ---------------------------------------------------------------------------

/-- An `enqueue_push`: what was enqueued, the run its frame belongs to, and how the turn that
started the run had gone by then. -/
structure Push where
  bridge : BridgeRef
  event : PushEvent
  run : Run
  outcome : Option Outcome

structure Net where
  conn : Connection
  clients : ClientRegistry := {}
  calls : ReqId → Call := fun _ => {}
  /-- the queue an `abort()` in progress holds -/
  aborts : ReqId → Option QueueRef := fun _ => none
  pushes : List Push := []

inductive Action where
  | call (reqId : ReqId) (a : StreamResponse.Action)
  /-- a frame of `run` arrives -/
  | frame (run : Run) (frame : PyDict) (now : Time)
  | abortStart (reqId : ReqId) (sk : SessionKey)
  | abortGet (reqId : ReqId)
  | abortEnd (reqId : ReqId) (sk : SessionKey)
  /-- the listener ends -/
  | errorAll (message : PyStr)
  | socket (up : Bool)
  | registerClient (clientId : PyStr) (bridge : BridgeRef)
  | unregisterClient (clientId : PyStr) (bridge : BridgeRef)

namespace Net

/-- How the turn that started `run` has gone. -/
def outcome (net : Net) : Run → Option Outcome
  | .ofRequest reqId => (net.calls reqId).outcome
  | .ofAgent _ => none

def setRegistry (net : Net) (registry : TurnRegistry TurnItem) : Net :=
  { net with conn := { net.conn with registry := registry } }

def receive (net : Net) (run : Run) (frame : PyDict) (now : Time) : Net :=
  let (registry, push) := FrameDispatcher.dispatch net.clients now net.conn.registry run frame
  { net.setRegistry registry with
    pushes := net.pushes ++ (push.map fun p =>
      { bridge := p.1, event := p.2, run := run, outcome := net.outcome run }).toList }

variable (requests : ReqId → Option SessionKey)

/-- `requests` gives each chat.send its key; the ids of `abort()` are others. -/
def step (net : Net) : Action → Option Net
  | .call reqId a =>
    match requests reqId with
    | none => none
    | some sk =>
      ((net.calls reqId).step { reqId, sessionKey := sk } net.conn a).map fun p =>
        { net with conn := p.1, calls := Function.update net.calls reqId p.2 }
  | .frame run frame now => some (net.receive run frame now)
  | .abortStart reqId sk =>
    if (requests reqId).isSome || (net.aborts reqId).isSome then
      none
    else
      match net.conn.registry.register reqId sk with
      | none => some net
      | some (registry, q) =>
        some { net.setRegistry registry with
          aborts := Function.update net.aborts reqId (some q) }
  | .abortGet reqId =>
    match net.aborts reqId with
    | none => none
    | some q => (net.conn.registry.get q).map fun p => net.setRegistry p.1
  | .abortEnd reqId sk =>
    if (requests reqId).isSome then none
    else
      some { net.setRegistry (net.conn.registry.unregister sk reqId) with
        aborts := Function.update net.aborts reqId none }
  | .errorAll message => some (net.setRegistry (net.conn.registry.errorAll message))
  | .socket up => some { net with conn := { net.conn with ws := up } }
  | .registerClient clientId bridge =>
    some { net with clients := net.clients.register clientId bridge }
  | .unregisterClient clientId bridge =>
    some { net with clients := net.clients.unregister clientId bridge }

def start (maxsize : Nat) : Net :=
  { conn := { registry := { maxQueueSize := maxsize }, ws := false } }

-- ---------------------------------------------------------------------------
-- What isolation asks for
-- ---------------------------------------------------------------------------

/-- The turn was cancelled, timed out or overflowed. -/
def abandoned : Option Outcome → Bool
  | some .cancelled | some .timedOut | some .overflowed => true
  | _ => false

end Net

/-- An event that shows the client something of a run. -/
def shows : OrchestratorEvent → Bool
  | .token _ | .toolCall _ => true
  | _ => false

/-- Every turn yields text and tool calls of its own run alone, and no abandoned run comes
back as a push. -/
structure Isolated (net : Net) : Prop where
  replies : ∀ reqId, ∀ reply ∈ (net.calls reqId).replies, shows reply.2 = true →
    reply.1 = .ofRequest reqId
  pushes : ∀ push ∈ net.pushes, push.event.carries = true →
    Net.abandoned push.outcome = false

namespace Net

/-- If a chat.send holds the key, the frame is of the run it started. -/
def ofHolder (requests : ReqId → Option SessionKey) (net : Net) (run : Run) (sk : SessionKey) :
    Bool :=
  match net.conn.registry.sessionOwner.lookup sk with
  | none => true
  | some reqId => (requests reqId).isNone || run == .ofRequest reqId

/-- If nobody holds the key and no tombstone covers it, the frame is of no abandoned run. -/
def ofLiveRun (net : Net) (run : Run) (sk : SessionKey) (now : Time) : Bool :=
  decide (sk ∈ net.conn.registry.sessions) || (net.conn.registry.isAborted sk now).2 ||
    !abandoned (net.outcome run)

/-- A frame with content arrives while the key is held by the turn of its own run, or by no
turn. -/
def inTurn (requests : ReqId → Option SessionKey) (net : Net) : Action → Bool
  | .frame run frame now =>
    (FrameDispatcher.contentKey frame).all (fun sk =>
      ofHolder requests net run sk && ofLiveRun net run sk now) &&
    (FrameDispatcher.startKey frame).all (fun sk => ofLiveRun net run sk now)
  | _ => true

end Net

-- ---------------------------------------------------------------------------
-- What a turn shows
-- ---------------------------------------------------------------------------

/-- An item that carries content is of the run of the request. -/
def OwnItem (reqId : ReqId) (i : TurnItem) : Prop := i.carries = true → i.run = .ofRequest reqId

/-- What the turn of a request has shown is of its own run. -/
structure Own (reqId : ReqId) (call : Call) : Prop where
  settled : call.textTracker.Settled
  replies : ∀ reply ∈ call.replies, shows reply.2 = true → reply.1 = .ofRequest reqId

namespace Own

variable {reqId : ReqId} {turn : Turn} {conn : Connection} {call : Call}

theorem init : Own reqId {} where
  settled := .init
  replies := by simp

theorem keep {call' : Call} (h : Own reqId call)
    (hkeep : (call'.textTracker, call'.replies) = (call.textTracker, call.replies)) :
    Own reqId call' := by
  simp only [Prod.mk.injEq] at hkeep
  obtain ⟨htracker, hreplies⟩ := hkeep
  refine ⟨?_, ?_⟩
  · rw [htracker]
    exact h.settled
  · rw [hreplies]
    exact h.replies

theorem reply {run : Run} {y : Yield} (h : Own reqId call)
    (hrun : shows y.event = true → run = .ofRequest reqId) : Own reqId (call.reply run y) := by
  refine ⟨h.settled, ?_⟩
  intro reply hmem hshows
  rcases List.mem_append.mp hmem with hmem | hmem
  · exact h.replies reply hmem hshows
  · rw [List.mem_singleton.mp hmem] at hshows ⊢
    exact hrun hshows

theorem afterChat {run : Run} {payload : PyDict} (h : Own reqId call) :
    Own reqId (call.afterChat run payload) := by
  unfold Call.afterChat
  split
  · have hdone : Own reqId (call.reply run .statusDone) := h.reply (by intro h; cases h)
    exact hdone.keep rfl
  · split
    · have herror : Own reqId (call.reply run .agentError) := h.reply (by intro h; cases h)
      exact herror.keep rfl
    · exact h.keep rfl

/-- Only an item that carries text or a tool call makes the turn show something. -/
theorem receiveItem {i : TurnItem} (h : Own reqId call) (hitem : OwnItem reqId i) :
    Own reqId (Call.receiveItem turn conn call i).2 := by
  unfold OwnItem TurnItem.carries at hitem
  cases hmsg : i.msg with
  | chat payload =>
    simp only [hmsg] at hitem
    simp only [Call.receiveItem, hmsg]
    have hfed : Own reqId { call with textTracker := (call.textTracker.feed payload).1 } :=
      ⟨ChatTextTracker.feed_settled h.settled payload, h.replies⟩
    split
    · exact hfed.afterChat
    · rename_i hdelta
      apply hfed.reply
      intro _
      apply hitem
      by_contra htext
      apply hdelta
      rw [ChatTextTracker.feed_textless h.settled (by simpa using htext)]
      rfl
  | tool data =>
    simp only [hmsg] at hitem
    simp only [Call.receiveItem, hmsg]
    cases hcall : ToolCallEvent.fromSessionToolPayload data with
    | none => exact h.keep rfl
    | some event? =>
      cases event? with
      | none => exact h.keep rfl
      | some event =>
        apply h.reply
        intro _
        exact hitem (by simp only [carriesToolCall, hcall])
  | done frame =>
    simp only [Call.receiveItem, hmsg]
    have hrejected : Own reqId (call.reply i.run .rejected) := h.reply (by intro h; cases h)
    exact hrejected.keep rfl

theorem receive {i : Item TurnItem} (h : Own reqId call)
    (hitem : ∀ j, i = .item j → OwnItem reqId j) :
    Own reqId (Call.receive turn conn call i).2 := by
  cases i with
  | item j =>
    have hgot : Own reqId { call with got := call.got ++ [.item j] } := h.keep rfl
    exact hgot.receiveItem (hitem j rfl)
  | error message => exact h.keep rfl
  | overflow => exact h.keep rfl

theorem resume {y : Yield} (h : Own reqId call) : Own reqId (Call.resume turn conn call y).2 := by
  cases y with
  | token delta run payload => exact h.afterChat
  | _ => exact h.keep rfl

theorem close {y : Yield} (h : Own reqId call) : Own reqId (Call.close turn conn call y).2 := by
  cases y with
  | _ => exact h.keep rfl

/-- A step of the generator shows only content of an item it dequeued. -/
theorem step {a : StreamResponse.Action} {p : Connection × Call} (h : Own reqId call)
    (hhead : call.registered = true → ∀ registry i,
      conn.registry.get call.queue = some (registry, .item i) → OwnItem reqId i)
    (hstep : call.step turn conn a = some p) : Own reqId p.2 := by
  cases a <;> cases hphase : call.phase <;> simp only [Call.step, hphase] at hstep <;>
    try cases hstep
  case start.unstarted =>
    split at hstep
    · split at hstep <;> cases hstep <;> exact h.keep rfl
    · cases hstep
      exact h.keep rfl
  case get.waiting =>
    split at hstep <;> cases hstep
    rename_i hget
    apply h.receive
    intro j hj
    subst hj
    exact hhead (by simp only [Call.registered, hphase]) _ j hget
  case next.yielded y => exact h.resume
  case close.yielded y => exact h.close
  all_goals exact h.keep rfl

end Own

-- ---------------------------------------------------------------------------
-- The queue of a turn
-- ---------------------------------------------------------------------------

/-- A registered turn has a queue of its own, in which all that carries content is of its
run. -/
structure Held (r : TurnRegistry TurnItem) (reqId : ReqId) (call : Call) : Prop where
  created : call.registered = true → call.queue < r.created
  owner : call.registered = true → ∀ sk, r.sessions.lookup sk = some call.queue →
    r.sessionOwner.lookup sk = some reqId
  items : call.registered = true → ∀ i, .item i ∈ r.queues call.queue → OwnItem reqId i

namespace Held

variable {r r' : TurnRegistry TurnItem} {reqId reqId' : ReqId} {sk : SessionKey} {q : QueueRef}
  {call call' : Call}

theorem unregistered (h : call.registered = false) : Held r reqId call := by
  constructor <;> intro hreg <;> rw [h] at hreg <;> cases hreg

theorem keep (h : Held r reqId call) (hqueue : call'.queue = call.queue)
    (hheld : call'.registered = true → call.registered = true) : Held r reqId call' := by
  constructor <;> rw [hqueue] <;> intro hreg
  · exact h.created (hheld hreg)
  · exact h.owner (hheld hreg)
  · exact h.items (hheld hreg)

/-- The registration of another request. -/
theorem register (h : Held r reqId call) (hreg : r.register reqId' sk = some (r', q)) :
    Held r' reqId call := by
  obtain ⟨-, -, rfl⟩ := TurnRegistry.register_eq_some hreg
  refine ⟨fun hc => Nat.lt_succ_of_lt (h.created hc), ?_, h.items⟩
  intro hc sk' hsk'
  have hne : sk' ≠ sk := by
    intro heq
    subst heq
    rw [AList.lookup_insert] at hsk'
    exact absurd (Option.some.inj hsk').symm (Nat.ne_of_lt (h.created hc))
  rw [AList.lookup_insert_ne hne] at hsk' ⊢
  exact h.owner hc sk' hsk'

/-- The registration of this request: the queue is new, and its key is the only one. -/
theorem registered (hwf : r.Wf)
    (hreg : r.register reqId sk = some (r', call.queue)) : Held r' reqId call := by
  obtain ⟨hsk, hqueue, rfl⟩ := TurnRegistry.register_eq_some hreg
  have hnew : r.queues call.queue = [] := hwf.empty _ (Nat.le_of_eq hqueue.symm)
  refine ⟨fun _ => by rw [hqueue]; exact Nat.lt_succ_self _, ?_, ?_⟩
  · intro _ sk' hsk'
    by_cases hne : sk' = sk
    · subst hne
      exact AList.lookup_insert _
    · rw [AList.lookup_insert_ne hne, hqueue] at hsk'
      exact absurd (hwf.fresh hsk') (Nat.lt_irrefl _)
  · intro _ i hi
    simp only [hnew] at hi
    cases hi

theorem unregister (h : Held r reqId call) : Held (r.unregister sk reqId') reqId call := by
  obtain ⟨hqueues, hcreated⟩ := r.unregister_queues sk reqId'
  refine ⟨?_, ?_, ?_⟩
  · rw [hcreated]
    exact h.created
  · intro hc sk' hsk'
    obtain ⟨hsk', howner⟩ := TurnRegistry.lookup_of_unregister hsk'
    rw [howner]
    exact h.owner hc sk' hsk'
  · rw [hqueues]
    exact h.items

theorem get {i : Item TurnItem} (h : Held r reqId call) (hget : r.get q = some (r', i)) :
    Held r' reqId call := by
  have hmem : ∀ j, j ∈ r'.queues call.queue → j ∈ r.queues call.queue :=
    fun _ => TurnRegistry.mem_of_get hget
  obtain ⟨rest, -, rfl⟩ := TurnRegistry.get_eq_some hget
  exact ⟨h.created, h.owner, fun hc j hj => h.items hc j (hmem _ hj)⟩

theorem errorAll (h : Held r reqId call) (hwf : r.Wf) (message : PyStr) :
    Held (r.errorAll message) reqId call := by
  refine ⟨h.created, ?_, fun hc i hi => h.items hc i (hwf.mem_of_errorAll hi)⟩
  intro _ sk hsk
  simp [TurnRegistry.errorAll] at hsk

/-- A delivery to the turn that holds the key, if its item is of the holder's run. -/
theorem deliver {i : TurnItem} {now : Time} (h : Held r reqId call)
    (hq : r.sessions.lookup sk = some q)
    (hown : r.sessionOwner.lookup sk = some reqId → call.registered = true → OwnItem reqId i) :
    Held (r.deliver sk q i now) reqId call := by
  obtain ⟨hsessions, hcreated⟩ := r.deliver_keys sk q i now
  refine ⟨?_, ?_, ?_⟩
  · rw [hcreated]
    exact h.created
  · rw [hsessions, r.deliver_sessionOwner]
    exact h.owner
  · intro hc j hj
    rcases TurnRegistry.mem_of_deliver hj with hj | ⟨heq, rfl⟩
    · exact h.items hc j hj
    · rw [← heq] at hq
      exact hown (h.owner hc sk hq) hc

end Held

-- ---------------------------------------------------------------------------
-- Isolation over all runs
-- ---------------------------------------------------------------------------

structure Inv (requests : ReqId → Option SessionKey) (net : Net) : Prop where
  wf : net.conn.registry.Wf
  known : ∀ reqId, (net.calls reqId).registered = true → (requests reqId).isSome = true
  held : ∀ reqId, Held net.conn.registry reqId (net.calls reqId)
  own : ∀ reqId, Own reqId (net.calls reqId)
  pushes : ∀ push ∈ net.pushes, push.event.carries = true →
    Net.abandoned push.outcome = false

namespace Inv

variable {requests : ReqId → Option SessionKey} {net net' : Net}

theorem init (maxsize : Nat) : Inv requests (Net.start maxsize) where
  wf := .init maxsize
  known _ h := by cases h
  held _ := .unregistered rfl
  own _ := .init
  pushes := by simp [Net.start]

/-- A step that moves no turn, shows nothing and leaves every turn its queue. -/
theorem quiet (h : Inv requests net) (hcalls : net'.calls = net.calls)
    (hpushes : net'.pushes = net.pushes) (hwf : net'.conn.registry.Wf)
    (hheld : ∀ reqId, Held net'.conn.registry reqId (net.calls reqId)) : Inv requests net' := by
  refine ⟨hwf, ?_, ?_, ?_, ?_⟩
  · rw [hcalls]
    exact h.known
  · rw [hcalls]
    exact hheld
  · rw [hcalls]
    exact h.own
  · rw [hpushes]
    exact h.pushes

/-- One turn moves; the others keep their queues. -/
theorem setCall (h : Inv requests net) {reqId : ReqId} {p : Connection × Call}
    (hwf : p.1.registry.Wf) (hknown : (requests reqId).isSome = true)
    (hheld : Held p.1.registry reqId p.2) (hown : Own reqId p.2)
    (hothers : ∀ other, other ≠ reqId → Held p.1.registry other (net.calls other)) :
    Inv requests { net with conn := p.1, calls := Function.update net.calls reqId p.2 } := by
  refine ⟨hwf, ?_, ?_, ?_, h.pushes⟩
  · intro other
    by_cases hne : other = reqId
    · subst hne
      exact fun _ => hknown
    · simpa [Function.update_of_ne hne] using h.known other
  · intro other
    by_cases hne : other = reqId
    · subst hne
      simpa using hheld
    · simpa [Function.update_of_ne hne] using hothers other hne
  · intro other
    by_cases hne : other = reqId
    · subst hne
      simpa using hown
    · simpa [Function.update_of_ne hne] using h.own other

theorem call (h : Inv requests net) {reqId : ReqId} {sk : SessionKey} {a : StreamResponse.Action}
    {p : Connection × Call} (hsk : requests reqId = some sk)
    (hstep : (net.calls reqId).step { reqId, sessionKey := sk } net.conn a = some p) :
    Inv requests { net with conn := p.1, calls := Function.update net.calls reqId p.2 } := by
  have hknown : (requests reqId).isSome = true := by rw [hsk]; rfl
  have hheld := h.held reqId
  have hown : Own reqId p.2 := by
    apply (h.own reqId).step _ hstep
    intro hreg registry i hget
    obtain ⟨rest, hq, -⟩ := TurnRegistry.get_eq_some hget
    exact hheld.items hreg i (by rw [hq]; exact List.mem_cons_self)
  cases Call.step_effect hstep with
  | keep hreg hqueue hheld' =>
    apply h.setCall _ hknown _ hown
    · rw [hreg]
      exact fun other _ => h.held other
    · rw [hreg]
      exact h.wf
    · rw [hreg]
      exact hheld.keep hqueue fun hc => by rwa [hheld'] at hc
  | register hreg _ _ =>
    apply h.setCall (h.wf.register hreg) hknown (.registered h.wf hreg) hown
    exact fun other _ => (h.held other).register hreg
  | get i hget hqueue hbefore _ =>
    apply h.setCall (h.wf.get hget) hknown ((hheld.get hget).keep hqueue fun _ => hbefore) hown
    exact fun other _ => (h.held other).get hget
  | leave registry hget hreg _ hafter =>
    have hbefore : registry.Wf ∧ ∀ other, Held registry other (net.calls other) := by
      rcases hget with rfl | ⟨i, hget⟩
      · exact ⟨h.wf, h.held⟩
      · exact ⟨h.wf.get hget, fun other => (h.held other).get hget⟩
    apply h.setCall _ hknown (.unregistered hafter) hown
    · rw [hreg]
      exact fun other _ => (hbefore.2 other).unregister
    · rw [hreg]
      exact hbefore.1.unregister

/-- A frame that arrives in turn: its content reaches the turn of its run, or is pushed for
a run that is not abandoned. -/
theorem receive (h : Inv requests net) {run : Run} {frame : PyDict} {now : Time}
    (hturn : net.inTurn requests (.frame run frame now) = true) :
    Inv requests (net.receive run frame now) := by
  simp only [Net.inTurn, Bool.and_eq_true, Option.all_eq_true] at hturn
  obtain ⟨hcontent, hstart⟩ := hturn
  have heffect : FrameDispatcher.Effect now net.conn.registry run frame
      (FrameDispatcher.dispatch net.clients now net.conn.registry run frame) :=
    FrameDispatcher.dispatch_effect
  unfold Net.receive
  generalize FrameDispatcher.dispatch net.clients now net.conn.registry run frame = out at heffect
  obtain ⟨registry, push⟩ := out
  cases heffect with
  | turn sk q i hq hreg hpush hrun hkey =>
    simp only at hreg hpush
    subst hreg hpush
    have hheld : ∀ reqId, Held (net.conn.registry.deliver sk q i now) reqId (net.calls reqId) := by
      intro reqId
      apply (h.held reqId).deliver hq
      intro howner hc hcarries
      have hholder := (hcontent sk (hkey hcarries)).1
      simp only [Net.ofHolder, howner] at hholder
      have hsome := h.known reqId hc
      rw [hrun]
      simpa [Option.isNone_iff_eq_none, Option.isSome_iff_ne_none.mp hsome] using hholder
    exact h.quiet rfl (List.append_nil _) (h.wf.deliver hq) hheld
  | push tombstones hreg hpush =>
    simp only at hreg hpush
    subst hreg
    have hwf : { net.conn.registry with tombstones := tombstones }.Wf :=
      ⟨h.wf.fresh, h.wf.inj, h.wf.owned, h.wf.flagged, h.wf.empty⟩
    refine ⟨hwf, h.known, ?_, h.own, ?_⟩
    · intro reqId
      exact ⟨(h.held reqId).created, (h.held reqId).owner, (h.held reqId).items⟩
    · intro p hp hcarries
      rcases List.mem_append.mp hp with hp | hp
      · exact h.pushes p hp hcarries
      · cases push with
        | none => simp at hp
        | some e =>
          obtain ⟨bridge, event⟩ := e
          simp only [Option.map_some, Option.toList_some, List.mem_singleton] at hp
          subst hp
          obtain ⟨sk, hkey, hfree, haborted⟩ := hpush bridge event rfl hcarries
          have hlive : net.ofLiveRun run sk now = true := by
            rcases hkey with hkey | hkey
            · exact (hcontent sk hkey).2
            · exact hstart sk hkey
          simpa [Net.ofLiveRun, hfree, haborted] using hlive

theorem step {a : Action} (h : Inv requests net) (hturn : net.inTurn requests a = true)
    (hstep : net.step requests a = some net') : Inv requests net' := by
  cases a with
  | call reqId a =>
    simp only [Net.step] at hstep
    split at hstep
    · cases hstep
    · rename_i hsk
      simp only [Option.map_eq_some_iff] at hstep
      obtain ⟨p, hp, rfl⟩ := hstep
      exact h.call hsk hp
  | frame run frame now =>
    cases hstep
    exact h.receive hturn
  | abortStart reqId sk =>
    simp only [Net.step] at hstep
    split at hstep
    · cases hstep
    · split at hstep <;> cases hstep
      · exact h
      · rename_i hreg
        exact h.quiet rfl rfl (h.wf.register hreg) fun other => (h.held other).register hreg
  | abortGet reqId =>
    simp only [Net.step] at hstep
    split at hstep
    · cases hstep
    · simp only [Option.map_eq_some_iff] at hstep
      obtain ⟨p, hget, rfl⟩ := hstep
      exact h.quiet rfl rfl (h.wf.get hget) fun other => (h.held other).get hget
  | abortEnd reqId sk =>
    simp only [Net.step] at hstep
    split at hstep <;> cases hstep
    exact h.quiet rfl rfl h.wf.unregister fun other => (h.held other).unregister
  | errorAll message =>
    cases hstep
    exact h.quiet rfl rfl h.wf.errorAll fun other => (h.held other).errorAll h.wf message
  | socket up =>
    cases hstep
    exact h.quiet rfl rfl h.wf h.held
  | registerClient clientId bridge =>
    cases hstep
    exact h.quiet rfl rfl h.wf h.held
  | unregisterClient clientId bridge =>
    cases hstep
    exact h.quiet rfl rfl h.wf h.held

end Inv

open Transition

/-- While every frame with content arrives in turn, turns and pushes stay isolated. -/
theorem isolated_of_inTurn {requests : ReqId → Option SessionKey} {maxsize : Nat} {net : Net}
    (h : ReachableBy (Net.step requests) (fun net a => net.inTurn requests a = true)
      (Net.start maxsize) net) : Isolated net := by
  have hinv : Inv requests net := h.invariant (.init maxsize) fun _ _ _ hi hok hs => hi.step hok hs
  exact ⟨fun reqId => (hinv.own reqId).replies, hinv.pushes⟩

/-- Two requests of one session. -/
def twoSends (reqId : ReqId) : Option SessionKey :=
  if reqId = py "r1" ∨ reqId = py "r2" then some (py "agent:main:c") else none

def token (text : String) : PyDict :=
  [(py "type", .str (py "event")), (py "event", .str (py "chat")),
    (py "payload", .obj [(py "sessionKey", .str (py "agent:main:c")),
      (py "deltaText", .str (py text))])]

/-- The first turn is cancelled; two frames of its run come late, one before and one after
the second turn has taken the key. -/
def lateFrames : List Action :=
  [.socket true, .registerClient (py "c") 0, .call (py "r1") .start, .call (py "r1") .sendReturns,
    .call (py "r1") .cancel, .call (py "r1") .abortEnds, .frame (.ofRequest (py "r1")) (token "a") 0,
    .call (py "r2") .start, .call (py "r2") .sendReturns,
    .frame (.ofRequest (py "r1")) (token "b") 0, .call (py "r2") .get]

/-- The one is pushed, and the other is a token of the second turn. -/
theorem late_frames_leak :
    ∃ net, Reachable (Net.step twoSends) (Net.start 8) net ∧
      (net.calls (py "r2")).replies = [(.ofRequest (py "r1"), .token (py "b"))] ∧
      (∃ push ∈ net.pushes, push.event.carries = true ∧ push.run = .ofRequest (py "r1") ∧
        push.outcome = some .cancelled) ∧
      ¬ Isolated net := by
  refine ⟨(run (Net.step twoSends) (Net.start 8) lateFrames).get rfl,
    reachable_of_run (Option.some_get _).symm, rfl, ⟨_, List.mem_cons_self, rfl, rfl, rfl⟩, ?_⟩
  intro h
  have hown := h.replies (py "r2") _ List.mem_cons_self rfl
  exact absurd hown (by decide)

/-- A chat frame that says no more than that a run was aborted. -/
def aborted : PyDict :=
  [(py "type", .str (py "event")), (py "event", .str (py "chat")),
    (py "payload", .obj [(py "sessionKey", .str (py "agent:main:c")),
      (py "state", .str (py "aborted"))])]

/-- Each turn is replied to while it holds the key. The first is cancelled, and its run says so when
the second has the key. -/
def repliedInTurn : List Action :=
  [.socket true, .call (py "r1") .start, .call (py "r1") .sendReturns,
    .frame (.ofRequest (py "r1")) (token "a") 0, .call (py "r1") .get, .call (py "r1") .next,
    .call (py "r1") .cancel, .call (py "r1") .abortEnds,
    .call (py "r2") .start, .call (py "r2") .sendReturns,
    .frame (.ofRequest (py "r1")) aborted 0, .frame (.ofRequest (py "r2")) (token "b") 0,
    .call (py "r2") .get, .call (py "r2") .get]

theorem isolated_of_inTurn_reply :
    ∃ net, Isolated net ∧
      (net.calls (py "r1")).replies = [(.ofRequest (py "r1"), .token (py "a"))] ∧
      (net.calls (py "r2")).replies = [(.ofRequest (py "r2"), .token (py "b"))] := by
  have hrun : ReachableBy (Net.step twoSends) (fun net a => net.inTurn twoSends a = true)
      (Net.start 8)
      ((run (guarded (Net.step twoSends) (Net.inTurn twoSends)) (Net.start 8) repliedInTurn).get rfl) :=
    reachableBy_of_run (Option.some_get _).symm
  exact ⟨_, isolated_of_inTurn hrun, rfl, rfl⟩

end Routing
