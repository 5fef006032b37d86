-- SUMMARY: `OpenClawClient.abort`: the key it holds until the aborted run has ended, and what its bounded queue costs it.
import JotaGateway.Base.Transition
import JotaGateway.OpenClaw.Dispatcher
import JotaGateway.OpenClaw.Response
import JotaGateway.Services.Orchestration

/-!
# abort

`abort` takes the key of the run it aborts, so that the rest of the run comes to
its own queue. The answer comes by another way, a future that `_listen` resolves.
The other parties share the registry and act between any two steps.
-/

namespace AbortCall

open FrameDispatcher

-- ---------------------------------------------------------------------------
-- The frames of a run
-- ---------------------------------------------------------------------------

/-- `str(uuid.uuid4())` is not empty. -/
structure Request where
  reqId : ReqId
  sessionKey : SessionKey
  /-- the run to abort -/
  run : Run
  nonempty : reqId ≠ []

/-- A delta, a tool event or a terminal `chat` of the key: what `dispatch` makes an item of. -/
def item? (req : Request) (frame : PyDict) : Option TurnItem :=
  let payload := asDict (frame.get "payload")
  if (frame.lookup (py "id")).isNone && sessionKey? payload == some req.sessionKey then
    if isEvent frame "chat" then
      some { run := req.run, msg := .chat payload }
    else if isEvent frame "session.tool" then
      let data := asDict (payload.get "data")
      if (data.get "phase").isStr "start" || (data.get "phase").isStr "result" then
        some { run := req.run, msg := .tool data }
      else none
    else none
  else none

/-- The terminal `chat` of a run. -/
def terminalChat (i : TurnItem) : Bool :=
  match i.msg with
  | .chat payload => StreamResponse.isTerminal (payload.get "state")
  | _ => false

/-- What remains of a run: any deltas and tool events, and then its terminal `chat`. -/
def isRun (req : Request) : List PyDict → Bool
  | [] => false
  | [frame] => (item? req frame).any terminalChat
  | frame :: rest => (item? req frame).any (fun i => !terminalChat i) && isRun req rest

-- ---------------------------------------------------------------------------
-- The call
-- ---------------------------------------------------------------------------

/-- How the call ended. -/
inductive Ending where
  /-- not connected, or the key has a turn -/
  | skipped
  | timedOut
  /-- the answer says that nothing was running -/
  | nothingRan
  /-- what was read in the end -/
  | read (i : Item TurnItem)
  | caught (e : Exn)
  | raised (e : Exn)

inductive Phase where
  | unstarted
  | sending
  /-- at `await res` -/
  | awaitingRes
  /-- at `queue.get` -/
  | draining
  | done (e : Ending)

/-- Where a frame of the run went. -/
inductive Place where
  | turn (q : QueueRef)
  | push
  | dropped
deriving DecidableEq

structure State where
  registry : TurnRegistry TurnItem
  clients : ClientRegistry := {}
  /-- `self._ws` is set -/
  ws : Bool := true
  /-- the ids of `_health_futures` -/
  healthFutures : Finset ReqId := ∅
  phase : Phase := .unstarted
  queue : QueueRef := 0
  /-- what the future was resolved with -/
  res : Option PyDict := none
  /-- chat.abort was written -/
  wrote : Bool := false
  /-- the frames of the run that have not arrived yet -/
  remaining : List PyDict
  /-- where those that arrived after the call took the key went -/
  places : List Place := []

/-- The `while True` reads past the item. -/
def skips : Item TurnItem → Bool
  | .item i =>
    match i.msg with
    | .tool _ => true
    | .chat payload => !StreamResponse.isTerminal (payload.get "state")
    | .done _ => false
  | _ => false

/-- `payload.get("aborted")` of an answer. -/
def answersAborted (frame : PyDict) : Bool :=
  match frame.get "payload" with
  | .obj payload => (PyDict.get payload "aborted").truthy
  | _ => false

inductive Action where
  | start
  /-- `ws.send` returns -/
  | sent
  | raises (e : Exn)
  /-- the timer of `asyncio.timeout` -/
  | timeout
  /-- `await res` returns -/
  | resume
  | get
  /-- the next frame of the run arrives -/
  | arrive (now : Time)
  /-- the `res` of the request arrives -/
  | answer (now : Time) (frame : PyDict)
  /-- the connection is lost -/
  | lost
  /-- another party uses the registry -/
  | foreign (op : TurnRegistry.Op TurnItem)
  | ping (reqId : ReqId)
  | pinged (reqId : ReqId)

namespace State

/-- The call has the key. -/
def holds (s : State) : Bool :=
  match s.phase with
  | .sending | .awaitingRes | .draining => true
  | _ => false

/-- The call took the key. -/
def started (s : State) : Bool :=
  match s.phase with
  | .unstarted | .done .skipped => false
  | _ => true

/-- The `finally`. -/
def finish (req : Request) (s : State) (e : Ending) : State :=
  { s with
    phase := .done e
    healthFutures := s.healthFutures.erase req.reqId
    registry := s.registry.unregister req.sessionKey req.reqId }

/-- `_handle_raw_frame` -/
def handleRawFrame (req : Request) (s : State) (now : Time) (frame : PyDict) : State :=
  let dispatched := { s with registry := (dispatch s.clients now s.registry req.run frame).1 }
  match (frame.lookup (py "id")).getD (.str []) with
  | .str fid =>
    if fid ∈ s.healthFutures then
      { s with
        healthFutures := s.healthFutures.erase fid
        res := if fid = req.reqId then some frame else s.res }
    else dispatched
  | fid => if hashable fid then dispatched else s

/-- Where `dispatch` puts a frame of the run. -/
def place (req : Request) (s : State) (now : Time) (frame : PyDict) : Place :=
  match s.registry.sessions.lookup req.sessionKey with
  | some q => .turn q
  | none => if (dispatch s.clients now s.registry req.run frame).2.isSome then .push else .dropped

/-- What another party may do: it has ids and a queue of its own, and while the call has the key
no frames come on it but those of the run. -/
def mayDo (req : Request) (s : State) : TurnRegistry.Op TurnItem → Bool
  | .register reqId _ => reqId != req.reqId
  | .unregister _ reqId => reqId != req.reqId
  | .get q => !s.holds || q != s.queue
  | .deliverBySession sk _ _ => !s.holds || sk != req.sessionKey
  | .deliverByReq reqId _ _ =>
    !s.holds || s.registry.reqToSession.lookup reqId != some req.sessionKey
  | .isAborted _ _ => true
  | .errorAll _ => false

def step (req : Request) (s : State) (a : Action) : Option State :=
  match a, s.phase with
  | .start, .unstarted =>
    if s.ws then
      match s.registry.register req.reqId req.sessionKey with
      | none => some { s with phase := .done .skipped }
      | some (registry, queue) =>
        some { s with
          registry
          queue
          healthFutures := insert req.reqId s.healthFutures
          phase := .sending }
    else
      some { s with phase := .done .skipped }
  | .sent, .sending => some { s with phase := .awaitingRes, wrote := true }
  | .resume, .awaitingRes =>
    s.res.map fun frame =>
      if answersAborted frame then { s with phase := .draining } else s.finish req .nothingRan
  | .get, .draining =>
    (s.registry.get s.queue).map fun (registry, i) =>
      let s := { s with registry }
      if skips i then s else s.finish req (.read i)
  | .timeout, .awaitingRes | .timeout, .draining => some (s.finish req .timedOut)
  | .raises e, _ =>
    if s.holds then
      match e with
      | .base => some (s.finish req (.raised e))
      | _ => some (s.finish req (.caught e))
    else none
  | .arrive now, _ =>
    if s.started then
      match s.remaining with
      | [] => none
      | frame :: rest =>
        some ({ s with remaining := rest, places := s.places ++ [s.place req now frame] }.handleRawFrame
          req now frame)
    else none
  | .answer now frame, _ =>
    match frame.lookup (py "id") with
    | some (.str fid) =>
      if fid = req.reqId && s.started then some (s.handleRawFrame req now frame) else none
    | _ => none
  | .lost, _ => some { s with registry := s.registry.errorAll (py "orchestrator_disconnected") }
  | .foreign op, _ =>
    if s.mayDo req op then some { s with registry := s.registry.apply op } else none
  | .ping reqId, _ =>
    if reqId != req.reqId && reqId != [] then
      some { s with healthFutures := insert reqId s.healthFutures }
    else none
  | .pinged reqId, _ =>
    if reqId != req.reqId then some { s with healthFutures := s.healthFutures.erase reqId } else none
  | _, _ => none

end State

def start (maxsize : Nat) (clients : ClientRegistry) (ws : Bool) (remaining : List PyDict) : State :=
  { registry := { maxQueueSize := maxsize }, clients, ws, remaining }

-- ---------------------------------------------------------------------------
-- Where a frame of the run goes
-- ---------------------------------------------------------------------------

variable {req : Request} {s s' : State} {a : Action}

theorem item?_eq {frame : PyDict} {i : TurnItem} (h : item? req frame = some i) :
    frame.lookup (py "id") = none ∧
    ∀ clients now r, ∃ event, dispatch clients now r req.run frame =
      deliverOrPush clients now r req.sessionKey i event := by
  have hkey : ∀ payload : PyDict, sessionKey? payload = some req.sessionKey →
      payload.get "sessionKey" = .str req.sessionKey := by
    intro payload hpayload
    unfold sessionKey? at hpayload
    cases hvalue : payload.get "sessionKey" with
    | str sk =>
      rw [hvalue] at hpayload
      cases hpayload
      rfl
    | null | bool | num | nonFinite | arr | obj =>
      rw [hvalue] at hpayload
      cases hpayload
  have hne : py "event" ≠ py "res" := by decide
  have hne' : py "session.tool" ≠ py "chat" := by decide
  have hne'' : py "session.tool" ≠ py "agent" := by decide
  simp only [item?, Option.ite_none_right_eq_some, Bool.and_eq_true, Option.isNone_iff_eq_none,
    beq_iff_eq] at h
  obtain ⟨⟨hid, hsk⟩, h⟩ := h
  refine ⟨hid, ?_⟩
  intro clients now r
  split at h
  · rename_i hchat
    cases h
    simp only [isEvent, Bool.and_eq_true] at hchat
    have hres := StreamResponse.isStr_ne hchat.1 hne
    refine ⟨.chat (asDict (frame.get "payload")), ?_⟩
    simp only [dispatch, hres, hchat.1, handleEvent, hchat.2, handleChat, hkey _ hsk, if_true,
      Bool.false_eq_true, if_false]
  · simp only [Option.ite_none_right_eq_some] at h
    obtain ⟨htool, hphase, h⟩ := h
    cases h
    simp only [isEvent, Bool.and_eq_true] at htool
    have hres := StreamResponse.isStr_ne htool.1 hne
    have hchat := StreamResponse.isStr_ne htool.2 hne'
    have hagent := StreamResponse.isStr_ne htool.2 hne''
    refine ⟨.tool (asDict ((asDict (frame.get "payload")).get "data")), ?_⟩
    simp only [dispatch, hres, htool.1, handleEvent, hchat, hagent, htool.2, handleSessionTool,
      hkey _ hsk, hphase, if_true, Bool.false_eq_true, if_false]

-- ---------------------------------------------------------------------------
-- A key that is held
-- ---------------------------------------------------------------------------

/-- The request owns its key, with the queue `q`, and its turn is not flagged. -/
structure Owns (req : Request) (q : QueueRef) (r : TurnRegistry TurnItem) : Prop where
  key : r.sessions.lookup req.sessionKey = some q
  owner : r.sessionOwner.lookup req.sessionKey = some req.reqId
  unflagged : req.sessionKey ∉ r.overflowed

variable {q : QueueRef} {r : TurnRegistry TurnItem}

/-- A delivery to another key. -/
theorem Owns.deliverBySession (h : Owns req q r) (hwf : r.Wf) {sk : SessionKey}
    (hsk : sk ≠ req.sessionKey) (i : TurnItem) (now : Time) :
    Owns req q (r.deliverBySession sk i now).1 ∧
      (r.deliverBySession sk i now).1.queues q = r.queues q := by
  unfold TurnRegistry.deliverBySession
  cases hq : r.sessions.lookup sk with
  | none => exact ⟨h, rfl⟩
  | some q' =>
    have hne : q ≠ q' := by
      rintro rfl
      exact hsk (hwf.inj hq h.key)
    simp only
    obtain ⟨-, heq⟩ | ⟨-, -, peak, heq⟩ | ⟨-, -, heq⟩ := r.deliver_cases sk q' i now
    · rw [heq]
      exact ⟨h, rfl⟩
    · rw [heq]
      exact ⟨⟨h.key, h.owner, h.unflagged⟩, Function.update_of_ne hne _ _⟩
    · rw [heq]
      refine ⟨⟨h.key, h.owner, ?_⟩, Function.update_of_ne hne _ _⟩
      intro hmem
      cases Finset.mem_insert.mp hmem with
      | inl heq' => exact hsk heq'.symm
      | inr hold => exact h.unflagged hold

/-- What another party does leaves the key and the queue of the request alone. -/
theorem Owns.apply (h : Owns req q r) (hwf : r.Wf) {s : State} (hholds : s.holds = true)
    (hr : s.registry = r) (hq : s.queue = q) {op : TurnRegistry.Op TurnItem}
    (hmay : s.mayDo req op = true) :
    Owns req q (r.apply op) ∧ (r.apply op).queues q = r.queues q := by
  subst hr hq
  cases op with
  | register reqId sk =>
    simp only [TurnRegistry.apply]
    cases hreg : s.registry.register reqId sk with
    | none => exact ⟨h, rfl⟩
    | some p =>
      obtain ⟨r', q'⟩ := p
      obtain ⟨hsk, -, rfl⟩ := TurnRegistry.register_eq_some hreg
      have hne : req.sessionKey ≠ sk := by
        rintro rfl
        exact hsk (TurnRegistry.mem_sessions_iff.mpr ⟨_, h.key⟩)
      refine ⟨⟨?_, ?_, h.unflagged⟩, rfl⟩
      · exact (AList.lookup_insert_ne hne).trans h.key
      · exact (AList.lookup_insert_ne hne).trans h.owner
  | unregister sk reqId =>
    have hreq : reqId ≠ req.reqId := by simpa [State.mayDo] using hmay
    refine ⟨?_, congrFun (TurnRegistry.unregister_queues _ _ _).1 _⟩
    simp only [TurnRegistry.apply, TurnRegistry.unregister]
    by_cases howner : s.registry.sessionOwner.lookup sk = some reqId
    · have hne : req.sessionKey ≠ sk := by
        rintro rfl
        rw [h.owner] at howner
        exact hreq (Option.some.inj howner).symm
      simp only [howner, if_true]
      refine ⟨?_, ?_, ?_⟩
      · exact (AList.lookup_erase_ne hne).trans h.key
      · exact (AList.lookup_erase_ne hne).trans h.owner
      · exact fun hmem => h.unflagged (Finset.mem_of_mem_erase hmem)
    · simp only [howner, if_false]
      exact ⟨h.key, h.owner, h.unflagged⟩
  | get q' =>
    have hne : s.queue ≠ q' := by
      simp only [State.mayDo, hholds, Bool.not_true, Bool.false_or, bne_iff_ne] at hmay
      exact hmay.symm
    simp only [TurnRegistry.apply]
    cases hget : s.registry.get q' with
    | none => exact ⟨h, rfl⟩
    | some p =>
      obtain ⟨r', i⟩ := p
      obtain ⟨rest, -, rfl⟩ := TurnRegistry.get_eq_some hget
      exact ⟨⟨h.key, h.owner, h.unflagged⟩, Function.update_of_ne hne _ _⟩
  | deliverBySession sk i now =>
    simp only [State.mayDo, hholds, Bool.not_true, Bool.false_or, bne_iff_ne] at hmay
    exact h.deliverBySession hwf hmay i now
  | deliverByReq reqId i now =>
    simp only [State.mayDo, hholds, Bool.not_true, Bool.false_or, bne_iff_ne] at hmay
    simp only [TurnRegistry.apply, TurnRegistry.deliverByReq]
    cases hreq : s.registry.reqToSession.lookup reqId with
    | none => exact ⟨h, rfl⟩
    | some sk =>
      rw [hreq] at hmay
      exact h.deliverBySession hwf (fun heq => hmay (congrArg some heq)) i now
  | isAborted sk now => exact ⟨⟨h.key, h.owner, h.unflagged⟩, rfl⟩
  | errorAll message => cases hmay

/-- A frame of the run that finds room is put at the end of the queue. -/
theorem Owns.put (h : Owns req q r) (i : TurnItem) (event : PushEvent)
    (hroom : BoundedQueue.full r.maxQueueSize (r.queues q) = false) (clients : ClientRegistry)
    (now : Time) :
    Owns req q (deliverOrPush clients now r req.sessionKey i event).1 ∧
      (deliverOrPush clients now r req.sessionKey i event).1.queues q =
        r.queues q ++ [.item i] := by
  simp only [deliverOrPush, TurnRegistry.deliverBySession, h.key]
  obtain ⟨hflagged, -⟩ | ⟨-, -, peak, heq⟩ | ⟨-, hfull, -⟩ := r.deliver_cases req.sessionKey q i now
  · exact absurd hflagged h.unflagged
  · rw [heq]
    exact ⟨⟨h.key, h.owner, h.unflagged⟩, Function.update_self _ _ _⟩
  · rw [hroom] at hfull
    cases hfull

-- ---------------------------------------------------------------------------
-- Every run: what the call leaves behind
-- ---------------------------------------------------------------------------

/-- Nothing is left of the request. -/
structure Released (req : Request) (s : State) : Prop where
  future : req.reqId ∉ s.healthFutures
  unknown : req.reqId ∉ s.registry.reqToSession
  owner : s.registry.sessionOwner.lookup req.sessionKey ≠ some req.reqId

structure Inv (req : Request) (s : State) : Prop where
  wf : s.registry.Wf
  named : [] ∉ s.healthFutures
  released : s.holds = false → Released req s
  raised : ∀ e, s.phase = .done (.raised e) → e = .base

theorem dispatch_owners (hwf : r.Wf) (clients : ClientRegistry) (now : Time) (run : Run)
    (frame : PyDict) :
    (dispatch clients now r run frame).1.Wf ∧
      (dispatch clients now r run frame).1.sessionOwner = r.sessionOwner ∧
      (dispatch clients now r run frame).1.reqToSession = r.reqToSession := by
  have heffect : Effect now r run frame (dispatch clients now r run frame) := dispatch_effect
  cases heffect with
  | turn sk q i hq hreg hpush hrun hkey =>
    have howners := r.deliverBySession_owners sk i now
    simp only [TurnRegistry.deliverBySession, hq] at howners
    rw [hreg]
    exact ⟨hwf.deliver hq, howners⟩
  | push tombstones hreg hpush =>
    rw [hreg]
    exact ⟨⟨hwf.fresh, hwf.inj, hwf.owned, hwf.flagged, hwf.empty⟩, rfl, rfl⟩

/-- A raw frame changes no owner, and resolves at most one future. -/
theorem handleRawFrame_owners (req : Request) (hwf : s.registry.Wf) (now : Time)
    (frame : PyDict) :
    (s.handleRawFrame req now frame).registry.Wf ∧
      (s.handleRawFrame req now frame).registry.sessionOwner = s.registry.sessionOwner ∧
      (s.handleRawFrame req now frame).registry.reqToSession = s.registry.reqToSession ∧
      (s.handleRawFrame req now frame).healthFutures ⊆ s.healthFutures ∧
      (s.handleRawFrame req now frame).phase = s.phase := by
  obtain ⟨hwf', howner, hreq⟩ := dispatch_owners hwf s.clients now req.run frame
  unfold State.handleRawFrame
  dsimp only
  split
  · split
    · exact ⟨hwf, rfl, rfl, Finset.erase_subset _ _, rfl⟩
    · exact ⟨hwf', howner, hreq, subset_rfl, rfl⟩
  · split
    · exact ⟨hwf', howner, hreq, subset_rfl, rfl⟩
    · exact ⟨hwf, rfl, rfl, subset_rfl, rfl⟩

theorem holds_eq {s s' : State} (h : s'.phase = s.phase) : s'.holds = s.holds := by
  unfold State.holds
  rw [h]

/-- A step that leaves the phase and the owners alone. -/
theorem Inv.keep (h : Inv req s) (hwf : s'.registry.Wf)
    (howner : s'.registry.sessionOwner = s.registry.sessionOwner)
    (hreq : s'.registry.reqToSession = s.registry.reqToSession)
    (hfutures : s'.healthFutures ⊆ s.healthFutures) (hphase : s'.phase = s.phase) :
    Inv req s' := by
  refine ⟨hwf, fun hmem => h.named (hfutures hmem), ?_, ?_⟩
  · intro hholds
    have hold := h.released ((holds_eq hphase).symm.trans hholds)
    refine ⟨fun hmem => hold.future (hfutures hmem), ?_, ?_⟩
    · rw [hreq]
      exact hold.unknown
    · rw [howner]
      exact hold.owner
  · intro e he
    exact h.raised e (hphase.symm.trans he)

theorem Inv.frame (h : Inv req s) (now : Time) (frame : PyDict) :
    Inv req (s.handleRawFrame req now frame) := by
  obtain ⟨hwf, howner, hreq, hfutures, hphase⟩ := handleRawFrame_owners req h.wf now frame
  exact h.keep hwf howner hreq hfutures hphase

/-- The `finally` leaves nothing of the request. -/
theorem Inv.finish (h : Inv req s) {e : Ending} (he : ∀ x, e = .raised x → x = .base) :
    Inv req (s.finish req e) := by
  refine ⟨h.wf.unregister, fun hmem => h.named (Finset.mem_of_mem_erase hmem), ?_, ?_⟩
  · intro _
    refine ⟨Finset.notMem_erase _ _, ?_, ?_⟩
    · simp only [State.finish, TurnRegistry.unregister_reqToSession]
      intro hmem
      exact (AList.mem_erase.mp hmem).1 rfl
    · intro howner
      exact (TurnRegistry.owner_of_unregister howner).2 rfl rfl
  · intro x hx
    simp only [State.finish, Phase.done.injEq] at hx
    exact he x hx

/-- Another party makes the request neither known nor an owner. -/
theorem Released.apply (h : Released req s) {op : TurnRegistry.Op TurnItem}
    (hmay : s.mayDo req op = true) :
    Released req { s with registry := s.registry.apply op } := by
  refine ⟨h.future, ?_, ?_⟩
  · have hunknown := h.unknown
    cases op with
    | register reqId sk =>
      have hne : reqId ≠ req.reqId := by simpa [State.mayDo] using hmay
      simp only [TurnRegistry.apply]
      cases hreg : s.registry.register reqId sk with
      | none => exact hunknown
      | some p =>
        obtain ⟨r', q'⟩ := p
        obtain ⟨-, -, rfl⟩ := TurnRegistry.register_eq_some hreg
        intro hmem
        cases AList.mem_insert _ |>.mp hmem with
        | inl heq => exact hne heq.symm
        | inr hold => exact hunknown hold
    | unregister sk reqId =>
      simp only [TurnRegistry.apply, TurnRegistry.unregister_reqToSession]
      intro hmem
      exact hunknown (AList.mem_erase.mp hmem).2
    | get q' =>
      simp only [TurnRegistry.apply]
      cases hget : s.registry.get q' with
      | none => exact hunknown
      | some p =>
        obtain ⟨rest, -, heq⟩ := TurnRegistry.get_eq_some hget
        simp only [Option.map_some, Option.getD_some, heq]
        exact hunknown
    | deliverBySession sk i now =>
      simp only [TurnRegistry.apply, (TurnRegistry.deliverBySession_owners _ _ _ _).2]
      exact hunknown
    | deliverByReq reqId i now =>
      simp only [TurnRegistry.apply, (TurnRegistry.deliverByReq_owners _ _ _ _).2]
      exact hunknown
    | isAborted sk now => exact hunknown
    | errorAll message => cases hmay
  · intro howner
    cases TurnRegistry.owner_of_apply howner with
    | inl hold => exact h.owner hold
    | inr hreg =>
      subst hreg
      simp [State.mayDo] at hmay

theorem inv_start (maxsize : Nat) (clients : ClientRegistry) (ws : Bool) (remaining : List PyDict) :
    Inv req (start maxsize clients ws remaining) where
  wf := .init maxsize
  named := Finset.notMem_empty _
  released _ := ⟨Finset.notMem_empty _, AList.notMem_empty _, by simp [start]⟩
  raised e he := by cases he

theorem Inv.step (h : Inv req s) (hstep : s.step req a = some s') : Inv req s' := by
  cases a with
  | start =>
    cases hphase : s.phase with
    | unstarted =>
      have hold := h.released (by simp [State.holds, hphase])
      have hskip : Inv req { s with phase := .done .skipped } :=
        ⟨h.wf, h.named, fun _ => ⟨hold.future, hold.unknown, hold.owner⟩, by rintro e ⟨⟩⟩
      simp only [State.step, hphase] at hstep
      split at hstep
      · cases hreg : s.registry.register req.reqId req.sessionKey with
        | none =>
          simp only [hreg] at hstep
          cases hstep
          exact hskip
        | some p =>
          simp only [hreg] at hstep
          cases hstep
          refine ⟨h.wf.register hreg, ?_, by rintro ⟨⟩, by rintro e ⟨⟩⟩
          intro hmem
          cases Finset.mem_insert.mp hmem with
          | inl heq => exact req.nonempty heq.symm
          | inr hold => exact h.named hold
      · cases hstep
        exact hskip
    | sending | awaitingRes | draining | done e => simp [State.step, hphase] at hstep
  | sent =>
    cases hphase : s.phase with
    | sending =>
      simp only [State.step, hphase] at hstep
      cases hstep
      exact ⟨h.wf, h.named, by rintro ⟨⟩, by rintro e ⟨⟩⟩
    | unstarted | awaitingRes | draining | done e => simp [State.step, hphase] at hstep
  | resume =>
    cases hphase : s.phase with
    | awaitingRes =>
      simp only [State.step, hphase, Option.map_eq_some_iff] at hstep
      obtain ⟨frame, -, hs'⟩ := hstep
      split at hs'
      · subst hs'
        exact ⟨h.wf, h.named, by rintro ⟨⟩, by rintro e ⟨⟩⟩
      · subst hs'
        exact h.finish (by rintro x ⟨⟩)
    | unstarted | sending | draining | done e => simp [State.step, hphase] at hstep
  | get =>
    cases hphase : s.phase with
    | draining =>
      simp only [State.step, hphase, Option.map_eq_some_iff] at hstep
      obtain ⟨⟨registry, i⟩, hget, hs'⟩ := hstep
      have hread : Inv req { s with registry, phase := .draining } := by
        have hwf := h.wf.get hget
        obtain ⟨rest, -, rfl⟩ := TurnRegistry.get_eq_some hget
        exact h.keep hwf rfl rfl subset_rfl hphase.symm
      simp only at hs'
      split at hs'
      · subst hs'
        exact hread
      · subst hs'
        exact hread.finish (by rintro x ⟨⟩)
    | unstarted | sending | awaitingRes | done e => simp [State.step, hphase] at hstep
  | timeout =>
    cases hphase : s.phase with
    | awaitingRes | draining =>
      simp only [State.step, hphase] at hstep
      cases hstep
      exact h.finish (by rintro x ⟨⟩)
    | unstarted | sending | done e => simp [State.step, hphase] at hstep
  | raises e =>
    simp only [State.step, Option.ite_none_right_eq_some] at hstep
    obtain ⟨-, hstep⟩ := hstep
    cases e with
    | base =>
      cases hstep
      exact h.finish (by rintro x ⟨⟩; rfl)
    | orchestratorError | clientGone | runtimeError | exception =>
      cases hstep
      exact h.finish (by rintro x ⟨⟩)
  | arrive now =>
    simp only [State.step, Option.ite_none_right_eq_some] at hstep
    obtain ⟨-, hstep⟩ := hstep
    split at hstep
    · cases hstep
    · rename_i frame rest hremaining
      cases hstep
      have hplaced : Inv req { s with
          remaining := rest, places := s.places ++ [s.place req now frame] } :=
        h.keep h.wf rfl rfl subset_rfl rfl
      exact hplaced.frame now frame
  | answer now frame =>
    simp only [State.step] at hstep
    split at hstep
    · split at hstep
      · cases hstep
        exact h.frame now frame
      · cases hstep
    · cases hstep
  | lost =>
    cases hstep
    refine ⟨h.wf.errorAll, h.named, ?_, h.raised⟩
    intro hholds
    refine ⟨(h.released hholds).future, AList.notMem_empty _, ?_⟩
    simp [TurnRegistry.errorAll]
  | foreign op =>
    simp only [State.step, Option.ite_none_right_eq_some] at hstep
    obtain ⟨hmay, hstep⟩ := hstep
    cases hstep
    exact ⟨h.wf.apply op, h.named, fun hholds => (h.released hholds).apply hmay, h.raised⟩
  | ping reqId =>
    simp only [State.step, Option.ite_none_right_eq_some, Bool.and_eq_true, bne_iff_ne] at hstep
    obtain ⟨⟨hne, hnonempty⟩, hstep⟩ := hstep
    cases hstep
    refine ⟨h.wf, ?_, ?_, h.raised⟩
    · intro hmem
      cases Finset.mem_insert.mp hmem with
      | inl heq => exact hnonempty heq.symm
      | inr hold => exact h.named hold
    · intro hholds
      have hold := h.released hholds
      refine ⟨?_, hold.unknown, hold.owner⟩
      intro hmem
      cases Finset.mem_insert.mp hmem with
      | inl heq => exact hne heq.symm
      | inr hmem => exact hold.future hmem
  | pinged reqId =>
    simp only [State.step, Option.ite_none_right_eq_some] at hstep
    obtain ⟨-, hstep⟩ := hstep
    cases hstep
    exact h.keep h.wf rfl rfl (Finset.erase_subset _ _) rfl

-- ---------------------------------------------------------------------------
-- Runs in which the queue has room
-- ---------------------------------------------------------------------------

/-- The answer, which is one and says that the run was aborted, and the frames of the run come
before the timer, and nothing fails. -/
def inTime (req : Request) (s : State) : Action → Bool
  | .timeout | .raises _ | .lost => false
  | .answer _ frame => answersAborted frame && decide (req.reqId ∈ s.healthFutures)
  | _ => true

/-- A frame that arrives while the call has the key finds room in its queue. -/
def roomy (s : State) : Action → Bool
  | .arrive _ => !s.holds || !BoundedQueue.full s.registry.maxQueueSize (s.registry.queues s.queue)
  | _ => true

/-- The queue of the call, by what remains of the run: items it reads past, and the terminal
`chat` once it has arrived. -/
inductive Queued (req : Request) : List PyDict → List (Item TurnItem) → Prop where
  | more {remaining : List PyDict} {items : List (Item TurnItem)}
      (hrun : isRun req remaining = true) (hskips : ∀ i ∈ items, skips i = true) :
      Queued req remaining items
  | last {items : List (Item TurnItem)} {i : TurnItem} (hskips : ∀ i ∈ items, skips i = true)
      (hterminal : terminalChat i = true) : Queued req [] (items ++ [.item i])

theorem skips_of_item? {frame : PyDict} {i : TurnItem} (h : item? req frame = some i) :
    skips (.item i) = !terminalChat i := by
  simp only [item?, Option.ite_none_right_eq_some] at h
  obtain ⟨-, h⟩ := h
  split at h
  · cases h
    rfl
  · simp only [Option.ite_none_right_eq_some] at h
    obtain ⟨-, -, h⟩ := h
    cases h
    rfl

theorem not_skips_of_terminal {i : TurnItem} (h : terminalChat i = true) :
    skips (.item i) = false := by
  unfold terminalChat at h
  unfold skips
  split at h
  · rename_i payload hmsg
    simp only [hmsg, h, Bool.not_true]
  · cases h

/-- The next frame of the run is put in the queue. -/
theorem Queued.put {frame : PyDict} {rest : List PyDict} {items : List (Item TurnItem)}
    (h : Queued req (frame :: rest) items) :
    ∃ i, item? req frame = some i ∧ Queued req rest (items ++ [.item i]) := by
  cases h with
  | more hrun hskips =>
    cases rest with
    | nil =>
      simp only [isRun, Option.any_eq_true] at hrun
      obtain ⟨i, hitem, hterminal⟩ := hrun
      exact ⟨i, hitem, .last hskips hterminal⟩
    | cons next rest =>
      simp only [isRun, Bool.and_eq_true, Option.any_eq_true] at hrun
      obtain ⟨⟨i, hitem, hgoing⟩, hrest⟩ := hrun
      refine ⟨i, hitem, .more hrest ?_⟩
      intro j hj
      cases List.mem_append.mp hj with
      | inl hold => exact hskips j hold
      | inr hnew =>
        cases List.mem_singleton.mp hnew
        rw [skips_of_item? hitem]
        exact hgoing

/-- What is read is read past, or it is the terminal `chat` and nothing of the run remains. -/
theorem Queued.get {remaining : List PyDict} {i : Item TurnItem} {items : List (Item TurnItem)}
    (h : Queued req remaining (i :: items)) :
    (skips i = true ∧ Queued req remaining items) ∨
      (skips i = false ∧ remaining = [] ∧ ∃ t, i = .item t ∧ terminalChat t = true) := by
  generalize hqueue : i :: items = queue at h
  cases h with
  | more hrun hskips =>
    subst hqueue
    exact .inl ⟨hskips i List.mem_cons_self,
      .more hrun fun j hj => hskips j (List.mem_cons_of_mem i hj)⟩
  | @last read t hskips hterminal =>
    cases read with
    | nil =>
      cases hqueue
      exact .inr ⟨not_skips_of_terminal hterminal, rfl, t, rfl, hterminal⟩
    | cons j read =>
      cases hqueue
      exact .inl ⟨hskips i List.mem_cons_self,
        .last (fun j hj => hskips j (List.mem_cons_of_mem i hj)) hterminal⟩

/-- The call has the key, and the rest of the run comes to its queue. -/
structure Holding (req : Request) (s : State) : Prop where
  owns : Owns req s.queue s.registry
  queued : Queued req s.remaining (s.registry.queues s.queue)
  places : ∀ p ∈ s.places, p = .turn s.queue
  answer : ∀ frame, s.res = some frame → answersAborted frame = true

/-- Where a roomy run has got to. -/
def Good (req : Request) (s : State) : Prop :=
  match s.phase with
  | .unstarted => isRun req s.remaining = true ∧ s.places = [] ∧ s.wrote = false ∧ s.res = none
  | .sending | .awaitingRes | .draining => Holding req s
  | .done .skipped => s.wrote = false
  | .done (.read i) =>
    s.remaining = [] ∧ (∃ t, i = .item t ∧ terminalChat t = true) ∧
      ∀ p ∈ s.places, p = .turn s.queue
  | .done _ => False

theorem good_of_holds (h : s.holds = true) : Good req s ↔ Holding req s := by
  unfold State.holds at h
  unfold Good
  split at h
  · rename_i hphase
    rw [hphase]
  · rename_i hphase
    rw [hphase]
  · rename_i hphase
    rw [hphase]
  · cases h

/-- A step that concerns neither the call nor its queue. -/
theorem Good.keep (h : Good req s) (hphase : s'.phase = s.phase) (hqueue : s'.queue = s.queue)
    (hremaining : s'.remaining = s.remaining) (hplaces : s'.places = s.places)
    (hwrote : s'.wrote = s.wrote) (hres : s'.res = s.res)
    (hholds : s.holds = true → Owns req s.queue s'.registry ∧
      s'.registry.queues s.queue = s.registry.queues s.queue) : Good req s' := by
  cases hold : s.holds with
  | true =>
    have hs' : s'.holds = true := (holds_eq hphase).trans hold
    have hholding := (good_of_holds hold).mp h
    obtain ⟨howns, hitems⟩ := hholds hold
    refine (good_of_holds hs').mpr ⟨?_, ?_, ?_, ?_⟩
    · rw [hqueue]
      exact howns
    · rw [hqueue, hremaining, hitems]
      exact hholding.queued
    · rw [hqueue, hplaces]
      exact hholding.places
    · rw [hres]
      exact hholding.answer
  | false =>
    cases hs : s.phase with
    | sending | awaitingRes | draining => simp [State.holds, hs] at hold
    | unstarted =>
      simp only [Good, hs] at h
      simpa only [Good, hphase, hs, hremaining, hplaces, hwrote, hres] using h
    | done e =>
      cases e with
      | skipped =>
        simp only [Good, hs] at h
        simpa only [Good, hphase, hs, hwrote] using h
      | read i =>
        simp only [Good, hs] at h
        simpa only [Good, hphase, hs, hremaining, hplaces, hqueue] using h
      | timedOut | nothingRan | caught e | raised e => simp [Good, hs] at h

/-- A frame of the run that arrives is put in the queue of the call. -/
theorem Holding.arrive (h : Holding req s) (hnamed : [] ∉ s.healthFutures) {now : Time}
    {frame : PyDict} {rest : List PyDict} (hremaining : s.remaining = frame :: rest)
    (hroom : BoundedQueue.full s.registry.maxQueueSize (s.registry.queues s.queue) = false) :
    Holding req (({ s with
      remaining := rest
      places := s.places ++ [s.place req now frame] } : State).handleRawFrame req now frame) := by
  have hqueued := h.queued
  rw [hremaining] at hqueued
  obtain ⟨i, hitem, hrest⟩ := hqueued.put
  obtain ⟨hid, hdispatch⟩ := item?_eq hitem
  obtain ⟨event, hevent⟩ := hdispatch s.clients now s.registry
  obtain ⟨howns, hitems⟩ := h.owns.put i event hroom s.clients now
  rw [← hevent] at howns hitems
  have hplace : s.place req now frame = .turn s.queue := by
    simp only [State.place, h.owns.key]
  simp only [State.handleRawFrame, hid, Option.getD_none, hnamed, if_false]
  refine ⟨howns, ?_, ?_, h.answer⟩
  · show Queued req rest _
    rw [hitems]
    exact hrest
  · intro p hp
    cases List.mem_append.mp hp with
    | inl hold => exact h.places p hold
    | inr hnew => exact (List.mem_singleton.mp hnew).trans hplace

theorem Good.step (h : Good req s) (hinv : Inv req s) (htime : inTime req s a = true)
    (hroomy : roomy s a = true) (hstep : s.step req a = some s') : Good req s' := by
  cases a with
  | start =>
    cases hphase : s.phase with
    | unstarted =>
      simp only [Good, hphase] at h
      obtain ⟨hrun, hplaces, hwrote, hres⟩ := h
      simp only [State.step, hphase] at hstep
      split at hstep
      · cases hreg : s.registry.register req.reqId req.sessionKey with
        | none =>
          simp only [hreg] at hstep
          cases hstep
          exact hwrote
        | some p =>
          obtain ⟨registry, q⟩ := p
          simp only [hreg] at hstep
          cases hstep
          obtain ⟨hfree, rfl, rfl⟩ := TurnRegistry.register_eq_some hreg
          have hempty := hinv.wf.empty s.registry.created (Nat.le_refl _)
          refine ⟨⟨AList.lookup_insert _, AList.lookup_insert _, ?_⟩, ?_, ?_, ?_⟩
          · exact fun hmem => hfree (hinv.wf.flagged hmem)
          · apply Queued.more hrun
            simp [hempty]
          · simp [hplaces]
          · simp [hres]
      · cases hstep
        exact hwrote
    | sending | awaitingRes | draining | done e => simp [State.step, hphase] at hstep
  | sent =>
    cases hphase : s.phase with
    | sending =>
      simp only [Good, hphase] at h
      simp only [State.step, hphase] at hstep
      cases hstep
      exact ⟨h.owns, h.queued, h.places, h.answer⟩
    | unstarted | awaitingRes | draining | done e => simp [State.step, hphase] at hstep
  | resume =>
    cases hphase : s.phase with
    | awaitingRes =>
      simp only [Good, hphase] at h
      simp only [State.step, hphase, Option.map_eq_some_iff] at hstep
      obtain ⟨frame, hframe, hs'⟩ := hstep
      rw [if_pos (h.answer frame hframe)] at hs'
      subst hs'
      exact ⟨h.owns, h.queued, h.places, h.answer⟩
    | unstarted | sending | draining | done e => simp [State.step, hphase] at hstep
  | get =>
    cases hphase : s.phase with
    | draining =>
      simp only [Good, hphase] at h
      simp only [State.step, hphase, Option.map_eq_some_iff] at hstep
      obtain ⟨⟨registry, i⟩, hget, hs'⟩ := hstep
      obtain ⟨rest, hitems, rfl⟩ := TurnRegistry.get_eq_some hget
      have hqueued := h.queued
      rw [hitems] at hqueued
      simp only at hs'
      cases hqueued.get with
      | inl hread =>
        rw [if_pos hread.1] at hs'
        subst hs'
        refine ⟨⟨h.owns.key, h.owns.owner, h.owns.unflagged⟩, ?_, h.places, h.answer⟩
        simpa only [Function.update_self] using hread.2
      | inr hlast =>
        obtain ⟨hskips, hremaining, t, rfl, hterminal⟩ := hlast
        rw [hskips, if_neg Bool.false_ne_true] at hs'
        subst hs'
        exact ⟨hremaining, ⟨t, rfl, hterminal⟩, h.places⟩
    | unstarted | sending | awaitingRes | done e => simp [State.step, hphase] at hstep
  | timeout | raises e | lost => cases htime
  | arrive now =>
    simp only [State.step, Option.ite_none_right_eq_some] at hstep
    obtain ⟨hstarted, hstep⟩ := hstep
    split at hstep
    · cases hstep
    · rename_i frame rest hremaining
      cases hstep
      cases hholds : s.holds with
      | true =>
        simp only [roomy, hholds, Bool.not_true, Bool.false_or, Bool.not_eq_true'] at hroomy
        have hholding := (good_of_holds hholds).mp h
        have hphase : (({ s with
            remaining := rest
            places := s.places ++ [s.place req now frame] } : State).handleRawFrame
              req now frame).phase = s.phase :=
          (handleRawFrame_owners (s := { s with
            remaining := rest, places := s.places ++ [s.place req now frame] })
            req hinv.wf now frame).2.2.2.2
        exact (good_of_holds ((holds_eq hphase).trans hholds)).mpr
          (hholding.arrive hinv.named hremaining hroomy)
      | false =>
        cases hphase : s.phase with
        | unstarted => simp [State.started, hphase] at hstarted
        | sending | awaitingRes | draining => simp [State.holds, hphase] at hholds
        | done e =>
          cases e with
          | skipped => simp [State.started, hphase] at hstarted
          | read i =>
            simp only [Good, hphase] at h
            rw [h.1] at hremaining
            cases hremaining
          | timedOut | nothingRan | caught e | raised e => simp [Good, hphase] at h
  | answer now frame =>
    simp only [inTime, Bool.and_eq_true, decide_eq_true_eq] at htime
    obtain ⟨haborted, hpending⟩ := htime
    simp only [State.step] at hstep
    split at hstep
    · rename_i fid hid
      simp only [Option.ite_none_right_eq_some, Bool.and_eq_true, decide_eq_true_eq] at hstep
      obtain ⟨⟨hfid, -⟩, hstep⟩ := hstep
      subst hfid
      cases hstep
      cases hholds : s.holds with
      | true =>
        have hholding := (good_of_holds hholds).mp h
        simp only [State.handleRawFrame, hid, Option.getD_some, hpending, if_true]
        have hanswered : Holding req { s with
            healthFutures := s.healthFutures.erase req.reqId, res := some frame } := by
          refine ⟨hholding.owns, hholding.queued, hholding.places, ?_⟩
          intro frame' hframe'
          cases hframe'
          exact haborted
        exact (good_of_holds (s := { s with
          healthFutures := s.healthFutures.erase req.reqId, res := some frame }) hholds).mpr hanswered
      | false => exact absurd hpending (hinv.released hholds).future
    · cases hstep
  | foreign op =>
    simp only [State.step, Option.ite_none_right_eq_some] at hstep
    obtain ⟨hmay, hstep⟩ := hstep
    cases hstep
    refine h.keep rfl rfl rfl rfl rfl rfl ?_
    intro hholds
    exact ((good_of_holds hholds).mp h).owns.apply hinv.wf hholds rfl rfl hmay
  | ping reqId =>
    simp only [State.step, Option.ite_none_right_eq_some] at hstep
    obtain ⟨-, hstep⟩ := hstep
    cases hstep
    exact h.keep rfl rfl rfl rfl rfl rfl fun hholds => ⟨((good_of_holds hholds).mp h).owns, rfl⟩
  | pinged reqId =>
    simp only [State.step, Option.ite_none_right_eq_some] at hstep
    obtain ⟨-, hstep⟩ := hstep
    cases hstep
    exact h.keep rfl rfl rfl rfl rfl rfl fun hholds => ⟨((good_of_holds hholds).mp h).owns, rfl⟩

-- ---------------------------------------------------------------------------
-- The contract
-- ---------------------------------------------------------------------------

/-- An abort that was written does not return before it has read the terminal `chat`, which was
the last frame of its run, and the frames of the run came to its own queue. -/
def Held (s : State) : Prop :=
  s.wrote = true →
    (∀ e, s.phase = .done e →
      s.remaining = [] ∧ ∃ t, e = .read (.item t) ∧ terminalChat t = true) ∧
    ∀ p ∈ s.places, p = .turn s.queue

theorem Good.held (h : Good req s) : Held s := by
  intro hwrote
  cases hphase : s.phase with
  | unstarted =>
    simp only [Good, hphase] at h
    rw [h.2.2.1] at hwrote
    cases hwrote
  | sending | awaitingRes | draining =>
    simp only [Good, hphase] at h
    exact ⟨by rintro e ⟨⟩, h.places⟩
  | done e =>
    cases e with
    | skipped =>
      simp only [Good, hphase] at h
      rw [h] at hwrote
      cases hwrote
    | read i =>
      simp only [Good, hphase] at h
      obtain ⟨hremaining, ⟨t, rfl, hterminal⟩, hplaces⟩ := h
      refine ⟨?_, hplaces⟩
      rintro e ⟨⟩
      exact ⟨hremaining, t, rfl, hterminal⟩
    | timedOut | nothingRan | caught e | raised e => simp [Good, hphase] at h

/-- An abort that is over raised no `Exception`, and neither the registry nor the health futures
know its request any more: whoever has the key is another. -/
structure Over (req : Request) (s : State) : Prop where
  raised : ∀ e, s.phase = .done (.raised e) → e = .base
  released : Released req s
  key : req.sessionKey ∈ s.registry.sessions →
    ∃ other, s.registry.sessionOwner.lookup req.sessionKey = some other ∧ other ≠ req.reqId

theorem Inv.over (h : Inv req s) {e : Ending} (hphase : s.phase = .done e) : Over req s := by
  have hreleased := h.released (by simp [State.holds, hphase])
  refine ⟨h.raised, hreleased, ?_⟩
  intro hkey
  obtain ⟨other, hother⟩ := Option.isSome_iff_exists.mp
    (AList.lookup_isSome.mpr (h.wf.owned.mp hkey))
  refine ⟨other, hother, ?_⟩
  rintro rfl
  exact hreleased.owner hother

/-- In every run an abort that is over has left nothing behind, and one that finds its key taken
does nothing; and in every run in which the frames of the aborted run find room in its queue, it
holds the key until that run has ended. -/
theorem abort_contract (req : Request) (maxsize : Nat) (clients : ClientRegistry) (ws : Bool)
    (frames : List PyDict) (hframes : isRun req frames = true) :
    (∀ s, Transition.Reachable (State.step req) (start maxsize clients ws frames) s →
      (∀ e, s.phase = .done e → Over req s) ∧
      ∀ s', req.sessionKey ∈ s.registry.sessions → s.step req .start = some s' →
        s' = { s with phase := .done .skipped }) ∧
    ∀ s, Transition.ReachableBy (State.step req)
        (fun s a => (inTime req s a && roomy s a) = true) (start maxsize clients ws frames) s →
      Held s := by
  constructor
  · intro s hs
    have hinv : Inv req s := hs.invariant (inv_start maxsize clients ws frames)
      fun _ _ _ h _ hstep => h.step hstep
    refine ⟨fun e hphase => hinv.over hphase, ?_⟩
    intro s' hkey hstep
    cases hphase : s.phase with
    | unstarted =>
      have hbusy : s.registry.register req.reqId req.sessionKey = none := if_pos hkey
      simp only [State.step, hphase, hbusy] at hstep
      split at hstep
      · exact (Option.some.inj hstep).symm
      · exact (Option.some.inj hstep).symm
    | sending | awaitingRes | draining | done e => simp [State.step, hphase] at hstep
  · intro s hs
    have hgood : Good req (start maxsize clients ws frames) := ⟨hframes, rfl, rfl, rfl⟩
    have hboth : (fun s => Inv req s ∧ Good req s) s := by
      have hstart : Inv req (start maxsize clients ws frames) ∧
          Good req (start maxsize clients ws frames) :=
        ⟨inv_start maxsize clients ws frames, hgood⟩
      refine hs.invariant hstart ?_
      rintro s a s' ⟨hinv, hgood⟩ hok hstep
      simp only [Bool.and_eq_true] at hok
      exact ⟨hinv.step hstep, hgood.step hinv hok.1 hok.2 hstep⟩
    exact hboth.2.held

-- ---------------------------------------------------------------------------
-- Two runs
-- ---------------------------------------------------------------------------

def request : Request where
  reqId := py "abort"
  sessionKey := py "agent:main:c1"
  run := .ofRequest (py "r1")
  nonempty := by decide

/-- A `chat` event of the key. -/
def chatFrame (state : String) : PyDict :=
  [(py "type", .str (py "event")), (py "event", .str (py "chat")),
   (py "payload", .obj [(py "sessionKey", .str request.sessionKey), (py "state", .str (py state))])]

/-- The answer of an abort that found a run. -/
def abortedAnswer : PyDict :=
  [(py "type", .str (py "res")), (py "id", .str request.reqId), (py "ok", .bool true),
   (py "payload", .obj [(py "aborted", .bool true)])]

/-- The answer comes between the delta and the terminal `chat`. -/
def answered : List Action :=
  [.start, .sent, .arrive 0, .answer 0 abortedAnswer, .resume, .get, .arrive 0, .get]

theorem abort_contract_answered :
    ∃ s, Transition.run (Transition.guarded (State.step request)
          (fun s a => inTime request s a && roomy s a))
        (start 1 {} true [chatFrame "delta", chatFrame "aborted"]) answered = some s ∧
      s.wrote = true ∧ Held s := by
  have hrun : ∃ s, Transition.run (Transition.guarded (State.step request)
          (fun s a => inTime request s a && roomy s a))
        (start 1 {} true [chatFrame "delta", chatFrame "aborted"]) answered = some s ∧
      s.wrote = true := ⟨_, rfl, rfl⟩
  obtain ⟨s, hs, hwrote⟩ := hrun
  refine ⟨s, hs, hwrote, ?_⟩
  apply (abort_contract request 1 {} true [chatFrame "delta", chatFrame "aborted"] (by decide)).2
  exact Transition.reachableBy_of_run hs

/-- Two deltas come before the answer, and the queue has room for one: the call returns on the
marker of the overflow, and the terminal `chat` comes to the next turn on the key. -/
def overflowed : List Action :=
  [.start, .sent, .arrive 0, .arrive 0, .answer 0 abortedAnswer, .resume, .get,
   .foreign (.register (py "r2") request.sessionKey), .arrive 0]

theorem overflow_releases_key :
    ∃ s, Transition.run (Transition.guarded (State.step request) (inTime request))
        (start 1 {} true [chatFrame "delta", chatFrame "delta", chatFrame "aborted"])
        overflowed = some s ∧
      ¬ Held s := by
  refine ⟨_, rfl, ?_⟩
  intro h
  exact absurd ((h rfl).2 (.turn 1) (by decide)) (by decide)

end AbortCall
