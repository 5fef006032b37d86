-- SUMMARY: What OpenClaw writes into an error frame, taken out of the frame: nothing that is routed, queued or fed depends on it.
import JotaGateway.OpenClaw.Dispatcher

/-!
# Error texts of OpenClaw

A failed turn comes with text that may hold anything: `errorMessage` in a
`chat` payload, `error` in a rejected `res`. `scrub` takes it out. Dispatching,
queueing and feeding commute with it.
-/

-- ---------------------------------------------------------------------------
-- Frames without their error texts
-- ---------------------------------------------------------------------------

namespace PyDict

def without (d : PyDict) (key : String) : PyDict := d.filter fun field => field.1 != py key

theorem lookup_without (d : PyDict) {key : String} {k : PyStr} (h : k ≠ py key) :
    (d.without key).lookup k = d.lookup k := by
  unfold without
  induction d with
  | nil => rfl
  | cons field rest ih =>
    obtain ⟨name, value⟩ := field
    cases hname : name != py key with
    | true =>
      rw [List.filter_cons_of_pos (by simpa using hname), List.lookup_cons, List.lookup_cons, ih]
    | false =>
      have hne : (k == name) = false := by
        have hkey : name = py key := by simpa using hname
        simpa [hkey] using h
      rw [List.filter_cons_of_neg (by simp [hname]), List.lookup_cons, hne]
      exact ih

theorem get_without (d : PyDict) {key k : String} (h : py k ≠ py key) :
    (d.without key).get k = d.get k := by
  unfold get
  rw [lookup_without d h]

end PyDict

def scrubPayload (payload : PyDict) : PyDict := payload.without "errorMessage"

def scrubField (field : PyStr × Json) : PyStr × Json :=
  match field.2 with
  | .obj payload => if field.1 = py "payload" then (field.1, .obj (scrubPayload payload)) else field
  | _ => field

def scrubFrame (frame : PyDict) : PyDict := (frame.without "error").map scrubField

@[simp] theorem scrubField_fst (field : PyStr × Json) : (scrubField field).1 = field.1 := by
  unfold scrubField
  split
  · split
    · rfl
    · rfl
  · rfl

theorem lookup_scrubFields (d : PyDict) (k : PyStr) :
    (d.map scrubField).lookup k = (d.lookup k).map fun value => (scrubField (k, value)).2 := by
  induction d with
  | nil => rfl
  | cons field rest ih =>
    obtain ⟨name, value⟩ := field
    have hfield : scrubField (name, value) = (name, (scrubField (name, value)).2) :=
      Prod.ext (scrubField_fst _) rfl
    rw [List.map_cons, hfield, List.lookup_cons, List.lookup_cons]
    cases hname : k == name with
    | true =>
      have hk : k = name := by simpa using hname
      rw [hk]
      rfl
    | false => exact ih

/-- The fields the dispatcher reads stay as they are, but for the payload. -/
theorem lookup_scrubFrame (frame : PyDict) {k : PyStr} (herror : k ≠ py "error")
    (hpayload : k ≠ py "payload") : (scrubFrame frame).lookup k = frame.lookup k := by
  have hfield : ∀ value, (scrubField (k, value)).2 = value := by
    intro value
    unfold scrubField
    cases value with
    | obj payload => simp only [if_neg hpayload]
    | _ => rfl
  unfold scrubFrame
  rw [lookup_scrubFields, PyDict.lookup_without frame herror]
  cases frame.lookup k with
  | none => rfl
  | some value => rw [Option.map_some, hfield]

theorem get_scrubFrame (frame : PyDict) {k : String} (herror : py k ≠ py "error")
    (hpayload : py k ≠ py "payload") : (scrubFrame frame).get k = frame.get k := by
  unfold PyDict.get
  rw [lookup_scrubFrame frame herror hpayload]

theorem payload_scrubFrame (frame : PyDict) :
    FrameDispatcher.asDict ((scrubFrame frame).get "payload") =
      scrubPayload (FrameDispatcher.asDict (frame.get "payload")) := by
  unfold PyDict.get scrubFrame
  rw [lookup_scrubFields, PyDict.lookup_without frame (by decide)]
  cases frame.lookup (py "payload") with
  | none => rfl
  | some value =>
    cases value with
    | obj payload => simp [scrubField, FrameDispatcher.asDict, Json.dict?]
    | _ => rfl

/-- What is fed does not read `errorMessage`. -/
theorem feed_scrub (t : ChatTextTracker) (payload : PyDict) :
    t.feed (scrubPayload payload) = t.feed payload := by
  have hget : ∀ k : String, py k ≠ py "errorMessage" → (scrubPayload payload).get k = payload.get k :=
    fun k h => PyDict.get_without payload h
  unfold ChatTextTracker.feed ChatTextTracker.declare ChatTextTracker.isFinal
  rw [hget "state" (by decide), hget "deltaText" (by decide), hget "message" (by decide),
    hget "replace" (by decide)]

def TurnMsg.scrub : TurnMsg → TurnMsg
  | .chat payload => .chat (scrubPayload payload)
  | .tool data => .tool data
  | .done frame => .done (scrubFrame frame)

def TurnItem.scrub (i : TurnItem) : TurnItem := { i with msg := i.msg.scrub }

def PushEvent.scrub : PushEvent → PushEvent
  | .chat payload => .chat (scrubPayload payload)
  | event => event

-- ---------------------------------------------------------------------------
-- The registry does not read its items
-- ---------------------------------------------------------------------------

namespace BoundedQueue

variable {α β : Type*}

theorem full_map (f : α → β) (maxsize : Nat) (items : List α) :
    full maxsize (items.map f) = full maxsize items := by
  unfold full
  rw [List.length_map]

theorem putNowait_map (f : α → β) (maxsize : Nat) (items : List α) (x : α) :
    putNowait maxsize (items.map f) (f x) = (putNowait maxsize items x).map (List.map f) := by
  unfold putNowait
  rw [full_map]
  split
  · rfl
  · rw [Option.map_some, List.map_append, List.map_singleton]

theorem forcePut_map (f : α → β) (maxsize : Nat) (items : List α) (x : α) :
    forcePut maxsize (items.map f) (f x) = (forcePut maxsize items x).map f := by
  induction items with
  | nil => rfl
  | cons y rest ih =>
    have hfull : full maxsize (f y :: rest.map f) = full maxsize (y :: rest) :=
      full_map f maxsize (y :: rest)
    rw [List.map_cons, forcePut, forcePut, hfull, ih]
    split
    · rfl
    · rw [List.map_append, List.map_cons, List.map_singleton]

end BoundedQueue

def Item.map {ι κ : Type*} (f : ι → κ) : Item ι → Item κ
  | .item i => .item (f i)
  | .error message => .error message
  | .overflow => .overflow

namespace TurnRegistry

variable {ι κ : Type*} (f : ι → κ)

def mapQueues (queues : QueueRef → List (Item ι)) (q : QueueRef) : List (Item κ) :=
  (queues q).map (Item.map f)

def map (r : TurnRegistry ι) : TurnRegistry κ :=
  { maxQueueSize := r.maxQueueSize
    overflowed := r.overflowed
    tombstones := r.tombstones
    sessions := r.sessions
    peak := r.peak
    reqToSession := r.reqToSession
    sessionOwner := r.sessionOwner
    queues := mapQueues f r.queues
    created := r.created }

theorem mapQueues_update (queues : QueueRef → List (Item ι)) (q : QueueRef) (items : List (Item ι)) :
    mapQueues f (Function.update queues q items) =
      Function.update (mapQueues f queues) q (items.map (Item.map f)) := by
  funext q'
  exact Function.apply_update (fun _ items => items.map (Item.map f)) queues q items q'

theorem map_register (r : TurnRegistry ι) (reqId : ReqId) (sk : SessionKey) :
    (r.map f).register reqId sk = (r.register reqId sk).map fun p => (p.1.map f, p.2) := by
  have hsessions : (r.map f).sessions = r.sessions := rfl
  unfold register
  rw [hsessions]
  split
  · rfl
  · rfl

theorem map_unregister (r : TurnRegistry ι) (sk : SessionKey) (reqId : ReqId) :
    (r.map f).unregister sk reqId = (r.unregister sk reqId).map f := by
  have howner : (r.map f).sessionOwner = r.sessionOwner := rfl
  unfold unregister
  rw [howner]
  split
  · rfl
  · rfl

theorem map_deliver (r : TurnRegistry ι) (sk : SessionKey) (q : QueueRef) (i : ι) (now : Time) :
    (r.map f).deliver sk q (f i) now = (r.deliver sk q i now).map f := by
  have hoverflowed : (r.map f).overflowed = r.overflowed := rfl
  have hput : BoundedQueue.putNowait (r.map f).maxQueueSize ((r.map f).queues q) (.item (f i)) =
      (BoundedQueue.putNowait r.maxQueueSize (r.queues q) (.item i)).map (List.map (Item.map f)) :=
    BoundedQueue.putNowait_map (Item.map f) r.maxQueueSize (r.queues q) (.item i)
  unfold deliver
  rw [hoverflowed, hput]
  split
  · rfl
  · cases BoundedQueue.putNowait r.maxQueueSize (r.queues q) (.item i) with
    | none =>
      have hqueues := mapQueues_update f r.queues q [.overflow]
      simp only [Option.map_none, map, hqueues, List.map_singleton, Item.map]
    | some items =>
      have hqueues := mapQueues_update f r.queues q items
      simp only [Option.map_some, map, hqueues, List.length_map]

theorem map_deliverBySession (r : TurnRegistry ι) (sk : SessionKey) (i : ι) (now : Time) :
    (r.map f).deliverBySession sk (f i) now =
      ((r.deliverBySession sk i now).1.map f, (r.deliverBySession sk i now).2) := by
  have hsessions : (r.map f).sessions = r.sessions := rfl
  unfold deliverBySession
  rw [hsessions]
  cases r.sessions.lookup sk with
  | none => rfl
  | some q => simp only [map_deliver]

theorem map_deliverByReq (r : TurnRegistry ι) (reqId : ReqId) (i : ι) (now : Time) :
    (r.map f).deliverByReq reqId (f i) now =
      ((r.deliverByReq reqId i now).1.map f, (r.deliverByReq reqId i now).2) := by
  have hreq : (r.map f).reqToSession = r.reqToSession := rfl
  unfold deliverByReq
  rw [hreq]
  cases r.reqToSession.lookup reqId with
  | none => rfl
  | some sk => exact r.map_deliverBySession f sk i now

theorem map_isAborted (r : TurnRegistry ι) (sk : SessionKey) (now : Time) :
    (r.map f).isAborted sk now = ((r.isAborted sk now).1.map f, (r.isAborted sk now).2) := rfl

theorem map_errorAll (r : TurnRegistry ι) (message : PyStr) :
    (r.map f).errorAll message = (r.errorAll message).map f := by
  unfold errorAll map
  simp only [TurnRegistry.mk.injEq, true_and, and_true]
  refine List.foldl_hom (mapQueues f) ?_
  intro queues e
  rw [mapQueues_update, ← BoundedQueue.forcePut_map]
  rfl

theorem map_get (r : TurnRegistry ι) (q : QueueRef) :
    (r.map f).get q = (r.get q).map fun p => (p.1.map f, p.2.map f) := by
  have hqueues : (r.map f).queues q = (r.queues q).map (Item.map f) := rfl
  unfold get
  rw [hqueues]
  cases r.queues q with
  | nil => rfl
  | cons i rest =>
    have hupdate := mapQueues_update f r.queues q rest
    simp only [List.map_cons, Option.map_some, map, hupdate]

end TurnRegistry

-- ---------------------------------------------------------------------------
-- The dispatch
-- ---------------------------------------------------------------------------

namespace FrameDispatcher

/-- What a dispatch does, without the texts. -/
def Outcome.scrub (out : Outcome) : Outcome :=
  (out.1.map TurnItem.scrub, out.2.map fun push => (push.1, push.2.scrub))

variable (clients : ClientRegistry) (now : Time) (r : TurnRegistry TurnItem)

theorem scrub_deliverOrPush (sk : SessionKey) (i : TurnItem) (event : PushEvent) :
    deliverOrPush clients now (r.map TurnItem.scrub) sk i.scrub event.scrub =
      Outcome.scrub (deliverOrPush clients now r sk i event) := by
  unfold deliverOrPush
  rw [TurnRegistry.map_deliverBySession]
  obtain ⟨r', delivered⟩ := r.deliverBySession sk i now
  cases delivered with
  | true => rfl
  | false =>
    simp only [TurnRegistry.map_isAborted]
    obtain ⟨r'', aborted⟩ := r'.isAborted sk now
    cases aborted with
    | true => rfl
    | false =>
      unfold toBridge Outcome.scrub
      cases clients.get (clientIdFromSessionKey sk) with
      | none => rfl
      | some bridge => rfl

theorem scrub_raiseOnKey (key : Json) :
    raiseOnKey now (r.map TurnItem.scrub) key = (raiseOnKey now r key).map TurnItem.scrub := by
  unfold raiseOnKey
  split
  · rw [TurnRegistry.map_isAborted]
  · rfl

theorem scrub_handleChat (run : Run) (payload : PyDict) :
    handleChat clients now (r.map TurnItem.scrub) run (scrubPayload payload) =
      Outcome.scrub (handleChat clients now r run payload) := by
  have hkey : (scrubPayload payload).get "sessionKey" = payload.get "sessionKey" :=
    PyDict.get_without payload (by decide)
  unfold handleChat
  rw [hkey]
  cases payload.get "sessionKey" with
  | null => rfl
  | str sk =>
    exact scrub_deliverOrPush clients now r sk { run, msg := .chat payload } (.chat payload)
  | bool | num | nonFinite | arr | obj => exact congrArg (·, none) (scrub_raiseOnKey now r _)

theorem scrub_handleAgentLifecycle (payload : PyDict) :
    handleAgentLifecycle clients now (r.map TurnItem.scrub) (scrubPayload payload) =
      Outcome.scrub (handleAgentLifecycle clients now r payload) := by
  have hkey : (scrubPayload payload).get "sessionKey" = payload.get "sessionKey" :=
    PyDict.get_without payload (by decide)
  have hdata : (scrubPayload payload).get "data" = payload.get "data" :=
    PyDict.get_without payload (by decide)
  have hqueue : ∀ sk, (r.map TurnItem.scrub).getQueueBySession sk = r.getQueueBySession sk :=
    fun _ => rfl
  unfold handleAgentLifecycle sessionKey?
  rw [hkey, hdata]
  cases (payload.get "sessionKey").str? with
  | none => rfl
  | some sk =>
    dsimp only
    cases clients.get (clientIdFromSessionKey sk) with
    | none => rfl
    | some bridge =>
      simp only [hqueue, TurnRegistry.map_isAborted]
      split
      · split
        · rfl
        · obtain ⟨r', aborted⟩ := r.isAborted sk now
          cases aborted with
          | true => rfl
          | false => rfl
      · split
        · rfl
        · rfl

theorem scrub_handleSessionTool (run : Run) (payload : PyDict) :
    handleSessionTool clients now (r.map TurnItem.scrub) run (scrubPayload payload) =
      Outcome.scrub (handleSessionTool clients now r run payload) := by
  have hkey : (scrubPayload payload).get "sessionKey" = payload.get "sessionKey" :=
    PyDict.get_without payload (by decide)
  have hdata : (scrubPayload payload).get "data" = payload.get "data" :=
    PyDict.get_without payload (by decide)
  unfold handleSessionTool
  rw [hkey, hdata]
  dsimp only
  split
  · cases payload.get "sessionKey" with
    | null => rfl
    | str sk =>
      exact scrub_deliverOrPush clients now r sk
        { run, msg := .tool (asDict (payload.get "data")) } (.tool (asDict (payload.get "data")))
    | bool | num | nonFinite | arr | obj => exact congrArg (·, none) (scrub_raiseOnKey now r _)
  · rfl

theorem scrub_handleRes (run : Run) (frame : PyDict) :
    handleRes now (r.map TurnItem.scrub) run (scrubFrame frame) =
      Outcome.scrub (handleRes now r run frame) := by
  have hok : (scrubFrame frame).get "ok" = frame.get "ok" :=
    get_scrubFrame frame (by decide) (by decide)
  have hid : (scrubFrame frame).lookup (py "id") = frame.lookup (py "id") :=
    lookup_scrubFrame frame (by decide) (by decide)
  unfold handleRes
  rw [hok, hid]
  split
  · rename_i reqId _ _
    have hdeliver := r.map_deliverByReq TurnItem.scrub reqId { run, msg := .done frame } now
    exact congrArg (fun p => (p.1, none)) hdeliver
  · rfl

/-- The dispatch of a frame does not depend on its error texts. -/
theorem scrub_dispatch (run : Run) (frame : PyDict) :
    dispatch clients now (r.map TurnItem.scrub) run (scrubFrame frame) =
      Outcome.scrub (dispatch clients now r run frame) := by
  have htype : (scrubFrame frame).get "type" = frame.get "type" :=
    get_scrubFrame frame (by decide) (by decide)
  have hevent : (scrubFrame frame).get "event" = frame.get "event" :=
    get_scrubFrame frame (by decide) (by decide)
  unfold dispatch handleEvent
  rw [htype, hevent, payload_scrubFrame]
  dsimp only
  split
  · exact scrub_handleRes now r run frame
  · split
    · split
      · exact scrub_handleChat clients now r run _
      · split
        · exact scrub_handleAgentLifecycle clients now r _
        · split
          · exact scrub_handleSessionTool clients now r run _
          · rfl
    · rfl

end FrameDispatcher
