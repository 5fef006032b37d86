-- SUMMARY: `registry.py`: the registry of the turns in flight and their bounded queues.
import JotaGateway.Base.BoundedQueue
import JotaGateway.Python.Value
import Mathlib.Data.List.AList
import Mathlib.Data.Finset.Basic
import Mathlib.Logic.Function.Basic

/-!
# Turn registry

`TurnRegistry` maps the `session_key` of a turn in flight to its queue. A
queue is a reference into `queues`: the consumer keeps its own after the
registry has dropped the key, and `register` never reuses one. The items are
of any type `ι`: the registry never reads them.
-/

abbrev SessionKey := PyStr

/-- `str(uuid.uuid4())` of a request. -/
abbrev ReqId := PyStr

/-- `time.monotonic()`, in milliseconds. -/
abbrev Time := Nat

abbrev QueueRef := Nat

/-- Extract client_id as the last segment after the last colon. -/
def clientIdFromSessionKey (sk : SessionKey) : PyStr :=
  (sk.reverse.takeWhile (· != ':'.toNat)).reverse

def makeSessionKey (agent clientId : PyStr) : SessionKey :=
  py "agent:" ++ agent ++ py ":" ++ clientId

/-- How long, after a turn is aborted for overflow, its late frames are dropped. -/
def TURN_ABORT_TOMBSTONE_S : Time := 5000

-- ---------------------------------------------------------------------------
-- Queue messages
-- ---------------------------------------------------------------------------

/-- A turn queue message: what a producer delivered, or a marker of the registry. -/
inductive Item (ι : Type*) where
  | item (i : ι)
  | error (message : PyStr)
  | overflow
deriving DecidableEq

namespace Item

variable {ι : Type*}

def isMarker : Item ι → Bool
  | .item _ => false
  | _ => true

@[simp] theorem isMarker_item (i : ι) : (Item.item i).isMarker = false := rfl
@[simp] theorem isMarker_error (m : PyStr) : (Item.error m : Item ι).isMarker = true := rfl
@[simp] theorem isMarker_overflow : (Item.overflow : Item ι).isMarker = true := rfl

end Item

-- ---------------------------------------------------------------------------
-- The registry
-- ---------------------------------------------------------------------------

structure TurnRegistry (ι : Type*) where
  maxQueueSize : Nat
  overflowed : Finset SessionKey := ∅
  tombstones : AList (fun _ : SessionKey => Time) := ∅
  sessions : AList (fun _ : SessionKey => QueueRef) := ∅
  peak : AList (fun _ : SessionKey => Nat) := ∅
  reqToSession : AList (fun _ : ReqId => SessionKey) := ∅
  sessionOwner : AList (fun _ : SessionKey => ReqId) := ∅
  queues : QueueRef → List (Item ι) := fun _ => []
  created : Nat := 0

namespace TurnRegistry

variable {ι : Type*}

/-- `none` is `TurnInProgress`. -/
def register (r : TurnRegistry ι) (reqId : ReqId) (sk : SessionKey) :
    Option (TurnRegistry ι × QueueRef) :=
  if sk ∈ r.sessions then
    none
  else
    some ({ r with
      sessions := r.sessions.insert sk r.created
      reqToSession := r.reqToSession.insert reqId sk
      sessionOwner := r.sessionOwner.insert sk reqId
      created := r.created + 1 }, r.created)

def unregister (r : TurnRegistry ι) (sk : SessionKey) (reqId : ReqId) : TurnRegistry ι :=
  -- only the current owner pops the key: a belated cleanup must not evict a newer turn
  let r :=
    if r.sessionOwner.lookup sk = some reqId then
      { r with
        sessions := r.sessions.erase sk
        sessionOwner := r.sessionOwner.erase sk
        overflowed := r.overflowed.erase sk }
    else r
  { r with reqToSession := r.reqToSession.erase reqId }

def deliver (r : TurnRegistry ι) (sk : SessionKey) (q : QueueRef) (i : ι) (now : Time) :
    TurnRegistry ι :=
  if sk ∈ r.overflowed then
    r  -- turn already flagged for abort: drop
  else
    match BoundedQueue.putNowait r.maxQueueSize (r.queues q) (.item i) with
    | some items =>
      { r with
        queues := Function.update r.queues q items
        peak := r.peak.insert sk (max ((r.peak.lookup sk).getD 0) items.length) }
    | none =>
      { r with
        overflowed := insert sk r.overflowed
        tombstones := r.tombstones.insert sk (now + TURN_ABORT_TOMBSTONE_S)
        -- pending items belong to a turn that is being aborted: discard them
        queues := Function.update r.queues q [.overflow] }

/-- Put for the turn owning `session_key`; the flag tells whether a turn owns it. -/
def deliverBySession (r : TurnRegistry ι) (sk : SessionKey) (i : ι) (now : Time) :
    TurnRegistry ι × Bool :=
  match r.sessions.lookup sk with
  | none => (r, false)
  | some q => (r.deliver sk q i now, true)

def deliverByReq (r : TurnRegistry ι) (reqId : ReqId) (i : ι) (now : Time) :
    TurnRegistry ι × Bool :=
  match r.reqToSession.lookup reqId with
  | none => (r, false)
  | some sk => r.deliverBySession sk i now

def getQueueBySession (r : TurnRegistry ι) (sk : SessionKey) : Option QueueRef :=
  r.sessions.lookup sk

/-- True while late frames of an overflow-aborted turn must be dropped. Expired tombstones
are purged first. -/
def isAborted (r : TurnRegistry ι) (sk : SessionKey) (now : Time) : TurnRegistry ι × Bool :=
  let expired := r.tombstones.entries.filter (fun e => e.2 ≤ now)
  let r := { r with tombstones := expired.foldl (fun ts e => ts.erase e.1) r.tombstones }
  (r, decide (sk ∈ r.tombstones))

def errorAll (r : TurnRegistry ι) (message : PyStr) : TurnRegistry ι :=
  { r with
    queues := r.sessions.entries.foldl (fun queues e =>
      Function.update queues e.2
        (BoundedQueue.forcePut r.maxQueueSize (queues e.2) (.error message))) r.queues
    overflowed := ∅
    sessions := ∅
    reqToSession := ∅
    sessionOwner := ∅ }

/-- The consumer's `queue.get()` on a queue that holds something. -/
def get (r : TurnRegistry ι) (q : QueueRef) : Option (TurnRegistry ι × Item ι) :=
  match r.queues q with
  | [] => none
  | i :: rest => some ({ r with queues := Function.update r.queues q rest }, i)

/-- One operation of whoever shares the registry. -/
inductive Op (ι : Type*) where
  | register (reqId : ReqId) (sk : SessionKey)
  | deliverBySession (sk : SessionKey) (i : ι) (now : Time)
  | deliverByReq (reqId : ReqId) (i : ι) (now : Time)
  | isAborted (sk : SessionKey) (now : Time)
  | get (q : QueueRef)
  | errorAll (message : PyStr)
  | unregister (sk : SessionKey) (reqId : ReqId)

/-- A refused `register` and a `get` that waits change nothing. -/
def apply (r : TurnRegistry ι) : Op ι → TurnRegistry ι
  | .register reqId sk => ((r.register reqId sk).map (·.1)).getD r
  | .deliverBySession sk i now => (r.deliverBySession sk i now).1
  | .deliverByReq reqId i now => (r.deliverByReq reqId i now).1
  | .isAborted sk now => (r.isAborted sk now).1
  | .get q => ((r.get q).map (·.1)).getD r
  | .errorAll message => r.errorAll message
  | .unregister sk reqId => r.unregister sk reqId

-- ---------------------------------------------------------------------------
-- What one operation does
-- ---------------------------------------------------------------------------

/-- Some turn in flight owns queue `q`. -/
def live (r : TurnRegistry ι) (q : QueueRef) : Bool := decide (q ∈ r.sessions.entries.map (·.2))

theorem live_iff {r : TurnRegistry ι} {q : QueueRef} :
    r.live q = true ↔ ∃ sk, r.sessions.lookup sk = some q := by
  unfold live
  rw [decide_eq_true_iff, List.mem_map]
  constructor
  · rintro ⟨⟨sk, q'⟩, hmem, rfl⟩
    exact ⟨sk, AList.mem_lookup_iff.mpr hmem⟩
  · rintro ⟨sk, h⟩
    exact ⟨⟨sk, q⟩, AList.mem_lookup_iff.mp h, rfl⟩

theorem mem_sessions_iff {r : TurnRegistry ι} {sk : SessionKey} :
    sk ∈ r.sessions ↔ ∃ q, r.sessions.lookup sk = some q := by
  rw [← AList.lookup_isSome, Option.isSome_iff_exists]

theorem register_eq_some {r r' : TurnRegistry ι} {reqId : ReqId} {sk : SessionKey} {q : QueueRef}
    (h : r.register reqId sk = some (r', q)) :
    sk ∉ r.sessions ∧ q = r.created ∧
      r' = { r with
        sessions := r.sessions.insert sk r.created
        reqToSession := r.reqToSession.insert reqId sk
        sessionOwner := r.sessionOwner.insert sk reqId
        created := r.created + 1 } := by
  unfold register at h
  split at h
  · cases h
  · rename_i hsk
    cases h
    exact ⟨hsk, rfl, rfl⟩

/-- A delivery to a turn: dropped, queued, or the overflow of the turn. -/
theorem deliver_cases (r : TurnRegistry ι) (sk : SessionKey) (q : QueueRef) (i : ι) (now : Time) :
    (sk ∈ r.overflowed ∧ r.deliver sk q i now = r) ∨
    (sk ∉ r.overflowed ∧ BoundedQueue.full r.maxQueueSize (r.queues q) = false ∧
      ∃ peak, r.deliver sk q i now =
        { r with queues := Function.update r.queues q (r.queues q ++ [.item i]), peak := peak }) ∨
    (sk ∉ r.overflowed ∧ BoundedQueue.full r.maxQueueSize (r.queues q) = true ∧
      r.deliver sk q i now =
        { r with
          overflowed := insert sk r.overflowed
          tombstones := r.tombstones.insert sk (now + TURN_ABORT_TOMBSTONE_S)
          queues := Function.update r.queues q [.overflow] }) := by
  unfold deliver
  split
  · rename_i hsk
    exact .inl ⟨hsk, rfl⟩
  · rename_i hsk
    right
    cases hput : BoundedQueue.putNowait r.maxQueueSize (r.queues q) (.item i) with
    | some items =>
      obtain ⟨hfull, rfl⟩ := BoundedQueue.putNowait_eq_some hput
      exact .inl ⟨hsk, hfull, _, rfl⟩
    | none => exact .inr ⟨hsk, BoundedQueue.putNowait_eq_none.mp hput, rfl⟩

private theorem lookup_foldl_erase (l : List ((_ : SessionKey) × Time))
    (ts : AList fun _ : SessionKey => Time) (sk : SessionKey) :
    (l.foldl (fun ts e => ts.erase e.1) ts).lookup sk =
      if sk ∈ l.map (·.1) then none else ts.lookup sk := by
  induction l generalizing ts with
  | nil => simp
  | cons e l ih =>
    rw [List.foldl_cons, ih]
    rcases eq_or_ne sk e.1 with rfl | hne
    · simp
    · simp only [AList.lookup_erase_ne hne, List.map_cons, List.mem_cons, hne, false_or]

/-- `is_aborted` leaves exactly the tombstones that have not expired. -/
theorem isAborted_lookup (r : TurnRegistry ι) (sk sk' : SessionKey) (now : Time) :
    (r.isAborted sk' now).1.tombstones.lookup sk =
      (r.tombstones.lookup sk).filter fun deadline => now < deadline := by
  simp only [isAborted, lookup_foldl_erase]
  split
  · rename_i hmem
    obtain ⟨⟨sk, d⟩, he, rfl⟩ := List.mem_map.mp hmem
    obtain ⟨he, hexpired⟩ := List.mem_filter.mp he
    have hlookup : r.tombstones.lookup sk = some d := AList.mem_lookup_iff.mpr he
    have hnot : ¬ now < d := Nat.not_lt.mpr (of_decide_eq_true hexpired)
    simp only [hlookup, Option.filter_some, hnot, decide_false, Bool.false_eq_true, if_false]
  · rename_i hmem
    cases hlookup : r.tombstones.lookup sk with
    | none => rfl
    | some d =>
      have hlive : now < d := by
        by_contra hexpired
        refine hmem (List.mem_map.mpr ⟨⟨sk, d⟩, List.mem_filter.mpr ⟨?_, ?_⟩, rfl⟩)
        · exact AList.mem_lookup_iff.mp hlookup
        · exact decide_eq_true (Nat.not_lt.mp hexpired)
      simp only [Option.filter_some, hlive, decide_true, if_true]

theorem isAborted_flag (r : TurnRegistry ι) (sk : SessionKey) (now : Time) :
    (r.isAborted sk now).2 =
      ((r.tombstones.lookup sk).filter fun deadline => now < deadline).isSome := by
  rw [← isAborted_lookup r sk sk now, Bool.eq_iff_iff, AList.lookup_isSome]
  exact decide_eq_true_iff

theorem get_eq_some {r r' : TurnRegistry ι} {q : QueueRef} {i : Item ι}
    (h : r.get q = some (r', i)) :
    ∃ rest, r.queues q = i :: rest ∧ r' = { r with queues := Function.update r.queues q rest } := by
  unfold get at h
  split at h
  · cases h
  · rename_i j rest hq
    cases h
    exact ⟨rest, hq, rfl⟩

theorem deliver_sessionOwner (r : TurnRegistry ι) (sk : SessionKey) (q : QueueRef) (i : ι)
    (now : Time) : (r.deliver sk q i now).sessionOwner = r.sessionOwner := by
  obtain ⟨-, heq⟩ | ⟨-, -, peak, heq⟩ | ⟨-, -, heq⟩ := r.deliver_cases sk q i now <;> rw [heq]

theorem deliverBySession_sessionOwner (r : TurnRegistry ι) (sk : SessionKey) (i : ι)
    (now : Time) : (r.deliverBySession sk i now).1.sessionOwner = r.sessionOwner := by
  unfold deliverBySession
  split
  · rfl
  · exact deliver_sessionOwner _ _ _ _ _

theorem deliverByReq_sessionOwner (r : TurnRegistry ι) (reqId : ReqId) (i : ι) (now : Time) :
    (r.deliverByReq reqId i now).1.sessionOwner = r.sessionOwner := by
  unfold deliverByReq
  split
  · rfl
  · exact deliverBySession_sessionOwner _ _ _ _

theorem deliverBySession_owners (r : TurnRegistry ι) (sk : SessionKey) (i : ι) (now : Time) :
    (r.deliverBySession sk i now).1.sessionOwner = r.sessionOwner ∧
      (r.deliverBySession sk i now).1.reqToSession = r.reqToSession := by
  refine ⟨deliverBySession_sessionOwner _ _ _ _, ?_⟩
  unfold deliverBySession
  split
  · rfl
  · rename_i q _
    obtain ⟨-, heq⟩ | ⟨-, -, peak, heq⟩ | ⟨-, -, heq⟩ := r.deliver_cases sk q i now <;> rw [heq]

theorem deliverByReq_owners (r : TurnRegistry ι) (reqId : ReqId) (i : ι) (now : Time) :
    (r.deliverByReq reqId i now).1.sessionOwner = r.sessionOwner ∧
      (r.deliverByReq reqId i now).1.reqToSession = r.reqToSession := by
  unfold deliverByReq
  split
  · exact ⟨rfl, rfl⟩
  · exact deliverBySession_owners _ _ _ _

/-- A key that `unregister` leaves keeps its queue and its owner. -/
theorem lookup_of_unregister {r : TurnRegistry ι} {sk sk' : SessionKey} {reqId : ReqId}
    {q : QueueRef} (h : (r.unregister sk reqId).sessions.lookup sk' = some q) :
    r.sessions.lookup sk' = some q ∧
      (r.unregister sk reqId).sessionOwner.lookup sk' = r.sessionOwner.lookup sk' := by
  unfold unregister at h ⊢
  split at h
  · rename_i howner
    by_cases hne : sk' = sk
    · subst hne
      rw [AList.lookup_erase] at h
      cases h
    · rw [AList.lookup_erase_ne hne] at h
      simp only [howner, if_true]
      exact ⟨h, AList.lookup_erase_ne hne⟩
  · rename_i howner
    simp only [howner, if_false]
    exact ⟨h, trivial⟩

theorem unregister_queues (r : TurnRegistry ι) (sk : SessionKey) (reqId : ReqId) :
    (r.unregister sk reqId).queues = r.queues ∧
      (r.unregister sk reqId).created = r.created := by
  unfold unregister
  split <;> exact ⟨rfl, rfl⟩

theorem unregister_reqToSession (r : TurnRegistry ι) (sk : SessionKey) (reqId : ReqId) :
    (r.unregister sk reqId).reqToSession = r.reqToSession.erase reqId := by
  unfold unregister
  split <;> rfl

/-- A delivery changes no key, and puts nothing but its item in its queue. -/
theorem deliver_keys (r : TurnRegistry ι) (sk : SessionKey) (q : QueueRef) (i : ι) (now : Time) :
    (r.deliver sk q i now).sessions = r.sessions ∧
      (r.deliver sk q i now).created = r.created := by
  obtain ⟨-, heq⟩ | ⟨-, -, peak, heq⟩ | ⟨-, -, heq⟩ := r.deliver_cases sk q i now <;>
    rw [heq] <;> exact ⟨rfl, rfl⟩

theorem mem_of_deliver {r : TurnRegistry ι} {sk : SessionKey} {q q' : QueueRef} {i j : ι}
    {now : Time} (h : .item j ∈ (r.deliver sk q i now).queues q') :
    .item j ∈ r.queues q' ∨ (q' = q ∧ j = i) := by
  obtain ⟨-, heq⟩ | ⟨-, -, peak, heq⟩ | ⟨-, -, heq⟩ := r.deliver_cases sk q i now <;> rw [heq] at h
  · exact .inl h
  · by_cases hne : q' = q
    · subst hne
      simpa using h
    · exact .inl (by simpa [Function.update_of_ne hne] using h)
  · by_cases hne : q' = q
    · subst hne
      simp at h
    · exact .inl (by simpa [Function.update_of_ne hne] using h)

theorem mem_of_get {r r' : TurnRegistry ι} {q q' : QueueRef} {i j : Item ι}
    (hget : r.get q = some (r', i)) (h : j ∈ r'.queues q') : j ∈ r.queues q' := by
  obtain ⟨rest, hq, rfl⟩ := get_eq_some hget
  by_cases hne : q' = q
  · subst hne
    rw [hq]
    exact List.mem_cons_of_mem i (by simpa using h)
  · simpa [Function.update_of_ne hne] using h

/-- An owner that `unregister` leaves was one before; the one it names is gone. -/
theorem owner_of_unregister {r : TurnRegistry ι} {sk sk' : SessionKey} {reqId owner : ReqId}
    (h : (r.unregister sk reqId).sessionOwner.lookup sk' = some owner) :
    r.sessionOwner.lookup sk' = some owner ∧ (sk' = sk → owner ≠ reqId) := by
  unfold unregister at h
  split at h
  · rename_i howner
    by_cases hne : sk' = sk
    · subst hne
      rw [AList.lookup_erase] at h
      cases h
    · rw [AList.lookup_erase_ne hne] at h
      exact ⟨h, fun heq => absurd heq hne⟩
  · rename_i howner
    refine ⟨h, ?_⟩
    intro heq hreq
    subst heq hreq
    exact howner h

theorem owner_of_register {r r' : TurnRegistry ι} {reqId owner : ReqId} {sk sk' : SessionKey}
    {q : QueueRef} (hreg : r.register reqId sk = some (r', q))
    (h : r'.sessionOwner.lookup sk' = some owner) :
    r.sessionOwner.lookup sk' = some owner ∨ (sk' = sk ∧ owner = reqId) := by
  obtain ⟨-, -, rfl⟩ := register_eq_some hreg
  by_cases hne : sk' = sk
  · subst hne
    rw [AList.lookup_insert] at h
    cases h
    exact .inr ⟨rfl, rfl⟩
  · rw [AList.lookup_insert_ne hne] at h
    exact .inl h

/-- An operation makes no owner but the one it registers. -/
theorem owner_of_apply {r : TurnRegistry ι} {op : Op ι} {sk : SessionKey} {owner : ReqId}
    (h : (r.apply op).sessionOwner.lookup sk = some owner) :
    r.sessionOwner.lookup sk = some owner ∨ op = .register owner sk := by
  cases op with
  | register reqId sk' =>
    simp only [apply] at h
    cases hreg : r.register reqId sk' with
    | none =>
      rw [hreg] at h
      exact .inl h
    | some p =>
      rw [hreg] at h
      rcases owner_of_register hreg h with h | ⟨rfl, rfl⟩
      · exact .inl h
      · exact .inr rfl
  | deliverBySession sk' i now =>
    rw [apply, deliverBySession_sessionOwner] at h
    exact .inl h
  | deliverByReq reqId i now =>
    rw [apply, deliverByReq_sessionOwner] at h
    exact .inl h
  | isAborted sk' now => exact .inl h
  | get q =>
    simp only [apply] at h
    cases hget : r.get q with
    | none =>
      rw [hget] at h
      exact .inl h
    | some p =>
      rw [hget] at h
      obtain ⟨rest, -, heq⟩ := get_eq_some hget
      simp only [Option.map_some, Option.getD_some, heq] at h
      exact .inl h
  | errorAll message => simp [apply, errorAll] at h
  | unregister sk' reqId => exact .inl (owner_of_unregister h).1

private theorem foldl_update_apply {α β γ : Type*} [DecidableEq α] (key : β → α) (g : γ → γ)
    (a : α) (l : List β) (f : α → γ) (hnd : (l.map key).Nodup) :
    l.foldl (fun f b => Function.update f (key b) (g (f (key b)))) f a =
      if a ∈ l.map key then g (f a) else f a := by
  induction l generalizing f with
  | nil => simp
  | cons b l ih =>
    rw [List.map_cons, List.nodup_cons] at hnd
    rw [List.foldl_cons, ih _ hnd.2]
    by_cases hb : a = key b
    · subst hb
      simp [hnd.1]
    · simp [hb]

-- ---------------------------------------------------------------------------
-- Well-formedness
-- ---------------------------------------------------------------------------

/-- Every turn in flight has a queue of its own and an owner, only a turn in flight is
flagged, and a queue not yet created is empty. -/
structure Wf (r : TurnRegistry ι) : Prop where
  fresh : ∀ {sk q}, r.sessions.lookup sk = some q → q < r.created
  inj : ∀ {sk sk' q}, r.sessions.lookup sk = some q → r.sessions.lookup sk' = some q → sk = sk'
  owned : ∀ {sk}, sk ∈ r.sessions ↔ sk ∈ r.sessionOwner
  flagged : ∀ {sk}, sk ∈ r.overflowed → sk ∈ r.sessions
  empty : ∀ q, r.created ≤ q → r.queues q = []

namespace Wf

theorem init (maxsize : Nat) : Wf ({ maxQueueSize := maxsize } : TurnRegistry ι) where
  fresh h := by simp at h
  inj h := by simp at h
  owned := by simp
  flagged h := by simp at h
  empty _ _ := rfl

/-- Distinct turns own distinct queues. -/
theorem nodup_queues {r : TurnRegistry ι} (h : Wf r) : (r.sessions.entries.map (·.2)).Nodup := by
  apply List.Nodup.map_on _ (List.NodupKeys.nodup r.sessions.nodupKeys)
  rintro ⟨sk, q⟩ hsk ⟨sk', q'⟩ hsk' heq
  have hq : q = q' := heq
  subst hq
  have heq : sk = sk' := h.inj (AList.mem_lookup_iff.mpr hsk) (AList.mem_lookup_iff.mpr hsk')
  rw [heq]

theorem register {r r' : TurnRegistry ι} {reqId : ReqId} {sk : SessionKey} {q : QueueRef}
    (h : Wf r) (hreg : r.register reqId sk = some (r', q)) : Wf r' := by
  obtain ⟨hsk, rfl, rfl⟩ := register_eq_some hreg
  constructor
  · intro sk' q hq
    by_cases heq : sk' = sk
    · subst heq
      rw [AList.lookup_insert] at hq
      cases hq
      exact Nat.lt_succ_self _
    · rw [AList.lookup_insert_ne heq] at hq
      exact Nat.lt_succ_of_lt (h.fresh hq)
  · intro a b q ha hb
    -- the new queue is not one of the old ones
    by_cases hask : a = sk <;> by_cases hbsk : b = sk
    · rw [hask, hbsk]
    · subst hask
      rw [AList.lookup_insert] at ha
      rw [AList.lookup_insert_ne hbsk] at hb
      cases ha
      exact absurd (h.fresh hb) (Nat.lt_irrefl _)
    · subst hbsk
      rw [AList.lookup_insert] at hb
      rw [AList.lookup_insert_ne hask] at ha
      cases hb
      exact absurd (h.fresh ha) (Nat.lt_irrefl _)
    · rw [AList.lookup_insert_ne hask] at ha
      rw [AList.lookup_insert_ne hbsk] at hb
      exact h.inj ha hb
  · intro sk'
    rw [AList.mem_insert, AList.mem_insert, h.owned]
  · intro sk' hsk'
    exact AList.mem_insert _ |>.mpr (.inr (h.flagged hsk'))
  · intro q hq
    exact h.empty q (Nat.le_of_succ_le hq)

theorem unregister {r : TurnRegistry ι} {sk : SessionKey} {reqId : ReqId} (h : Wf r) :
    Wf (r.unregister sk reqId) := by
  unfold TurnRegistry.unregister
  have hlookup : ∀ {a q}, (r.sessions.erase sk).lookup a = some q →
      r.sessions.lookup a = some q ∧ a ≠ sk := by
    intro a q ha
    by_cases hask : a = sk
    · rw [hask, AList.lookup_erase] at ha
      cases ha
    · rw [AList.lookup_erase_ne hask] at ha
      exact ⟨ha, hask⟩
  by_cases howner : r.sessionOwner.lookup sk = some reqId
  · simp only [howner, if_true]
    constructor
    · intro a q ha
      exact h.fresh (hlookup ha).1
    · intro a b q ha hb
      exact h.inj (hlookup ha).1 (hlookup hb).1
    · intro a
      rw [AList.mem_erase, AList.mem_erase, h.owned]
    · intro a ha
      obtain ⟨hne, hmem⟩ := Finset.mem_erase.mp ha
      exact AList.mem_erase.mpr ⟨hne, h.flagged hmem⟩
    · exact h.empty
  · simp only [howner, if_false]
    exact ⟨h.fresh, h.inj, h.owned, h.flagged, h.empty⟩

/-- Only the queues that were created hold anything. -/
theorem empty_update {r : TurnRegistry ι} {q : QueueRef} {items : List (Item ι)} (h : Wf r)
    (hq : q < r.created) : ∀ q', r.created ≤ q' → Function.update r.queues q items q' = [] := by
  intro q' hle
  rw [Function.update_of_ne (Nat.ne_of_gt (Nat.lt_of_lt_of_le hq hle))]
  exact h.empty q' hle

theorem deliver {r : TurnRegistry ι} {sk : SessionKey} {q : QueueRef} {i : ι} {now : Time}
    (h : Wf r) (hsk : r.sessions.lookup sk = some q) : Wf (r.deliver sk q i now) := by
  obtain ⟨-, heq⟩ | ⟨-, -, peak, heq⟩ | ⟨-, -, heq⟩ := r.deliver_cases sk q i now <;> rw [heq]
  · exact h
  · exact ⟨h.fresh, h.inj, h.owned, h.flagged, h.empty_update (h.fresh hsk)⟩
  · refine ⟨h.fresh, h.inj, h.owned, ?_, h.empty_update (h.fresh hsk)⟩
    intro a ha
    rcases Finset.mem_insert.mp ha with rfl | ha
    · exact mem_sessions_iff.mpr ⟨q, hsk⟩
    · exact h.flagged ha

/-- `error_all` reaches exactly the queues of the turns in flight. -/
theorem errorAll_queues {r : TurnRegistry ι} (h : Wf r) (message : PyStr) (q : QueueRef) :
    (r.errorAll message).queues q =
      if r.live q then BoundedQueue.forcePut r.maxQueueSize (r.queues q) (.error message)
      else r.queues q := by
  have hfold := foldl_update_apply (fun e : (_ : SessionKey) × QueueRef => e.2)
    (fun items => BoundedQueue.forcePut r.maxQueueSize items (.error message)) q
    r.sessions.entries r.queues h.nodup_queues
  simpa only [TurnRegistry.errorAll, live, decide_eq_true_eq] using hfold

theorem errorAll {r : TurnRegistry ι} {message : PyStr} (h : Wf r) : Wf (r.errorAll message) where
  fresh h := by simp [TurnRegistry.errorAll] at h
  inj h := by simp [TurnRegistry.errorAll] at h
  owned := by simp [TurnRegistry.errorAll]
  flagged h := by simp [TurnRegistry.errorAll] at h
  empty q hq := by
    have hnot : ¬ r.live q = true := by
      intro hlive
      obtain ⟨sk, hsk⟩ := live_iff.mp hlive
      exact Nat.not_lt_of_le hq (h.fresh hsk)
    rw [h.errorAll_queues message q, if_neg hnot]
    exact h.empty q hq

theorem get {r r' : TurnRegistry ι} {q : QueueRef} {i : Item ι} (h : Wf r)
    (hget : r.get q = some (r', i)) : Wf r' := by
  obtain ⟨rest, hqueue, rfl⟩ := get_eq_some hget
  have hq : q < r.created := by
    by_contra hge
    rw [h.empty q (Nat.le_of_not_lt hge)] at hqueue
    cases hqueue
  exact ⟨h.fresh, h.inj, h.owned, h.flagged, h.empty_update hq⟩

theorem deliverBySession {r : TurnRegistry ι} {sk : SessionKey} {i : ι} {now : Time}
    (h : Wf r) : Wf (r.deliverBySession sk i now).1 := by
  unfold TurnRegistry.deliverBySession
  split
  · exact h
  · rename_i hq
    exact h.deliver hq

theorem apply {r : TurnRegistry ι} (h : Wf r) (op : Op ι) : Wf (r.apply op) := by
  cases op with
  | register reqId sk =>
    simp only [TurnRegistry.apply]
    cases hreg : r.register reqId sk with
    | none => exact h
    | some p => exact h.register hreg
  | deliverBySession sk i now => exact h.deliverBySession
  | deliverByReq reqId i now =>
    simp only [TurnRegistry.apply, TurnRegistry.deliverByReq]
    split
    · exact h
    · exact h.deliverBySession
  | isAborted sk now => exact ⟨h.fresh, h.inj, h.owned, h.flagged, h.empty⟩
  | get q =>
    simp only [TurnRegistry.apply]
    cases hget : r.get q with
    | none => exact h
    | some p => exact h.get hget
  | errorAll message => exact h.errorAll
  | unregister sk reqId => exact h.unregister

theorem mem_of_errorAll {r : TurnRegistry ι} (h : Wf r) {message : PyStr} {q : QueueRef} {i : ι}
    (hmem : .item i ∈ (r.errorAll message).queues q) : .item i ∈ r.queues q := by
  rw [h.errorAll_queues message q] at hmem
  split at hmem
  · rcases BoundedQueue.mem_forcePut hmem with hmem | heq
    · exact hmem
    · cases heq
  · exact hmem

end Wf

end TurnRegistry
