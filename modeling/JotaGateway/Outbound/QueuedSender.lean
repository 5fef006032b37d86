-- SUMMARY: `QueuedSender`: producers, flushers, closers and one writer task over one queue, as an executable step function.
import JotaGateway.Base.Fairness
import JotaGateway.Python.Value
import Mathlib.Algebra.Ring.Int.Defs
import Mathlib.Logic.Function.Basic

/-!
# The outbound sender

Messages, flush markers and stop markers share one unbounded queue that a single
writer task empties. Every action below runs from one suspension point of its
task to the next, so a run is an interleaving of the tasks with the socket.
-/

namespace Outbound

inductive Payload where
  | json (payload : PyDict)
  | bytes (data : List UInt8)

/-- What `_count_in` and `_count_out` add to the byte counter. -/
def Payload.nbytes : Payload → Int
  | .json _ => 0
  | .bytes data => data.length

abbrev FlushId := Nat

inductive Item where
  | payload (p : Payload)
  | flush (fut : FlushId)
  | stop

/-- Why `_failure` is set. -/
inductive Failure where
  /-- the exception of a socket write -/
  | socket
  /-- `ClientSlow` -/
  | slow
  deriving DecidableEq, Repr

/-- Where `_run` is suspended. -/
inductive Writer where
  /-- in `queue.get()` -/
  | idle
  /-- in `ws.send_json` or `ws.send_bytes` -/
  | writing (p : Payload)
  /-- in `_on_slow` -/
  | onSlow
  | done

/-- No write can follow. -/
def Writer.stopped : Writer → Bool
  | .idle | .writing _ => false
  | .onSlow | .done => true

/-- The future of a `flush()`, and how it ends. -/
inductive FlushState where
  | uncalled
  | waiting
  | returned
  | clientGone
  | cancelled
  deriving DecidableEq, Repr

/-- A `flush()` that waits, and what it waits for. -/
structure Flush where
  state : FlushState := .uncalled
  /-- what the sender had accepted when `flush()` was called -/
  ahead : List Payload := []

/-- What the callers and the socket see, in order. -/
inductive Deed where
  /-- `send_json` or `send_bytes` enqueued its message -/
  | accepted (p : Payload)
  /-- a `send_*` raised `ClientGone` -/
  | refused (p : Payload)
  /-- a `flush()` raised `ClientGone` without waiting -/
  | flushRefused
  /-- `ws.send_*` was called -/
  | handed (p : Payload)
  /-- and returned -/
  | wrote (p : Payload)
  | writeFailed
  | writeTimedOut
  | slowCalled
  | closeCalled
  | closeReturned
  /-- `aclose` raised `CancelledError` -/
  | closeCancelled

def Deed.accepted? : Deed → Option Payload
  | .accepted p => some p
  | _ => none

def Deed.handed? : Deed → Option Payload
  | .handed p => some p
  | _ => none

def Deed.wrote? : Deed → Option Payload
  | .wrote p => some p
  | _ => none

/-- The fields of the source, and below them the callers, the writer and the log. -/
structure Sender where
  queue : List Item := []
  failure : Option Failure := none
  closing : Bool := false
  pendingMsgs : Int := 0
  pendingBytes : Int := 0
  peakMsgs : Int := 0
  peakBytes : Int := 0
  writer : Writer := .idle
  /-- the writer has been cancelled and has not been resumed since -/
  cancelRequested : Bool := false
  /-- calls of `aclose` that wait for the writer -/
  closers : Nat := 0
  flushes : FlushId → Flush := fun _ => {}
  flushCount : Nat := 0
  log : List Deed := []

namespace Sender

def note (s : Sender) (d : Deed) : Sender := { s with log := s.log ++ [d] }

/-- The messages accepted, handed to the socket and written, in order. -/
def accepted (s : Sender) : List Payload := s.log.filterMap Deed.accepted?

def handed (s : Sender) : List Payload := s.log.filterMap Deed.handed?

def written (s : Sender) : List Payload := s.log.filterMap Deed.wrote?

-- ---------------------------------------------------------------------------
-- The methods
-- ---------------------------------------------------------------------------

def writerDone (s : Sender) : Bool :=
  match s.writer with
  | .done => true
  | _ => false

/-- `_check_open`, which raises `ClientGone` where this is false. -/
def isOpen (s : Sender) : Bool := s.failure.isNone && !s.closing && !s.writerDone

def countIn (s : Sender) (nbytes : Int) : Sender :=
  let pendingMsgs := s.pendingMsgs + 1
  let pendingBytes := s.pendingBytes + nbytes
  { s with
    pendingMsgs, pendingBytes
    peakMsgs := max s.peakMsgs pendingMsgs
    peakBytes := max s.peakBytes pendingBytes }

def countOut (s : Sender) (p : Payload) : Sender :=
  { s with pendingMsgs := s.pendingMsgs - 1, pendingBytes := s.pendingBytes - p.nbytes }

/-- `send_json` and `send_bytes`. -/
def send (s : Sender) (p : Payload) : Sender :=
  if s.isOpen then
    (countIn { s with queue := s.queue ++ [.payload p] } p.nbytes).note (.accepted p)
  else
    s.note (.refused p)

/-- `flush`, up to its wait for the future. -/
def flush (s : Sender) : Sender :=
  if s.isOpen then
    { s with
      queue := s.queue ++ [.flush s.flushCount]
      flushes := Function.update s.flushes s.flushCount { state := .waiting, ahead := s.accepted }
      flushCount := s.flushCount + 1 }
  else
    s.note .flushRefused

/-- `set_result`, `set_exception` and a cancellation touch only a future that is not done. -/
def resolve (s : Sender) (i : FlushId) (state : FlushState) : Sender :=
  if (s.flushes i).state = .waiting then
    { s with flushes := Function.update s.flushes i { s.flushes i with state } }
  else
    s

/-- One round of the loop of `_discard_pending`. -/
def discardItem (s : Sender) : Item → Sender
  | .payload p => s.countOut p
  | .flush i => s.resolve i .clientGone
  | .stop => s

/-- `_discard_pending`. -/
def discardPending (s : Sender) : Sender := s.queue.foldl discardItem { s with queue := [] }

/-- `aclose`, up to its wait for the writer. Where the writer is done there is none. -/
def aclose (s : Sender) : Sender :=
  let s := { s with closing := true }.note .closeCalled
  if s.writerDone then
    s.discardPending.note .closeReturned
  else
    { s with queue := s.queue ++ [.stop], closers := s.closers + 1 }

/-- `_run`, from `queue.get()` to the next suspension. -/
def get (s : Sender) : Option Sender :=
  match s.queue with
  | [] => none
  | .stop :: rest => some { s with queue := rest, writer := .done }
  | .flush i :: rest => some (resolve { s with queue := rest } i .returned)
  | .payload p :: rest =>
    some ((countOut { s with queue := rest, writer := .writing p } p).note (.handed p))

/-- `_run` after a write that raised. -/
def fail (s : Sender) : Sender :=
  (discardPending { s with failure := some .socket, writer := .done }).note .writeFailed

/-- `_fail_slow`, up to the callback. -/
def failSlow (hasOnSlow : Bool) (s : Sender) : Sender :=
  let s := discardPending
    { s with failure := some .slow, writer := if hasOnSlow then .onSlow else .done,
             cancelRequested := false }
  if hasOnSlow then (s.note .writeTimedOut).note .slowCalled else s.note .writeTimedOut

/-- The `finally` of `aclose`. -/
def closeEnds (s : Sender) (d : Deed) : Sender :=
  ({ s with closers := s.closers - 1 } : Sender).discardPending.note d

end Sender

-- ---------------------------------------------------------------------------
-- Interleavings
-- ---------------------------------------------------------------------------

inductive Action where
  | send (p : Payload)
  | flush
  /-- the caller of a waiting `flush()` is cancelled -/
  | cancelFlush (i : FlushId)
  | aclose
  /-- the timeout of a waiting `aclose` expires, or its caller is cancelled: either
  cancels the writer it waits for -/
  | cancelWriter
  /-- a waiting `aclose` goes on once the writer is done; it raises if it was cancelled -/
  | closerResumes (raises : Bool)
  /-- a second cancellation makes an `aclose` leave before the writer is done -/
  | closerLeaves
  | writerGets
  | writeSucceeds
  | writeFails
  | writeTimesOut
  /-- the callback of a slow client returned or raised -/
  | slowReturns
  | writerCancelled

/-- What an action does, and `none` where it cannot happen. -/
def step (hasOnSlow : Bool) (s : Sender) : Action → Option Sender
  | .send p => some (s.send p)
  | .flush => some s.flush
  | .cancelFlush i => some (s.resolve i .cancelled)
  | .aclose => some s.aclose
  | .cancelWriter =>
    if s.closers ≠ 0 ∧ !s.writerDone then some { s with cancelRequested := true } else none
  | .closerResumes raises =>
    if s.closers ≠ 0 ∧ s.writerDone then
      some (s.closeEnds (if raises then .closeCancelled else .closeReturned))
    else
      none
  | .closerLeaves =>
    if s.closers ≠ 0 ∧ !s.writerDone then some (s.closeEnds .closeCancelled) else none
  | .writerGets =>
    match s.writer, s.cancelRequested with
    | .idle, false => s.get
    | _, _ => none
  -- a write may end in its own way although the writer was cancelled meanwhile
  | .writeSucceeds =>
    match s.writer with
    | .writing p => some ({ s with writer := .idle, cancelRequested := false }.note (.wrote p))
    | _ => none
  | .writeFails =>
    match s.writer with
    | .writing _ => some s.fail
    | _ => none
  | .writeTimesOut =>
    match s.writer with
    | .writing _ => some (s.failSlow hasOnSlow)
    | _ => none
  | .slowReturns =>
    match s.writer with
    | .onSlow => some { s with writer := .done }
    | _ => none
  | .writerCancelled =>
    if s.cancelRequested ∧ !s.writerDone then some { s with writer := .done } else none

/-- The steps of the writer and of the calls of `aclose` that wait for it. -/
def Action.ofSender : Action → Bool
  | .send _ | .flush | .cancelFlush _ | .aclose | .cancelWriter => false
  | _ => true

-- ---------------------------------------------------------------------------
-- Reading a queue and a log
-- ---------------------------------------------------------------------------

/-- The messages in a queue. -/
def payloads : List Item → List Payload
  | [] => []
  | .payload p :: rest => p :: payloads rest
  | .flush _ :: rest => payloads rest
  | .stop :: rest => payloads rest

def Item.isStop : Item → Bool
  | .stop => true
  | _ => false

@[simp] theorem payloads_append (q r : List Item) :
    payloads (q ++ r) = payloads q ++ payloads r := by
  induction q with
  | nil => rfl
  | cons x q ih => cases x <;> simp [payloads, ih]

theorem payloads_eq_nil {q : List Item} (h : ∀ x ∈ q, x.isStop = true) : payloads q = [] := by
  induction q with
  | nil => rfl
  | cons x q ih =>
    obtain ⟨hx, hq⟩ := List.forall_mem_cons.1 h
    cases x with
    | stop => exact ih hq
    | payload p => cases hx
    | flush i => cases hx

namespace Deed

/-- After this nothing may reach the socket. -/
def ends : Deed → Bool
  | .writeFailed | .writeTimedOut | .closeReturned => true
  | _ => false

/-- Something reaches the socket. -/
def writes (d : Deed) : Bool := d.handed?.isSome || d.wrote?.isSome

/-- After this nothing may be accepted. -/
def shuts : Deed → Bool
  | .writeFailed | .writeTimedOut | .closeCalled => true
  | _ => false

def accepts (d : Deed) : Bool := d.accepted?.isSome

def isSlow : Deed → Bool
  | .slowCalled => true
  | _ => false

end Deed

namespace Sender

/-- A write failed or `aclose` was called. -/
def shut (s : Sender) : Bool := s.failure.isSome || s.closing

theorem isOpen_eq_true {s : Sender} :
    s.isOpen = true ↔ s.shut = false ∧ s.writerDone = false := by
  cases hf : s.failure <;> simp [isOpen, shut, hf]

theorem shut_of_closing {s : Sender} (h : s.closing = true) : s.shut = true := by
  simp [shut, h]

theorem stopped_of_done {s : Sender} (h : s.writerDone = true) : s.writer.stopped = true := by
  unfold writerDone at h
  split at h
  · rename_i hdone
    rw [hdone]
    rfl
  · cases h

theorem note_accepted (s : Sender) (d : Deed) :
    (s.note d).accepted = s.accepted ++ d.accepted?.toList := by
  cases h : d.accepted? <;> simp [note, accepted, h]

theorem note_handed (s : Sender) (d : Deed) :
    (s.note d).handed = s.handed ++ d.handed?.toList := by
  cases h : d.handed? <;> simp [note, handed, h]

theorem note_written (s : Sender) (d : Deed) :
    (s.note d).written = s.written ++ d.wrote?.toList := by
  cases h : d.wrote? <;> simp [note, written, h]

theorem note_accepted_same (s : Sender) {d : Deed} (h : d.accepted? = none) :
    (s.note d).accepted = s.accepted := by
  simp [note_accepted, h]

theorem note_handed_same (s : Sender) {d : Deed} (h : d.handed? = none) :
    (s.note d).handed = s.handed := by
  simp [note_handed, h]

theorem note_written_same (s : Sender) {d : Deed} (h : d.wrote? = none) :
    (s.note d).written = s.written := by
  simp [note_written, h]

/-- Some waits end, in the way `state` says; nothing else about the futures changes. -/
def Ends (state : FlushState) (flushes flushes' : FlushId → Flush) : Prop :=
  ∀ j, flushes' j = flushes j ∨
    (flushes j).state = .waiting ∧ flushes' j = { flushes j with state }

theorem Ends.ahead {state : FlushState} {flushes flushes' : FlushId → Flush}
    (h : Ends state flushes flushes') (j : FlushId) : (flushes' j).ahead = (flushes j).ahead := by
  rcases h j with h | ⟨-, h⟩
  · rw [h]
  · rw [h]

theorem Ends.of_state {state state' : FlushState} {flushes flushes' : FlushId → Flush}
    (h : Ends state flushes flushes') {j : FlushId} (hne : state ≠ state')
    (hj : (flushes' j).state = state') : flushes' j = flushes j := by
  rcases h j with h | ⟨-, h⟩
  · exact h
  · rw [h] at hj
    exact absurd hj hne

/-- What `resolve` leaves of the futures. -/
theorem resolve_eq (s : Sender) (i : FlushId) (state : FlushState) :
    ∃ flushes, s.resolve i state = { s with flushes } ∧ Ends state s.flushes flushes ∧
      (∀ j, j ≠ i → flushes j = s.flushes j) ∧
      (state ≠ .waiting → (flushes i).state ≠ .waiting) := by
  unfold resolve
  split
  · rename_i hwaiting
    refine ⟨_, rfl, ?_, fun j hj => Function.update_of_ne hj .., by simp⟩
    intro j
    by_cases hj : j = i
    · subst hj
      exact .inr ⟨hwaiting, Function.update_self ..⟩
    · exact .inl (Function.update_of_ne hj ..)
  · rename_i hwaiting
    exact ⟨s.flushes, rfl, fun j => .inl rfl, fun j _ => rfl, fun _ => hwaiting⟩

theorem foldl_discardItem (q : List Item) (s : Sender) :
    ∃ flushes, q.foldl discardItem s =
        { s with
          pendingMsgs := s.pendingMsgs - (payloads q).length
          pendingBytes := s.pendingBytes - ((payloads q).map Payload.nbytes).sum
          flushes } ∧
      Ends .clientGone s.flushes flushes ∧
      ∀ i, .flush i ∈ q → (flushes i).state ≠ .waiting := by
  induction q generalizing s with
  | nil => exact ⟨s.flushes, by simp [payloads], fun j => .inl rfl, by simp⟩
  | cons x q ih =>
    cases x with
    | stop =>
      obtain ⟨flushes, heq, hleaves, hgone⟩ := ih s
      exact ⟨flushes, heq, hleaves, by simpa using hgone⟩
    | payload p =>
      obtain ⟨flushes, heq, hleaves, hgone⟩ := ih (s.countOut p)
      refine ⟨flushes, Eq.trans heq ?_, hleaves, by simpa using hgone⟩
      simp only [countOut, payloads, List.map_cons, List.sum_cons, List.length_cons,
        Sender.mk.injEq, true_and, and_true]
      push_cast
      omega
    | flush i =>
      obtain ⟨first, hfirst, hone, -, hi⟩ := resolve_eq s i .clientGone
      obtain ⟨flushes, heq, hleaves, hgone⟩ := ih (s.resolve i .clientGone)
      rw [hfirst] at heq hleaves
      dsimp only at heq hleaves
      refine ⟨flushes, ?_, ?_, ?_⟩
      · simp only [List.foldl_cons, discardItem, hfirst, heq, payloads]
      · intro j
        rcases hleaves j with h | ⟨hwaiting, h⟩
        · rw [h]
          exact hone j
        · rcases hone j with h' | ⟨hwaiting', h'⟩
          · rw [h'] at hwaiting h
            exact .inr ⟨hwaiting, h⟩
          · rw [h'] at hwaiting
            cases hwaiting
      · intro j hj
        rcases List.mem_cons.1 hj with hj | hj
        · cases hj
          intro hwaiting
          rcases hleaves i with h | ⟨-, h⟩
          · exact hi nofun (h ▸ hwaiting)
          · rw [h] at hwaiting
            cases hwaiting
        · exact hgone j hj

/-- `_discard_pending` empties the queue and fails the flushes in it. -/
theorem discardPending_eq (s : Sender) :
    ∃ flushes, s.discardPending =
        { s with
          queue := []
          pendingMsgs := s.pendingMsgs - (payloads s.queue).length
          pendingBytes := s.pendingBytes - ((payloads s.queue).map Payload.nbytes).sum
          flushes } ∧
      Ends .clientGone s.flushes flushes ∧
      ∀ i, .flush i ∈ s.queue → (flushes i).state ≠ .waiting :=
  foldl_discardItem s.queue { s with queue := [] }

@[simp] theorem discardPending_queue (s : Sender) : s.discardPending.queue = [] := by
  obtain ⟨flushes, heq, -⟩ := s.discardPending_eq
  rw [heq]

@[simp] theorem discardPending_log (s : Sender) : s.discardPending.log = s.log := by
  obtain ⟨flushes, heq, -⟩ := s.discardPending_eq
  rw [heq]

@[simp] theorem discardPending_writer (s : Sender) : s.discardPending.writer = s.writer := by
  obtain ⟨flushes, heq, -⟩ := s.discardPending_eq
  rw [heq]

@[simp] theorem discardPending_shut (s : Sender) : s.discardPending.shut = s.shut := by
  obtain ⟨flushes, heq, -⟩ := s.discardPending_eq
  rw [heq, shut, shut]

end Sender

end Outbound
