-- SUMMARY: `enqueue_push`, `_push_worker_loop` and the discard of `close_all`: the backlog of a session, with handlers that suspend, raise or are cancelled at any point.
import Mathlib.Data.List.Basic
import Mathlib.Logic.Function.Basic
import JotaGateway.Base.Transition

/-!
# The push backlog

The queue of one bridge, its worker and the counters the idle watchdog reads.
What a handler does is left open: it holds its event for as long as it likes
and then returns, raises or is cancelled. Several calls of `close_all` may be
under way; one of them holds `_close_lock`.
-/

open Transition

namespace Bridge

namespace PushBacklog

variable {ε : Type*}

-- ---------------------------------------------------------------------------
-- The state
-- ---------------------------------------------------------------------------

/-- Where a `_push_worker_loop` task is. -/
inductive Loop (ε : Type*) where
  /-- created, its first step still to come -/
  | spawned
  /-- in `_push_queue.get()` -/
  | getting
  /-- in the handler of an event -/
  | handling (event : ε)
  /-- over: it left the loop, or a cancellation got through it -/
  | done (cancelled : Bool)

namespace Loop

def live : Loop ε → Bool
  | .done _ => false
  | _ => true

def wasCancelled : Loop ε → Bool
  | .done cancelled => cancelled
  | _ => false

def event? : Loop ε → Option ε
  | .handling event => some event
  | _ => none

end Loop

/-- How far the holder of `_close_lock` has come. -/
inductive Closing where
  | before
  /-- the push events were discarded -/
  | discarded
deriving DecidableEq

structure State (ε : Type*) where
  closing : Bool := false
  closed : Bool := false
  /-- the call of `close_all` that holds `_close_lock` -/
  holder : Option Closing := none
  queue : List ε := []
  pending : Nat := 0
  peak : Nat := 0
  pendingSince : Option Nat := none
  /-- `time.monotonic()` -/
  now : Nat := 0
  /-- every worker task there was; `_push_worker` is the last one -/
  workers : Nat → Loop ε := fun _ => .done false
  spawned : Nat := 0
  /-- what was put in the queue, in order -/
  enqueued : List ε := []
  /-- what a worker took from it, in order -/
  taken : List ε := []

namespace State

/-- `_push_worker`. -/
def worker (s : State ε) : Option (Loop ε) :=
  if s.spawned = 0 then none else some (s.workers (s.spawned - 1))

/-- The events that are being handled. -/
def inHand (s : State ε) : List ε :=
  (List.range s.spawned).filterMap fun i => (s.workers i).event?

/-- A new worker, unless there is one that lives. -/
def respawn (s : State ε) : State ε :=
  match s.worker with
  | some loop =>
    if loop.live then s
    else
      { s with
        workers := Function.update s.workers s.spawned .spawned, spawned := s.spawned + 1 }
  | none =>
    { s with workers := Function.update s.workers s.spawned .spawned, spawned := s.spawned + 1 }

/-- `enqueue_push`. -/
def enqueuePush (s : State ε) (event : ε) : State ε :=
  if s.closing then s
  else
    let s := s.respawn
    { s with
      pendingSince := if s.pending = 0 then some s.now else s.pendingSince
      pending := s.pending + 1
      peak := max s.peak (s.pending + 1)
      queue := s.queue ++ [event]
      enqueued := s.enqueued ++ [event] }

def setWorker (s : State ε) (i : Nat) (loop : Loop ε) : State ε :=
  { s with workers := Function.update s.workers i loop }

/-- `while not self._closing`. -/
def loopAgain (s : State ε) : Loop ε := if s.closing then .done false else .getting

/-- The `finally` of an event. -/
def eventDone (s : State ε) : State ε :=
  { s with
    pending := s.pending - 1
    pendingSince := if s.pending - 1 = 0 then none else s.pendingSince }

/-- The events that wait are in flight for the idle watchdog, for a time. -/
def backlogInFlight (turnTimeout : Nat) (s : State ε) : Bool :=
  s.pending > 0 && s.pendingSince.all fun since => s.now - since < turnTimeout

end State

-- ---------------------------------------------------------------------------
-- Steps
-- ---------------------------------------------------------------------------

inductive Action (ε : Type*) where
  | enqueue (event : ε)
  /-- the first step of worker `i` -/
  | begin (i : Nat)
  | get (i : Nat)
  /-- the handler returns, or raises an `Exception` that is logged -/
  | handled (i : Nat)
  /-- a `CancelledError` ends worker `i` where it is -/
  | cancelled (i : Nat)
  /-- `close_all` is called -/
  | close
  /-- a call of `close_all` gets `_close_lock` -/
  | lock
  /-- it has cancelled the worker and waited for it, or for its limit -/
  | discard
  /-- it has run to its end -/
  | finish
  /-- it is left by an exception -/
  | leave
  | tick

def step (s : State ε) : Action ε → Option (State ε)
  | .enqueue event => some (s.enqueuePush event)
  | .begin i =>
    match s.workers i with
    | .spawned => some (s.setWorker i s.loopAgain)
    | _ => none
  | .get i =>
    match s.workers i, s.queue with
    | .getting, event :: rest =>
      some { s.setWorker i (.handling event) with queue := rest, taken := s.taken ++ [event] }
    | _, _ => none
  | .handled i =>
    match s.workers i with
    | .handling _ => some (s.eventDone.setWorker i s.loopAgain)
    | _ => none
  | .cancelled i =>
    match s.workers i with
    | .handling _ => some (s.eventDone.setWorker i (.done true))
    | .done _ => none
    | _ => some (s.setWorker i (.done true))
  | .close => some { s with closing := true }
  | .lock =>
    -- a call that finds the session closed returns at once
    if s.closing && s.holder.isNone && !s.closed then some { s with holder := some .before } else none
  | .discard =>
    if s.holder = some .before then
      some { s with queue := [], pending := 0, pendingSince := none, holder := some .discarded }
    else none
  | .finish =>
    if s.holder = some .discarded then some { s with closed := true, holder := none } else none
  | .leave => if s.holder.isSome then some { s with holder := none } else none
  | .tick => some { s with now := s.now + 1 }

-- ---------------------------------------------------------------------------
-- One worker
-- ---------------------------------------------------------------------------

/-- Every worker but the last is over, and none runs that was not spawned. -/
structure Single (s : State ε) : Prop where
  past : ∀ i, i + 1 < s.spawned → (s.workers i).live = false
  unborn : ∀ i, s.spawned ≤ i → s.workers i = .done false

theorem Single.last {s : State ε} (h : Single s) {i : Nat} (hlive : (s.workers i).live = true) :
    i + 1 = s.spawned := by
  rcases Nat.lt_trichotomy (i + 1) s.spawned with hlt | heq | hgt
  · rw [h.past i hlt] at hlive
    cases hlive
  · exact heq
  · rw [h.unborn i (by omega)] at hlive
    cases hlive

theorem Single.setWorker {s : State ε} (h : Single s) {i : Nat} {loop : Loop ε}
    (hlast : i + 1 = s.spawned) : Single (s.setWorker i loop) := by
  refine ⟨?_, ?_⟩
  · intro j hj
    simp only [State.setWorker] at hj ⊢
    rw [Function.update_of_ne (by omega)]
    exact h.past j hj
  · intro j hj
    simp only [State.setWorker] at hj ⊢
    rw [Function.update_of_ne (by omega)]
    exact h.unborn j hj

theorem inHand_eq {s : State ε} (h : Single s) :
    s.inHand = (s.worker.bind Loop.event?).toList := by
  unfold State.inHand State.worker
  cases hspawned : s.spawned with
  | zero => rfl
  | succ n =>
    have hpast : (List.range n).filterMap (fun i => (s.workers i).event?) = [] := by
      rw [List.filterMap_eq_nil_iff]
      intro i hi
      have hover := h.past i (by
        have := List.mem_range.mp hi
        omega)
      cases hloop : s.workers i with
      | done cancelled => rfl
      | _ =>
        rw [hloop] at hover
        cases hover
    rw [List.range_succ, List.filterMap_append, hpast, List.nil_append]
    cases hevent : (s.workers n).event? with
    | none => simp [hevent]
    | some event => simp [hevent]

theorem worker_setWorker {s : State ε} {i : Nat} {loop : Loop ε} (hlast : i + 1 = s.spawned) :
    (s.setWorker i loop).worker = some loop := by
  simp only [State.worker, State.setWorker, ← hlast, Nat.add_one_ne_zero, if_false,
    Nat.add_sub_cancel, Function.update_self]

theorem worker_of_last {s : State ε} {i : Nat} (hlast : i + 1 = s.spawned) :
    s.worker = some (s.workers i) := by
  simp only [State.worker, ← hlast, Nat.add_one_ne_zero, if_false, Nat.add_sub_cancel]

-- ---------------------------------------------------------------------------
-- The invariant
-- ---------------------------------------------------------------------------

/-- The counters of a session that is not closing. -/
structure Counted (s : State ε) : Prop where
  kept : s.enqueued = s.taken ++ s.queue
  pending : s.pending = s.queue.length + s.inHand.length
  since : s.pendingSince = none ↔ s.pending = 0
  worker : ∀ loop, s.worker = some loop → loop.live = true ∨ loop.wasCancelled = true
  served : s.pending ≠ 0 → s.worker ≠ none

/-- Nothing is left after the discard. -/
structure Empty (s : State ε) : Prop where
  queue : s.queue = []
  pending : s.pending = 0
  since : s.pendingSince = none

structure Inv (s : State ε) : Prop where
  single : Single s
  order : s.taken ++ s.queue <+: s.enqueued
  counted : s.closing = false → Counted s
  closing : s.holder.isSome = true ∨ s.closed = true → s.closing = true
  empty : s.closed = true ∨ s.holder = some .discarded → Empty s

theorem Inv.init : Inv ({} : State ε) where
  single := ⟨fun _ h => absurd h (Nat.not_lt_zero _), fun _ _ => rfl⟩
  order := List.prefix_refl _
  counted _ := by
    refine ⟨rfl, rfl, ⟨fun _ => rfl, fun _ => rfl⟩, ?_, ?_⟩
    · intro loop hworker
      cases hworker
    · intro hpending
      exact absurd rfl hpending
  closing h := by
    cases h with
    | inl h => cases h
    | inr h => cases h
  empty h := by
    cases h with
    | inl h => cases h
    | inr h => cases h

/-- The workers are as they were. -/
theorem Single.keep {s s' : State ε} (h : Single s) (hworkers : s'.workers = s.workers)
    (hspawned : s'.spawned = s.spawned) : Single s' := by
  refine ⟨?_, ?_⟩
  · rw [hworkers, hspawned]
    exact h.past
  · rw [hworkers, hspawned]
    exact h.unborn

/-- What `respawn` leaves: a live worker, with no event of its own if it is new. -/
theorem respawn_cases (s : State ε) :
    (∃ loop, s.worker = some loop ∧ loop.live = true ∧ s.respawn = s) ∨
      (∀ loop, s.worker = some loop → loop.live = false) ∧ s.respawn =
        { s with
          workers := Function.update s.workers s.spawned .spawned, spawned := s.spawned + 1 } := by
  unfold State.respawn
  cases hworker : s.worker with
  | none =>
    refine .inr ⟨?_, rfl⟩
    intro loop h
    cases h
  | some loop =>
    cases hlive : loop.live with
    | true => exact .inl ⟨loop, rfl, hlive, by simp [hlive]⟩
    | false =>
      refine .inr ⟨?_, by simp [hlive]⟩
      intro loop' h
      cases h
      exact hlive

theorem respawn_single {s : State ε} (h : Single s) : Single s.respawn := by
  rcases respawn_cases s with ⟨_, _, _, heq⟩ | ⟨hdead, heq⟩
  · rw [heq]
    exact h
  · rw [heq]
    refine ⟨?_, ?_⟩
    · intro i hi
      simp only at hi ⊢
      rw [Function.update_of_ne (by omega)]
      rcases Nat.lt_or_eq_of_le (Nat.le_of_lt_succ hi) with hlt | hlast
      · exact h.past i hlt
      · exact hdead _ (worker_of_last hlast)
    · intro i hi
      simp only at hi ⊢
      rw [Function.update_of_ne (by omega)]
      exact h.unborn i (by omega)

/-- A new worker takes no event from its predecessor. -/
theorem respawn_inHand {s : State ε} (h : Single s) : s.respawn.inHand = s.inHand := by
  rw [inHand_eq (respawn_single h), inHand_eq h]
  rcases respawn_cases s with ⟨_, _, _, heq⟩ | ⟨hdead, heq⟩
  · rw [heq]
  · have hnew : s.respawn.worker = some .spawned := by
      rw [heq]
      simp [State.worker]
    rw [hnew]
    cases hworker : s.worker with
    | none => rfl
    | some loop =>
      have hover := hdead loop hworker
      cases loop with
      | done cancelled => rfl
      | _ => cases hover

theorem respawn_worker (s : State ε) :
    ∃ loop, s.respawn.worker = some loop ∧ loop.live = true := by
  rcases respawn_cases s with ⟨loop, hworker, hlive, heq⟩ | ⟨_, heq⟩
  · exact ⟨loop, by rw [heq, hworker], hlive⟩
  · rw [heq]
    exact ⟨.spawned, by simp [State.worker], rfl⟩

/-- `respawn` only touches the workers. -/
theorem respawn_eq (s : State ε) :
    s.respawn = { s with workers := s.respawn.workers, spawned := s.respawn.spawned } := by
  unfold State.respawn
  split
  · split <;> rfl
  · rfl

theorem Inv.respawn {s : State ε} (h : Inv s) : Inv s.respawn := by
  have hsingle := respawn_single h.single
  have hinHand := respawn_inHand h.single
  obtain ⟨loop, hworker, hlive⟩ := respawn_worker s
  rw [respawn_eq s] at hsingle hinHand hworker ⊢
  refine ⟨hsingle, h.order, ?_, h.closing, fun hdone => ⟨(h.empty hdone).queue,
    (h.empty hdone).pending, (h.empty hdone).since⟩⟩
  intro hclosing
  obtain ⟨hkept, hpending, hsince, -, -⟩ := h.counted hclosing
  refine ⟨hkept, ?_, hsince, ?_, ?_⟩
  · rw [hinHand]
    exact hpending
  · intro loop' hloop
    rw [hworker] at hloop
    cases hloop
    exact .inl hlive
  · rw [hworker]
    simp

/-- An event is queued behind a worker that lives. -/
theorem Inv.put {s : State ε} (h : Inv s) (hclosing : s.closing = false) {loop : Loop ε}
    (hworker : s.worker = some loop) (event : ε) :
    Inv { s with
      pendingSince := if s.pending = 0 then some s.now else s.pendingSince
      pending := s.pending + 1
      peak := max s.peak (s.pending + 1)
      queue := s.queue ++ [event]
      enqueued := s.enqueued ++ [event] } := by
  obtain ⟨hkept, hpending, hsince, hloops, -⟩ := h.counted hclosing
  have hnone : ¬ (s.holder.isSome = true ∨ s.closed = true) := by
    intro hheld
    rw [h.closing hheld] at hclosing
    cases hclosing
  refine ⟨h.single.keep rfl rfl, ?_, ?_, h.closing, ?_⟩
  · have horder : s.taken ++ (s.queue ++ [event]) = s.enqueued ++ [event] := by
      rw [hkept, List.append_assoc]
    exact horder ▸ List.prefix_refl _
  · intro _
    refine ⟨?_, ?_, ?_, hloops, ?_⟩
    · simp only
      rw [hkept, List.append_assoc]
    · simp only [List.length_append, List.length_cons, List.length_nil]
      rw [hpending]
      simp only [State.inHand]
      omega
    · simp only [Nat.add_one_ne_zero, iff_false]
      split
      · simp
      · rename_i hsome
        exact fun hnone => hsome (hsince.mp hnone)
    · intro _ hnoWorker
      have hnoWorker : s.worker = none := hnoWorker
      rw [hworker] at hnoWorker
      cases hnoWorker
  · intro hdone
    refine absurd ?_ hnone
    cases hdone with
    | inl hclosed => exact .inr hclosed
    | inr hholder =>
      have hholder : s.holder = some .discarded := hholder
      left
      rw [hholder]
      rfl

theorem Inv.enqueuePush {s : State ε} (h : Inv s) (event : ε) : Inv (s.enqueuePush event) := by
  unfold State.enqueuePush
  cases hclosing : s.closing with
  | true => simpa only [if_true] using h
  | false =>
    obtain ⟨loop, hworker, -⟩ := respawn_worker s
    have hstill : s.respawn.closing = false := by
      rw [respawn_eq s]
      exact hclosing
    exact h.respawn.put hstill hworker event

/-- A worker moves without an event: neither before nor after. -/
theorem Inv.move {s : State ε} (h : Inv s) {i : Nat} {loop : Loop ε}
    (hlive : (s.workers i).live = true) (hbefore : (s.workers i).event? = none)
    (hafter : loop.event? = none)
    (halive : s.closing = false → loop.live = true ∨ loop.wasCancelled = true) :
    Inv (s.setWorker i loop) := by
  have hlast := h.single.last hlive
  have hsingle : Single (s.setWorker i loop) := h.single.setWorker hlast
  refine ⟨hsingle, h.order, ?_, h.closing, fun hdone => ⟨(h.empty hdone).queue,
    (h.empty hdone).pending, (h.empty hdone).since⟩⟩
  intro hclosing
  obtain ⟨hkept, hpending, hsince, -, -⟩ := h.counted hclosing
  have hworker : (s.setWorker i loop).worker = some loop := worker_setWorker hlast
  refine ⟨hkept, ?_, hsince, ?_, ?_⟩
  · have hnone : s.inHand = [] := by
      rw [inHand_eq h.single, worker_of_last hlast]
      simp [hbefore]
    have hnone' : (s.setWorker i loop).inHand = [] := by
      rw [inHand_eq hsingle, hworker]
      simp [hafter]
    rw [hnone']
    rw [hnone] at hpending
    exact hpending
  · intro loop' hloop
    rw [hworker] at hloop
    cases hloop
    exact halive hclosing
  · rw [hworker]
    simp

/-- A worker takes the first event of the queue. -/
theorem Inv.get {s : State ε} (h : Inv s) {i : Nat} {event : ε} {rest : List ε}
    (hworker : s.workers i = .getting) (hqueue : s.queue = event :: rest) :
    Inv { s.setWorker i (.handling event) with queue := rest, taken := s.taken ++ [event] } := by
  have hlast := h.single.last (i := i) (by rw [hworker]; rfl)
  have hsingle : Single (s.setWorker i (.handling event)) := h.single.setWorker hlast
  have hworker' : (s.setWorker i (.handling event)).worker = some (.handling event) :=
    worker_setWorker hlast
  have hsplit : s.taken ++ [event] ++ rest = s.taken ++ s.queue := by
    rw [hqueue, List.append_assoc, List.singleton_append]
  refine ⟨hsingle.keep rfl rfl, ?_, ?_, h.closing, ?_⟩
  · rw [hsplit]
    exact h.order
  · intro hclosing
    obtain ⟨hkept, hpending, hsince, -, -⟩ := h.counted hclosing
    refine ⟨?_, ?_, hsince, ?_, ?_⟩
    · rw [hsplit]
      exact hkept
    · have hnone : s.inHand = [] := by
        rw [inHand_eq h.single, worker_of_last hlast, hworker]
        rfl
      have hone : (s.setWorker i (.handling event)).inHand = [event] := by
        rw [inHand_eq hsingle, hworker']
        rfl
      have hone : ({ s.setWorker i (.handling event) with
          queue := rest, taken := s.taken ++ [event] } : State ε).inHand = [event] := hone
      rw [hone]
      rw [hnone, hqueue] at hpending
      exact hpending
    · intro loop hloop
      have hloop : (s.setWorker i (.handling event)).worker = some loop := hloop
      rw [hworker'] at hloop
      cases hloop
      exact .inl rfl
    · intro _ hnone
      have hnone : (s.setWorker i (.handling event)).worker = none := hnone
      rw [hworker'] at hnone
      cases hnone
  · intro hdone
    have hqueue' := (h.empty hdone).queue
    rw [hqueue] at hqueue'
    cases hqueue'

/-- The event in hand is done with. -/
theorem Inv.eventDone {s : State ε} (h : Inv s) {i : Nat} {event : ε} {loop : Loop ε}
    (hworker : s.workers i = .handling event) (hafter : loop.event? = none)
    (halive : s.closing = false → loop.live = true ∨ loop.wasCancelled = true) :
    Inv (s.eventDone.setWorker i loop) := by
  have hlast := h.single.last (i := i) (by rw [hworker]; rfl)
  have hsingle : Single s.eventDone := h.single.keep rfl rfl
  have hsingle' : Single (s.eventDone.setWorker i loop) := hsingle.setWorker hlast
  have hworker' : (s.eventDone.setWorker i loop).worker = some loop := worker_setWorker hlast
  refine ⟨hsingle', h.order, ?_, h.closing, ?_⟩
  · intro hclosing
    obtain ⟨hkept, hpending, hsince, -, -⟩ := h.counted hclosing
    have hone : s.inHand = [event] := by
      rw [inHand_eq h.single, worker_of_last hlast, hworker]
      rfl
    have hnone : (s.eventDone.setWorker i loop).inHand = [] := by
      rw [inHand_eq hsingle', hworker']
      simp [hafter]
    have hpending' : s.pending = s.queue.length + 1 := by
      rw [hpending, hone]
      rfl
    refine ⟨hkept, ?_, ?_, ?_, ?_⟩
    · rw [hnone]
      simp only [State.setWorker, State.eventDone, hpending']
      rfl
    · simp only [State.setWorker, State.eventDone]
      split
      · rename_i hzero
        simp [hzero]
      · rename_i hmore
        simp only [hmore, iff_false]
        intro hnone
        have := hsince.mp hnone
        omega
    · intro loop' hloop
      rw [hworker'] at hloop
      cases hloop
      exact halive hclosing
    · rw [hworker']
      simp
  · intro hdone
    obtain ⟨hqueue, hpending, hsince⟩ := h.empty hdone
    refine ⟨hqueue, ?_, ?_⟩
    · simp only [State.setWorker, State.eventDone, hpending]
    · simp only [State.setWorker, State.eventDone, hpending, Nat.zero_sub, if_true]

theorem Inv.step {s s' : State ε} {a : Action ε} (h : Inv s) (hstep : step s a = some s') :
    Inv s' := by
  have hagain : s.closing = false →
      s.loopAgain.live = true ∨ (s.loopAgain).wasCancelled = true := by
    intro hclosing
    simp [State.loopAgain, hclosing, Loop.live]
  have hquiet : (s.loopAgain).event? = none := by
    simp only [State.loopAgain]
    split <;> rfl
  cases a with
  | enqueue event =>
    cases hstep
    exact h.enqueuePush event
  | begin i =>
    simp only [PushBacklog.step] at hstep
    split at hstep <;> cases hstep
    rename_i hworker
    exact h.move (by rw [hworker]; rfl) (by rw [hworker]; rfl) hquiet hagain
  | get i =>
    simp only [PushBacklog.step] at hstep
    split at hstep <;> cases hstep
    rename_i hworker hqueue
    exact h.get hworker hqueue
  | handled i =>
    simp only [PushBacklog.step] at hstep
    split at hstep <;> cases hstep
    rename_i hworker
    exact h.eventDone hworker hquiet hagain
  | cancelled i =>
    simp only [PushBacklog.step] at hstep
    split at hstep
    · rename_i hworker
      cases hstep
      exact h.eventDone hworker rfl fun _ => .inr rfl
    · cases hstep
    · rename_i hhandling hdone
      cases hstep
      refine h.move ?_ ?_ rfl fun _ => .inr rfl
      · cases hloop : s.workers i with
        | done cancelled => exact absurd hloop (hdone cancelled)
        | _ => rfl
      · cases hloop : s.workers i with
        | handling event => exact absurd hloop (hhandling event)
        | _ => rfl
  | close =>
    cases hstep
    exact ⟨h.single.keep rfl rfl, h.order, (fun hclosing => by cases hclosing),
      fun _ => rfl, fun hdone => ⟨(h.empty hdone).queue, (h.empty hdone).pending,
        (h.empty hdone).since⟩⟩
  | lock =>
    simp only [PushBacklog.step] at hstep
    split at hstep <;> cases hstep
    rename_i hfree
    simp only [Bool.and_eq_true, Bool.not_eq_true'] at hfree
    refine ⟨h.single.keep rfl rfl, h.order, ?_, fun _ => hfree.1.1, ?_⟩
    · intro hclosing
      have hclosing : s.closing = false := hclosing
      rw [hfree.1.1] at hclosing
      cases hclosing
    · intro hdone
      cases hdone with
      | inl hclosed =>
        have hclosed : s.closed = true := hclosed
        rw [hfree.2] at hclosed
        cases hclosed
      | inr hholder => cases hholder
  | discard =>
    simp only [PushBacklog.step] at hstep
    split at hstep <;> cases hstep
    rename_i hheld
    have hclosing : s.closing = true := h.closing (.inl (by rw [hheld]; rfl))
    refine ⟨h.single.keep rfl rfl, ?_, ?_, fun _ => hclosing, fun _ => ⟨rfl, rfl, rfl⟩⟩
    · simpa using (List.prefix_append s.taken s.queue).trans h.order
    · intro hopen
      have hopen : s.closing = false := hopen
      rw [hclosing] at hopen
      cases hopen
  | finish =>
    simp only [PushBacklog.step] at hstep
    split at hstep <;> cases hstep
    rename_i hheld
    have hclosing : s.closing = true := h.closing (.inl (by rw [hheld]; rfl))
    have hempty := h.empty (.inr hheld)
    refine ⟨h.single.keep rfl rfl, h.order, ?_, fun _ => hclosing,
      fun _ => ⟨hempty.queue, hempty.pending, hempty.since⟩⟩
    intro hopen
    have hopen : s.closing = false := hopen
    rw [hclosing] at hopen
    cases hopen
  | leave =>
    simp only [PushBacklog.step] at hstep
    split at hstep <;> cases hstep
    rename_i hheld
    have hclosing : s.closing = true := h.closing (.inl hheld)
    refine ⟨h.single.keep rfl rfl, h.order, ?_, fun _ => hclosing, ?_⟩
    · intro hopen
      have hopen : s.closing = false := hopen
      rw [hclosing] at hopen
      cases hopen
    · intro hdone
      cases hdone with
      | inl hclosed =>
        have hempty := h.empty (.inl hclosed)
        exact ⟨hempty.queue, hempty.pending, hempty.since⟩
      | inr hholder => cases hholder
  | tick =>
    cases hstep
    refine ⟨h.single.keep rfl rfl, h.order, ?_, h.closing, ?_⟩
    · intro hclosing
      obtain ⟨hkept, hpending, hsince, hworker, hserved⟩ := h.counted hclosing
      exact ⟨hkept, hpending, hsince, hworker, hserved⟩
    · intro hdone
      have hempty := h.empty hdone
      exact ⟨hempty.queue, hempty.pending, hempty.since⟩

-- ---------------------------------------------------------------------------
-- What the backlog promises
-- ---------------------------------------------------------------------------

/-- At every point of a run. -/
structure Contract (s : State ε) : Prop where
  /-- at most one push worker lives, and it is `_push_worker` -/
  single : ∀ i, (s.workers i).live = true → i + 1 = s.spawned
  /-- what workers took is what was enqueued, in its order, each event once -/
  order : s.taken <+: s.enqueued
  /-- none is lost before the session closes -/
  kept : s.closing = false → s.enqueued = s.taken ++ s.queue
  pending : s.closing = false → s.pending = s.queue.length + s.inHand.length
  since : s.closing = false → (s.pendingSince = none ↔ s.pending = 0)
  /-- what is pending has its worker; it only ends if it is cancelled, and the next event
  replaces it -/
  served : s.closing = false → s.pending ≠ 0 →
    ∃ loop, s.worker = some loop ∧ (loop.live = true ∨ loop.wasCancelled = true)
  replaced : s.closing = false → ∀ event,
    ∃ loop, (s.enqueuePush event).worker = some loop ∧ loop.live = true
  /-- a closed session has no backlog, whatever its worker still does -/
  closed : s.closed = true → s.queue = [] ∧ s.pending = 0 ∧ s.pendingSince = none

/-- For every interleaving of `enqueue_push`, the workers and calls of `close_all`. -/
theorem backlog_contract {s : State ε} (h : Reachable (step : State ε → Action ε → Option (State ε)) {} s) : Contract s := by
  have hinv : Inv s := h.invariant .init fun _ _ _ hinv _ hstep => hinv.step hstep
  refine ⟨?_, ?_, ?_, ?_, ?_, ?_, ?_, ?_⟩
  · intro i hlive
    exact hinv.single.last hlive
  · exact (List.prefix_append _ _).trans hinv.order
  · intro hclosing
    exact (hinv.counted hclosing).kept
  · intro hclosing
    exact (hinv.counted hclosing).pending
  · intro hclosing
    exact (hinv.counted hclosing).since
  · intro hclosing hpending
    have hcounted := hinv.counted hclosing
    obtain ⟨loop, hworker⟩ := Option.ne_none_iff_exists'.mp (hcounted.served hpending)
    exact ⟨loop, hworker, hcounted.worker loop hworker⟩
  · intro hclosing event
    obtain ⟨loop, hworker, hlive⟩ := respawn_worker s
    refine ⟨loop, ?_, hlive⟩
    simp only [State.enqueuePush, hclosing, Bool.false_eq_true, if_false]
    exact hworker
  · intro hclosed
    have hempty := hinv.empty (.inl hclosed)
    exact ⟨hempty.queue, hempty.pending, hempty.since⟩

/-- Outside closing the backlog holds the idle watchdog off exactly while something is pending
and its time is not up. -/
theorem backlogInFlight_iff {s : State ε} (h : Reachable (step : State ε → Action ε → Option (State ε)) {} s)
    (hclosing : s.closing = false) (turnTimeout : Nat) :
    s.backlogInFlight turnTimeout = true ↔
      ∃ since, s.pendingSince = some since ∧ s.now - since < turnTimeout := by
  have hinv : Inv s := h.invariant .init fun _ _ _ hinv _ hstep => hinv.step hstep
  have hsince := (hinv.counted hclosing).since
  unfold State.backlogInFlight
  cases htime : s.pendingSince with
  | none =>
    have hzero := hsince.mp htime
    simp [hzero]
  | some since =>
    have hpos : 0 < s.pending := by
      rw [Nat.pos_iff_ne_zero]
      intro hzero
      rw [hsince.mpr hzero] at htime
      cases htime
    simp [hpos]

/-- Two events; the first one's handler raises, the second's outlives the close. -/
def abandonedHandler : List (Action Nat) :=
  [.enqueue 1, .enqueue 2, .begin 0, .get 0, .handled 0, .get 0, .close, .lock, .discard, .finish,
    .handled 0]

theorem backlog_contract_abandoned :
    ∃ s, Reachable (step : State Nat → Action Nat → Option (State Nat)) {} s ∧ s.closed = true ∧ s.taken = [1, 2] ∧
      s.spawned = 1 ∧ Contract s := by
  have hrun : Reachable (step : State Nat → Action Nat → Option (State Nat)) {} ((run step {} abandonedHandler).get rfl) :=
    reachable_of_run (Option.some_get _).symm
  exact ⟨_, hrun, rfl, rfl, rfl, backlog_contract hrun⟩

end PushBacklog

end Bridge
