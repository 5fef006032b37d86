-- SUMMARY: `teardown.py`: a close that runs all its steps although its task is cancelled, and what it raises at the end.
import Mathlib.Data.List.Basic
import Mathlib.Logic.Function.Basic
import JotaGateway.Base.Transition

/-!
# Teardown

One `async with Teardown(…)` block as a state machine over the event loop. The
task that closes runs the calls of the block one by one; between any two of its
steps the clock moves, the other tasks run and end as they like, and anyone may
cancel it.
-/

open Transition

namespace Teardown

-- ---------------------------------------------------------------------------
-- Tasks and calls
-- ---------------------------------------------------------------------------

/-- A task of the event loop: `asyncio.current_task()`, the one `ensure_future` makes for the
`n`-th call of the block, or any other. -/
inductive TaskRef where
  | current
  | step (n : Nat)
  | other (n : Nat)
deriving DecidableEq

/-- How a task ended. -/
inductive Ending where
  | returned
  | raised
  | cancelled
deriving DecidableEq

structure Task where
  created : Bool := false
  /-- its coroutine has run -/
  begun : Bool := false
  ending : Option Ending := none
  /-- how many times the `Teardown` called its `cancel()` -/
  cancels : Nat := 0

def Task.done (t : Task) : Bool := t.ending.isSome

/-- `loop.time()`. -/
abbrev Time := Nat

/-- A `CancelledError` thrown into the task that closes. -/
abbrev CancelledError := Nat

/-- A call of the block. -/
inductive Call where
  | step (timeout : Option Time)
  | cancel (task : Option TaskRef) (timeout : Option Time)
  | wait (task : Option TaskRef) (timeout : Option Time)

namespace Call

/-- The task a call is handed is no task of a step: `step` keeps its own to itself. -/
def handed : Call → Bool
  | .cancel (some (.step _)) _ | .wait (some (.step _)) _ => false
  | _ => true

/-- The task the `n`-th call waits for; `none` where it returns at once. -/
def target (n : Nat) : Call → Option TaskRef
  | .step _ => some (.step n)
  | .cancel task _ | .wait task _ => task.filter (· ≠ .current)

def timeout : Call → Option Time
  | .step timeout | .cancel _ timeout | .wait _ timeout => timeout

def isStep : Call → Bool
  | .step _ => true
  | _ => false

end Call

/-- The calls the body of the block makes, and whether it then raises an exception of its
own. -/
structure Body where
  calls : List Call
  raises : Bool
  handed : calls.all Call.handed = true

/-- The task the `n`-th call of the block waits for. -/
def Body.target (body : Body) (n : Nat) : Option TaskRef :=
  (body.calls[n]?).bind (Call.target n)

def Body.timeout (body : Body) (n : Nat) : Option Time := (body.calls[n]?).bind Call.timeout

def Body.isStep (body : Body) (n : Nat) : Bool := (body.calls[n]?).any Call.isStep

-- ---------------------------------------------------------------------------
-- The state machine
-- ---------------------------------------------------------------------------

/-- The future `asyncio.wait` is suspended on. -/
inductive Waiter where
  | pending
  | woken
  | cancelled (e : CancelledError)
deriving DecidableEq

/-- How the block was left; a `CancelledError` made by `__aexit__` itself is `none`. -/
inductive Exit where
  | returned
  | raised
  | cancelledError (e : Option CancelledError)
deriving DecidableEq

/-- Where the task that closes is. -/
inductive Pc where
  /-- before the next call of the block -/
  | next
  /-- at the condition of the `while` of `wait` -/
  | looking (task : TaskRef) (deadline : Option Time)
  /-- in `asyncio.wait` -/
  | waiting (task : TaskRef) (deadline : Option Time) (waiter : Waiter)
  | left (exit : Exit)
deriving DecidableEq

/-- A wait that is over: when it began, until when it was to last, and how it was when it
ended. -/
structure Waited where
  index : Nat
  task : TaskRef
  since : Time
  deadline : Option Time
  leftAt : Time
  done : Bool
  begun : Bool

structure State where
  pc : Pc := .next
  /-- the call the block is at -/
  index : Nat := 0
  now : Time
  tasks : TaskRef → Task
  cancelled : Bool := false
  cancelExc : Option CancelledError := none
  /-- `_must_cancel`: a cancellation of the task that closes, not thrown yet -/
  mustCancel : Option CancelledError := none
  /-- `asyncio.current_task().cancelling()` -/
  cancelling : Nat
  /-- when the current wait began -/
  since : Time := 0
  /-- what was thrown into the task, in order -/
  received : List CancelledError := []
  /-- how many times it was cancelled since the block was entered -/
  requested : Nat := 0
  waits : List Waited := []

namespace State

/-- The block is entered. -/
def start (now : Time) (cancelling : Nat) (mustCancel : Option CancelledError)
    (others : Nat → Task) : State where
  now := now
  cancelling := cancelling
  mustCancel := mustCancel
  tasks
    | .current => { created := true, begun := true }
    | .step _ => {}
    | .other n => others n

/-- `cancel_requested()`. -/
def cancelRequested (s : State) : Bool := s.cancelling > 0

/-- `__aexit__`. -/
def aexit (body : Body) (s : State) : Exit :=
  if body.raises then .raised
  else if s.cancelled || s.cancelRequested then .cancelledError s.cancelExc
  else .returned

/-- `_note_cancel`. -/
def noteCancel (s : State) (e : CancelledError) : State :=
  { s with
    cancelExc := s.cancelExc.or (some e)
    cancelled := true
    received := s.received ++ [e] }

/-- `raise_if_cancelled()`; `none` where it returns. -/
def raiseIfCancelled (s : State) : Option Exit :=
  if s.cancelled then some (.cancelledError s.cancelExc) else none

def setTask (s : State) (ref : TaskRef) (t : Task) : State :=
  { s with tasks := Function.update s.tasks ref t }

/-- `task.cancel()`. -/
def cancelTask (s : State) (ref : TaskRef) : State :=
  s.setTask ref { s.tasks ref with cancels := (s.tasks ref).cancels + 1 }

/-- `wait` up to its loop. -/
def enterWait (s : State) (ref : TaskRef) (timeout : Option Time) : State :=
  { s with pc := .looking ref (timeout.map (s.now + ·)), since := s.now }

/-- The next call of the block, up to its first `await`. -/
def enter (s : State) : Call → State
  | .step timeout =>
    (s.setTask (.step s.index) { created := true }).enterWait (.step s.index) timeout
  | .cancel task timeout =>
    match task.filter (· ≠ .current) with
    | none => { s with index := s.index + 1 }
    | some ref =>
      (if (s.tasks ref).done then s else s.cancelTask ref).enterWait ref timeout
  | .wait task timeout =>
    match task.filter (· ≠ .current) with
    | none => { s with index := s.index + 1 }
    | some ref => s.enterWait ref timeout

/-- The loop of `wait` is left: a step that is not done is abandoned. -/
def leaveWait (body : Body) (s : State) (ref : TaskRef) (deadline : Option Time) : State :=
  let done := (s.tasks ref).done
  let s : State := { s with
    waits := s.waits ++ [{ index := s.index, task := ref, since := s.since, deadline,
                           leftAt := s.now, done, begun := (s.tasks ref).begun }] }
  let s := if body.isStep s.index && !done then s.cancelTask ref else s
  { s with pc := .next, index := s.index + 1 }

end State

inductive Action where
  /-- the task that closes runs on -/
  | advance
  /-- `asyncio.wait` returns, or throws -/
  | wake
  /-- the timeout of `asyncio.wait`; the event loop may run it a clock tick early -/
  | timer
  | begin (ref : TaskRef)
  | finish (ref : TaskRef) (ending : Ending)
  /-- somebody cancels the task that closes -/
  | cancelCloser (e : CancelledError)
  | tick

/-- A task ends as it likes, cancelled or not; one that has not run can only be cancelled. -/
def mayFinish (s : State) (ref : TaskRef) (ending : Ending) : Bool :=
  let t := s.tasks ref
  t.created && !t.done &&
    match ref with
    | .current => false
    | .step _ => t.begun || (ending == .cancelled && t.cancels > 0)
    | .other _ => t.begun || ending == .cancelled

def step (body : Body) (s : State) : Action → Option State
  | .advance =>
    match s.pc with
    | .next =>
      match body.calls[s.index]? with
      | some call => some (s.enter call)
      | none => some { s with pc := .left (s.aexit body) }
    | .looking ref deadline =>
      if (s.tasks ref).done || deadline.any (· ≤ s.now) then
        some (s.leaveWait body ref deadline)
      else
        -- a cancellation that is due is thrown at this `await`
        let waiter := match s.mustCancel with
          | some e => Waiter.cancelled e
          | none => Waiter.pending
        some { s with pc := .waiting ref deadline waiter, mustCancel := none }
    | _ => none
  | .wake =>
    match s.pc with
    | .waiting ref deadline (.cancelled e) =>
      some { s.noteCancel e with pc := .looking ref deadline, mustCancel := none }
    | .waiting ref deadline .woken =>
      match s.mustCancel with
      | some e => some { s.noteCancel e with pc := .looking ref deadline, mustCancel := none }
      | none => some { s with pc := .looking ref deadline }
    | _ => none
  | .timer =>
    match s.pc with
    | .waiting ref (some deadline) .pending =>
      some { s with pc := .waiting ref (some deadline) .woken }
    | _ => none
  | .begin ref =>
    let t := s.tasks ref
    if t.created && !t.begun && !t.done then some (s.setTask ref { t with begun := true }) else none
  | .finish ref ending =>
    if mayFinish s ref ending then
      let s := s.setTask ref { s.tasks ref with ending := some ending }
      match s.pc with
      | .waiting ref' deadline .pending =>
        some (if ref' = ref then { s with pc := .waiting ref' deadline .woken } else s)
      | _ => some s
    else none
  | .cancelCloser e =>
    match s.pc with
    | .left _ => none
    | .waiting ref deadline .pending =>
      some { s with
        pc := .waiting ref deadline (.cancelled e)
        cancelling := s.cancelling + 1
        requested := s.requested + 1 }
    | _ =>
      some { s with
        mustCancel := some e, cancelling := s.cancelling + 1, requested := s.requested + 1 }
  | .tick => some { s with now := s.now + 1 }

-- ---------------------------------------------------------------------------
-- What one step does
-- ---------------------------------------------------------------------------

/-- The task that is waited for, and until when. -/
def Pc.waitsFor : Pc → Option (TaskRef × Option Time)
  | .looking ref deadline | .waiting ref deadline _ => some (ref, deadline)
  | _ => none

def Pc.exit? : Pc → Option Exit
  | .left exit => some exit
  | _ => none

/-- The block is where it was: only the waiter and the other tasks may differ. -/
structure Same (s s' : State) : Prop where
  index : s'.index = s.index
  since : s'.since = s.since
  waits : s'.waits = s.waits
  waitsFor : s'.pc.waitsFor = s.pc.waitsFor
  exit : s'.pc.exit? = s.pc.exit?
  next : s'.pc = .next ↔ s.pc = .next

/-- What the task that closes does when it runs on. -/
inductive Advance (body : Body) (s : State) : State → Prop where
  /-- a call with nothing to wait for -/
  | skip (call : Call) (hpc : s.pc = .next) (hcall : body.calls[s.index]? = some call)
      (htarget : call.target s.index = none) : Advance body s { s with index := s.index + 1 }
  | start (timeout : Option Time) (hpc : s.pc = .next)
      (hcall : body.calls[s.index]? = some (.step timeout)) :
      Advance body s
        ((s.setTask (.step s.index) { created := true }).enterWait (.step s.index) timeout)
  | await (call : Call) (n : Nat) (hpc : s.pc = .next) (hcall : body.calls[s.index]? = some call)
      (hstep : call.isStep = false) (htarget : call.target s.index = some (.other n)) (s₁ : State)
      (hcancel : s₁ = s ∨ s₁ = s.cancelTask (.other n)) :
      Advance body s (s₁.enterWait (.other n) call.timeout)
  | exit (hpc : s.pc = .next) (hcall : body.calls[s.index]? = none) :
      Advance body s { s with pc := .left (s.aexit body) }
  | leave (ref : TaskRef) (deadline : Option Time) (hpc : s.pc = .looking ref deadline)
      (hover : (s.tasks ref).done = true ∨ ∃ d, deadline = some d ∧ d ≤ s.now) :
      Advance body s (s.leaveWait body ref deadline)
  | suspend (ref : TaskRef) (deadline : Option Time) (waiter : Waiter)
      (hpc : s.pc = .looking ref deadline) (hlive : (s.tasks ref).done = false) :
      Advance body s { s with pc := .waiting ref deadline waiter, mustCancel := none }

/-- A call that waits for a task it was handed waits for one that is neither its own nor a
step's. -/
theorem filter_other {task : Option TaskRef} {ref : TaskRef} (h : task.filter (· ≠ .current) = some ref)
    (hhanded : ∀ n, task ≠ some (.step n)) : ∃ n, ref = .other n := by
  obtain ⟨htask, hcurrent⟩ := Option.filter_eq_some_iff.mp h
  cases ref with
  | current => simp at hcurrent
  | step n => exact absurd htask (hhanded n)
  | other n => exact ⟨n, rfl⟩

theorem advance_cases {body : Body} {s s' : State} (h : step body s .advance = some s') :
    Advance body s s' := by
  cases hpc : s.pc with
  | next =>
    cases hcall : body.calls[s.index]? with
    | none =>
      simp only [step, hpc, hcall, Option.some.injEq] at h
      rw [← h]
      exact .exit hpc hcall
    | some call =>
      have hhanded : call.handed = true :=
        List.all_eq_true.mp body.handed call (List.mem_of_getElem? hcall)
      simp only [step, hpc, hcall, Option.some.injEq] at h
      rw [← h]
      cases call with
      | step timeout => exact .start timeout hpc hcall
      | cancel task timeout =>
        cases htask : task.filter (· ≠ .current) with
        | none =>
          simp only [State.enter, htask]
          exact .skip _ hpc hcall htask
        | some ref =>
          obtain ⟨n, rfl⟩ := filter_other htask fun n hn => by
            rw [hn] at hhanded
            cases hhanded
          simp only [State.enter, htask]
          refine .await _ n hpc hcall rfl htask _ ?_
          split
          · exact .inl rfl
          · exact .inr rfl
      | wait task timeout =>
        cases htask : task.filter (· ≠ .current) with
        | none =>
          simp only [State.enter, htask]
          exact .skip _ hpc hcall htask
        | some ref =>
          obtain ⟨n, rfl⟩ := filter_other htask fun n hn => by
            rw [hn] at hhanded
            cases hhanded
          simp only [State.enter, htask]
          exact .await _ n hpc hcall rfl htask s (.inl rfl)
  | looking ref deadline =>
    simp only [step, hpc] at h
    split at h
    · rename_i hover
      rw [← Option.some.inj h]
      apply Advance.leave ref deadline hpc
      simpa [Option.any_eq_true] using hover
    · rename_i hlive
      rw [← Option.some.inj h]
      simp only [Bool.or_eq_true, not_or, Bool.not_eq_true] at hlive
      exact .suspend ref deadline _ hpc hlive.1
  | waiting ref deadline waiter =>
    simp only [step, hpc] at h
    cases h
  | left exit =>
    simp only [step, hpc] at h
    cases h

/-- Every other action leaves the block where it is. -/
theorem same_of_ne {body : Body} {s s' : State} {a : Action} (h : step body s a = some s')
    (hne : a ≠ .advance) : Same s s' := by
  cases a with
  | advance => exact absurd rfl hne
  | wake =>
    simp only [step] at h
    split at h
    · rename_i hpc
      cases h
      exact ⟨rfl, rfl, rfl, by rw [hpc]; rfl, by rw [hpc]; rfl, by simp [hpc]⟩
    · rename_i hpc
      split at h <;> cases h
      · exact ⟨rfl, rfl, rfl, by rw [hpc]; rfl, by rw [hpc]; rfl, by simp [hpc]⟩
      · exact ⟨rfl, rfl, rfl, by rw [hpc]; rfl, by rw [hpc]; rfl, by simp [hpc]⟩
    · cases h
  | timer =>
    simp only [step] at h
    split at h
    · rename_i hpc
      cases h
      exact ⟨rfl, rfl, rfl, by rw [hpc]; rfl, by rw [hpc]; rfl, by simp [hpc]⟩
    · cases h
  | begin ref =>
    simp only [step] at h
    split at h <;> cases h
    exact ⟨rfl, rfl, rfl, rfl, rfl, .rfl⟩
  | finish ref ending =>
    simp only [step] at h
    split at h
    · split at h
      · rename_i hpc
        replace hpc : s.pc = _ := hpc
        rw [← Option.some.inj h]
        split
        · exact ⟨rfl, rfl, rfl, by rw [hpc]; rfl, by rw [hpc]; rfl, by simp [hpc]⟩
        · exact ⟨rfl, rfl, rfl, rfl, rfl, .rfl⟩
      · cases h
        exact ⟨rfl, rfl, rfl, rfl, rfl, .rfl⟩
    · cases h
  | cancelCloser e =>
    simp only [step] at h
    split at h
    · cases h
    · rename_i hpc
      cases h
      exact ⟨rfl, rfl, rfl, by rw [hpc]; rfl, by rw [hpc]; rfl, by simp [hpc]⟩
    · cases h
      exact ⟨rfl, rfl, rfl, rfl, rfl, .rfl⟩
  | tick =>
    cases h
    exact ⟨rfl, rfl, rfl, rfl, rfl, .rfl⟩

-- ---------------------------------------------------------------------------
-- Cancellations
-- ---------------------------------------------------------------------------

/-- What the block knows of the cancellations of its task: `cancelling` was `before` at its
start. -/
structure Noted (before : Nat) (s : State) : Prop where
  cancelled : s.cancelled = !s.received.isEmpty
  cancelExc : s.cancelExc = s.received.head?
  cancelling : s.cancelling = before + s.requested

/-- Nothing was thrown or requested. -/
theorem Noted.keep {before : Nat} {s s' : State} (h : Noted before s)
    (hkeep : (s'.cancelled, s'.cancelExc, s'.received, s'.cancelling, s'.requested) =
      (s.cancelled, s.cancelExc, s.received, s.cancelling, s.requested)) : Noted before s' := by
  simp only [Prod.mk.injEq] at hkeep
  obtain ⟨hcancelled, hexc, hreceived, hcancelling, hrequested⟩ := hkeep
  refine ⟨?_, ?_, ?_⟩
  · rw [hcancelled, hreceived]
    exact h.cancelled
  · rw [hexc, hreceived]
    exact h.cancelExc
  · rw [hcancelling, hrequested]
    exact h.cancelling

/-- The first error thrown is the one that is kept. -/
theorem Noted.noteCancel {before : Nat} {s : State} (h : Noted before s) (e : CancelledError) :
    Noted before (s.noteCancel e) := by
  refine ⟨by simp [State.noteCancel], ?_, h.cancelling⟩
  simp only [State.noteCancel, h.cancelExc, List.head?_append, List.head?_cons]

theorem Noted.step {before : Nat} {body : Body} {s s' : State} {a : Action} (h : Noted before s)
    (hstep : step body s a = some s') : Noted before s' := by
  cases a with
  | advance =>
    cases advance_cases hstep with
    | await call n hpc hcall hstep htarget s₁ hcancel =>
      cases hcancel with
      | inl heq => exact h.keep (by rw [heq]; rfl)
      | inr heq => exact h.keep (by rw [heq]; rfl)
    | leave ref deadline hpc hover =>
      refine h.keep ?_
      simp only [State.leaveWait]
      split <;> rfl
    | _ => exact h.keep rfl
  | wake =>
    simp only [Teardown.step] at hstep
    split at hstep
    · cases hstep
      exact (h.noteCancel _).keep rfl
    · split at hstep <;> cases hstep
      · exact (h.noteCancel _).keep rfl
      · exact h.keep rfl
    · cases hstep
  | timer =>
    simp only [Teardown.step] at hstep
    split at hstep <;> cases hstep
    exact h.keep rfl
  | begin ref =>
    simp only [Teardown.step] at hstep
    split at hstep <;> cases hstep
    exact h.keep rfl
  | finish ref ending =>
    simp only [Teardown.step] at hstep
    split at hstep
    · split at hstep
      · rw [← Option.some.inj hstep]
        split
        · exact h.keep rfl
        · exact h.keep rfl
      · cases hstep
        exact h.keep rfl
    · cases hstep
  | cancelCloser e =>
    have hcount : s.cancelling + 1 = before + (s.requested + 1) := by
      rw [h.cancelling, Nat.add_assoc]
    simp only [Teardown.step] at hstep
    split at hstep <;> cases hstep
    · exact ⟨h.cancelled, h.cancelExc, hcount⟩
    · exact ⟨h.cancelled, h.cancelExc, hcount⟩
  | tick =>
    cases hstep
    exact h.keep rfl

/-- A block that was left is not touched any more. -/
theorem left_frozen {body : Body} {s s' : State} {a : Action} {exit : Exit} (hpc : s.pc = .left exit)
    (hstep : step body s a = some s') : s'.aexit body = s.aexit body := by
  cases a with
  | begin ref =>
    simp only [step] at hstep
    split at hstep <;> cases hstep
    rfl
  | finish ref ending =>
    simp only [step, State.setTask, hpc] at hstep
    split at hstep <;> cases hstep
    rfl
  | tick =>
    cases hstep
    rfl
  | _ =>
    simp only [step, hpc] at hstep
    cases hstep

/-- What the block raises does not change once it is left. -/
theorem exit_step {body : Body} {s s' : State} {a : Action}
    (h : ∀ exit, s.pc.exit? = some exit → exit = s.aexit body)
    (hstep : step body s a = some s') :
    ∀ exit, s'.pc.exit? = some exit → exit = s'.aexit body := by
  intro exit hexit
  cases hleft : s.pc with
  | left exit' =>
    rw [left_frozen hleft hstep]
    have hsame := same_of_ne hstep (by
      rintro rfl
      simp only [step, hleft] at hstep
      cases hstep)
    exact h exit (hsame.exit ▸ hexit)
  | _ =>
    cases a with
    | advance =>
      cases advance_cases hstep with
      | exit hpc hcall => exact (Option.some.inj hexit).symm
      | skip call hpc hcall htarget =>
        rw [hpc] at hexit
        cases hexit
      | leave ref deadline hpc hover =>
        simp only [State.leaveWait, Pc.exit?] at hexit
        cases hexit
      | _ => cases hexit
    | _ =>
      rw [(same_of_ne hstep (by simp)).exit, hleft] at hexit
      cases hexit

-- ---------------------------------------------------------------------------
-- The calls, in order
-- ---------------------------------------------------------------------------

/-- A wait lasted until its task was done or its deadline had passed. -/
structure Waited.Served (body : Body) (w : Waited) : Prop where
  target : body.target w.index = some w.task
  deadline : w.deadline = (body.timeout w.index).map (w.since + ·)
  ended : w.done = true ∨ ∃ d, w.deadline = some d ∧ d ≤ w.leftAt

/-- The calls before `index` are over, in order, and the one at `index` is under way. -/
structure Placed (body : Body) (s : State) : Prop where
  le : s.index ≤ body.calls.length
  target : ∀ ref deadline, s.pc.waitsFor = some (ref, deadline) →
    body.target s.index = some ref ∧ deadline = (body.timeout s.index).map (s.since + ·) ∧
      s.index < body.calls.length
  left : s.pc.exit?.isSome = true → s.index = body.calls.length
  order : s.waits.map (fun w => w.index) =
    (List.range s.index).filter fun n => (body.target n).isSome
  waits : ∀ w ∈ s.waits, w.Served body

theorem Placed.same {body : Body} {s s' : State} (h : Placed body s) (hsame : Same s s') :
    Placed body s' := by
  refine ⟨?_, ?_, ?_, ?_, ?_⟩
  · rw [hsame.index]
    exact h.le
  · rw [hsame.waitsFor, hsame.index, hsame.since]
    exact h.target
  · rw [hsame.exit, hsame.index]
    exact h.left
  · rw [hsame.waits, hsame.index]
    exact h.order
  · rw [hsame.waits]
    exact h.waits

theorem index_lt {body : Body} {n : Nat} {call : Call} (h : body.calls[n]? = some call) :
    n < body.calls.length := by
  obtain ⟨hlt, -⟩ := List.getElem?_eq_some_iff.mp h
  exact hlt

theorem Placed.enterWait {body : Body} {s s₁ : State} {call : Call} {ref : TaskRef}
    (h : Placed body s) (hcall : body.calls[s.index]? = some call)
    (htarget : call.target s.index = some ref)
    (hkeep : (s₁.index, s₁.now, s₁.waits) = (s.index, s.now, s.waits)) :
    Placed body (s₁.enterWait ref call.timeout) := by
  simp only [Prod.mk.injEq] at hkeep
  obtain ⟨hindex, -, hwaits⟩ := hkeep
  refine ⟨?_, ?_, ?_, ?_, ?_⟩
  · simp only [State.enterWait, hindex]
    exact h.le
  · intro ref' deadline hfor
    cases hfor
    simp only [State.enterWait, hindex, Body.target, Body.timeout, hcall, Option.bind_some]
    exact ⟨htarget, trivial, index_lt hcall⟩
  · intro hleft
    cases hleft
  · simp only [State.enterWait, hindex, hwaits]
    exact h.order
  · simp only [State.enterWait, hwaits]
    exact h.waits

theorem Placed.leaveWait {body : Body} {s : State} {ref : TaskRef} {deadline : Option Time}
    (h : Placed body s) (hpc : s.pc = .looking ref deadline)
    (hover : (s.tasks ref).done = true ∨ ∃ d, deadline = some d ∧ d ≤ s.now) :
    Placed body (s.leaveWait body ref deadline) := by
  obtain ⟨htarget, hdeadline, hlt⟩ := h.target ref deadline (by rw [hpc]; rfl)
  have hindex : (s.leaveWait body ref deadline).index = s.index + 1 := by
    simp only [State.leaveWait]
    split <;> rfl
  have hwaits : (s.leaveWait body ref deadline).waits = s.waits ++
      [{ index := s.index, task := ref, since := s.since, deadline, leftAt := s.now,
         done := (s.tasks ref).done, begun := (s.tasks ref).begun }] := by
    simp only [State.leaveWait]
    split <;> rfl
  refine ⟨?_, ?_, ?_, ?_, ?_⟩
  · rw [hindex]
    exact hlt
  · intro ref' deadline' hfor
    cases hfor
  · intro hleft
    cases hleft
  · rw [hwaits, hindex, List.map_append, h.order, List.range_succ, List.filter_append]
    simp [htarget]
  · rw [hwaits]
    intro w hw
    cases List.mem_append.mp hw with
    | inl hw => exact h.waits w hw
    | inr hw =>
      rw [List.mem_singleton.mp hw]
      exact ⟨htarget, hdeadline, hover⟩

theorem Placed.step {body : Body} {s s' : State} {a : Action} (h : Placed body s)
    (hstep : step body s a = some s') : Placed body s' := by
  cases a with
  | advance =>
    cases advance_cases hstep with
    | skip call hpc hcall htarget =>
      refine ⟨index_lt hcall, ?_, ?_, ?_, h.waits⟩
      · intro ref deadline hfor
        rw [hpc] at hfor
        cases hfor
      · intro hleft
        rw [hpc] at hleft
        cases hleft
      · rw [h.order, List.range_succ, List.filter_append]
        simp [Body.target, hcall, htarget]
    | start timeout hpc hcall => exact h.enterWait hcall rfl rfl
    | await call n hpc hcall hstep htarget s₁ hcancel =>
      cases hcancel with
      | inl heq => exact h.enterWait hcall htarget (by rw [heq])
      | inr heq => exact h.enterWait hcall htarget (by rw [heq]; rfl)
    | exit hpc hcall =>
      refine ⟨h.le, ?_, ?_, h.order, h.waits⟩
      · intro ref deadline hfor
        cases hfor
      · intro _
        exact Nat.le_antisymm h.le (List.getElem?_eq_none_iff.mp hcall)
    | leave ref deadline hpc hover => exact h.leaveWait hpc hover
    | suspend ref deadline waiter hpc hlive =>
      exact h.same ⟨rfl, rfl, rfl, by rw [hpc]; rfl, by rw [hpc]; rfl, by simp [hpc]⟩
  | _ => exact h.same (same_of_ne hstep (by simp))

-- ---------------------------------------------------------------------------
-- The tasks
-- ---------------------------------------------------------------------------

/-- The first call that was not started. -/
def State.frontier (s : State) : Nat :=
  if s.pc.waitsFor.isSome then s.index + 1 else s.index

/-- A step's task exists from its call on, only the block cancels it, and it has run when it
ends before that; nobody cancels the task that closes from here. -/
structure Started (body : Body) (s : State) : Prop where
  fresh : ∀ n, s.frontier ≤ n → s.tasks (.step n) = {}
  created : ∀ n, n < s.frontier → body.isStep n = true → (s.tasks (.step n)).created = true
  running : ∀ deadline, s.pc.waitsFor = some (.step s.index, deadline) →
    (s.tasks (.step s.index)).cancels = 0 ∧
      ((s.tasks (.step s.index)).done = true → (s.tasks (.step s.index)).begun = true)
  ran : ∀ w ∈ s.waits, body.isStep w.index = true → w.done = true → w.begun = true
  current : (s.tasks .current).cancels = 0
  awake : ∀ ref deadline, s.pc = .waiting ref deadline .pending → (s.tasks ref).done = false

theorem Same.frontier {s s' : State} (h : Same s s') : s'.frontier = s.frontier := by
  simp only [State.frontier, h.waitsFor, h.index]

/-- Only the waiter changes. -/
theorem Started.keep {body : Body} {s s' : State} (h : Started body s) (hsame : Same s s')
    (htasks : s'.tasks = s.tasks)
    (hawake : ∀ ref deadline, s'.pc = .waiting ref deadline .pending →
      (s.tasks ref).done = false) : Started body s' := by
  refine ⟨?_, ?_, ?_, ?_, ?_, ?_⟩
  · rw [hsame.frontier, htasks]
    exact h.fresh
  · rw [hsame.frontier, htasks]
    exact h.created
  · rw [hsame.waitsFor, hsame.index, htasks]
    exact h.running
  · rw [hsame.waits]
    exact h.ran
  · rw [htasks]
    exact h.current
  · rw [htasks]
    exact hawake

/-- A task that exists runs or ends. -/
theorem Started.setTask {body : Body} {s s' : State} {ref : TaskRef} {t : Task}
    (h : Started body s) (hsame : Same s s') (htasks : s'.tasks = (s.setTask ref t).tasks)
    (hcreated : (s.tasks ref).created = true) (ht : t.created = true)
    (hcancels : t.cancels = (s.tasks ref).cancels)
    (hran : ∀ n, ref = .step n → (s.tasks ref).cancels = 0 → t.done = true → t.begun = true)
    (hawake : ∀ ref' deadline, s'.pc = .waiting ref' deadline .pending →
      (s'.tasks ref').done = false) : Started body s' := by
  have hother : ∀ {ref'}, ref' ≠ ref → s'.tasks ref' = s.tasks ref' := by
    intro ref' hne
    rw [htasks]
    exact Function.update_of_ne hne _ _
  have hself : s'.tasks ref = t := by
    rw [htasks]
    exact Function.update_self _ _ _
  refine ⟨?_, ?_, ?_, ?_, ?_, hawake⟩
  · intro n hn
    rw [hsame.frontier] at hn
    have hfresh := h.fresh n hn
    rw [hother, hfresh]
    rintro rfl
    rw [hfresh] at hcreated
    cases hcreated
  · intro n hn hstep
    rw [hsame.frontier] at hn
    by_cases hne : TaskRef.step n = ref
    · rw [hne, hself]
      exact ht
    · rw [hother hne]
      exact h.created n hn hstep
  · intro deadline hfor
    rw [hsame.waitsFor, hsame.index] at hfor
    rw [hsame.index]
    obtain ⟨hzero, hbegun⟩ := h.running deadline hfor
    by_cases hne : TaskRef.step s.index = ref
    · rw [hne] at hzero ⊢
      rw [hself, hcancels]
      exact ⟨hzero, hran s.index hne.symm hzero⟩
    · rw [hother hne]
      exact ⟨hzero, hbegun⟩
  · rw [hsame.waits]
    exact h.ran
  · by_cases hne : TaskRef.current = ref
    · rw [hne, hself, hcancels, ← hne]
      exact h.current
    · rw [hother hne]
      exact h.current

theorem isStep_of_call {body : Body} {n : Nat} {call : Call} (h : body.calls[n]? = some call) :
    body.isStep n = call.isStep := by
  simp [Body.isStep, h]

/-- The wait of a step is the wait for its own task. -/
theorem target_of_isStep {body : Body} {n : Nat} {ref : TaskRef} (hstep : body.isStep n = true)
    (htarget : body.target n = some ref) : ref = .step n := by
  unfold Body.isStep at hstep
  unfold Body.target at htarget
  cases hcall : body.calls[n]? with
  | none =>
    rw [hcall] at hstep
    cases hstep
  | some call =>
    rw [hcall] at hstep htarget
    cases call with
    | step timeout => exact (Option.some.inj htarget).symm
    | cancel task timeout => cases hstep
    | wait task timeout => cases hstep

theorem Started.skip {body : Body} {s : State} {call : Call} (h : Started body s)
    (hpc : s.pc = .next) (hcall : body.calls[s.index]? = some call)
    (htarget : call.target s.index = none) : Started body { s with index := s.index + 1 } := by
  have hfrontier : s.frontier = s.index := by simp [State.frontier, hpc, Pc.waitsFor]
  have hfrontier' : ({ s with index := s.index + 1 } : State).frontier = s.index + 1 := by
    simp [State.frontier, hpc, Pc.waitsFor]
  refine ⟨?_, ?_, ?_, h.ran, h.current, h.awake⟩
  · intro n hn
    rw [hfrontier'] at hn
    exact h.fresh n (by omega)
  · intro n hn hstep
    rw [hfrontier'] at hn
    rcases Nat.lt_or_eq_of_le (Nat.le_of_lt_succ hn) with hlt | rfl
    · exact h.created n (by omega) hstep
    · rw [isStep_of_call hcall] at hstep
      cases call with
      | step timeout => cases htarget
      | cancel task timeout => cases hstep
      | wait task timeout => cases hstep
  · intro deadline hfor
    rw [hpc] at hfor
    cases hfor

theorem Started.start {body : Body} {s : State} {timeout : Option Time} (h : Started body s)
    (hpc : s.pc = .next) :
    Started body
      ((s.setTask (.step s.index) { created := true }).enterWait (.step s.index) timeout) := by
  have hfrontier : s.frontier = s.index := by simp [State.frontier, hpc, Pc.waitsFor]
  have hother : ∀ {ref}, ref ≠ .step s.index →
      (s.setTask (.step s.index) { created := true }).tasks ref = s.tasks ref :=
    fun hne => Function.update_of_ne hne _ _
  have hself : (s.setTask (.step s.index) { created := true }).tasks (.step s.index) =
      { created := true } := Function.update_self _ _ _
  refine ⟨?_, ?_, ?_, h.ran, ?_, ?_⟩
  · intro n hn
    replace hn : s.index + 1 ≤ n := hn
    simp only [State.enterWait]
    rw [hother (by simp only [ne_eq, TaskRef.step.injEq]; omega)]
    exact h.fresh n (by omega)
  · intro n hn hstep
    replace hn : n < s.index + 1 := hn
    simp only [State.enterWait]
    rcases Nat.lt_or_eq_of_le (Nat.le_of_lt_succ hn) with hlt | rfl
    · rw [hother (by simp only [ne_eq, TaskRef.step.injEq]; omega)]
      exact h.created n (by omega) hstep
    · rw [hself]
  · intro deadline _
    simp only [State.enterWait, State.setTask, Function.update_self]
    exact ⟨trivial, fun hdone => by cases hdone⟩
  · simp only [State.enterWait]
    rw [hother (by simp)]
    exact h.current
  · intro ref deadline hwaiting
    cases hwaiting

theorem Started.await {body : Body} {s s₁ : State} {call : Call} {k : Nat} (h : Started body s)
    (hpc : s.pc = .next) (hcall : body.calls[s.index]? = some call) (hstep : call.isStep = false)
    (hcancel : s₁ = s ∨ s₁ = s.cancelTask (.other k)) :
    Started body (s₁.enterWait (.other k) call.timeout) := by
  have hfrontier : s.frontier = s.index := by simp [State.frontier, hpc, Pc.waitsFor]
  have hindex : s₁.index = s.index := by
    cases hcancel with
    | inl heq => rw [heq]
    | inr heq => rw [heq]; rfl
  have hwaits : s₁.waits = s.waits := by
    cases hcancel with
    | inl heq => rw [heq]
    | inr heq => rw [heq]; rfl
  have hother : ∀ {ref}, ref ≠ .other k → s₁.tasks ref = s.tasks ref := by
    intro ref hne
    cases hcancel with
    | inl heq => rw [heq]
    | inr heq =>
      rw [heq]
      exact Function.update_of_ne hne _ _
  refine ⟨?_, ?_, ?_, ?_, ?_, ?_⟩
  · intro n hn
    replace hn : s₁.index + 1 ≤ n := hn
    simp only [State.enterWait]
    rw [hother (by simp)]
    exact h.fresh n (by omega)
  · intro n hn hisStep
    replace hn : n < s₁.index + 1 := hn
    simp only [State.enterWait]
    rw [hother (by simp)]
    rcases Nat.lt_or_eq_of_le (Nat.le_of_lt_succ hn) with hlt | heq
    · exact h.created n (by omega) hisStep
    · rw [heq, hindex, isStep_of_call hcall, hstep] at hisStep
      cases hisStep
  · intro deadline hfor
    simp [State.enterWait, Pc.waitsFor] at hfor
  · simp only [State.enterWait, hwaits]
    exact h.ran
  · simp only [State.enterWait]
    rw [hother (by simp)]
    exact h.current
  · intro ref deadline hwaiting
    cases hwaiting

theorem Started.leaveWait {body : Body} {s : State} {ref : TaskRef} {deadline : Option Time}
    (h : Started body s) (hplaced : Placed body s) (hpc : s.pc = .looking ref deadline) :
    Started body (s.leaveWait body ref deadline) := by
  obtain ⟨htarget, -, -⟩ := hplaced.target ref deadline (by rw [hpc]; rfl)
  have hfrontier : s.frontier = s.index + 1 := by simp [State.frontier, hpc, Pc.waitsFor]
  have hfrontier' : (s.leaveWait body ref deadline).frontier = s.index + 1 := by
    simp only [State.leaveWait]
    split <;> rfl
  have hwaits : (s.leaveWait body ref deadline).waits = s.waits ++
      [{ index := s.index, task := ref, since := s.since, deadline, leftAt := s.now,
         done := (s.tasks ref).done, begun := (s.tasks ref).begun }] := by
    simp only [State.leaveWait]
    split <;> rfl
  -- only the task of the step that is left may be cancelled
  have htask : ∀ ref', (s.leaveWait body ref deadline).tasks ref' = s.tasks ref' ∨
      ref' = .step s.index ∧
        (s.leaveWait body ref deadline).tasks ref' =
          { s.tasks ref' with cancels := (s.tasks ref').cancels + 1 } := by
    intro ref'
    simp only [State.leaveWait]
    split
    · rename_i hcancel
      simp only [Bool.and_eq_true] at hcancel
      rw [target_of_isStep hcancel.1 htarget]
      by_cases hne : ref' = .step s.index
      · right
        rw [hne]
        exact ⟨rfl, Function.update_self _ _ _⟩
      · left
        exact Function.update_of_ne hne _ _
    · exact .inl rfl
  refine ⟨?_, ?_, ?_, ?_, ?_, ?_⟩
  · intro n hn
    rw [hfrontier'] at hn
    cases htask (.step n) with
    | inl hsame =>
      rw [hsame]
      exact h.fresh n (by omega)
    | inr hself =>
      have heq : n = s.index := TaskRef.step.inj hself.1
      omega
  · intro n hn hstep
    rw [hfrontier'] at hn
    have hcreated := h.created n (by omega) hstep
    cases htask (.step n) with
    | inl hsame => rw [hsame, hcreated]
    | inr hself => rw [hself.2, hcreated]
  · intro deadline' hfor
    cases hfor
  · rw [hwaits]
    intro w hw hstep hdone
    cases List.mem_append.mp hw with
    | inl hw => exact h.ran w hw hstep hdone
    | inr hw =>
      rw [List.mem_singleton.mp hw] at hstep hdone ⊢
      have href := target_of_isStep hstep htarget
      rw [href] at hdone ⊢
      exact (h.running deadline (by rw [hpc, href]; rfl)).2 hdone
  · cases htask .current with
    | inl hsame =>
      rw [hsame]
      exact h.current
    | inr hself => cases hself.1
  · intro ref' deadline' hwaiting
    cases hwaiting

theorem Started.step {body : Body} {s s' : State} {a : Action} (h : Started body s)
    (hplaced : Placed body s) (hstep : step body s a = some s') : Started body s' := by
  cases a with
  | advance =>
    cases advance_cases hstep with
    | skip call hpc hcall htarget => exact h.skip hpc hcall htarget
    | start timeout hpc hcall => exact h.start hpc
    | await call n hpc hcall hkind htarget s₁ hcancel => exact h.await hpc hcall hkind hcancel
    | exit hpc hcall =>
      have hfrontier : s.frontier = s.index := by simp [State.frontier, hpc, Pc.waitsFor]
      refine ⟨?_, ?_, ?_, h.ran, h.current, ?_⟩
      · intro n hn
        exact h.fresh n (hfrontier ▸ hn)
      · intro n hn
        exact h.created n (hfrontier ▸ hn)
      · intro deadline hfor
        cases hfor
      · intro ref deadline hwaiting
        cases hwaiting
    | leave ref deadline hpc hover => exact h.leaveWait hplaced hpc
    | suspend ref deadline waiter hpc hlive =>
      have hsame : Same s { s with pc := .waiting ref deadline waiter, mustCancel := none } :=
        ⟨rfl, rfl, rfl, by rw [hpc]; rfl, by rw [hpc]; rfl, by simp [hpc]⟩
      apply h.keep hsame rfl
      intro ref' deadline' hwaiting
      cases hwaiting
      exact hlive
  | wake =>
    have hsame := same_of_ne hstep (by simp)
    simp only [Teardown.step] at hstep
    split at hstep
    · cases hstep
      exact h.keep hsame rfl fun _ _ hwaiting => by cases hwaiting
    · split at hstep <;> cases hstep
      · exact h.keep hsame rfl fun _ _ hwaiting => by cases hwaiting
      · exact h.keep hsame rfl fun _ _ hwaiting => by cases hwaiting
    · cases hstep
  | timer =>
    have hsame := same_of_ne hstep (by simp)
    simp only [Teardown.step] at hstep
    split at hstep <;> cases hstep
    exact h.keep hsame rfl fun _ _ hwaiting => by cases hwaiting
  | begin ref =>
    have hsame := same_of_ne hstep (by simp)
    simp only [Teardown.step] at hstep
    split at hstep <;> cases hstep
    rename_i hready
    simp only [Bool.and_eq_true, Bool.not_eq_true'] at hready
    refine h.setTask hsame rfl hready.1.1 hready.1.1 rfl (fun _ _ _ _ => rfl) ?_
    intro ref' deadline hwaiting
    have hawake := h.awake ref' deadline hwaiting
    by_cases hne : ref' = ref
    · rw [hne] at hawake ⊢
      simp only [State.setTask, Function.update_self]
      exact hawake
    · simp only [State.setTask, Function.update_of_ne hne]
      exact hawake
  | finish ref ending =>
    have hsame := same_of_ne hstep (by simp)
    simp only [Teardown.step, State.setTask] at hstep
    split at hstep
    · rename_i hmay
      simp only [mayFinish, Bool.and_eq_true, Bool.not_eq_true'] at hmay
      obtain ⟨⟨hcreated, -⟩, hends⟩ := hmay
      have hran : ∀ n, ref = .step n → (s.tasks ref).cancels = 0 → True →
          (s.tasks ref).begun = true := by
        rintro n rfl hzero -
        simpa [hzero] using hends
      have htasks : s'.tasks =
          (s.setTask ref { s.tasks ref with ending := some ending }).tasks := by
        split at hstep
        · rw [← Option.some.inj hstep]
          split <;> rfl
        · rw [← Option.some.inj hstep]
          rfl
      apply h.setTask hsame htasks hcreated hcreated rfl
      · intro n hn hzero _
        exact hran n hn hzero trivial
      · intro ref' deadline hwaiting
        have hne : ref' ≠ ref := by
          rintro rfl
          split at hstep
          · rename_i ref'' deadline' hpc
            have hfor := hsame.waitsFor
            rw [hwaiting, hpc] at hfor
            obtain ⟨rfl, -⟩ := Prod.mk.inj (Option.some.inj hfor)
            rw [if_pos rfl] at hstep
            rw [← Option.some.inj hstep] at hwaiting
            cases hwaiting
          · rename_i hpc
            rw [← Option.some.inj hstep] at hwaiting
            exact hpc _ _ hwaiting
        rw [htasks]
        simp only [State.setTask, Function.update_of_ne hne]
        split at hstep
        · rename_i ref'' deadline' hpc
          have hfor := hsame.waitsFor
          rw [hwaiting, hpc] at hfor
          obtain ⟨rfl, -⟩ := Prod.mk.inj (Option.some.inj hfor)
          exact h.awake _ _ hpc
        · rename_i hpc
          rw [← Option.some.inj hstep] at hwaiting
          exact absurd hwaiting (hpc _ _)
    · cases hstep
  | cancelCloser e =>
    have hsame := same_of_ne hstep (by simp)
    simp only [Teardown.step] at hstep
    split at hstep
    · cases hstep
    · cases hstep
      exact h.keep hsame rfl fun _ _ hwaiting => by cases hwaiting
    · cases hstep
      exact h.keep hsame rfl h.awake
  | tick =>
    have hsame := same_of_ne hstep (by simp)
    cases hstep
    exact h.keep hsame rfl h.awake

-- ---------------------------------------------------------------------------
-- The contract
-- ---------------------------------------------------------------------------

structure Inv (body : Body) (before : Nat) (s : State) : Prop where
  noted : Noted before s
  placed : Placed body s
  started : Started body s
  exit : ∀ exit, s.pc.exit? = some exit → exit = s.aexit body

theorem Inv.init (body : Body) (now cancelling : Nat) (mustCancel : Option CancelledError)
    (others : Nat → Task) : Inv body cancelling (.start now cancelling mustCancel others) where
  noted := ⟨rfl, rfl, rfl⟩
  placed := by
    refine ⟨Nat.zero_le _, ?_, ?_, rfl, ?_⟩
    · intro ref deadline hfor
      cases hfor
    · intro hleft
      cases hleft
    · intro w hw
      cases hw
  started := by
    refine ⟨fun _ _ => rfl, ?_, ?_, ?_, rfl, ?_⟩
    · intro n hn
      exact absurd hn (Nat.not_lt_zero n)
    · intro deadline hfor
      cases hfor
    · intro w hw
      cases hw
    · intro ref deadline hwaiting
      cases hwaiting
  exit _ h := by cases h

theorem Inv.step {body : Body} {before : Nat} {s s' : State} {a : Action} (h : Inv body before s)
    (hstep : step body s a = some s') : Inv body before s' where
  noted := h.noted.step hstep
  placed := h.placed.step hstep
  started := h.started.step h.placed hstep
  exit := exit_step h.exit hstep

theorem target_ne_current {body : Body} {n : Nat} {ref : TaskRef}
    (h : body.target n = some ref) : ref ≠ .current := by
  unfold Body.target at h
  cases hcall : body.calls[n]? with
  | none =>
    rw [hcall] at h
    cases h
  | some call =>
    rw [hcall] at h
    cases call with
    | step timeout =>
      cases h
      exact fun h => by cases h
    | cancel task timeout => simpa using (Option.filter_eq_some_iff.mp h).2
    | wait task timeout => simpa using (Option.filter_eq_some_iff.mp h).2

/-- The task waited for is done, or the time for it is up. -/
def State.served (s : State) (ref : TaskRef) (deadline : Option Time) : Prop :=
  (s.tasks ref).done = true ∨ ∃ d, deadline = some d ∧ d ≤ s.now

/-- The block goes on to its next call by steps of its own task and of its timer. -/
def GoesOn (body : Body) (s : State) : Prop :=
  ∃ actions s', (∀ a ∈ actions, a = .timer ∨ a = .wake ∨ a = .advance) ∧
    run (step body) s actions = some s' ∧ s'.index = s.index + 1 ∧ s'.pc = .next

theorem goesOn_cons {body : Body} {s s₁ : State} {a : Action}
    (ha : a = .timer ∨ a = .wake ∨ a = .advance) (hstep : step body s a = some s₁)
    (hindex : s₁.index = s.index) (h : GoesOn body s₁) : GoesOn body s := by
  obtain ⟨actions, s', hall, hrun, hindex', hpc⟩ := h
  refine ⟨a :: actions, s', ?_, ?_, hindex ▸ hindex', hpc⟩
  · intro b hb
    cases hb with
    | head => exact ha
    | tail _ hb => exact hall b hb
  · simp only [run, hstep, Option.bind_some]
    exact hrun

theorem goesOn_looking {body : Body} {s : State} {ref : TaskRef} {deadline : Option Time}
    (hpc : s.pc = .looking ref deadline) (hserved : s.served ref deadline) : GoesOn body s := by
  have hover : ((s.tasks ref).done || deadline.any (· ≤ s.now)) = true := by
    simpa [State.served, Option.any_eq_true] using hserved
  refine ⟨[.advance], s.leaveWait body ref deadline, by simp, ?_, ?_, rfl⟩
  · simp only [run, step, hpc, hover, if_true, Option.bind_some]
  · simp only [State.leaveWait]
    split <;> rfl

theorem goesOn_woken {body : Body} {s : State} {ref : TaskRef} {deadline : Option Time}
    {waiter : Waiter} (hpc : s.pc = .waiting ref deadline waiter) (hwoken : waiter ≠ .pending)
    (hserved : s.served ref deadline) : GoesOn body s := by
  have hstep : ∃ s₁, step body s .wake = some s₁ ∧ s₁.pc = .looking ref deadline ∧
      s₁.index = s.index ∧ s₁.served ref deadline := by
    cases waiter with
    | pending => exact absurd rfl hwoken
    | cancelled e =>
      simp only [step, hpc]
      exact ⟨_, rfl, rfl, rfl, hserved⟩
    | woken =>
      simp only [step, hpc]
      cases s.mustCancel with
      | none => exact ⟨_, rfl, rfl, rfl, hserved⟩
      | some e => exact ⟨_, rfl, rfl, rfl, hserved⟩
  obtain ⟨s₁, hstep, hpc₁, hindex, hserved₁⟩ := hstep
  exact goesOn_cons (.inr (.inl rfl)) hstep hindex (goesOn_looking hpc₁ hserved₁)

/-- Nothing else holds a wait up. -/
theorem Started.goesOn {body : Body} {s : State} (h : Started body s) {ref : TaskRef}
    {deadline : Option Time} (hfor : s.pc.waitsFor = some (ref, deadline))
    (hserved : s.served ref deadline) : GoesOn body s := by
  cases hpc : s.pc with
  | next =>
    rw [hpc] at hfor
    cases hfor
  | left exit =>
    rw [hpc] at hfor
    cases hfor
  | looking ref' deadline' =>
    rw [hpc] at hfor
    cases hfor
    exact goesOn_looking hpc hserved
  | waiting ref' deadline' waiter =>
    rw [hpc] at hfor
    cases hfor
    by_cases hwoken : waiter = .pending
    · rw [hwoken] at hpc
      obtain ⟨d, rfl, hpassed⟩ := hserved.resolve_left (by simp [h.awake ref deadline hpc])
      have hstep : Teardown.step body s .timer =
          some { s with pc := .waiting ref (some d) .woken } := by
        simp only [Teardown.step, hpc]
      refine goesOn_cons (.inl rfl) hstep rfl ?_
      exact goesOn_woken rfl (by simp) (.inr ⟨d, rfl, hpassed⟩)
    · exact goesOn_woken hpc hwoken hserved

/-- What a `Teardown` block promises; its task had been cancelled `before` times when the block
was entered. -/
structure Contract (body : Body) (before : Nat) (s : State) : Prop where
  /-- the waits that are over are those of the calls before the current one, in order -/
  order : s.waits.map (fun w => w.index) =
    (List.range s.index).filter fun n => (body.target n).isSome
  /-- each lasted until its task was done or its own deadline had passed -/
  waits : ∀ w ∈ s.waits, w.Served body
  /-- and not longer -/
  goesOn : ∀ ref deadline, s.pc.waitsFor = some (ref, deadline) → s.served ref deadline →
    GoesOn body s
  /-- a step is started when the block comes to it, and no sooner -/
  started : ∀ n, body.isStep n = true →
    if n < s.frontier then (s.tasks (.step n)).created = true else s.tasks (.step n) = {}
  /-- a step that is done has run; whether an abandoned one had begun is left open -/
  ran : ∀ w ∈ s.waits, body.isStep w.index = true → w.done = true → w.begun = true
  /-- no task's failure or cancellation leaves the block: only its body's own exception, or a
  cancellation of its own task, and then the first one it received -/
  exit : ∀ exit, s.pc = .left exit → s.index = body.calls.length ∧
    exit = if body.raises then .raised
      else if s.received ≠ [] ∨ 0 < before + s.requested then .cancelledError s.received.head?
      else .returned
  /-- it neither cancels its own task nor waits for it -/
  current : (s.tasks .current).cancels = 0 ∧
    (∀ ref deadline, s.pc.waitsFor = some (ref, deadline) → ref ≠ .current) ∧
    ∀ w ∈ s.waits, w.task ≠ .current

theorem Inv.contract {body : Body} {before : Nat} {s : State} (h : Inv body before s) :
    Contract body before s where
  order := h.placed.order
  waits := h.placed.waits
  goesOn _ _ hfor hserved := h.started.goesOn hfor hserved
  started n hstep := by
    split
    · rename_i hlt
      exact h.started.created n hlt hstep
    · rename_i hle
      exact h.started.fresh n (Nat.not_lt.mp hle)
  ran := h.started.ran
  exit exit hpc := by
    refine ⟨h.placed.left (by rw [hpc]; rfl), ?_⟩
    have hexit := h.exit exit (by rw [hpc]; rfl)
    rw [hexit]
    simp only [State.aexit, State.cancelRequested, h.noted.cancelled, h.noted.cancelExc,
      h.noted.cancelling]
    cases s.received with
    | nil => simp
    | cons e rest => simp
  current :=
    ⟨h.started.current,
      fun _ _ hfor => target_ne_current (h.placed.target _ _ hfor).1,
      fun w hw => target_ne_current (h.placed.waits w hw).target⟩

/-- In every run of every block, whatever its tasks do and however often its own task is
cancelled. -/
theorem block_contract {body : Body} {now cancelling : Nat} {mustCancel : Option CancelledError}
    {others : Nat → Task} {s : State}
    (h : Reachable (step body) (.start now cancelling mustCancel others) s) :
    Contract body cancelling s := by
  have hinv : Inv body cancelling s :=
    h.invariant (.init body now cancelling mustCancel others) fun _ _ _ hinv _ hstep =>
      hinv.step hstep
  exact hinv.contract

/-- Outside a block, only what was thrown during the waits is raised again. -/
theorem raiseIfCancelled_eq {body : Body} {now cancelling : Nat}
    {mustCancel : Option CancelledError} {others : Nat → Task} {s : State}
    (h : Reachable (step body) (.start now cancelling mustCancel others) s) :
    s.raiseIfCancelled =
      if s.received = [] then none else some (.cancelledError s.received.head?) := by
  have hnoted : Noted cancelling s :=
    h.invariant ⟨rfl, rfl, rfl⟩ fun _ _ _ hinv _ hstep => hinv.step hstep
  simp only [State.raiseIfCancelled, hnoted.cancelled, hnoted.cancelExc]
  cases s.received with
  | nil => rfl
  | cons e rest => simp

/-- A step that hangs and a child that is cancelled. -/
def hangs : Body where
  calls := [.step (some 2), .cancel (some (.other 0)) none]
  raises := false
  handed := rfl

/-- The closer is cancelled twice; the step is abandoned at its deadline, the child ends
cancelled. -/
def closedWhileCancelled : List Action :=
  [.advance, .advance, .begin (.step 0), .cancelCloser 7, .wake, .advance, .cancelCloser 8, .tick,
    .tick, .wake, .advance, .advance, .advance, .finish (.other 0) .cancelled, .wake, .advance,
    .advance]

theorem block_contract_cancelled :
    ∃ s, Reachable (step hangs) (.start 0 0 none fun _ => { created := true, begun := true }) s ∧
      s.pc = .left (.cancelledError (some 7)) ∧ s.received = [7, 8] ∧
      s.waits.map (fun w => (w.index, w.done)) = [(0, false), (1, true)] ∧
      Contract hangs 0 s := by
  have hrun : Reachable (step hangs)
      (.start 0 0 none fun _ => { created := true, begun := true })
      ((run (step hangs) (.start 0 0 none fun _ => { created := true, begun := true })
        closedWhileCancelled).get rfl) :=
    reachable_of_run (Option.some_get _).symm
  exact ⟨_, hrun, rfl, rfl, rfl, block_contract hrun⟩

end Teardown
