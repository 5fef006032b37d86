-- SUMMARY: `POST /v1/chat/completions`: the plain response and the streamed one, and how the session of each is closed.
import JotaGateway.Base.Transition
import JotaGateway.Bridge.CloseAll
import JotaGateway.Python.JsonText
import JotaGateway.Services.Orchestration

/-!
# chat_completions

The plain path is one coroutine. The streamed path is two: the generator of the
response, which the server pulls and closes, and the task of the turn, which
puts its chunks on a queue. `PipelineTracker` has no sender here, so none of its
methods suspends, and the queue has no bound: the end of the task, with the
sentinel and the close of the tracker, is one step.
-/

namespace Completions

open CallOrchestrator Bridge

-- ---------------------------------------------------------------------------
-- The turn
-- ---------------------------------------------------------------------------

/-- The call of a turn, and the tokens `_on_token` was given. -/
structure Turn where
  phase : Phase := .streaming
  tokens : List PyStr := []

/-- `_on_token` returns at once, and there is no `on_tool_call`. -/
def Turn.advance (turn : Turn) (move : StreamMove) : Option Turn :=
  (turn.phase.advance false move).bind fun phase =>
    match phase with
    | .onToken text =>
      (phase.callback none).map fun phase => { phase, tokens := turn.tokens ++ [text] }
    | _ => some { turn with phase }

/-- The `status` the tracker is closed with. -/
def Turn.status (turn : Turn) : SessionStatus :=
  if turn.phase.completed then .completed else .error

/-- `error_message` of the exception, where a handler catches it. -/
def caught : Phase → Option PyStr
  | .raised (.orchestratorError content) => some content
  | .raised .base => none
  | .raised _ => some (py "internal_error")
  | _ => none

-- ---------------------------------------------------------------------------
-- The plain path
-- ---------------------------------------------------------------------------

inductive Response where
  | completion (content : PyStr) (completionTokens : Nat)
  | failure (statusCode : Nat) (error : PyStr)
  /-- the handler raises what the orchestrator raised -/
  | raised
  /-- the handler raises `UnicodeEncodeError` -/
  | unrendered

/-- `text.encode("utf-8")` does not raise: it has no lone surrogate. -/
def encodable (text : PyStr) : Bool := text.all JsonText.isScalar

/-- `JSONResponse(…)`, whose `render` leaves `text` as it is (`ensure_ascii=False`) and encodes it. -/
def jsonResponse (text : PyStr) (response : Response) : Response :=
  if encodable text then response else .unrendered

def Turn.response (turn : Turn) : Response :=
  match turn.phase with
  | .raised .base => .raised
  | _ =>
    match caught turn.phase with
    | some error =>
      jsonResponse error (.failure (if error = py "turn_in_progress" then 409 else 502) error)
    | none =>
      jsonResponse turn.tokens.flatten (.completion turn.tokens.flatten turn.tokens.length)

/-- A plain request that is over; its `finally` closed the tracker before there was a response. -/
structure Plain where
  response : Response
  /-- the statuses the tracker was closed with -/
  closes : List SessionStatus

/-- The plain path over what the orchestrator does; `none` while the call goes on. -/
def plain (moves : List StreamMove) : Option Plain :=
  (Transition.run Turn.advance {} moves).bind fun turn =>
    if turn.phase.ended then some { response := turn.response, closes := [turn.status] } else none

-- ---------------------------------------------------------------------------
-- The streamed path
-- ---------------------------------------------------------------------------

inductive FinishReason where
  | stop
  | error
deriving DecidableEq

/-- A chunk of the response: what follows `data: `. -/
inductive Chunk where
  | delta (content : PyStr)
  | error (message : PyStr)
  | finish (reason : FinishReason)
  | done
deriving DecidableEq

/-- Where the generator is suspended. -/
inductive GenPhase where
  | unstarted
  /-- at `queue.get` -/
  | reading
  /-- at the yield of a queued chunk -/
  | yielded
  /-- its `finally` waits for the cancelled task -/
  | stopping
  /-- at the yield of a closing chunk, with the rest of them to go -/
  | tail (rest : List Chunk)
  | finished
  | closed
deriving DecidableEq

structure Stream where
  gen : GenPhase := .unstarted
  /-- `_run`, once `create_task` made it -/
  task : Option Turn := none
  queue : List (Option Chunk) := []
  /-- `error_message`, where `orchestrator_error` is set -/
  error : Option PyStr := none
  /-- the chunks the server was given -/
  sent : List Chunk := []
  /-- the statuses the tracker was closed with -/
  closes : List SessionStatus := []

/-- The chunks that follow the sentinel. -/
def closingChunks : Option PyStr → List Chunk
  | some message => [.error message, .finish .error, .done]
  | none => [.finish .stop, .done]

inductive Action where
  /-- `__anext__`, from a yield or at the start -/
  | pull
  /-- `queue.get` returns -/
  | take
  /-- the task goes on: its call is moved -/
  | run (move : StreamMove)
  /-- the response is closed, or cancelled where it is suspended -/
  | close
  /-- `asyncio.wait` returns -/
  | waited

namespace Stream

/-- The next closing chunk is given to the server. -/
def emitTail (s : Stream) : List Chunk → Stream
  | [] => { s with gen := .finished }
  | chunk :: rest => { s with gen := .tail rest, sent := s.sent ++ [chunk] }

/-- `_run` after a move of its call. -/
def runTask (s : Stream) (turn : Turn) (move : StreamMove) : Option Stream :=
  (turn.advance move).map fun turn' =>
    let put := (turn'.tokens.drop turn.tokens.length).map fun text => some (Chunk.delta text)
    if turn'.phase.ended then
      { s with
        task := some turn'
        queue := s.queue ++ put ++ [none]
        error := caught turn'.phase
        closes := s.closes ++ [turn'.status] }
    else
      { s with task := some turn', queue := s.queue ++ put }

/-- The task is done, or there is none. -/
def taskOver (s : Stream) : Bool := s.task.all fun turn => turn.phase.ended

/-- The loop takes the first step of `_run` before a later cancellation reaches the
generator, so a created task has always started. -/
def step (s : Stream) (a : Action) : Option Stream :=
  match a, s.gen with
  | .pull, .unstarted => some { s with gen := .reading, task := some {} }
  | .pull, .yielded => some { s with gen := .reading }
  | .pull, .tail rest => some (s.emitTail rest)
  | .take, .reading =>
    match s.queue with
    | [] => none
    | some chunk :: queue =>
      some { s with gen := .yielded, queue, sent := s.sent ++ [chunk] }
    | none :: queue =>
      -- the sentinel is put where the task ends: there is nothing to cancel
      some ({ s with queue }.emitTail (closingChunks s.error))
  | .run move, _ =>
    match s.task with
    | none => none
    | some turn => s.runTask turn move
  -- the body of a generator that was never pulled does not run
  | .close, .unstarted => some { s with gen := .closed }
  | .close, .reading | .close, .yielded =>
    some { s with gen := if s.taskOver then .closed else .stopping }
  | .close, .stopping => some { s with gen := .closed }
  | .close, .tail _ => some { s with gen := .closed }
  | .waited, .stopping => if s.taskOver then some { s with gen := .closed } else none
  | _, _ => none

/-- The response is over, and so is its task. -/
def ended (s : Stream) : Bool := (s.gen == .finished || s.gen == .closed) && s.taskOver

end Stream

-- ---------------------------------------------------------------------------
-- One move of a call
-- ---------------------------------------------------------------------------

/-- What the orchestrator raises is not an `Exception`. -/
def raisesBase : StreamMove → Bool
  | .raises .base | .closeRaises .base => true
  | _ => false

/-- A call that ended in an exception that no handler catches. -/
def uncaught : Phase → Bool
  | .raised .base => true
  | _ => false

/-- Where the call of a turn may be between two moves. -/
def Turn.Sound (turn : Turn) : Prop :=
  match turn.phase with
  | .streaming | .closing (.orchestratorError _) | .returned | .raised _ => True
  | _ => False

variable {turn turn' : Turn} {move : StreamMove}

/-- A move of a call that goes on: some tokens more, and an exception that no handler catches
only where the orchestrator raised it. -/
theorem Turn.advance_spec (hsound : turn.Sound) (h : turn.advance move = some turn') :
    turn.phase.ended = false ∧ turn'.Sound ∧ uncaught turn'.phase = raisesBase move ∧
    ∃ put, turn'.tokens = turn.tokens ++ put := by
  obtain ⟨phase, tokens⟩ := turn
  unfold Turn.Sound at hsound
  simp only [Turn.advance, Option.bind_eq_some_iff] at h
  obtain ⟨next, hnext, h⟩ := h
  split at hsound
  · rename_i hphase
    cases hphase
    refine ⟨rfl, ?_⟩
    cases move with
    | event e =>
      cases e with
      | token text =>
        cases hnext
        cases h
        exact ⟨trivial, rfl, [text], rfl⟩
      | toolCall call | status content | error content =>
        cases hnext
        cases h
        exact ⟨trivial, rfl, [], (List.append_nil _).symm⟩
    | exhausted =>
      cases hnext
      cases h
      exact ⟨trivial, rfl, [], (List.append_nil _).symm⟩
    | raises e =>
      cases hnext
      cases h
      exact ⟨trivial, by cases e <;> rfl, [], (List.append_nil _).symm⟩
    | closed | closeRaises e => cases hnext
  · rename_i content hphase
    cases hphase
    refine ⟨rfl, ?_⟩
    cases move with
    | closed =>
      cases hnext
      cases h
      exact ⟨trivial, rfl, [], (List.append_nil _).symm⟩
    | closeRaises e =>
      cases hnext
      cases h
      exact ⟨trivial, by cases e <;> rfl, [], (List.append_nil _).symm⟩
    | event e => cases e <;> cases hnext
    | exhausted | raises e => cases hnext
  · rename_i hphase
    cases hphase
    cases move with
    | event e => cases e <;> cases hnext
    | exhausted | raises e | closed | closeRaises e => cases hnext
  · rename_i hphase
    cases hphase
    cases move with
    | event e => cases e <;> cases hnext
    | exhausted | raises e | closed | closeRaises e => cases hnext
  · exact hsound.elim

/-- A call that has not ended left no exception. -/
theorem caught_of_not_ended {phase : Phase} (h : phase.ended = false) : caught phase = none := by
  cases phase with
  | raised e => cases h
  | streaming | onToken | onToolCall | closing | returned => rfl

-- ---------------------------------------------------------------------------
-- The two coroutines
-- ---------------------------------------------------------------------------

def Turn.chunks (turn : Turn) : List Chunk := turn.tokens.map .delta

namespace Stream

/-- What the server was given, and what it is still to be given, by where the generator is. -/
def Served (s : Stream) (turn : Turn) : Prop :=
  match s.gen with
  | .unstarted => False
  | .reading | .yielded =>
    s.sent.map some ++ s.queue =
      turn.chunks.map some ++ if turn.phase.ended then [none] else []
  | .tail rest =>
    turn.phase.ended = true ∧ s.sent ++ rest = turn.chunks ++ closingChunks s.error
  | .finished => turn.phase.ended = true ∧ s.sent = turn.chunks ++ closingChunks s.error
  | .stopping | .closed => True

/-- The response has a task. -/
structure Running (s : Stream) (turn : Turn) : Prop where
  sound : turn.Sound
  closes : s.closes = if turn.phase.ended then [turn.status] else []
  error : s.error = caught turn.phase
  served : s.Served turn

/-- The response has none: it was not pulled. -/
structure Idle (s : Stream) : Prop where
  gen : s.gen = .unstarted ∨ s.gen = .closed
  queue : s.queue = []
  error : s.error = none
  sent : s.sent = []
  closes : s.closes = []

def Inv (s : Stream) : Prop :=
  match s.task with
  | none => s.Idle
  | some turn => s.Running turn

variable {s s' : Stream} {a : Action}

theorem inv_idle (htask : s.task = none) : s.Inv ↔ s.Idle := by
  unfold Inv
  rw [htask]

theorem inv_running (htask : s.task = some turn) : s.Inv ↔ s.Running turn := by
  unfold Inv
  rw [htask]

theorem Running.not_unstarted (h : s.Running turn) : s.gen ≠ .unstarted := by
  intro hgen
  have hserved := h.served
  unfold Served at hserved
  rw [hgen] at hserved
  exact hserved

/-- The task puts tokens on the queue, and at the end the sentinel. -/
theorem Served.put {put : List PyStr} (h : s.Served turn) (hgoing : turn.phase.ended = false)
    (hput : turn'.tokens = turn.tokens ++ put) (hgen : s'.gen = s.gen) (hsent : s'.sent = s.sent)
    (hqueue : s'.queue = s.queue ++ (put.map fun text => some (Chunk.delta text)) ++
      if turn'.phase.ended then [none] else []) : s'.Served turn' := by
  have hread : s.sent.map some ++ s.queue = turn.chunks.map some →
      s'.sent.map some ++ s'.queue =
        turn'.chunks.map some ++ if turn'.phase.ended then [none] else [] := by
    intro hserved
    rw [hsent, hqueue, ← List.append_assoc, ← List.append_assoc, hserved]
    simp only [Turn.chunks, hput, List.map_append, List.map_map]
    rfl
  unfold Served at h ⊢
  rw [hgen]
  rw [hgoing] at h
  cases hphase : s.gen with
  | unstarted | tail rest | finished => simp [hphase] at h
  | reading | yielded =>
    rw [hphase] at h
    simp only [Bool.false_eq_true, if_false, List.append_nil] at h
    exact hread h
  | stopping | closed => trivial

/-- A move of the task. -/
theorem Running.runTask (h : s.Running turn) (hrun : s.runTask turn move = some s') :
    ∃ turn', turn.advance move = some turn' ∧ s'.task = some turn' ∧ s'.gen = s.gen ∧
      s'.Running turn' := by
  simp only [Stream.runTask, Option.map_eq_some_iff] at hrun
  obtain ⟨turn', hadvance, hs'⟩ := hrun
  obtain ⟨hgoing, hsound, -, put, hput⟩ := Turn.advance_spec h.sound hadvance
  have hdrop : turn'.tokens.drop turn.tokens.length = put := by rw [hput, List.drop_left]
  have hcloses : s.closes = [] := by
    rw [h.closes, hgoing]
    rfl
  refine ⟨turn', hadvance, ?_⟩
  rw [hdrop] at hs'
  cases hended : turn'.phase.ended with
  | true =>
    rw [hended, if_pos rfl] at hs'
    subst hs'
    refine ⟨rfl, rfl, hsound, ?_, rfl, ?_⟩
    · simp [hcloses, hended]
    · refine h.served.put hgoing hput rfl rfl ?_
      rw [hended]
      rfl
  | false =>
    rw [hended, if_neg Bool.false_ne_true] at hs'
    subst hs'
    refine ⟨rfl, rfl, hsound, ?_, ?_, ?_⟩
    · simp [hcloses, hended]
    · exact h.error.trans ((caught_of_not_ended hgoing).trans (caught_of_not_ended hended).symm)
    · refine h.served.put hgoing hput rfl rfl ?_
      rw [hended]
      exact (List.append_nil _).symm

/-- What an action of a response may be. -/
inductive StepCase (s : Stream) (a : Action) (s' : Stream) : Prop where
  /-- the first pull makes the task -/
  | create (ha : a = .pull) (hgen : s.gen = .unstarted)
      (hs' : s' = { s with gen := .reading, task := some {} })
  | move (m : StreamMove) (turn : Turn) (ha : a = .run m) (htask : s.task = some turn)
      (hrun : s.runTask turn m = some s')
  /-- the generator goes on, or is closed -/
  | generator (hmove : ∀ m, a ≠ .run m) (hgen : s.gen ≠ .unstarted ∧ s.gen ≠ .closed)
      (htask : s'.task = s.task)
      (hcloses : s'.closes = s.closes) (herror : s'.error = s.error)
      (hserved : ∀ turn, s.Served turn → s'.Served turn)
      (hclosed : (s'.gen = .stopping ∨ s'.gen = .closed) ↔
        (s.gen = .stopping ∨ s.gen = .closed) ∨ a = .close)
  | refuse (ha : a = .close) (hgen : s.gen = .unstarted) (hs' : s' = { s with gen := .closed })

/-- What is read up to the sentinel is all that was put. -/
theorem eq_of_sentinel {sent put : List Chunk} {queue sentinel : List (Option Chunk)}
    (hsentinel : sentinel = [none] ∨ sentinel = [])
    (h : sent.map some ++ none :: queue = put.map some ++ sentinel) :
    sentinel = [none] ∧ sent = put := by
  induction sent generalizing put with
  | nil =>
    cases put with
    | nil =>
      cases hsentinel with
      | inl hnone => exact ⟨hnone, rfl⟩
      | inr hnil =>
        rw [hnil] at h
        cases h
    | cons chunk put => cases h
  | cons chunk sent ih =>
    cases put with
    | nil =>
      cases hsentinel with
      | inl hnone =>
        rw [hnone] at h
        cases h
      | inr hnil =>
        rw [hnil] at h
        cases h
    | cons chunk' put =>
      simp only [List.map_cons, List.cons_append, List.cons.injEq, Option.some.injEq] at h
      obtain ⟨rfl, hrest⟩ := h
      obtain ⟨hnone, rfl⟩ := ih hrest
      exact ⟨hnone, rfl⟩

theorem served_emitTail {rest : List Chunk} (hended : turn.phase.ended = true)
    (h : s.sent ++ rest = turn.chunks ++ closingChunks s.error) : (s.emitTail rest).Served turn := by
  cases rest with
  | nil => exact ⟨hended, by simpa [emitTail] using h⟩
  | cons chunk rest => exact ⟨hended, by simpa [emitTail] using h⟩

/-- The generator reads the sentinel: the task is done, and its chunks were all given. -/
theorem served_sentinel {queue : List (Option Chunk)} (hgen : s.gen = .reading)
    (hqueue : s.queue = none :: queue) (h : s.Served turn) :
    (({ s with queue } : Stream).emitTail (closingChunks s.error)).Served turn := by
  simp only [Served, hgen, hqueue] at h
  have hsplit : (if turn.phase.ended then [none] else ([] : List (Option Chunk))) = [none] ∧
      s.sent = turn.chunks := by
    apply eq_of_sentinel _ h
    cases turn.phase.ended with
    | true => exact .inl rfl
    | false => exact .inr rfl
  have hended : turn.phase.ended = true := by
    cases hended : turn.phase.ended with
    | true => rfl
    | false =>
      rw [hended] at hsplit
      cases hsplit.1
  apply served_emitTail hended
  rw [← hsplit.2]

theorem step_cases (h : s.step a = some s') : StepCase s a s' := by
  have htail : ∀ (s : Stream) rest, (s.emitTail rest).task = s.task ∧
      (s.emitTail rest).closes = s.closes ∧ (s.emitTail rest).error = s.error ∧
      (s.emitTail rest).gen ≠ .stopping ∧ (s.emitTail rest).gen ≠ .closed := by
    intro s rest
    cases rest <;> simp [emitTail]
  cases a with
  | run m =>
    unfold step at h
    cases htask : s.task with
    | none => simp [htask] at h
    | some turn =>
      simp only [htask] at h
      exact .move m turn rfl htask h
  | pull =>
    cases hgen : s.gen with
    | unstarted =>
      simp only [step, hgen] at h
      cases h
      exact .create rfl hgen rfl
    | yielded =>
      simp only [step, hgen] at h
      cases h
      refine .generator (by rintro m ⟨⟩) (by simp [hgen]) rfl rfl rfl ?_ (by simp [hgen])
      intro turn hserved
      simpa only [Served, hgen] using hserved
    | tail rest =>
      simp only [step, hgen] at h
      cases h
      obtain ⟨htask, hcloses, herror, hstopping, hclosed⟩ := htail s rest
      refine .generator (by rintro m ⟨⟩) (by simp [hgen]) htask hcloses herror ?_
        (by simp [hgen, hstopping, hclosed])
      intro turn hserved
      simp only [Served, hgen] at hserved
      exact served_emitTail hserved.1 hserved.2
    | reading | stopping | finished | closed => simp [step, hgen] at h
  | take =>
    cases hgen : s.gen with
    | reading =>
      simp only [step, hgen] at h
      split at h
      · cases h
      · rename_i chunk queue hqueue
        cases h
        refine .generator (by rintro m ⟨⟩) (by simp [hgen]) rfl rfl rfl ?_ (by simp [hgen])
        intro turn hserved
        simp only [Served, hgen, hqueue] at hserved ⊢
        rw [← hserved]
        simp
      · rename_i queue hqueue
        cases h
        obtain ⟨htask, hcloses, herror, hstopping, hclosed⟩ :=
          htail { s with queue } (closingChunks s.error)
        refine .generator (by rintro m ⟨⟩) (by simp [hgen]) htask hcloses herror ?_ ?_
        · intro turn hserved
          exact served_sentinel hgen hqueue hserved
        · constructor
          · rintro (h | h)
            · exact absurd h hstopping
            · exact absurd h hclosed
          · rintro ((h | h) | h)
            · rw [hgen] at h
              cases h
            · rw [hgen] at h
              cases h
            · cases h
    | unstarted | yielded | stopping | tail rest | finished | closed => simp [step, hgen] at h
  | close =>
    cases hgen : s.gen with
    | unstarted =>
      simp only [step, hgen] at h
      cases h
      exact .refuse rfl hgen rfl
    | reading | yielded =>
      simp only [step, hgen] at h
      cases h
      refine .generator (by rintro m ⟨⟩) (by simp [hgen]) rfl rfl rfl ?_ ?_
      · intro turn _
        cases hover : s.taskOver <;> simp [Served]
      · cases hover : s.taskOver <;> simp
    | stopping | tail rest =>
      simp only [step, hgen] at h
      cases h
      exact .generator (by rintro m ⟨⟩) (by simp [hgen]) rfl rfl rfl (fun _ _ => trivial) (by simp)
    | finished | closed => simp [step, hgen] at h
  | waited =>
    cases hgen : s.gen with
    | stopping =>
      simp only [step, hgen] at h
      split at h
      · cases h
        exact .generator (by rintro m ⟨⟩) (by simp [hgen]) rfl rfl rfl (fun _ _ => trivial)
          (by simp [hgen])
      · cases h
    | unstarted | reading | yielded | tail rest | finished | closed => simp [step, hgen] at h

theorem inv_start : ({} : Stream).Inv := ⟨.inl rfl, rfl, rfl, rfl, rfl⟩

theorem inv_step (h : s.Inv) (hstep : s.step a = some s') : s'.Inv := by
  cases step_cases hstep with
  | create ha hgen hs' =>
    subst hs'
    cases htask : s.task with
    | none =>
      have hidle := (inv_idle htask).mp h
      have hnew : Running { s with gen := .reading, task := some {} } {} := by
        refine ⟨trivial, hidle.closes, hidle.error, ?_⟩
        simp [Served, hidle.sent, hidle.queue, Turn.chunks, Phase.ended]
      exact (inv_running rfl).mpr hnew
    | some turn => exact absurd hgen ((inv_running htask).mp h).not_unstarted
  | move m turn ha htask hrun =>
    obtain ⟨turn', -, htask', -, hrunning⟩ := ((inv_running htask).mp h).runTask hrun
    exact (inv_running htask').mpr hrunning
  | generator hmove hgen htask hcloses herror hserved hclosed =>
    cases hold : s.task with
    | none =>
      cases ((inv_idle hold).mp h).gen with
      | inl hunstarted => exact absurd hunstarted hgen.1
      | inr hclosed => exact absurd hclosed hgen.2
    | some turn =>
      have hrunning := (inv_running hold).mp h
      refine (inv_running (htask.trans hold)).mpr ⟨hrunning.sound, ?_, ?_, ?_⟩
      · exact hcloses.trans hrunning.closes
      · exact herror.trans hrunning.error
      · exact hserved turn hrunning.served
  | refuse ha hgen hs' =>
    subst hs'
    cases htask : s.task with
    | none =>
      have hidle := (inv_idle htask).mp h
      exact (inv_idle rfl).mpr ⟨.inr rfl, hidle.queue, hidle.error, hidle.sent, hidle.closes⟩
    | some turn => exact absurd hgen ((inv_running htask).mp h).not_unstarted

theorem Idle.task_none (h : s.Inv) (hgen : s.gen = .unstarted) : s.task = none := by
  cases htask : s.task with
  | none => rfl
  | some turn => exact absurd hgen ((inv_running htask).mp h).not_unstarted

-- ---------------------------------------------------------------------------
-- Whole runs
-- ---------------------------------------------------------------------------

/-- A task is made by the first pull. -/
theorem step_pulled (h : s.Inv) (hstep : s.step a = some s') :
    s'.task.isSome = true ↔ s.task.isSome = true ∨ a = .pull := by
  cases step_cases hstep with
  | create ha hgen hs' => simp [hs', ha]
  | move m turn ha htask hrun =>
    obtain ⟨turn', -, htask', -⟩ := ((inv_running htask).mp h).runTask hrun
    simp [htask, htask']
  | generator hmove hgen htask hcloses herror hserved hclosed =>
    rw [htask]
    cases hold : s.task with
    | none =>
      cases ((inv_idle hold).mp h).gen with
      | inl hunstarted => exact absurd hunstarted hgen.1
      | inr hclosed => exact absurd hclosed hgen.2
    | some turn => simp
  | refuse ha hgen hs' => simp [hs', ha]

/-- The response was closed before its end. -/
def Cut (s : Stream) : Prop := s.gen = .stopping ∨ s.gen = .closed

theorem step_cut (h : s.Inv) (hstep : s.step a = some s') : s'.Cut ↔ s.Cut ∨ a = .close := by
  cases step_cases hstep with
  | create ha hgen hs' => simp [Cut, hs', ha, hgen]
  | move m turn ha htask hrun =>
    obtain ⟨turn', -, -, hgen, -⟩ := ((inv_running htask).mp h).runTask hrun
    simp [Cut, hgen, ha]
  | generator hmove hgen htask hcloses herror hserved hclosed => exact hclosed
  | refuse ha hgen hs' => simp [Cut, hs', ha]

/-- No handler of the task caught what it raised. -/
def Uncaught (s : Stream) : Prop := ∃ turn, s.task = some turn ∧ uncaught turn.phase = true

theorem step_uncaught (h : s.Inv) (hstep : s.step a = some s') :
    s'.Uncaught ↔ s.Uncaught ∨ ∃ m, a = .run m ∧ raisesBase m = true := by
  cases step_cases hstep with
  | create ha hgen hs' =>
    have htask := Idle.task_none h hgen
    simp [Uncaught, hs', ha, htask, uncaught]
  | move m turn ha htask hrun =>
    have hrunning := (inv_running htask).mp h
    obtain ⟨turn', hadvance, htask', -⟩ := hrunning.runTask hrun
    obtain ⟨hgoing, -, huncaught, -⟩ := Turn.advance_spec hrunning.sound hadvance
    have hold : uncaught turn.phase = false := by
      cases hphase : turn.phase with
      | raised e =>
        rw [hphase] at hgoing
        cases hgoing
      | streaming | onToken | onToolCall | closing | returned => rfl
    simp [Uncaught, htask, htask', ha, hold, huncaught]
  | generator hmove hgen htask hcloses herror hserved hclosed =>
    have hno : ¬ ∃ m, a = .run m ∧ raisesBase m = true := by
      rintro ⟨m, ha, -⟩
      exact hmove m ha
    simp only [Uncaught, htask, hno, or_false]
  | refuse ha hgen hs' => simp [Uncaught, hs', ha]

/-- What the orchestrator did in a run. -/
def moves (actions : List Action) : List StreamMove :=
  actions.filterMap fun
    | .run move => some move
    | _ => none

theorem run_moves_some {actions : List Action} (h : s.Inv) (htask : s.task = some turn)
    (hrun : Transition.run step s actions = some s') :
    ∃ turn', s'.task = some turn' ∧
      Transition.run Turn.advance turn (moves actions) = some turn' := by
  induction actions generalizing s turn with
  | nil =>
    obtain rfl : s = s' := Option.some.inj hrun
    exact ⟨turn, htask, rfl⟩
  | cons a rest ih =>
    simp only [Transition.run, Option.bind_eq_some_iff] at hrun
    obtain ⟨s₁, hstep, hrest⟩ := hrun
    have hs₁ := inv_step h hstep
    cases step_cases hstep with
    | create ha hgen hs' =>
      rw [Idle.task_none h hgen] at htask
      cases htask
    | move m turn₁ ha hold hmove =>
      rw [hold] at htask
      cases htask
      obtain ⟨turn', hadvance, htask', -⟩ := ((inv_running hold).mp h).runTask hmove
      obtain ⟨last, hlast, hmoves⟩ := ih hs₁ htask' hrest
      refine ⟨last, hlast, ?_⟩
      subst ha
      simpa [moves, Transition.run, hadvance] using hmoves
    | generator hmove hgen htask' hcloses herror hserved hclosed =>
      obtain ⟨last, hlast, hmoves⟩ := ih hs₁ (htask'.trans htask) hrest
      refine ⟨last, hlast, ?_⟩
      cases a with
      | run m => exact absurd rfl (hmove m)
      | pull | take | close | waited => exact hmoves
    | refuse ha hgen hs' =>
      rw [Idle.task_none h hgen] at htask
      cases htask

/-- The task of a response made the moves of the run, from the start of its call. -/
theorem run_moves {actions : List Action} (h : s.Inv) (htask : s.task = none)
    (hrun : Transition.run step s actions = some s') (hturn : s'.task = some turn) :
    Transition.run Turn.advance {} (moves actions) = some turn := by
  induction actions generalizing s with
  | nil =>
    obtain rfl : s = s' := Option.some.inj hrun
    rw [htask] at hturn
    cases hturn
  | cons a rest ih =>
    simp only [Transition.run, Option.bind_eq_some_iff] at hrun
    obtain ⟨s₁, hstep, hrest⟩ := hrun
    have hs₁ := inv_step h hstep
    cases step_cases hstep with
    | create ha hgen hs' =>
      have htask₁ : s₁.task = some {} := by rw [hs']
      obtain ⟨last, hlast, hmoves⟩ := run_moves_some hs₁ htask₁ hrest
      rw [hturn] at hlast
      cases hlast
      subst ha
      exact hmoves
    | move m turn₁ ha hold hmove =>
      rw [hold] at htask
      cases htask
    | generator hmove hgen htask' hcloses herror hserved hclosed =>
      cases ((inv_idle htask).mp h).gen with
      | inl hunstarted => exact absurd hunstarted hgen.1
      | inr hclosed => exact absurd hclosed hgen.2
    | refuse ha hgen hs' =>
      have htask₁ : s₁.task = none := by
        rw [hs']
        exact htask
      subst ha
      exact ih hs₁ htask₁ hrest

end Stream

-- ---------------------------------------------------------------------------
-- The two paths agree
-- ---------------------------------------------------------------------------

/-- The status a session should be closed with, once: `completed` where `call_orchestrator`
returned normally. -/
def owed (phase : Option Phase) : List SessionStatus :=
  [if phase.any Phase.completed then .completed else .error]

/-- The chunks of a response that was read to its end say what the plain response says: its
content, and `stop`; or its error message, and `error`; and `[DONE]`. With a response that was not
rendered nothing agrees. -/
def Agrees (sent : List Chunk) : Response → Prop
  | .completion content _ =>
    ∃ deltas : List PyStr, deltas.flatten = content ∧
      sent = deltas.map .delta ++ [.finish .stop, .done]
  | .failure _ message =>
    ∃ deltas : List PyStr, sent = deltas.map .delta ++ [.error message, .finish .error, .done]
  | .raised =>
    ∃ (deltas : List PyStr) (message : PyStr),
      sent = deltas.map .delta ++ [.error message, .finish .error, .done]
  | .unrendered => False

/-- A streamed request that is over: its session was closed as it should be, and where the
response was read to its end it agrees with the plain one over what the orchestrator did. -/
structure Contract (actions : List Action) (s : Stream) : Prop where
  closed : s.closes = owed (s.task.map Turn.phase)
  agrees : s.gen = .finished →
    ∃ r, plain (Stream.moves actions) = some r ∧ Agrees s.sent r.response

/-- The `status` of the session record. -/
def recordStatus (closes : List SessionStatus) : SessionStatus := closes.getLast?.getD .active

/-- No record stays `active`. -/
theorem Contract.not_active {actions : List Action} {s : Stream} (h : Contract actions s) :
    recordStatus s.closes ≠ .active := by
  rw [h.closed]
  unfold owed
  cases (s.task.map Turn.phase).any Phase.completed with
  | true => decide
  | false => decide

/-- What the plain response of a call has to render. -/
def Turn.text (turn : Turn) : PyStr := (caught turn.phase).getD turn.tokens.flatten

/-- The closing chunks of an ended call agree with its plain response, but for an exception that
no handler caught and a text that cannot be encoded. -/
theorem agrees_iff (hsound : turn.Sound) (hended : turn.phase.ended = true) :
    Agrees (turn.chunks ++ closingChunks (caught turn.phase)) turn.response ↔
      uncaught turn.phase = false ∧ encodable turn.text = true := by
  obtain ⟨phase, tokens⟩ := turn
  cases phase with
  | streaming | onToken | onToolCall | closing => cases hended
  | returned =>
    simp only [Turn.response, Turn.text, caught, jsonResponse, Option.getD_none, uncaught, true_and]
    split
    · rename_i hencodable
      exact iff_of_true ⟨tokens, rfl, rfl⟩ hencodable
    · rename_i hencodable
      exact iff_of_false id hencodable
  | raised e =>
    cases e with
    | base =>
      simp only [uncaught, Bool.true_eq_false, false_and, iff_false]
      rintro ⟨deltas, message, hsent⟩
      have hlast := congrArg (fun chunks => chunks.reverse[1]?) hsent
      simp [caught, closingChunks] at hlast
    | orchestratorError | clientGone | runtimeError | exception =>
      simp only [Turn.response, Turn.text, caught, jsonResponse, Option.getD_some, uncaught, true_and]
      split
      · rename_i hencodable
        exact iff_of_true ⟨tokens, rfl⟩ hencodable
      · rename_i hencodable
        exact iff_of_false id hencodable

-- ---------------------------------------------------------------------------
-- The text of the plain response
-- ---------------------------------------------------------------------------

/-- The last moves of a call, and what becomes of it. -/
inductive Ending : List StreamMove → Phase → Prop where
  | exhausted : Ending [.exhausted] .returned
  | raises (e : Exn) : Ending [.raises e] (.raised e)
  | error (content : PyStr) :
    Ending [.event (.error content), .closed] (.raised (.orchestratorError content))
  | closeRaises (content : PyStr) (e : Exn) :
    Ending [.event (.error content), .closeRaises e] (.raised e)

def token? : OrchestratorEvent → Option PyStr
  | .token text => some text
  | _ => none

/-- The orchestrator has said something that cannot be encoded, and the plain response has to: a
token of a call that returns, or the message of the error it ends with. -/
def Unencodable (moves : List StreamMove) : Prop :=
  (∃ text, encodable text = false ∧ .event (.token text) ∈ moves ∧ .exhausted ∈ moves) ∨
    ∃ content, encodable content = false ∧ (.raises (.orchestratorError content) ∈ moves ∨
      .closeRaises (.orchestratorError content) ∈ moves ∨
        .event (.error content) ∈ moves ∧ .closed ∈ moves)

/-- A call that is over makes no move. -/
theorem run_of_ended {moves : List StreamMove}
    (hrun : Transition.run Turn.advance turn moves = some turn') (hsound : turn.Sound)
    (hended : turn.phase.ended = true) : moves = [] ∧ turn' = turn := by
  cases moves with
  | nil => exact ⟨rfl, (Option.some.inj hrun).symm⟩
  | cons move rest =>
    simp only [Transition.run, Option.bind_eq_some_iff] at hrun
    obtain ⟨next, hadvance, -⟩ := hrun
    obtain ⟨hgoing, -⟩ := Turn.advance_spec hsound hadvance
    rw [hended] at hgoing
    cases hgoing

/-- A call takes events, and then its last moves. -/
theorem run_ending {moves : List StreamMove} {tokens : List PyStr}
    (hrun : Transition.run Turn.advance { phase := .streaming, tokens } moves = some turn)
    (hended : turn.phase.ended = true) :
    ∃ (events : List OrchestratorEvent) (last : List StreamMove),
      moves = events.map .event ++ last ∧ Ending last turn.phase ∧
      (∀ content, .error content ∉ events) ∧ turn.tokens = tokens ++ events.filterMap token? := by
  induction moves generalizing tokens with
  | nil =>
    obtain rfl := Option.some.inj hrun
    cases hended
  | cons move rest ih =>
    simp only [Transition.run, Option.bind_eq_some_iff] at hrun
    obtain ⟨next, hadvance, hrest⟩ := hrun
    cases move with
    | event e =>
      cases e with
      | token text =>
        cases hadvance
        obtain ⟨events, last, rfl, hlast, hno, htokens⟩ := ih hrest
        refine ⟨.token text :: events, last, rfl, hlast, by simpa using hno, ?_⟩
        rw [htokens, List.append_assoc]
        rfl
      | toolCall call =>
        cases hadvance
        obtain ⟨events, last, rfl, hlast, hno, htokens⟩ := ih hrest
        exact ⟨.toolCall call :: events, last, rfl, hlast, by simpa using hno, htokens⟩
      | status content =>
        cases hadvance
        obtain ⟨events, last, rfl, hlast, hno, htokens⟩ := ih hrest
        exact ⟨.status content :: events, last, rfl, hlast, by simpa using hno, htokens⟩
      | error content =>
        -- `aclosing` closes the stream before the exception leaves
        cases hadvance
        cases rest with
        | nil =>
          obtain rfl := Option.some.inj hrest
          cases hended
        | cons move rest =>
          simp only [Transition.run, Option.bind_eq_some_iff] at hrest
          obtain ⟨next, hadvance, hrest⟩ := hrest
          cases move with
          | closed =>
            cases hadvance
            obtain ⟨rfl, rfl⟩ := run_of_ended hrest trivial rfl
            exact ⟨[], _, rfl, .error content, by simp, (List.append_nil _).symm⟩
          | closeRaises e =>
            cases hadvance
            obtain ⟨rfl, rfl⟩ := run_of_ended hrest trivial rfl
            exact ⟨[], _, rfl, .closeRaises content e, by simp, (List.append_nil _).symm⟩
          | event e => cases e <;> cases hadvance
          | exhausted | raises e => cases hadvance
    | exhausted =>
      cases hadvance
      obtain ⟨rfl, rfl⟩ := run_of_ended hrest trivial rfl
      exact ⟨[], _, rfl, .exhausted, by simp, (List.append_nil _).symm⟩
    | raises e =>
      cases hadvance
      obtain ⟨rfl, rfl⟩ := run_of_ended hrest trivial rfl
      exact ⟨[], _, rfl, .raises e, by simp, (List.append_nil _).symm⟩
    | closed | closeRaises e => cases hadvance

theorem encodable_flatten {tokens : List PyStr} :
    encodable tokens.flatten = false ↔ ∃ text ∈ tokens, encodable text = false := by
  simp [encodable, List.all_flatten]

theorem mem_tokens {events : List OrchestratorEvent} {text : PyStr} :
    text ∈ events.filterMap token? ↔ .token text ∈ events := by
  simp only [List.mem_filterMap]
  constructor
  · rintro ⟨e, he, htoken⟩
    cases e with
    | token text =>
      cases htoken
      exact he
    | toolCall call | status content | error content => cases htoken
  · intro he
    exact ⟨_, he, rfl⟩

/-- The message of the exceptions that have none of their own is plain ASCII. -/
theorem text_caught {e : Exn} (h : uncaught (.raised e) = false) {tokens : List PyStr} :
    encodable ({ phase := .raised e, tokens } : Turn).text = false ↔
      ∃ content, encodable content = false ∧ .orchestratorError content = e := by
  cases e with
  | base => cases h
  | orchestratorError content => simp [Turn.text, caught]
  | clientGone | runtimeError text | exception text =>
    have hplain : encodable (py "internal_error") = true := by decide
    simp [Turn.text, caught, hplain]

/-- The plain response of a call is not rendered exactly where the orchestrator said something
that cannot be encoded. -/
theorem unencodable_iff {moves : List StreamMove}
    (hrun : Transition.run Turn.advance {} moves = some turn) (hended : turn.phase.ended = true)
    (hcaught : uncaught turn.phase = false) :
    Unencodable moves ↔ encodable turn.text = false := by
  obtain ⟨events, last, rfl, hlast, hno, htokens⟩ := run_ending hrun hended
  obtain ⟨phase, tokens⟩ := turn
  obtain rfl : tokens = events.filterMap token? := htokens
  cases hlast with
  | exhausted =>
    have htext : ({ phase := .returned, tokens := events.filterMap token? } : Turn).text =
        (events.filterMap token?).flatten := rfl
    rw [htext, encodable_flatten]
    simp only [mem_tokens]
    simp [Unencodable, hno, and_comm]
  | raises e =>
    rw [text_caught hcaught]
    simp [Unencodable, hno]
  | error content =>
    rw [text_caught hcaught]
    simp [Unencodable, hno]
  | closeRaises content e =>
    rw [text_caught hcaught]
    simp [Unencodable, hno]

-- ---------------------------------------------------------------------------
-- The contract
-- ---------------------------------------------------------------------------

/-- The closing of a response with a task is as it should be once the call is over. -/
theorem closed_of_ended {s : Stream} (hrunning : s.Running turn) (htask : s.task = some turn)
    (hended : turn.phase.ended = true) : s.closes = owed (s.task.map Turn.phase) := by
  rw [hrunning.closes, hended, htask]
  rfl

/-- A response that was read to its end agrees with the plain one but for what the plain path does
not catch or cannot encode. -/
theorem contract_finished {actions : List Action} {s : Stream} (hrunning : s.Running turn)
    (htask : s.task = some turn) (hfinished : s.gen = .finished) (hended : turn.phase.ended = true)
    (hmoves : Transition.run Turn.advance {} (Stream.moves actions) = some turn) :
    Contract actions s ↔ uncaught turn.phase = false ∧ encodable turn.text = true := by
  have hserved := hrunning.served
  simp only [Stream.Served, hfinished] at hserved
  have hplain : plain (Stream.moves actions) =
      some { response := turn.response, closes := [turn.status] } := by
    simp [plain, hmoves, hended]
  rw [← agrees_iff hrunning.sound hended, ← hrunning.error, ← hserved.2]
  constructor
  · intro h
    obtain ⟨r, hr, hagrees⟩ := h.agrees hfinished
    rw [hplain] at hr
    cases hr
    exact hagrees
  · intro hagrees
    exact ⟨closed_of_ended hrunning htask hended, fun _ => ⟨_, hplain, hagrees⟩⟩

/-- The plain path always closes its session as it should. The streamed one does, and agrees
with it, exactly where the response was pulled, and was closed before its end if the
orchestrator raised something that is no `Exception` or the plain response has a text that
cannot be encoded. -/
theorem completions_contract_iff (moves : List StreamMove) (actions : List Action) (s : Stream)
    (hrun : Transition.run Stream.step {} actions = some s) (hover : s.ended = true) :
    (∀ turn r, Transition.run Turn.advance {} moves = some turn → plain moves = some r →
      r.closes = owed (some turn.phase)) ∧
    (Contract actions s ↔
      .pull ∈ actions ∧
        ((∃ m, .run m ∈ actions ∧ raisesBase m = true) → .close ∈ actions) ∧
        (Unencodable (Stream.moves actions) → .close ∈ actions)) := by
  constructor
  · intro turn r hmoves hplain
    simp only [plain, hmoves, Option.bind_some, Option.ite_none_right_eq_some] at hplain
    rw [← Option.some.inj hplain.2]
    rfl
  · have hstart := Stream.inv_start
    have hinv : s.Inv := (Transition.reachable_of_run hrun).invariant hstart
      fun _ _ _ h _ hstep => Stream.inv_step h hstep
    have hkeep : ∀ s a s', Stream.Inv s → Stream.step s a = some s' → s'.Inv :=
      fun _ _ _ h hstep => Stream.inv_step h hstep
    have hpulled := Transition.run_latch hkeep (fun _ _ _ => Stream.step_pulled) hstart hrun
    have hcut := Transition.run_latch hkeep (fun _ _ _ => Stream.step_cut) hstart hrun
    have huncaught := Transition.run_latch hkeep (fun _ _ _ => Stream.step_uncaught) hstart hrun
    have hpull : .pull ∈ actions ↔ s.task.isSome = true := by simpa using hpulled.symm
    have hclose : .close ∈ actions ↔ s.Cut := by simpa [Stream.Cut] using hcut.symm
    have hbase : (∃ m, .run m ∈ actions ∧ raisesBase m = true) ↔ s.Uncaught := by
      rw [huncaught]
      constructor
      · rintro ⟨m, hm, hraises⟩
        exact .inr ⟨_, hm, m, rfl, hraises⟩
      · rintro (⟨turn, htask, -⟩ | ⟨a, ha, m, rfl, hraises⟩)
        · cases htask
        · exact ⟨m, ha, hraises⟩
    rw [hpull, hclose, hbase]
    cases htask : s.task with
    | none =>
      have hidle := (Stream.inv_idle htask).mp hinv
      constructor
      · intro h
        have hclosed := h.closed
        rw [hidle.closes] at hclosed
        cases hclosed
      · rintro ⟨hsome, -⟩
        cases hsome
    | some turn =>
      have hrunning := (Stream.inv_running htask).mp hinv
      simp only [Stream.ended, Stream.taskOver, htask, Option.all_some, Bool.and_eq_true,
        Bool.or_eq_true, beq_iff_eq] at hover
      obtain ⟨hgen, hended⟩ := hover
      have hmoves := Stream.run_moves hstart rfl hrun htask
      cases hgen with
      | inr hcut =>
        have hclosed := closed_of_ended hrunning htask hended
        refine ⟨fun _ => ⟨rfl, fun _ => .inr hcut, fun _ => .inr hcut⟩, fun _ => ⟨hclosed, ?_⟩⟩
        intro hfinished
        rw [hcut] at hfinished
        cases hfinished
      | inl hfinished =>
        -- nobody closed it, so neither of the two may have come
        have hnotCut : ¬ s.Cut := by simp [Stream.Cut, hfinished]
        have huncaught : s.Uncaught ↔ uncaught turn.phase = true := by simp [Stream.Uncaught, htask]
        rw [contract_finished hrunning htask hfinished hended hmoves, huncaught]
        simp only [Option.isSome_some, hnotCut, imp_false, true_and, Bool.not_eq_true]
        refine and_congr_right fun hcaught => ?_
        rw [unencodable_iff hmoves hended hcaught, Bool.not_eq_false]

/-- A response of one token that is read to its end. -/
def readToEnd : List Action :=
  [.pull, .run (.event (.token (py "hola"))), .take, .pull, .run .exhausted, .take, .pull, .pull]

theorem completions_contract_read :
    ∃ s, Transition.run Stream.step {} readToEnd = some s ∧ Contract readToEnd s ∧
      s.sent = [.delta (py "hola"), .finish .stop, .done] := by
  refine ⟨_, rfl, ?_, rfl⟩
  apply (completions_contract_iff [] readToEnd _ rfl rfl).2.mpr
  have hencodable : encodable (py "hola") = true := by decide
  refine ⟨List.mem_cons_self, ?_, ?_⟩
  · rintro ⟨m, hm, hbase⟩
    simp only [readToEnd, List.mem_cons, reduceCtorEq, Action.run.injEq, List.not_mem_nil, or_false,
      false_or] at hm
    rcases hm with rfl | rfl
    · cases hbase
    · cases hbase
  · simp [Unencodable, Stream.moves, readToEnd, hencodable]

/-- A response of one token, a lone surrogate, that is read to its end. -/
def surrogate : List Action :=
  [.pull, .run (.event (.token [0xD83D])), .run .exhausted, .take, .pull, .take, .pull, .pull]

/-- A response that is closed before its first chunk is pulled leaves its session `active`; and
where the stream gives a lone surrogate and `stop`, the plain response is not rendered. -/
theorem unread_stays_active :
    (∃ s, Transition.run Stream.step {} [.close] = some s ∧ s.ended = true ∧
      recordStatus s.closes = .active ∧ ¬ Contract [.close] s) ∧
    ∃ s, Transition.run Stream.step {} surrogate = some s ∧ s.ended = true ∧
      s.sent = [.delta [0xD83D], .finish .stop, .done] ∧
      (plain (Stream.moves surrogate)).map Plain.response = some .unrendered ∧
      ¬ Contract surrogate s := by
  constructor
  · refine ⟨_, rfl, rfl, rfl, ?_⟩
    intro h
    exact h.not_active rfl
  · refine ⟨_, rfl, rfl, rfl, rfl, ?_⟩
    intro h
    obtain ⟨r, hplain, hagrees⟩ := h.agrees rfl
    cases hplain
    exact hagrees

end Completions
