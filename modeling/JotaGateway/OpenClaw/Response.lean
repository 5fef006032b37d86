-- SUMMARY: A turn read to its end: what stream_response yields for every list of inputs, where it stops, and which payloads break it.
import JotaGateway.OpenClaw.StreamResponse

/-!
# Answers of a turn

The consumer loop of `stream_response` against a list of inputs, read by a
consumer that never closes the generator. Each round takes one input and
is then pulled until the generator waits again or has left the loop. Between
two rounds the rest of the gateway may have done anything to the connection.
-/

namespace StreamResponse

-- ---------------------------------------------------------------------------
-- Rounds
-- ---------------------------------------------------------------------------

/-- What `asyncio.wait_for(queue.get(), …)` gives. -/
inductive Input where
  | item (i : Item TurnItem)
  | timeout

/-- One round of the loop: its input, and the connection as it finds it. -/
structure Round where
  input : Input
  conn : Connection

/-- `_TERMINAL`. -/
def isTerminal (state : Json) : Bool :=
  state.isStr "aborted" || state.isStr "final" || state.isStr "error"

namespace Input

/-- OpenClaw, or the gateway, has ended the turn: a terminal `chat`, a rejected `res`, an
overflow, an internal error, or a timeout. -/
def terminal : Input → Bool
  | .item (.item i) =>
    match i.msg with
    | .chat payload => isTerminal (payload.get "state")
    | .tool _ => false
    | .done _ => true
  | _ => true

/-- A `chat` of a run that was aborted. -/
def aborted : Input → Bool
  | .item (.item i) =>
    match i.msg with
    | .chat payload => (payload.get "state").isStr "aborted"
    | _ => false
  | _ => false

/-- A tool payload that cannot be parsed. -/
def malformed : Input → Bool
  | .item (.item i) =>
    match i.msg with
    | .tool data => ToolCallEvent.malformed data
    | _ => false
  | _ => false

/-- What the loop breaks on. -/
def ends : Input → Bool
  | .item (.item i) => i.endsRun
  | _ => true

/-- A frame of a run that goes on: a tool event, or a `chat` that is not terminal. -/
def frame : Input → Bool
  | .item (.item i) =>
    match i.msg with
    | .chat payload => !isTerminal (payload.get "state")
    | .tool _ => true
    | .done _ => false
  | _ => false

end Input

/-- The consumer takes an input at the top of the loop. -/
def Call.take (turn : Turn) (r : Round) (call : Call) : Call :=
  match r.input with
  | .item i => (call.receive turn r.conn i).2
  | .timeout => (call.suspend .turnTimeout).settle .timedOut

/-- `__anext__`, at most `n` times, until the generator waits again or is over. -/
def Call.pull (turn : Turn) (conn : Connection) : Nat → Call → List Yield × Call
  | 0, call => ([], call)
  | n + 1, call =>
    match call.phase with
    | .yielded y =>
      let (ys, call) := Call.pull turn conn n (call.resume turn conn y).2
      (y :: ys, call)
    | _ => ([], call)

/-- One round: a payload gives at most a token and a terminal event. -/
def Call.round (turn : Turn) (r : Round) (call : Call) : List Yield × Call :=
  (call.take turn r).pull turn r.conn 2

/-- What the generator yields for each input it takes, and where it is left. -/
def respond (turn : Turn) : Call → List Round → List (List Yield) × Call
  | call, [] => ([], call)
  | call, r :: rest =>
    match call.phase with
    | .waiting =>
      let (ys, call) := call.round turn r
      let (yss, call) := respond turn call rest
      (ys :: yss, call)
    | _ => ([], call)

/-- The generator has left the loop. -/
def Call.over (call : Call) : Bool :=
  match call.phase with
  | .aborting | .done => true
  | _ => false

/-- A status `done`, or an error. -/
def Yield.terminal (y : Yield) : Bool :=
  match y.event with
  | .status content => content == py "done"
  | .error _ => true
  | _ => false

variable {turn : Turn} {call : Call}

-- ---------------------------------------------------------------------------
-- What one round does
-- ---------------------------------------------------------------------------

theorem finish_over (turn : Turn) (conn : Connection) (call : Call) :
    (Call.finish turn conn call).2.over = true := by
  cases haborting : call.sent && !call.finished && conn.ws with
  | true => simp only [Call.finish, Call.over, haborting, if_true]
  | false => simp only [Call.finish, Call.over, haborting, Bool.false_eq_true, if_false]

theorem pull_of_over {conn : Connection} {n : Nat} (h : call.over = true) :
    call.pull turn conn n = ([], call) := by
  cases n with
  | zero => rfl
  | succ n =>
    cases hphase : call.phase with
    | aborting => simp only [Call.pull, hphase]
    | done => simp only [Call.pull, hphase]
    | _ =>
      simp only [Call.over, hphase] at h
      cases h

theorem pull_of_waiting {conn : Connection} {n : Nat} (h : call.phase = .waiting) :
    call.pull turn conn n = ([], call) := by
  cases n with
  | zero => rfl
  | succ n => simp only [Call.pull, h]

/-- A terminal event is the last one: resuming it leaves the loop. -/
theorem pull_terminal {conn : Connection} {n : Nat} {y : Yield} (hphase : call.phase = .yielded y)
    (hover : (call.resume turn conn y).2.over = true) :
    call.pull turn conn (n + 1) = ([y], (call.resume turn conn y).2) := by
  simp only [Call.pull, hphase, pull_of_over hover]

/-- What a round leaves. -/
inductive RoundEnd (ys : List Yield) (after : Call) : Bool → Bool → Prop where
  /-- the payload could not be parsed -/
  | raised (hys : ys = []) (hover : after.over = true) : RoundEnd ys after true false
  /-- the turn ended with a terminal event -/
  | ended (pre : List Yield) (last : Yield) (hys : ys = pre ++ [last])
      (hlast : last.terminal = true) (hpre : ∀ y ∈ pre, y.terminal = false)
      (hover : after.over = true) : RoundEnd ys after false true
  /-- the turn goes on -/
  | live (hwaiting : after.phase = .waiting) (hlength : ys.length ≤ 1)
      (hys : ∀ y ∈ ys, y.terminal = false) : RoundEnd ys after false false

/-- The tail of a `chat` item, as the consumer pulls it. -/
theorem afterChat_end {conn : Connection} {run : Run} {payload : PyDict} (n : Nat) :
    RoundEnd ((call.afterChat run payload).pull turn conn (n + 1)).1
      ((call.afterChat run payload).pull turn conn (n + 1)).2 false (endsReply payload) := by
  unfold Call.afterChat
  split
  · rename_i hfinal
    have hends : endsReply payload = true := by simp [endsReply, hfinal]
    rw [pull_terminal (y := .statusDone) rfl (finish_over turn conn _), hends]
    exact .ended [] .statusDone rfl rfl (by simp) (finish_over turn _ _)
  · rename_i hfinal
    split
    · rename_i herror
      have hends : endsReply payload = true := by simp [endsReply, herror]
      rw [pull_terminal (y := .agentError) rfl (finish_over turn conn _), hends]
      exact .ended [] .agentError rfl rfl (by simp) (finish_over turn _ _)
    · rename_i herror
      have hends : endsReply payload = false := by simp [endsReply, hfinal, herror]
      rw [pull_of_waiting rfl, hends]
      exact .live rfl (Nat.zero_le _) (by simp)

/-- One event in front of the tail of a round. -/
theorem RoundEnd.cons {ys : List Yield} {after : Call} {ends : Bool} {y : Yield}
    (h : RoundEnd ys after false ends) (hy : y.terminal = false) (hnone : ends = false → ys = []) :
    RoundEnd (y :: ys) after false ends := by
  cases h with
  | ended pre last hys hlast hpre hover =>
    refine .ended (y :: pre) last (by rw [hys]; rfl) hlast ?_ hover
    intro z hz
    cases hz with
    | head => exact hy
    | tail _ hz => exact hpre z hz
  | live hwaiting hlength hys =>
    rw [hnone rfl]
    exact .live hwaiting (Nat.le_refl _) (by simpa using hy)

/-- The tail of a `chat` that ends nothing yields nothing. -/
theorem afterChat_silent {conn : Connection} {run : Run} {payload : PyDict} {n : Nat}
    (h : endsReply payload = false) :
    ((call.afterChat run payload).pull turn conn (n + 1)).1 = [] := by
  simp only [endsReply, Bool.or_eq_false_iff] at h
  simp only [Call.afterChat, h.1, h.2, Bool.false_eq_true, if_false]
  rw [pull_of_waiting rfl]

theorem chat_end (turn : Turn) (call : Call) {r : Round} {i : TurnItem} {payload : PyDict} (hinput : r.input = .item (.item i))
    (hmsg : i.msg = .chat payload) :
    RoundEnd (call.round turn r).1 (call.round turn r).2 false (endsReply payload) := by
  simp only [Call.round, Call.take, hinput, Call.receive, Call.receiveItem, hmsg]
  split
  · exact afterChat_end 1
  · simp only [Call.pull, Call.reply, Call.suspend, Call.resume]
    refine (afterChat_end 0).cons rfl ?_
    intro hends
    exact afterChat_silent hends

/-- What one round yields, and where it leaves the generator. -/
theorem round_end (turn : Turn) (r : Round) (call : Call) :
    RoundEnd (call.round turn r).1 (call.round turn r).2 r.input.malformed r.input.ends := by
  cases hinput : r.input with
  | timeout =>
    simp only [Call.round, Call.take, hinput]
    rw [pull_terminal (y := .turnTimeout) rfl (finish_over turn r.conn _)]
    exact .ended [] .turnTimeout rfl rfl (by simp) (finish_over turn _ _)
  | item i =>
    cases i with
    | overflow =>
      simp only [Call.round, Call.take, hinput, Call.receive]
      rw [pull_terminal (y := .overflow) rfl (finish_over turn r.conn _)]
      exact .ended [] .overflow rfl rfl (by simp) (finish_over turn _ _)
    | error message =>
      simp only [Call.round, Call.take, hinput, Call.receive]
      rw [pull_terminal (y := .error message) rfl (finish_over turn r.conn _)]
      exact .ended [] (.error message) rfl rfl (by simp) (finish_over turn _ _)
    | item i =>
      cases hmsg : i.msg with
      | chat payload =>
        have hend := chat_end turn call hinput hmsg
        simpa only [Input.malformed, Input.ends, TurnItem.endsRun, hmsg] using hend
      | done frame =>
        simp only [Call.round, Call.take, hinput, Call.receive, Call.receiveItem, hmsg]
        rw [pull_terminal (y := .rejected) rfl (finish_over turn r.conn _)]
        simp only [Input.malformed, Input.ends, TurnItem.endsRun, hmsg]
        exact .ended [] .rejected rfl rfl (by simp) (finish_over turn _ _)
      | tool data =>
        simp only [Call.round, Call.take, hinput, Call.receive, Call.receiveItem, hmsg,
          Input.malformed, Input.ends, TurnItem.endsRun]
        cases hparsed : ToolCallEvent.fromSessionToolPayload data with
        | none =>
          rw [ToolCallEvent.fromSessionToolPayload_eq_none.mp hparsed,
            pull_of_over (finish_over turn _ _)]
          exact .raised rfl (finish_over turn _ _)
        | some event? =>
          have hmalformed : ToolCallEvent.malformed data = false := by
            refine Bool.eq_false_iff.mpr fun hbad => ?_
            rw [ToolCallEvent.fromSessionToolPayload_eq_none.mpr hbad] at hparsed
            cases hparsed
          rw [hmalformed]
          cases event? with
          | none =>
            simp only
            rw [pull_of_waiting rfl]
            exact .live rfl (Nat.zero_le _) (by simp)
          | some event =>
            refine .live rfl (Nat.le_refl _) ?_
            intro y hy
            cases List.mem_singleton.mp hy
            rfl

-- ---------------------------------------------------------------------------
-- What a run does
-- ---------------------------------------------------------------------------

theorem respond_of_over (h : call.over = true) (rounds : List Round) :
    respond turn call rounds = ([], call) := by
  cases rounds with
  | nil => rfl
  | cons r rest =>
    cases hphase : call.phase with
    | waiting =>
      simp only [Call.over, hphase] at h
      cases h
    | _ => simp only [respond, hphase]

theorem respond_cons (h : call.phase = .waiting) (r : Round) (rest : List Round) :
    respond turn call (r :: rest) =
      ((call.round turn r).1 :: (respond turn (call.round turn r).2 rest).1,
        (respond turn (call.round turn r).2 rest).2) := by
  simp only [respond, h]

/-- A generator that waits goes on with the inputs that follow. -/
theorem respond_append {past : List Round} (future : List Round)
    (h : (respond turn call past).2.phase = .waiting) :
    respond turn call (past ++ future) =
      ((respond turn call past).1 ++ (respond turn (respond turn call past).2 future).1,
        (respond turn (respond turn call past).2 future).2) := by
  induction past generalizing call with
  | nil => rfl
  | cons r past ih =>
    cases hphase : call.phase with
    | waiting =>
      simp only [respond_cons hphase] at h
      simp only [List.cons_append, respond_cons hphase, ih h]
    | _ =>
      simp only [respond, hphase] at h
      cases h

theorem not_over_of_waiting (h : call.phase = .waiting) : call.over = false := by
  simp only [Call.over, h]

-- ---------------------------------------------------------------------------
-- Where a turn stops
-- ---------------------------------------------------------------------------

/-- The inputs a turn should read: all that come before the first terminal one. -/
def live (rounds : List Round) : List Round := rounds.takeWhile fun r => !r.input.terminal

/-- The turn stops at its first terminal input, and only there: it takes that input as its last,
leaves the loop, and its last event is its only terminal one. Until then it waits. -/
def StopsAtTerminal (turn : Turn) (call : Call) (rounds : List Round) : Prop :=
  let (yss, after) := respond turn call rounds
  match rounds.find? fun r => r.input.terminal with
  | none =>
    yss.length = rounds.length ∧ after.phase = .waiting ∧ ∀ y ∈ yss.flatten, y.terminal = false
  | some _ =>
    yss.length = (live rounds).length + 1 ∧ after.over = true ∧
      ∃ pre last, yss.flatten = pre ++ [last] ∧ last.terminal = true ∧
        ∀ y ∈ pre, y.terminal = false

/-- No tool payload before the first terminal input is malformed, and that input is not the
`chat` of an aborted run. -/
def Clean (rounds : List Round) : Prop :=
  (∀ r ∈ live rounds, r.input.malformed = false) ∧
    ∀ r, rounds.find? (fun r => r.input.terminal) = some r → r.input.aborted = false

theorem isStr_ne {value : Json} {s t : String} (h : value.isStr s = true) (hne : py s ≠ py t) :
    value.isStr t = false := by
  cases value with
  | str text =>
    have htext : text = py s := by simpa [Json.isStr] using h
    simpa [Json.isStr, htext] using hne
  | _ => rfl

/-- Every terminal input ends the loop, but for the `chat` of an aborted run. -/
theorem terminal_eq (i : Input) : i.terminal = (i.ends || i.aborted) := by
  cases i with
  | timeout => rfl
  | item i =>
    cases i with
    | overflow => rfl
    | error message => rfl
    | item i =>
      simp only [Input.terminal, Input.ends, Input.aborted, TurnItem.endsRun]
      cases i.msg with
      | tool data => rfl
      | done frame => rfl
      | chat payload =>
        simp only [isTerminal, endsReply]
        rw [Bool.or_assoc, Bool.or_comm]

theorem ends_of_aborted {i : Input} (h : i.aborted = true) : i.ends = false := by
  cases i with
  | timeout => cases h
  | item i =>
    cases i with
    | overflow => cases h
    | error message => cases h
    | item i =>
      simp only [Input.ends, Input.aborted, TurnItem.endsRun] at h ⊢
      cases hmsg : i.msg with
      | tool data => rfl
      | done frame =>
        rw [hmsg] at h
        cases h
      | chat payload =>
        rw [hmsg] at h
        simp only [endsReply]
        rw [isStr_ne h (by decide), isStr_ne h (by decide)]
        rfl

theorem malformed_of_terminal {i : Input} (h : i.terminal = true) : i.malformed = false := by
  cases i with
  | timeout => rfl
  | item i =>
    cases i with
    | overflow => rfl
    | error message => rfl
    | item i =>
      simp only [Input.terminal, Input.malformed] at h ⊢
      cases hmsg : i.msg with
      | tool data =>
        rw [hmsg] at h
        cases h
      | _ => rfl

/-- A round whose input ended nothing, in front of the rest of the run. -/
theorem stops_cons {r : Round} {rest : List Round} (hphase : call.phase = .waiting)
    (hlive : r.input.terminal = false)
    (hys : ∀ y ∈ (call.round turn r).1, y.terminal = false) :
    StopsAtTerminal turn call (r :: rest) ↔ StopsAtTerminal turn (call.round turn r).2 rest := by
  simp only [StopsAtTerminal, live, respond_cons hphase, List.find?_cons, hlive, List.length_cons,
    List.takeWhile_cons, Bool.not_false, if_true, List.flatten_cons]
  cases rest.find? fun r => r.input.terminal with
  | none =>
    simp only [List.forall_mem_append, Nat.add_right_cancel_iff]
    exact ⟨fun ⟨hlen, hwait, hall⟩ => ⟨hlen, hwait, hall.2⟩,
      fun ⟨hlen, hwait, hall⟩ => ⟨hlen, hwait, hys, hall⟩⟩
  | some end_ =>
    simp only [Nat.add_right_cancel_iff]
    constructor
    · intro ⟨hlen, hover, pre, last, heq, hlast, hpre⟩
      refine ⟨hlen, hover, ?_⟩
      rcases List.append_eq_append_iff.mp heq with ⟨mid, hmid, hrest⟩ | ⟨mid, hmid, hrest⟩
      · exact ⟨mid, last, hrest, hlast, fun y hy => hpre y (by rw [hmid]; simp [hy])⟩
      · -- the terminal event would be one of a round that ended nothing
        cases mid with
        | nil =>
          rw [List.append_nil] at hmid
          exact ⟨[], last, hrest.symm, hlast, by simp⟩
        | cons y mid =>
          have hone : y = last := by
            have hhead := congrArg List.head? hrest
            simpa using hhead.symm
          have hmem : last ∈ (call.round turn r).1 := by
            rw [hmid, hone]
            simp
          rw [hys last hmem] at hlast
          cases hlast
    · intro ⟨hlen, hover, pre, last, heq, hlast, hpre⟩
      refine ⟨hlen, hover, (call.round turn r).1 ++ pre, last, by rw [heq, List.append_assoc], hlast,
        ?_⟩
      intro y hy
      cases List.mem_append.mp hy with
      | inl hy => exact hys y hy
      | inr hy => exact hpre y hy

/-- A turn that waits for its queue stops at the first terminal input, with one terminal event,
exactly when its inputs are clean. -/
theorem respond_stops_iff (hphase : call.phase = .waiting) (rounds : List Round) :
    StopsAtTerminal turn call rounds ↔ Clean rounds := by
  induction rounds generalizing call with
  | nil => simp [StopsAtTerminal, Clean, respond, live, hphase]
  | cons r rest ih =>
    have hend := round_end turn r call
    cases hterminal : r.input.terminal with
    | true =>
      have hclean : Clean (r :: rest) ↔ r.input.aborted = false := by
        simp [Clean, live, hterminal]
      rw [hclean]
      cases haborted : r.input.aborted with
      | true =>
        -- the loop goes on after the `chat` of an aborted run
        rw [malformed_of_terminal hterminal, ends_of_aborted haborted] at hend
        cases hend with
        | live hwaiting hlength hys =>
          refine ⟨fun hstops => ?_, fun h => by cases h⟩
          simp only [StopsAtTerminal, live, respond_cons hphase, List.find?_cons, hterminal,
            List.takeWhile_cons, Bool.not_true, Bool.false_eq_true, if_false, List.length_cons,
            List.length_nil, Nat.zero_add, Nat.add_eq_right, List.length_eq_zero_iff] at hstops
          obtain ⟨hnone, hover, -⟩ := hstops
          cases rest with
          | nil =>
            rw [respond, not_over_of_waiting hwaiting] at hover
            cases hover
          | cons r' rest =>
            rw [respond_cons hwaiting] at hnone
            cases hnone
      | false =>
        have hends : r.input.ends = true := by
          have h := terminal_eq r.input
          rw [hterminal, haborted, Bool.or_false] at h
          exact h.symm
        rw [malformed_of_terminal hterminal, hends] at hend
        cases hend with
        | ended pre last hys hlast hpre hover =>
          refine ⟨fun _ => rfl, fun _ => ?_⟩
          simp only [StopsAtTerminal, live, respond_cons hphase, respond_of_over hover,
            List.find?_cons, hterminal, List.takeWhile_cons, Bool.not_true, Bool.false_eq_true,
            if_false, List.length_cons, List.length_nil]
          exact ⟨trivial, hover, pre, last, by simpa using hys, hlast, hpre⟩
    | false =>
      have hends : r.input.ends = false := by
        have h := terminal_eq r.input
        rw [hterminal] at h
        exact (Bool.or_eq_false_iff.mp h.symm).1
      have hclean : Clean (r :: rest) ↔ r.input.malformed = false ∧ Clean rest := by
        simp only [Clean, live, hterminal, List.takeWhile_cons, Bool.not_false, if_true,
          List.forall_mem_cons, List.find?_cons, and_assoc]
      rw [hends] at hend
      cases hmalformed : r.input.malformed with
      | true =>
        -- parsing raised: the generator is gone without a terminal event
        rw [hmalformed] at hend hclean
        cases hend with
        | raised hys hover =>
          refine ⟨fun hstops => ?_, fun h => by cases (hclean.mp h).1⟩
          simp only [StopsAtTerminal, respond_cons hphase, respond_of_over hover, live,
            List.takeWhile_cons, hterminal, Bool.not_false, if_true] at hstops
          cases hfind : (r :: rest).find? fun r => r.input.terminal with
          | none =>
            rw [hfind] at hstops
            rw [not_over_of_waiting hstops.2.1] at hover
            cases hover
          | some end_ =>
            rw [hfind] at hstops
            have hlen := hstops.1
            simp only [List.length_cons, List.length_nil] at hlen
            omega
      | false =>
        rw [hmalformed] at hend hclean
        cases hend with
        | live hwaiting hlength hys =>
          rw [stops_cons hphase hterminal hys, ih hwaiting, hclean]
          simp

/-- A turn at the top of its loop. -/
def atLoop : Call := { phase := .waiting, sent := true }

/-- An item of that turn, on a connection that is up. -/
def received (msg : TurnMsg) : Round where
  input := .item (.item { run := .ofRequest (py "r"), msg := msg })
  conn := { registry := { maxQueueSize := 8 }, ws := true }

/-- A delta and the final of its reply. -/
def reply : List Round :=
  [received (.chat [(py "deltaText", .str (py "ho"))]),
    received (.chat [(py "state", .str (py "final")),
      (py "message", .obj [(py "content", .str (py "hola"))])])]

theorem respond_stops_reply :
    Clean reply ∧ (respond World.client atLoop reply).1.length = 2 ∧
      StopsAtTerminal World.client atLoop reply := by
  have hclean : Clean reply := by
    refine ⟨by decide, ?_⟩
    intro r hr
    cases hr
    rfl
  exact ⟨hclean, rfl, (respond_stops_iff rfl reply).mpr hclean⟩

/-- OpenClaw aborts the run; nothing more comes for it. -/
def abortedRun : List Round :=
  [received (.chat [(py "state", .str (py "aborted"))]),
    { input := .timeout, conn := { registry := { maxQueueSize := 8 }, ws := true } }]

/-- The turn of an aborted run is not over: it waits for its timeout. -/
theorem waits_after_aborted :
    (respond World.client atLoop (abortedRun.take 1)).2.phase = .waiting ∧
      (respond World.client atLoop abortedRun).1 = [[], [.turnTimeout]] ∧
      ¬ StopsAtTerminal World.client atLoop abortedRun := by
  refine ⟨rfl, rfl, ?_⟩
  intro hstops
  exact absurd hstops.1 (by decide)

-- ---------------------------------------------------------------------------
-- Malformed payloads
-- ---------------------------------------------------------------------------

/-- No frame of a run that goes on ends the turn: each yields at most one event, the generator
waits again, and the inputs that follow it are answered. -/
def SurvivesFrames (turn : Turn) (call : Call) (rounds : List Round) : Prop :=
  ∀ past r future, rounds = past ++ r :: future → r.input.frame = true →
    (respond turn call past).2.phase = .waiting →
    (respond turn call (past ++ [r])).2.phase = .waiting ∧
      (∃ ys, (respond turn call (past ++ [r])).1 = (respond turn call past).1 ++ [ys] ∧
        ys.length ≤ 1) ∧
      (respond turn call rounds).1 = (respond turn call (past ++ [r])).1 ++
        (respond turn (respond turn call (past ++ [r])).2 future).1

theorem respond_snoc {past : List Round} {r : Round}
    (h : (respond turn call past).2.phase = .waiting) :
    respond turn call (past ++ [r]) =
      ((respond turn call past).1 ++ [((respond turn call past).2.round turn r).1],
        ((respond turn call past).2.round turn r).2) := by
  rw [respond_append [r] h, respond_cons h]
  rfl

/-- The generator waits after a list of inputs that neither end it nor break it. -/
theorem respond_waiting_iff (hphase : call.phase = .waiting) {past : List Round} :
    (respond turn call past).2.phase = .waiting ↔
      ∀ r ∈ past, r.input.ends = false ∧ r.input.malformed = false := by
  induction past generalizing call with
  | nil => simpa [respond] using hphase
  | cons r past ih =>
    have hend := round_end turn r call
    rw [respond_cons hphase, List.forall_mem_cons]
    cases hends : r.input.ends with
    | true =>
      have hover : (call.round turn r).2.over = true := by
        rw [hends] at hend
        generalize r.input.malformed = malformed at hend
        cases hend with
        | ended _ _ _ _ _ hover => exact hover
      simp only [respond_of_over hover, Bool.true_eq_false, false_and, iff_false]
      intro hwaiting
      rw [not_over_of_waiting hwaiting] at hover
      cases hover
    | false =>
      cases hmalformed : r.input.malformed with
      | true =>
        have hover : (call.round turn r).2.over = true := by
          rw [hends, hmalformed] at hend
          cases hend with
          | raised _ hover => exact hover
        simp only [respond_of_over hover, Bool.true_eq_false, and_false, false_and, iff_false]
        intro hwaiting
        rw [not_over_of_waiting hwaiting] at hover
        cases hover
      | false =>
        rw [hends, hmalformed] at hend
        cases hend with
        | live hwaiting => simpa using ih hwaiting

theorem ends_of_frame {i : Input} (h : i.frame = true) : i.ends = false := by
  cases i with
  | timeout => cases h
  | item i =>
    cases i with
    | overflow => cases h
    | error message => cases h
    | item i =>
      simp only [Input.frame, Input.ends, TurnItem.endsRun] at h ⊢
      cases hmsg : i.msg with
      | tool data => rfl
      | done frame =>
        rw [hmsg] at h
        cases h
      | chat payload =>
        rw [hmsg] at h
        simp only [isTerminal, Bool.not_eq_true', Bool.or_eq_false_iff] at h
        simp only [endsReply, h.1.2, h.2, Bool.or_self]

theorem frame_of_malformed {i : Input} (h : i.malformed = true) : i.frame = true := by
  cases i with
  | timeout => cases h
  | item i =>
    cases i with
    | overflow => cases h
    | error message => cases h
    | item i =>
      simp only [Input.frame, Input.malformed] at h ⊢
      cases hmsg : i.msg with
      | tool data => rfl
      | _ =>
        rw [hmsg] at h
        cases h

/-- A frame that parses is survived. -/
theorem survives_frame (turn : Turn) (call : Call) {r : Round} (hends : r.input.ends = false)
    (hmalformed : r.input.malformed = false) :
    (call.round turn r).2.phase = .waiting ∧ (call.round turn r).1.length ≤ 1 := by
  have hend := round_end turn r call
  rw [hends, hmalformed] at hend
  cases hend with
  | live hwaiting hlength => exact ⟨hwaiting, hlength⟩

/-- A turn that waits for its queue survives every frame, whatever its payload, exactly when no
tool payload it reads before it ends is malformed. -/
theorem respond_survives_iff (hphase : call.phase = .waiting) (rounds : List Round) :
    SurvivesFrames turn call rounds ↔
      ∀ r ∈ rounds.takeWhile (fun r => !r.input.ends), r.input.malformed = false := by
  constructor
  · intro hsurvives
    by_contra hbad
    have hfound : ((rounds.takeWhile fun r => !r.input.ends).find? fun r =>
        r.input.malformed).isSome = true := by
      rw [List.find?_isSome]
      simpa using hbad
    obtain ⟨r, hfind⟩ := Option.isSome_iff_exists.mp hfound
    -- the first malformed payload is reached, and ends the turn
    obtain ⟨hmalformed, past, rest, heq, hpast⟩ := List.find?_eq_some_iff_append.mp hfind
    have hread : ∀ r' ∈ past ++ r :: rest, r'.input.ends = false := by
      intro r' hr'
      rw [← heq] at hr'
      simpa using List.mem_takeWhile_imp hr'
    have hwaiting : (respond turn call past).2.phase = .waiting := by
      rw [respond_waiting_iff hphase]
      intro r' hr'
      exact ⟨hread r' (List.mem_append_left _ hr'), by simpa using hpast r' hr'⟩
    have hsplit : rounds =
        past ++ r :: (rest ++ rounds.dropWhile fun r => !r.input.ends) := by
      rw [← List.cons_append, ← List.append_assoc, ← heq, List.takeWhile_append_dropWhile]
    obtain ⟨hafter, -⟩ := hsurvives past r _ hsplit (frame_of_malformed hmalformed) hwaiting
    rw [respond_waiting_iff hphase] at hafter
    have hparses := (hafter r (List.mem_append_right _ (List.mem_singleton.mpr rfl))).2
    rw [hmalformed] at hparses
    cases hparses
  · intro hparses past r future heq hframe hwaiting
    have hends := ends_of_frame hframe
    have hread := (respond_waiting_iff hphase).mp hwaiting
    have hmem : r ∈ rounds.takeWhile fun r => !r.input.ends := by
      rw [heq, List.takeWhile_append_of_pos fun r' hr' => by simp [(hread r' hr').1],
        List.takeWhile_cons_of_pos (by simp [hends])]
      exact List.mem_append_right _ List.mem_cons_self
    obtain ⟨hafter, hlength⟩ :=
      survives_frame turn (respond turn call past).2 hends (hparses r hmem)
    rw [respond_snoc hwaiting]
    refine ⟨hafter, ⟨_, rfl, hlength⟩, ?_⟩
    rw [heq, respond_append _ hwaiting, respond_cons hwaiting]
    simp

/-- The result of a tool whose `result` is a string, and the rest of the reply. -/
def badResult : List Round :=
  received (.tool [(py "phase", .str (py "result")), (py "name", .str (py "exec")),
    (py "toolCallId", .str (py "1")), (py "result", .str (py "ok"))]) :: reply

theorem respond_survives_reply :
    (respond World.client atLoop (reply.take 1)).1.length = 1 ∧
      SurvivesFrames World.client atLoop reply :=
  ⟨rfl, (respond_survives_iff rfl reply).mpr (by decide)⟩

/-- The payload ends the turn: nothing is yielded, and the reply is not read. -/
theorem bad_result_ends_turn :
    (respond World.client atLoop badResult).1 = [[]] ∧
      (respond World.client atLoop badResult).2.over = true ∧
      ¬ SurvivesFrames World.client atLoop badResult := by
  refine ⟨rfl, rfl, ?_⟩
  intro hsurvives
  obtain ⟨hwaiting, -⟩ := hsurvives [] _ reply rfl rfl rfl
  cases hwaiting

end StreamResponse
