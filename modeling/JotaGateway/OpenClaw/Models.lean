-- SUMMARY: `models.py` and `protocol.py`: tool calls, the events of a turn, and what a turn queue carries.
import JotaGateway.OpenClaw.Registry

/-!
# Events of a turn

What `stream_response` reads from its queue and what it yields. Parsing an odd
payload can raise: that is the outer `none`.
-/

-- ---------------------------------------------------------------------------
-- Tool calls
-- ---------------------------------------------------------------------------

/-- `phase` of a `session.tool` event that reaches the client. -/
inductive ToolPhase where
  | start
  | result
deriving DecidableEq

structure ToolCallEvent where
  phase : ToolPhase
  name : Json
  toolCallId : Json
  args : Json := .null
  result : Option PyStr := none
  isError : Json := .null

/-- The `text` of the text blocks of a tool result; other blocks are skipped. -/
def blockTexts (content : List Json) : List Json :=
  content.filterMap fun block =>
    match block with
    | .obj block =>
      if (PyDict.get block "type").isStr "text" then
        some ((block.lookup (py "text")).getD (.str []))
      else none
    | _ => none

/-- Join `result.content[].text`; the outer `none` is a `TypeError`. -/
def flattenToolResultContent (content : Json) : Option (Option PyStr) :=
  if content.truthy then
    match content with
    | .arr blocks =>
      match ((blockTexts blocks).filter Json.truthy).mapM Json.str? with
      | none => none
      | some [] => some none
      | some texts => some (some (List.intercalate (py "\n") texts))
    -- the characters of a string and the keys of a dict are not blocks
    | .str _ => some none
    | .obj _ => some none
    | _ => none
  else
    some none

namespace ToolCallEvent

def phase? (phase : Json) : Option ToolPhase :=
  if phase.isStr "start" then some .start
  else if phase.isStr "result" then some .result
  else none

/-- Parse the `data` of a `session.tool` event; the outer `none` is an `AttributeError` or a `TypeError`. -/
def fromSessionToolPayload (data : PyDict) : Option (Option ToolCallEvent) :=
  let name := data.get "name"
  let toolCallId := data.get "toolCallId"
  match phase? (data.get "phase") with
  | none => some none
  | some phase =>
    if !name.truthy || !toolCallId.truthy then
      some none
    else
      match phase with
      | .start => some (some { phase, name, toolCallId, args := data.get "args" })
      | .result =>
        let payload := data.get "result"
        let payload := if payload.truthy then payload else .obj []
        match payload.dict? with
        | none => none
        | some payload =>
          (flattenToolResultContent (payload.get "content")).map fun result =>
            some { phase, name, toolCallId, result, isError := data.get "isError" }

/-- A text block whose text cannot be joined: it is neither falsy nor a string. -/
def badBlock : Json → Bool
  | .obj block =>
    (PyDict.get block "type").isStr "text" &&
      (let text := (block.lookup (py "text")).getD (.str []); text.truthy && text.str?.isNone)
  | _ => false

/-- A content that cannot be read: a truthy value that is no sequence, or a list with a bad
block. A number that underflows to 0.0 is falsy. -/
def badContent : Json → Bool
  | .arr blocks => blocks.any badBlock
  | .bool b => b
  | .num m e => !Json.roundsToZero m e
  | .nonFinite _ => true
  | _ => false

/-- The payloads `from_session_tool_payload` raises on: a result whose `result` or `content`
has an unexpected type. -/
def malformed (data : PyDict) : Bool :=
  (data.get "phase").isStr "result" && (data.get "name").truthy &&
    (data.get "toolCallId").truthy &&
    match data.get "result" with
    | .obj result => badContent (PyDict.get result "content")
    | result => result.truthy

theorem mapM_str?_eq_none {texts : List Json} :
    texts.mapM Json.str? = none ↔ ∃ text ∈ texts, text.str?.isNone = true := by
  induction texts with
  | nil => simp
  | cons text texts ih =>
    cases htext : text.str? with
    | none => simp [List.mapM_cons, htext]
    | some s =>
      cases hrest : texts.mapM Json.str? with
      | none => simpa [List.mapM_cons, htext, hrest] using ih.mp hrest
      | some rest =>
        have hall : ¬ ∃ text ∈ texts, text.str?.isNone = true := fun h => by
          rw [ih.mpr h] at hrest
          cases hrest
        simpa [List.mapM_cons, htext, hrest] using hall

/-- Joining raises exactly on a bad block. -/
theorem blockTexts_bad {blocks : List Json} :
    (∃ text ∈ (blockTexts blocks).filter Json.truthy, text.str?.isNone = true) ↔
      blocks.any badBlock = true := by
  induction blocks with
  | nil => simp [blockTexts]
  | cons block blocks ih =>
    simp only [blockTexts, List.filterMap_cons, List.any_cons, Bool.or_eq_true] at ih ⊢
    cases block with
    | obj fields =>
      cases htype : (PyDict.get fields "type").isStr "text" with
      | false => simpa [badBlock, htype] using ih
      | true =>
        simp only [badBlock, htype, if_true, Bool.true_and, Bool.and_eq_true]
        rw [← ih]
        cases htruthy : ((fields.lookup (py "text")).getD (.str [])).truthy with
        | false => simp [htruthy]
        | true => simp [htruthy]
    | _ => simpa [badBlock] using ih

theorem flattenToolResultContent_eq_none {content : Json} :
    flattenToolResultContent content = none ↔ badContent content = true := by
  cases content with
  | arr blocks =>
    simp only [flattenToolResultContent, badContent, Json.truthy]
    cases blocks with
    | nil => simp
    | cons block blocks =>
      rw [← blockTexts_bad, ← mapM_str?_eq_none]
      cases ((blockTexts (block :: blocks)).filter Json.truthy).mapM Json.str? with
      | none => simp
      | some texts => cases texts <;> simp
  | bool b => cases b <;> simp [flattenToolResultContent, badContent, Json.truthy]
  | num m e =>
    cases hzero : Json.roundsToZero m e with
    | true => simp [flattenToolResultContent, badContent, Json.truthy, hzero]
    | false => simp [flattenToolResultContent, badContent, Json.truthy, hzero]
  | nonFinite x => simp [flattenToolResultContent, badContent, Json.truthy]
  | null => simp [flattenToolResultContent, badContent, Json.truthy]
  | str s => cases s <;> simp [flattenToolResultContent, badContent, Json.truthy]
  | obj fields => cases fields <;> simp [flattenToolResultContent, badContent, Json.truthy]

/-- The payloads on which parsing raises. -/
theorem fromSessionToolPayload_eq_none {data : PyDict} :
    fromSessionToolPayload data = none ↔ malformed data = true := by
  unfold fromSessionToolPayload malformed
  cases hstart : (data.get "phase").isStr "start" with
  | true =>
    have hresult : (data.get "phase").isStr "result" = false := by
      cases hphase : data.get "phase" with
      | str phase =>
        rw [hphase] at hstart
        have hphase : phase = py "start" := by simpa [Json.isStr] using hstart
        rw [hphase]
        rfl
      | _ => rfl
    simp only [phase?, hstart, hresult, if_true, Bool.false_and]
    split <;> simp
  | false =>
    cases hresult : (data.get "phase").isStr "result" with
    | false => simp [phase?, hstart, hresult]
    | true =>
      cases hname : (data.get "name").truthy with
      | false => simp [phase?, hstart, hresult, hname]
      | true =>
        cases hid : (data.get "toolCallId").truthy with
        | false => simp [phase?, hstart, hresult, hname, hid]
        | true =>
          simp only [phase?, hstart, hresult, hname, hid, Bool.false_eq_true, if_false, if_true,
            Bool.not_true, Bool.or_self, Bool.true_and]
          cases data.get "result" with
          | obj result =>
            cases result with
            | nil => simp [Json.truthy, Json.dict?, PyDict.get, flattenToolResultContent, badContent]
            | cons field result =>
              simp [Json.truthy, Json.dict?, flattenToolResultContent_eq_none]
          | null => simp [Json.truthy, Json.dict?, PyDict.get, flattenToolResultContent]
          | nonFinite x => simp [Json.truthy, Json.dict?]
          | bool b =>
            cases b <;> simp [Json.truthy, Json.dict?, PyDict.get, flattenToolResultContent]
          | num m e =>
            cases hzero : Json.roundsToZero m e with
            | true => simp [Json.truthy, Json.dict?, PyDict.get, flattenToolResultContent, hzero]
            | false => simp [Json.truthy, Json.dict?, hzero]
          | str s =>
            cases s <;> simp [Json.truthy, Json.dict?, PyDict.get, flattenToolResultContent]
          | arr items =>
            cases items <;> simp [Json.truthy, Json.dict?, PyDict.get, flattenToolResultContent]

end ToolCallEvent

-- ---------------------------------------------------------------------------
-- Events and queue messages
-- ---------------------------------------------------------------------------

inductive OrchestratorEvent where
  | token (content : PyStr)
  | status (content : PyStr)
  | error (content : PyStr)
  | toolCall (call : ToolCallEvent)

/-- What OpenClaw runs: the turn of a `chat.send`, or work of its own (a cron job, a
channel). -/
inductive Run where
  | ofRequest (reqId : ReqId)
  | ofAgent (n : Nat)
deriving DecidableEq

inductive TurnMsg where
  | chat (payload : PyDict)
  | tool (data : PyDict)
  | done (frame : PyDict)

/-- An entry of a turn queue. `run` is the run its frame belongs to: nothing in the gateway
reads it. -/
structure TurnItem where
  run : Run
  msg : TurnMsg

/-- A `final` or `error` payload ends its run. -/
def endsReply (payload : PyDict) : Bool :=
  (payload.get "state").isStr "final" || (payload.get "state").isStr "error"

/-- The item ends its run: a terminal payload, or a rejected `res`. -/
def TurnItem.endsRun (i : TurnItem) : Bool :=
  match i.msg with
  | .chat payload => endsReply payload
  | .tool _ => false
  | .done _ => true
