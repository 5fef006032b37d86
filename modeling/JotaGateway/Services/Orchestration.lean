-- SUMMARY: `call_orchestrator`: the loop over the events of a stream, its callbacks, and the exceptions it raises.
import JotaGateway.OpenClaw.Models

/-!
# call_orchestrator

The loop as a machine that is moved by the stream it reads and by the callbacks
it awaits. Exceptions carry their text, so that a reader can see where it goes.
-/

/-- An exception, told apart as the handlers on its way tell it apart. -/
inductive Exn where
  | orchestratorError (content : PyStr)
  | clientGone
  /-- any other `RuntimeError` -/
  | runtimeError (text : PyStr)
  /-- any other `Exception` -/
  | exception (text : PyStr)
  /-- a `BaseException` that is not an `Exception`: a cancellation -/
  | base

namespace CallOrchestrator

inductive Phase where
  /-- at `async for event in stream` -/
  | streaming
  | onToken (text : PyStr)
  | onToolCall (call : ToolCallEvent)
  /-- `aclosing` closes the stream, with an exception on its way out -/
  | closing (e : Exn)
  | returned
  | raised (e : Exn)

/-- What the stream does next. -/
inductive StreamMove where
  | event (e : OrchestratorEvent)
  | exhausted
  | raises (e : Exn)
  /-- its `aclose` returns -/
  | closed
  /-- its `aclose` raises -/
  | closeRaises (e : Exn)

/-- `toolCalls` says whether there is an `on_tool_call`. -/
def Phase.advance (toolCalls : Bool) : Phase → StreamMove → Option Phase
  | .streaming, .event (.token text) => some (.onToken text)
  | .streaming, .event (.toolCall call) => some (if toolCalls then .onToolCall call else .streaming)
  | .streaming, .event (.error content) => some (.closing (.orchestratorError content))
  | .streaming, .event (.status _) => some .streaming
  | .streaming, .exhausted => some .returned
  | .streaming, .raises e => some (.raised e)
  | .closing e, .closed => some (.raised e)
  -- what `__aexit__` raises takes the place of the exception on its way
  | .closing _, .closeRaises e => some (.raised e)
  | _, _ => none

/-- The awaited callback is over. -/
def Phase.callback : Phase → Option Exn → Option Phase
  | .onToken _, none => some .streaming
  | .onToolCall _, none => some .streaming
  | .onToken _, some e => some (.closing e)
  | .onToolCall _, some e => some (.closing e)
  | _, _ => none

/-- The call is over. -/
def Phase.ended : Phase → Bool
  | .returned | .raised _ => true
  | _ => false

/-- `call_orchestrator` returned normally. -/
def Phase.completed : Phase → Bool
  | .returned => true
  | _ => false

end CallOrchestrator
