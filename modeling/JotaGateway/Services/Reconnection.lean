-- SUMMARY: `ServiceHealth`, the connection state a service reports and the transitions its hook sees, and `LazyBackoffGate`.
import Mathlib.Tactic.Common

/-!
# Service health

Every reconnecting wrapper of the gateway owns one `ServiceHealth`, and a service
without a persistent connection a `LazyBackoffGate` beside it.
-/

inductive ConnectionState where
  | connected
  | reconnecting
  | degraded
  deriving DecidableEq, Repr

structure ServiceHealth where
  state : ConnectionState
  /-- the states `on_state_change` was called with -/
  fired : List ConnectionState := []
  deriving DecidableEq, Repr

namespace ServiceHealth

/-- The hook sees transitions only. -/
def setState (h : ServiceHealth) (state : ConnectionState) : ServiceHealth :=
  if state = h.state then h else { state, fired := h.fired ++ [state] }

def markConnected (h : ServiceHealth) : ServiceHealth := h.setState .connected

@[simp] theorem setState_state (h : ServiceHealth) (state : ConnectionState) :
    (h.setState state).state = state := by
  unfold setState
  split
  · exact Eq.symm ‹_›
  · rfl

@[simp] theorem markConnected_state (h : ServiceHealth) : h.markConnected.state = .connected :=
  h.setState_state .connected

/-- The state it has already fires nothing. -/
theorem setState_self {h : ServiceHealth} {state : ConnectionState} (hstate : h.state = state) :
    h.setState state = h := if_pos hstate.symm

end ServiceHealth

/-- The attempts by their tokens; the clock is the caller's `within`. -/
structure LazyBackoffGate where
  /-- tokens handed out so far -/
  started : Nat := 0
  /-- `started` at the last recorded outcome -/
  marker : Nat := 0
  /-- `last_failure_at is not None` -/
  failed : Bool := false
  deriving DecidableEq, Repr

namespace LazyBackoffGate

/-- `begin()`; `within` says that the window from the last failure has not elapsed. -/
def begin (g : LazyBackoffGate) (within : Bool) : LazyBackoffGate × Option Nat :=
  if g.failed && within then (g, none)
  else ({ g with started := g.started + 1 }, some (g.started + 1))

/-- Whether a failure of the attempt `token` counts. -/
def applies (g : LazyBackoffGate) (token : Nat) : Bool := g.marker < token

def recordFailure (g : LazyBackoffGate) (token : Nat) : LazyBackoffGate :=
  if g.applies token then { g with marker := g.started, failed := true } else g

def recordSuccess (g : LazyBackoffGate) : LazyBackoffGate :=
  { g with marker := max g.marker g.started, failed := false }

end LazyBackoffGate
