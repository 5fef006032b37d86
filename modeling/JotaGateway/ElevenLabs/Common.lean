-- SUMMARY: The classes of ElevenLabs failures, and which of them are terminal.
import Mathlib.Tactic.Common

/-!
# ElevenLabs failures

The class that `classify_close` and `classify_exception` give a failure; which
one is the provider's choice.
-/

namespace ElevenLabs

inductive ErrorKind where
  | auth
  | quota
  | capacity
  | other
  deriving DecidableEq, Repr

/-- Credentials rejected or quota exhausted: degraded until restart or a change of provider. -/
def ErrorKind.terminal : ErrorKind → Bool
  | .auth | .quota => true
  | .capacity | .other => false

end ElevenLabs
