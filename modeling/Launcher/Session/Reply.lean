import Launcher.Error
import Launcher.Json.Value

/-!
# Replies to commands

A session runs a list of commands against one piece of state and answers each with a `Reply`:
a document, an error of the engine, or a refusal when the command makes no sense for the
session (for instance reopening a journal that a memory-only store does not have).
-/

namespace Launcher

open Json

/-- What one command answers. -/
inductive Reply where
  | ok (v : Value)
  | failed (e : Error)
  | refused (message : String)
  deriving Inhabited

namespace Reply

/-- A reply from a result. -/
def ofExcept : Except Error Value → Reply
  | .ok v => .ok v
  | .error e => .failed e

/-- The reply to a command that changes state and answers nothing. -/
def done : Except Error α → Reply
  | .ok _ => .ok .null
  | .error e => .failed e

end Reply

end Launcher
