import Launcher.Disk
import Launcher.Plugin.State

/-!
# Errors

Every failure the engine reports, by cause. `Error.message` is the wording users see.
-/

namespace Launcher

/-- A failure reported by the engine. -/
inductive Error where
  /-- no plugin has this id -/
  | unknownPlugin (id : String)
  /-- a plugin with this id is already registered -/
  | duplicatePlugin (id : String)
  /-- the lifecycle does not allow this move -/
  | invalidTransition (id : String) (current target : Stage)
  /-- the operating system refused a file operation -/
  | io (e : OsError)
  /-- rewriting the history journal failed -/
  | history (message : String)
  /-- a document did not have the expected shape -/
  | json (message : String)
  deriving Inhabited

/-- The name of a failure's cause. -/
def Error.name : Error → String
  | .unknownPlugin _ => "UnknownPlugin"
  | .duplicatePlugin _ => "DuplicatePlugin"
  | .invalidTransition .. => "InvalidTransition"
  | .io _ => "Io"
  | .history _ => "History"
  | .json _ => "Json"

/-- The wording of a failure. -/
def Error.message : Error → String
  | .unknownPlugin id => s!"Unknown plugin: {id}"
  | .duplicatePlugin id => s!"Plugin already registered: {id}"
  | .invalidTransition id a b => s!"Invalid transition for plugin {id}: {a.name} -> {b.name}"
  | .io e => s!"IO error: {e.message}"
  | .history m => s!"History error: {m}"
  | .json m => s!"JSON error: {m}"

/-- The chain of causes a failure reports, outermost first: its wording, then the wording of
the system error or of the document reader behind it. -/
def Error.causes (e : Error) : List String :=
  match e with
  | .io os => [e.message, os.message]
  | .json m => [e.message, m]
  | _ => [e.message]

end Launcher
