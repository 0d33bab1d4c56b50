import Launcher.Json.Shape

/-!
# Plugin lifecycle

A plugin is unloaded, initializing, ready, or failed with an error text. Only ready plugins are
queried. The legal moves are:

* unloaded → initializing (start-up begins);
* initializing → ready (start-up succeeded);
* initializing or ready → failed;
* ready or failed → unloaded (reset before a reload).

`Stage` names a state without its error text; `Stage.canMove` is the table above, and
`PluginState.shape` the document form, tagged by `state`.
-/

namespace Launcher

open Json

/-- The four lifecycle stages. -/
inductive Stage where
  | unloaded | initializing | ready | failed
  deriving DecidableEq, Inhabited

/-- The name of a stage. -/
def Stage.name : Stage → String
  | .unloaded => "unloaded"
  | .initializing => "initializing"
  | .ready => "ready"
  | .failed => "failed"

/-- Whether the lifecycle may move from one stage to another. -/
def Stage.canMove : Stage → Stage → Bool
  | .unloaded, .initializing => true
  | .initializing, .ready => true
  | .initializing, .failed => true
  | .ready, .failed => true
  | .ready, .unloaded => true
  | .failed, .unloaded => true
  | _, _ => false

/-- A plugin's lifecycle state. -/
inductive PluginState where
  | unloaded
  | initializing
  | ready
  | failed (error : String)
  deriving DecidableEq, Inhabited

namespace PluginState

/-- The stage of a state. -/
def stage : PluginState → Stage
  | .unloaded => .unloaded
  | .initializing => .initializing
  | .ready => .ready
  | .failed _ => .failed

/-- The name of a state. -/
def name (s : PluginState) : String := s.stage.name

/-- Whether a state allows queries. -/
def isReady (s : PluginState) : Bool := s == .ready

/-- The document shape of a state. -/
def shape : Shape :=
  .tagged "PluginState" "state"
    [("unloaded", none), ("initializing", none), ("ready", none),
     ("failed", some (.record "struct variant PluginState::Failed"
        [("error", .text "a string", none)] none))]

/-- A state from its checked document. -/
def ofCanonical (v : Value) : PluginState :=
  match v.textAt "state" with
  | "initializing" => .initializing
  | "ready" => .ready
  | "failed" => .failed (v.textAt "error")
  | _ => .unloaded

/-- Read a state from a document. -/
def decode (v : Value) : Except String PluginState := (shape.decode v).map ofCanonical

/-- The document form of a state. -/
def toJson : PluginState → Value
  | .failed e => .object [("state", .string "failed"), ("error", .string e)]
  | s => .object [("state", .string s.name)]

end PluginState

end Launcher
