import Launcher.Json.Shape

/-!
# Plugin warnings

A plugin that contributes nothing to a query says why: it did not answer within its budget, or
it failed with a message. `PluginWarning.text` is the sentence shown to users.
-/

namespace Launcher

open Json

/-- Why a plugin contributed nothing. -/
inductive WarningKind where
  | timeout (budgetMs : Nat)
  | fault (message : String)
  deriving DecidableEq, Inhabited

/-- A warning about one plugin. -/
structure PluginWarning where
  pluginId : String
  kind : WarningKind
  deriving DecidableEq, Inhabited

namespace WarningKind

/-- The document shape of a warning kind, tagged by `kind`. -/
def shape : Shape :=
  .tagged "WarningKind" "kind"
    [("timeout", some (.record "struct variant WarningKind::Timeout"
        [("budgetMs", .whole .u64, none)] none)),
     ("fault", some (.record "struct variant WarningKind::Fault"
        [("message", .text "a string", none)] none))]

/-- A warning kind from its checked document. -/
def ofCanonical (v : Value) : WarningKind :=
  if v.textAt "kind" == "timeout" then .timeout (v.natAt "budgetMs") else .fault (v.textAt "message")

/-- Read a warning kind from a document. -/
def decode (v : Value) : Except String WarningKind := (shape.decode v).map ofCanonical

/-- The pairs of a warning kind's document. -/
def pairs : WarningKind → List (String × Value)
  | .timeout ms => [("kind", .string "timeout"), ("budgetMs", .ofNat ms)]
  | .fault m => [("kind", .string "fault"), ("message", .string m)]

/-- The document form of a warning kind. -/
def toJson (k : WarningKind) : Value := .object k.pairs

end WarningKind

namespace PluginWarning

/-- The document shape of a warning: the plugin id beside the kind's fields. -/
def shape : Shape :=
  .record "struct PluginWarning" [("pluginId", .text "a string", none)] (some WarningKind.shape)

/-- A warning from its checked document. -/
def ofCanonical (v : Value) : PluginWarning := ⟨v.textAt "pluginId", WarningKind.ofCanonical v⟩

/-- Read a warning from a document. -/
def decode (v : Value) : Except String PluginWarning := (shape.decode v).map ofCanonical

/-- The document form of a warning. -/
def toJson (w : PluginWarning) : Value := .object (("pluginId", .string w.pluginId) :: w.kind.pairs)

/-- Whether the plugin ran out of time. -/
def isTimeout (w : PluginWarning) : Bool :=
  match w.kind with
  | .timeout _ => true
  | .fault _ => false

/-- The sentence shown to users. -/
def text (w : PluginWarning) : String :=
  match w.kind with
  | .timeout ms => s!"{w.pluginId} did not answer within {ms}ms"
  | .fault m => s!"{w.pluginId} failed: {m}"

end PluginWarning

end Launcher
