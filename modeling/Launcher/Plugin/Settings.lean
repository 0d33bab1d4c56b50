import Launcher.Plugin.Metadata

/-!
# Plugin settings

The operator's overrides for one plugin, as written in the configuration's plugin table: the
action keyword, the global flag, the weight boost and the disabled flag. A plugin known only from
configuration gets its metadata from them (`PluginSettings.metadata`): named after its id, with
the keyword trimmed.
-/

namespace Launcher

open Json

/-- The configured overrides for one plugin. -/
structure PluginSettings where
  id : String
  actionKeyword : String := ""
  isGlobal : Bool := false
  weightBoost : Int := 0
  disabled : Bool := false
  deriving DecidableEq, Inhabited

namespace PluginSettings

/-- Settings for an id with every override at its default. -/
def new (id : String) : PluginSettings := { id := id }

/-- Metadata for a plugin known only from configuration. -/
def metadata (s : PluginSettings) : PluginMetadata :=
  { PluginMetadata.new s.id with
    actionKeyword := Text.trim s.actionKeyword
    isGlobal := s.isGlobal
    weightBoost := s.weightBoost
    disabled := s.disabled }

/-- The document shape of settings. -/
def shape : Shape :=
  .record "struct PluginSettings"
    [("id", .text "a string", none),
     ("actionKeyword", .text "a string", some (.string "")),
     ("isGlobal", .flag, some (.bool false)),
     ("weightBoost", .whole .i64, some (.ofNat 0)),
     ("disabled", .flag, some (.bool false))] none

/-- Settings from their checked document. -/
def ofCanonical (v : Value) : PluginSettings :=
  { id := v.textAt "id", actionKeyword := v.textAt "actionKeyword", isGlobal := v.flagAt "isGlobal",
    weightBoost := v.intAt "weightBoost", disabled := v.flagAt "disabled" }

/-- Read settings from a document. -/
def decode (v : Value) : Except String PluginSettings := (shape.decode v).map ofCanonical

/-- The document form of settings. -/
def toJson (s : PluginSettings) : Value :=
  .object [("id", .string s.id), ("actionKeyword", .string s.actionKeyword),
    ("isGlobal", .bool s.isGlobal), ("weightBoost", .ofInt s.weightBoost),
    ("disabled", .bool s.disabled)]

end PluginSettings

end Launcher
