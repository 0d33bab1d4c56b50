import Launcher.Json.Shape
import Launcher.Text.Blank

/-!
# Plugin metadata

Each plugin carries its identity and routing policy:

* `PluginMetadata` — id, display name, action keyword, global flag, weight boost, disabled flag,
  and optional directory and icons;
* `PluginMetadata.scopedKeyword` — the trimmed keyword that scopes queries to the plugin, absent
  when it is empty or the wildcard `*`;
* `PluginMetadata.inaccessible` — an enabled plugin that is neither global nor reachable by a
  keyword can never receive a query;
* `PluginMetadata.shape`, `decode`, `toJson` — the document form (camelCase keys; the optional
  paths are written only when set).
-/

namespace Launcher

open Json

/-- The keyword that never scopes a query. -/
def wildcardKeyword : String := "*"

/-- Identity and routing policy of one plugin. -/
structure PluginMetadata where
  id : String
  name : String := ""
  actionKeyword : String := ""
  isGlobal : Bool := false
  weightBoost : Int := 0
  disabled : Bool := false
  directory : Option String := none
  iconPathLight : Option String := none
  iconPathDark : Option String := none
  deriving DecidableEq, Inhabited

namespace PluginMetadata

/-- Metadata named after its id, with every other field at its default. -/
def new (id : String) : PluginMetadata := { id := id, name := id }

/-- The trimmed action keyword, unless it is empty or the wildcard. -/
def scopedKeyword (m : PluginMetadata) : Option String :=
  let k := Text.trim m.actionKeyword
  if k.isEmpty || k == wildcardKeyword then none else some k

/-- An enabled plugin that is not global and has no scoped keyword can never be reached. -/
def inaccessible (m : PluginMetadata) : Bool :=
  !m.disabled && !m.isGlobal && m.scopedKeyword.isNone

/-- The document shape of metadata. -/
def shape : Shape :=
  .record "struct PluginMetadata"
    [("id", .text "a string", none),
     ("name", .text "a string", some (.string "")),
     ("actionKeyword", .maybe (.text "a string"), some .null),
     ("isGlobal", .flag, some (.bool false)),
     ("weightBoost", .whole .i64, some (.ofNat 0)),
     ("disabled", .flag, some (.bool false)),
     ("directory", .maybe (.text "path string"), some .null),
     ("iconPathLight", .maybe (.text "a string"), some .null),
     ("iconPathDark", .maybe (.text "a string"), some .null)] none

/-- Metadata from its checked document; a null keyword reads as empty. -/
def ofCanonical (v : Value) : PluginMetadata :=
  { id := v.textAt "id", name := v.textAt "name", actionKeyword := v.textAt "actionKeyword",
    isGlobal := v.flagAt "isGlobal", weightBoost := v.intAt "weightBoost",
    disabled := v.flagAt "disabled", directory := v.optTextAt "directory",
    iconPathLight := v.optTextAt "iconPathLight", iconPathDark := v.optTextAt "iconPathDark" }

/-- Read metadata from a document. -/
def decode (v : Value) : Except String PluginMetadata := (shape.decode v).map ofCanonical

/-- Optional fields are written only when set. -/
def optionalPairs (pairs : List (String × Option String)) : List (String × Value) :=
  pairs.filterMap fun (k, o) => o.map fun s => (k, .string s)

/-- The document form of metadata. -/
def toJson (m : PluginMetadata) : Value :=
  .object ([("id", .string m.id), ("name", .string m.name),
    ("actionKeyword", .string m.actionKeyword), ("isGlobal", .bool m.isGlobal),
    ("weightBoost", .ofInt m.weightBoost), ("disabled", .bool m.disabled)] ++
    optionalPairs [("directory", m.directory), ("iconPathLight", m.iconPathLight),
      ("iconPathDark", m.iconPathDark)])

end PluginMetadata

end Launcher
