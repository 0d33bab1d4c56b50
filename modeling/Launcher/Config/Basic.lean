import Launcher.Json.Stream
import Launcher.Plugin.Settings
import Launcher.Routing
import Launcher.History.Options
import Launcher.Error

/-!
# Configuration

The configuration file has three sections, each of which may be left out, as may each field in
them:

* `search` — how many results are shown (0 for all), each plugin's time budget, and whether
  empty queries are kept from global plugins;
* `history` — capacity, boost ceiling and half-way count, compaction threshold;
* `plugins` — the plugin table, in configuration order.

`Config.shape` is its document shape; `Config.readText` reads the file's text in one pass (so
failures carry positions), `Config.decode` reads an embedded document, and `Config.render` writes
the file with two-space indentation.
-/

namespace Launcher

open Json

/-- How results are gathered and shown. -/
structure SearchConfig where
  maxResults : Nat := 25
  pluginTimeoutMs : Nat := 1000
  skipEmptyGlobalQuery : Bool := true
  deriving DecidableEq, Inhabited

/-- How selections are remembered. -/
structure HistoryConfig where
  capacity : Nat := 1000
  boostCap : Int := 300
  boostHalfCount : Nat := 3
  compactThreshold : Binary64 := defaultCompactThreshold
  deriving Inhabited

/-- The whole configuration. -/
structure Config where
  search : SearchConfig := {}
  history : HistoryConfig := {}
  plugins : List PluginSettings := []
  deriving Inhabited

namespace SearchConfig

/-- The dispatch options of a search section. -/
def dispatchOptions (s : SearchConfig) : DispatchOptions :=
  { pluginTimeoutMs := s.pluginTimeoutMs, skipEmptyGlobalQuery := s.skipEmptyGlobalQuery }

/-- The document form of a search section. -/
def toJson (s : SearchConfig) : Value :=
  .object [("maxResults", .ofNat s.maxResults), ("pluginTimeoutMs", .ofNat s.pluginTimeoutMs),
    ("skipEmptyGlobalQuery", .bool s.skipEmptyGlobalQuery)]

/-- The document shape of a search section. -/
def shape : Shape :=
  .record "struct SearchConfig"
    [("maxResults", .whole .usize, some (.ofNat 25)),
     ("pluginTimeoutMs", .whole .u64, some (.ofNat 1000)),
     ("skipEmptyGlobalQuery", .flag, some (.bool true))] none

/-- A search section from its checked document. -/
def ofCanonical (v : Value) : SearchConfig :=
  { maxResults := v.natAt "maxResults", pluginTimeoutMs := v.natAt "pluginTimeoutMs",
    skipEmptyGlobalQuery := v.flagAt "skipEmptyGlobalQuery" }

end SearchConfig

namespace HistoryConfig

/-- The history options of a history section, normalized. -/
def options (h : HistoryConfig) : HistoryOptions :=
  HistoryOptions.normalized
    { capacity := h.capacity, boostCap := h.boostCap, boostHalfCount := h.boostHalfCount,
      compactThreshold := h.compactThreshold }

/-- The document form of a history section. -/
def toJson (h : HistoryConfig) : Value :=
  .object [("capacity", .ofNat h.capacity), ("boostCap", .ofInt h.boostCap),
    ("boostHalfCount", .ofNat h.boostHalfCount),
    ("compactThreshold", .number (.real h.compactThreshold))]

/-- The document shape of a history section. -/
def shape : Shape :=
  .record "struct HistoryConfig"
    [("capacity", .whole .usize, some (.ofNat 1000)),
     ("boostCap", .whole .i64, some (.ofNat 300)),
     ("boostHalfCount", .whole .u32, some (.ofNat 3)),
     ("compactThreshold", .real, some (.number (.real defaultCompactThreshold)))] none

/-- A history section from its checked document. -/
def ofCanonical (v : Value) : HistoryConfig :=
  { capacity := v.natAt "capacity", boostCap := v.intAt "boostCap",
    boostHalfCount := v.natAt "boostHalfCount", compactThreshold := v.realAt "compactThreshold" }

end HistoryConfig

namespace Config

/-- The document form of a configuration. -/
def toJson (c : Config) : Value :=
  .object [("search", c.search.toJson), ("history", c.history.toJson),
    ("plugins", .array (c.plugins.map PluginSettings.toJson))]

/-- The document shape of a configuration. -/
def shape : Shape :=
  .record "struct Config"
    [("search", SearchConfig.shape, some ({} : SearchConfig).toJson),
     ("history", HistoryConfig.shape, some ({} : HistoryConfig).toJson),
     ("plugins", .list PluginSettings.shape, some (.array []))] none

/-- A configuration from its checked document. -/
def ofCanonical (v : Value) : Config :=
  { search := SearchConfig.ofCanonical (v.get "search"),
    history := HistoryConfig.ofCanonical (v.get "history"),
    plugins := (v.itemsAt "plugins").map PluginSettings.ofCanonical }

/-- Read a configuration from an embedded document. -/
def decode (v : Value) : Except String Config := (shape.decode v).map ofCanonical

/-- Read a configuration from the text of its file. -/
def readText (text : String) : Except String Config := (shape.readText text).map ofCanonical

/-- The text of a configuration file. -/
def render (c : Config) : String := c.toJson.pretty 0

/-- The history options of a configuration. -/
def options (c : Config) : HistoryOptions := c.history.options

/-- The dispatch options of a configuration. -/
def dispatchOptions (c : Config) : DispatchOptions := c.search.dispatchOptions

/-- Whether two configurations are equal; thresholds compare as numbers. -/
def same (a b : Config) : Bool :=
  a.search == b.search && a.plugins == b.plugins &&
    a.history.capacity == b.history.capacity && a.history.boostCap == b.history.boostCap &&
    a.history.boostHalfCount == b.history.boostHalfCount &&
    Binary64.eqv a.history.compactThreshold b.history.compactThreshold

/-- Load the configuration at a path: a missing file gives the defaults. -/
def load (d : Disk) (path : Path) : Except Error Config :=
  if !d.exists? path then .ok {}
  else
    match d.read path with
    | .error e => .error (.io e)
    | .ok text => (readText text).mapError .json

/-- Write the configuration to a path, creating the directories above it. -/
def save (c : Config) (d : Disk) (path : Path) : Except Error Disk := do
  let d ← match path.parent with
    | some dir =>
      match d.makeDirs dir with
      | (d, none) => pure d
      | (_, some e) => throw (.io e)
    | none => pure d
  (d.create path c.render).mapError .io

end Config

end Launcher
