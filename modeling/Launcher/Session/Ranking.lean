import Launcher.Ranking
import Launcher.History.Store
import Launcher.Session.Registry

/-!
# Ranking a prepared generation

`MergeRequest` describes one generation's batches together with everything ranking looks at:
the installed plugins and their lifecycle stages, settings, the query (raw text parsed against
the snapshot's keywords, or a query given as is), and earlier selections. `MergeRequest.run`
installs the plugins, applies the settings, takes a snapshot, records the selections in a store
kept in memory, and merges the batches.
-/

namespace Launcher

open Json

/-- Walk a freshly installed plugin to a lifecycle stage; a failed one fails with
`setup failure`. -/
def Registry.walkTo (r : Registry) (id : String) : Stage → Except Error Registry
  | .unloaded => .ok r
  | .initializing => r.beginInitialize id
  | .ready => do (← r.beginInitialize id).markReady id
  | .failed => do (← r.beginInitialize id).markFailed id "setup failure"

/-- Install plugins, each walked to its stage. -/
def Registry.install (plugins : List (Value × Stage)) : Except Error Registry :=
  plugins.foldlM (fun r (doc, stage) => do
    let m ← (PluginMetadata.decode doc).mapError .json
    let r ← r.register m
    r.walkTo m.id stage) {}

/-- Where the query comes from. -/
inductive QuerySource where
  | raw (text : String)
  | given (query : Value)
  deriving Inhabited

/-- A selection made earlier: query text, plugin, title, subtitle, and how many times. -/
structure PastSelection where
  queryText : String
  pluginId : String
  title : String
  subTitle : String
  times : Nat := 1
  deriving Inhabited

/-- One generation's batches and everything ranking looks at. -/
structure MergeRequest where
  plugins : List (Value × Stage)
  settings : Value := .array []
  query : QuerySource
  history : List PastSelection := []
  historyOptions : HistoryOptions := {}
  batches : List (String × List Value)
  maxResults : Nat := 0
  deriving Inhabited

/-- A store kept in memory holding the given selections, each recorded at time 0. -/
def HistoryStore.ofSelections (o : HistoryOptions) (past : List PastSelection) : HistoryStore :=
  past.foldl (fun s p =>
    (List.range p.times).foldl (fun s _ =>
      (s.record Disk.fresh p.queryText p.pluginId ⟨p.title, p.subTitle⟩ 0).store) s)
    (HistoryStore.inMemory o)

/-- The document of a ranking. -/
def Ranking.toJson (r : Ranking) (q : Query) : Value :=
  .object [("query", q.toJson), ("entries", .array (r.entries.map ListEntry.toJson)),
    ("full", .array (r.full.map RankedResult.toJson)), ("truncated", .bool r.isTruncated)]

/-- Prepare everything and merge the batches. -/
def MergeRequest.run (m : MergeRequest) : Except Error Value := do
  let r ← Registry.install m.plugins
  let settings ← decodeSettingsList m.settings
  let r := r.applySettings settings
  let snap := r.snapshot
  let q ← match m.query with
    | .raw text => pure (snap.parse text)
    | .given doc => (Query.decode doc).mapError .json
  let store := HistoryStore.ofSelections m.historyOptions m.history
  let batches ← m.batches.mapM fun (id, docs) => do
    let items ← docs.mapM fun d => (ResultItem.decode d).mapError .json
    pure (⟨id, items⟩ : Batch)
  let ranking := merge batches q snap (store.boost q.rawText) m.maxResults
  return ranking.toJson q

end Launcher
