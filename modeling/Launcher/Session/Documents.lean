import Launcher.Update
import Launcher.History.Entry
import Launcher.Config.Basic
import Launcher.Session.Registry

/-!
# Documents read back

Every type that travels as JSON can be read from a document and written again; `DocumentKind`
names them, and `DocumentKind.reread` does both, answering the written document together with
what the type derives from it (a state's name and readiness, a row's result, a warning's
sentence).
-/

namespace Launcher

open Json

/-- The types that travel as documents. -/
inductive DocumentKind where
  | pluginMetadata | query | resultItem | resultKey | resultIdentity | rankedResult
  | listEntry | warningKind | pluginWarning | pluginState | engineUpdate | historyEntry
  | pluginSettings | config
  deriving DecidableEq, Inhabited

/-- A warning's document with its sentence and whether it is a timeout. -/
def PluginWarning.describe (w : PluginWarning) : Value :=
  match w.toJson with
  | .object pairs => .object (pairs ++ [("text", .string w.text), ("isTimeout", .bool w.isTimeout)])
  | other => other

namespace DocumentKind

/-- The kind named by a type name. -/
def ofName? : String → Option DocumentKind
  | "PluginMetadata" => some .pluginMetadata
  | "Query" => some .query
  | "ResultItem" => some .resultItem
  | "ResultKey" => some .resultKey
  | "ResultIdentity" => some .resultIdentity
  | "RankedResult" => some .rankedResult
  | "ListEntry" => some .listEntry
  | "WarningKind" => some .warningKind
  | "PluginWarning" => some .pluginWarning
  | "PluginState" => some .pluginState
  | "EngineUpdate" => some .engineUpdate
  | "HistoryEntry" => some .historyEntry
  | "PluginSettings" => some .pluginSettings
  | "Config" => some .config
  | _ => none

/-- Read a document of a kind and write it again, with what the type derives from it. -/
def reread (k : DocumentKind) (v : Value) : Except String Value :=
  match k with
  | .pluginMetadata => (PluginMetadata.decode v).map PluginMetadata.toJson
  | .query => (Query.decode v).map Query.toJson
  | .resultItem => (ResultItem.decode v).map ResultItem.toJson
  | .resultKey => (ResultKey.decode v).map ResultKey.toJson
  | .resultIdentity => (ResultIdentity.decode v).map ResultIdentity.toJson
  | .rankedResult => (RankedResult.decode v).map RankedResult.toJson
  | .listEntry => (ListEntry.decode v).map fun e =>
      .object [("entry", e.toJson), ("isTruncationMarker", .bool e.isMarker),
        ("result", (e.result?.map RankedResult.toJson).getD .null)]
  | .warningKind => (WarningKind.decode v).map WarningKind.toJson
  | .pluginWarning => (PluginWarning.decode v).map fun w =>
      .object [("warning", w.toJson), ("text", .string w.text), ("isTimeout", .bool w.isTimeout)]
  | .pluginState => (PluginState.decode v).map PluginState.describe
  | .engineUpdate => (EngineUpdate.decode v).map fun u => .object [("update", u.toJson)]
  | .historyEntry => (HistoryEntry.decode v).map HistoryEntry.toJson
  | .pluginSettings => (PluginSettings.decode v).map PluginSettings.toJson
  | .config => (Config.decode v).map Config.toJson

end DocumentKind

end Launcher
