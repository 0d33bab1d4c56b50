import Launcher.Query
import Launcher.Plugin.State
import Launcher.Result.Ranked
import Launcher.Warning

/-!
# Updates to the user interface

The engine tells the interface about two things: the final list of a query generation, and a
plugin's new lifecycle state.
-/

namespace Launcher

open Json

/-- A message from the engine to the interface. -/
inductive EngineUpdate where
  | results (generation : Nat) (query : Query) (entries : List ListEntry)
      (warnings : List PluginWarning)
  | stateChanged (pluginId : String) (state : PluginState)
  deriving Inhabited

namespace EngineUpdate

/-- The document shape of an update, tagged by `type`. -/
def shape : Shape :=
  .tagged "EngineUpdate" "type"
    [("results", some (.record "struct variant EngineUpdate::Results"
        [("generation", .whole .u64, none), ("query", Query.shape, none),
         ("entries", .list ListEntry.shape, none),
         ("warnings", .list PluginWarning.shape, some (.array []))] none)),
     ("plugin_state_changed", some (.record "struct variant EngineUpdate::PluginStateChanged"
        [("plugin_id", .text "a string", none), ("state", PluginState.shape, none)] none))]

/-- An update from its checked document. -/
def ofCanonical (v : Value) : EngineUpdate :=
  if v.textAt "type" == "results" then
    .results (v.natAt "generation") (Query.ofCanonical (v.get "query"))
      ((v.itemsAt "entries").map ListEntry.ofCanonical)
      ((v.itemsAt "warnings").map PluginWarning.ofCanonical)
  else .stateChanged (v.textAt "plugin_id") (PluginState.ofCanonical (v.get "state"))

/-- Read an update from a document. -/
def decode (v : Value) : Except String EngineUpdate := (shape.decode v).map ofCanonical

/-- The document form of an update; an empty warning list is left out. -/
def toJson : EngineUpdate → Value
  | .results g q es ws =>
    .object ([("type", .string "results"), ("generation", .ofNat g), ("query", q.toJson),
      ("entries", .array (es.map ListEntry.toJson))] ++
      (if ws.isEmpty then [] else [("warnings", .array (ws.map PluginWarning.toJson))]))
  | .stateChanged id s =>
    .object [("type", .string "plugin_state_changed"), ("plugin_id", .string id),
      ("state", s.toJson)]

end EngineUpdate

end Launcher
