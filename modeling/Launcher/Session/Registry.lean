import Launcher.Registry
import Launcher.Session.Reply

/-!
# Registry sessions

Commands on one plugin registry, answered in turn: installing plugins, lifecycle moves, setters,
applying settings, and the read-only views (the list, one plugin's metadata or state, the ids in
a state, the unreachable plugins, the snapshot and its debugging text, and routing a raw text
through the snapshot).
-/

namespace Launcher

open Json

/-- A command on a registry. Documents are decoded by the command itself, so that malformed
metadata, settings or states are reported as the registry would report them. -/
inductive RegistryCommand where
  | register (metadata : Value)
  | beginInitialize (id : String)
  | markReady (id : String)
  | markFailed (id error : String)
  | reset (id : String)
  | setEnabled (id : String) (enabled : Bool)
  | setGlobal (id : String) (global : Bool)
  | setActionKeyword (id keyword : String)
  | setWeightBoost (id : String) (boost : Int)
  | applySettings (settings : Value)
  | list
  | metadata (id : String)
  | state (id : String)
  | idsInState (state : Value)
  | inaccessible
  | snapshot
  | debugSnapshot
  | route (raw : String) (skipEmptyGlobalQuery : Bool)
  deriving Inhabited

/-- The document of a plugin state with its name and readiness. -/
def PluginState.describe (s : PluginState) : Value :=
  match s.toJson with
  | .object pairs =>
    .object (pairs ++ [("name", .string s.name), ("isReady", .bool s.isReady),
      ("display", .string s.name)])
  | other => other

/-- The document of a snapshot. -/
def Snapshot.toJson (s : Snapshot) : Value :=
  .object [("plugins", .array (s.plugins.map fun p =>
      .object [("id", .string p.metadata.id), ("order", .ofNat p.order),
        ("metadata", p.metadata.toJson)])),
    ("keywords", .array (s.keywords.map .string)), ("len", .ofNat s.plugins.length),
    ("isEmpty", .bool s.plugins.isEmpty)]

/-- Read a settings list from a document; an absent list is empty. -/
def decodeSettingsList (v : Value) : Except Error (List PluginSettings) :=
  match (Shape.list PluginSettings.shape).decode v with
  | .ok (.array items) => .ok (items.map PluginSettings.ofCanonical)
  | .ok _ => .ok []
  | .error m => .error (.json m)

/-- The document of a routed query: the query parsed against the snapshot's keywords and the ids
of the plugins that receive it. -/
def Snapshot.route (s : Snapshot) (raw : String) (skip : Bool) : Value :=
  let q := s.parse raw
  let targets := s.targets q { skipEmptyGlobalQuery := skip }
  .object [("query", q.toJson), ("targets", .array (targets.map fun p => .string p.metadata.id))]

namespace RegistryCommand

/-- Run one command. -/
def run (r : Registry) : RegistryCommand → Reply × Registry
  | .register m =>
    match PluginMetadata.decode m with
    | .error e => (.failed (.json e), r)
    | .ok m =>
      match r.register m with
      | .ok r => (.ok .null, r)
      | .error e => (.failed e, r)
  | .beginInitialize id => change (r.beginInitialize id)
  | .markReady id => change (r.markReady id)
  | .markFailed id e => change (r.markFailed id e)
  | .reset id => change (r.reset id)
  | .setEnabled id b => change (r.setEnabled id b)
  | .setGlobal id b => change (r.setGlobal id b)
  | .setActionKeyword id k => change (r.setActionKeyword id k)
  | .setWeightBoost id b => change (r.setWeightBoost id b)
  | .applySettings v =>
    match decodeSettingsList v with
    | .ok ss => (.ok .null, r.applySettings ss)
    | .error e => (.failed e, r)
  | .list => (.ok (.array (r.list.map PluginMetadata.toJson)), r)
  | .metadata id => (.ok ((r.metadata? id).map PluginMetadata.toJson |>.getD .null), r)
  | .state id => (.ok ((r.state? id).map PluginState.describe |>.getD .null), r)
  | .idsInState v =>
    match PluginState.decode v with
    | .ok s => (.ok (.array ((r.idsInState s).map .string)), r)
    | .error e => (.failed (.json e), r)
  | .inaccessible => (.ok (.array (r.inaccessible.map .string)), r)
  | .snapshot => (.ok r.snapshot.toJson, r)
  | .debugSnapshot => (.ok (.array (r.snapshot.plugins.map fun p => .string p.debugText)), r)
  | .route raw skip => (.ok (r.snapshot.route raw skip), r)
where
  /-- The reply to a change: nothing on success, and the registry unchanged on failure. -/
  change (result : Except Error Registry) : Reply × Registry :=
    match result with
    | .ok r' => (.ok .null, r')
    | .error e => (.failed e, r)

/-- Run commands in turn on a registry. -/
def runAll (r : Registry) (cs : List RegistryCommand) : List Reply × Registry :=
  let (r, out) := cs.foldl (fun (r, out) c => let (reply, r) := run r c; (r, reply :: out)) (r, [])
  (out.reverse, r)

end RegistryCommand

end Launcher
