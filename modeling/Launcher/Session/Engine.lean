import Launcher.Engine.Scheduler
import Launcher.Session.Documents
import Launcher.Session.Ranking
import Launcher.Config.Basic
import Launcher.Config.Directories

/-!
# Engine sessions

An engine session sets up plugins and settings once, then answers a list of commands against
the engine, one at a time:

* queries run for the caller (`run`) or in the background (`submit`), and the caller can let the
  clock pass (`sleep`);
* the outbox of updates, the last delivered list, selections, history, plugin bring-up and
  reload, and the calls each scripted plugin received can be inspected or driven;
* every registry command works on the engine's registry.

Settings come from a configuration document, from the files of a base directory, or are the
defaults. With files, a history journal that cannot be opened leaves the history in memory.
-/

namespace Launcher.Engine

open Json

/-- A plugin to install: its metadata document, the stage it starts in, and its script. -/
structure PluginSetup where
  metadata : Value
  stage : Stage := .ready
  script : ScriptedPlugin := {}
  deriving Inhabited

/-- Where the engine's settings come from. -/
inductive SettingsSource where
  | defaults
  | given (config : Value)
  | files (configText historyText : Option String) (historyIsDir : Bool)
  deriving Inhabited

/-- One command to an engine session. -/
inductive EngineCommand where
  | run (raw : String)
  | submit (raw : String)
  | sleep (ms : Nat)
  | updates
  | showMore (generation : Nat)
  | select (generation : Nat) (plugin : String) (item : ResultItem)
  | history
  | forget (query : String)
  | initializeAll
  | reload (id : String)
  | calls (id : String)
  | closeUpdates
  | registry (c : RegistryCommand)
  deriving Inhabited

/-- How long settling lets the clock run: an hour. -/
def settleMs : Nat := 3600 * 1000

/-- The most rounds one job of the caller may take. -/
def roundLimit : Nat := 1000000

namespace World

/-- An engine with a registry, scripts and a configuration. -/
def configured (registry : Registry) (plugins : List (String × ScriptedPlugin)) (c : Config)
    (history : HistoryStore) (disk : Disk) : World :=
  { registry := registry.applySettings c.plugins, plugins := plugins, history := history,
    disk := disk, options := c.dispatchOptions, maxResults := c.search.maxResults }

/-- Install the plugins, then take the settings from their source. -/
def setup (plugins : List PluginSetup) (source : SettingsSource) : Except Error World := do
  let (registry, scripts) ← plugins.foldlM (fun (r, scripts) p => do
      let m ← (PluginMetadata.decode p.metadata).mapError .json
      let r ← r.register m
      let r ← r.walkTo m.id p.stage
      pure (r, scripts ++ [(m.id, p.script)])) (({} : Registry), [])
  match source with
  | .defaults =>
    let c : Config := {}
    pure (configured registry scripts c (HistoryStore.inMemory c.options) Disk.fresh)
  | .given doc =>
    let c ← (Config.decode doc).mapError .json
    pure (configured registry scripts c (HistoryStore.inMemory c.options) Disk.fresh)
  | .files configText historyText historyIsDir =>
    let dirs := Directories.withBase Path.scratch
    let disk := Disk.fresh
    let disk := match configText with
      | some t => (disk.create dirs.configFile t).toOption.getD disk
      | none => disk
    let disk := match historyText with
      | some t => (disk.create dirs.historyFile t).toOption.getD disk
      | none => disk
    let disk := if historyIsDir then (disk.makeDir dirs.historyFile).toOption.getD disk else disk
    let disk ← match dirs.ensureExists disk with
      | (disk, none) => pure disk
      | (_, some e) => throw (.io e)
    let c ← Config.load disk dirs.configFile
    let history := match HistoryStore.openAt disk dirs.historyFile c.options with
      | .ok s => s
      | .error _ => HistoryStore.inMemory c.options
    pure (configured registry scripts c history disk)

end World

/-- Warnings in a stable order: by plugin, then by wording. -/
def sortWarnings (ws : List PluginWarning) : List PluginWarning :=
  ws.mergeSort fun a b => a.pluginId < b.pluginId || (a.pluginId == b.pluginId && a.text ≤ b.text)

/-- The document of a delivered list. -/
def outcomeDoc (o : QueryOutcome) : Value :=
  .object [("generation", .ofNat o.generation), ("query", o.query.toJson),
    ("entries", .array (o.entries.map ListEntry.toJson)),
    ("warnings", .array ((sortWarnings o.warnings).map PluginWarning.describe))]

/-- The document of an update. -/
def updateDoc : EngineUpdate → Value
  | .results g q es ws =>
    .object [("type", .string "results"), ("generation", .ofNat g), ("query", q.toJson),
      ("entries", .array (es.map ListEntry.toJson)),
      ("warnings", .array ((sortWarnings ws).map PluginWarning.describe))]
  | .stateChanged id s =>
    .object [("type", .string "plugin_state_changed"), ("pluginId", .string id),
      ("state", s.toJson)]

/-- The document of a history entry as the engine shows it: without the time of selection. -/
def entryDoc (e : HistoryEntry) : Value := .object (e.pairs.filter (·.1 != "lastSelectedAt"))

/-- The document of a call log. -/
def CallLog.toJson (l : CallLog) : Value :=
  .object [("searches", .array (l.searches.map .string)), ("selections", .array l.selections),
    ("reloads", .ofNat l.reloads)]

/-- The reply to a job the caller waited for. -/
def finishedReply : Option Finished → Reply
  | some (.outcome o) => .ok ((o.map outcomeDoc).getD .null)
  | some .unit => .ok .null
  | some (.state s) => .ok s.toJson
  | some (.states l) => .ok (.array (l.map fun (id, s) => .array [.string id, s.toJson]))
  | some (.failed e) => .failed e
  | none => .refused "the engine never finished"

namespace World

/-- Run a job for the caller and reply with its end. -/
def wait (w : World) (job : MainJob) : Reply × World :=
  let (w, r) := w.blockOn job roundLimit
  (finishedReply r, w)

/-- Submit a query from outside: the next generation begins and its dispatch is queued. -/
def submit (w : World) (raw : String) : Nat × World :=
  let (g, w) := w.beginQuery
  let (_, w) := { w with inside := true }.spawn (.search { generation := g, raw := raw })
  (g, { w with inside := false })

/-- Answer one command. -/
def command (w : World) : EngineCommand → Reply × World
  | .run raw => w.wait (.run raw none)
  | .submit raw => let (g, w) := w.submit raw; (.ok (.ofNat g), w)
  | .sleep ms => w.wait (.sleep ms none none)
  | .updates => (.ok (.array (w.outbox.map updateDoc)), { w with outbox := [] })
  | .showMore g =>
    match w.delivered with
    | some d =>
      if w.generations.isCurrent g && d.generation == g then
        (.ok (.array (d.full.map RankedResult.toJson)), w)
      else (.ok .null, w)
    | none => (.ok .null, w)
  | .select g plugin item => w.wait (.select g plugin item .start)
  | .history => (.ok (.array (w.history.entries.map entryDoc)), w)
  | .forget q =>
    let o := w.history.forget w.disk q
    let w := { w with history := o.store, disk := o.disk }
    match o.result with
    | .ok n => (.ok (.ofNat n), w)
    | .error e => (.failed e, w)
  | .initializeAll => w.wait (.startAll none)
  | .reload id => w.wait (.reload id none)
  | .calls id =>
    match w.plugins.lookup id with
    | some p =>
      if p.logged then (.ok ((w.logs.lookup id).getD {}).toJson, w)
      else (.ok (({} : CallLog).toJson), w)
    | none => (.refused "no such plugin", w)
  | .closeUpdates => (.ok .null, { w with listening := false, outbox := [] })
  | .registry c => let (reply, r) := RegistryCommand.run w.registry c; (reply, { w with registry := r })

/-- Answer commands in order. -/
def commands (w : World) (cs : List EngineCommand) : List Reply × World :=
  let (w, out) := cs.foldl (fun (w, out) c => let (reply, w) := w.command c; (w, reply :: out)) (w, [])
  (out.reverse, w)

end World

end Launcher.Engine
