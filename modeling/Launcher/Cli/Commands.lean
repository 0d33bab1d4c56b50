import Launcher.Cli.Arguments
import Launcher.Cli.Calendar
import Launcher.Config.Problems
import Launcher.Config.Directories
import Launcher.History.Store
import Launcher.Routing
import Launcher.Registry

/-!
# Running a command

A read command line runs against a disk and an environment and ends with an `Exit`: a status,
the texts written to standard output and standard error, and the disk as it is left.

* `route` parses a query against the keywords of the configured, enabled plugins and lists the
  plugins it would go to;
* `plugins` lists the configured plugins in a table, then any problems of the configuration;
* `history list`, `history forget` and `history compact` read or change the selection history.

A failure ends with status 1 and a report on standard error: what was being done, then the
chain of causes, numbered when there is more than one.
-/

namespace Launcher.Cli

open Json

/-- How a run ends. -/
structure Exit where
  status : Nat
  stdout : String := ""
  stderr : String := ""
  disk : Disk
  deriving Inhabited

/-- A cause in a failure report: every line indented, the first one numbered when there are
several causes. -/
def causeText (number : Option Nat) (cause : String) : String :=
  let lines := cause.splitOn "\n"
  let first := match number with
    | some n => padLeft 5 (toString n) ++ ": "
    | none => "    "
  let rest := if number.isSome then "       " else "    "
  first ++ ("\n" ++ rest).intercalate lines

/-- The report of a failure: what was being done, then its causes. -/
def failureText (context : String) (causes : List String) : String :=
  let head := "Error: " ++ context
  match causes with
  | [] => head ++ "\n"
  | [c] => head ++ "\n\nCaused by:\n" ++ causeText none c ++ "\n"
  | cs => head ++ "\n\nCaused by:" ++
      String.join (cs.zipIdx.map fun (c, i) => "\n" ++ causeText (some i) c) ++ "\n"

/-- A failed run. -/
def failed (d : Disk) (context : String) (causes : List String) : Exit :=
  { status := 1, stderr := failureText context causes, disk := d }

/-- A successful run that printed these lines. -/
def printed (d : Disk) (lines : List String) : Exit :=
  { status := 0, stdout := String.join (lines.map (· ++ "\n")), disk := d }

/-- Where the log file of a run goes, created with the directories above it. -/
def openLog (d : Disk) (path : Path) : Except Exit Disk :=
  let dir := match path.parent with
    | some p => if p.isEmpty then "." else p
    | none => "."
  match path.fileName with
  | none => .error (failed d ("Invalid log file path: " ++ path) [])
  | some name =>
    match d.makeDirs dir with
    | (d, some e) => .error (failed d ("Failed to create log directory " ++ dir) [e.message])
    | (d, none) => .ok (d.append (Path.join dir name) "").1

/-- The keywords the preview reads a text against: the scoped keywords of the enabled plugins,
sorted and without repeats. -/
def previewKeywords (plugins : List PluginMetadata) : List String :=
  plugins.foldl (fun ks m =>
    if m.disabled then ks else (m.scopedKeyword.map (Registry.insertKeyword · ks)).getD ks) []

/-- How a configuration routes a text, computed from the configuration alone: the query read
against the configured keywords, and the configured plugins it goes to. -/
def routePlan (c : Config) (text : String) : Query × List PluginMetadata :=
  let plugins := c.plugins.map PluginSettings.metadata
  let q := Query.parse text (previewKeywords plugins)
  (q, plugins.filter fun m => isTarget m q c.dispatchOptions)

/-- The report of a query's routing: the query, the time budget, and each target's id with
whether it is global. -/
def routeReport (q : Query) (o : DispatchOptions) (targets : List (String × Bool)) :
    List String :=
  [s!"Raw text:       {Text.quoted q.rawText}",
   "Action keyword: " ++ (if q.isScoped then q.actionKeyword else "(none)"),
   s!"Search:         {Text.quoted q.search}",
   s!"Timeout:        {o.pluginTimeoutMs}ms per plugin"] ++
  (if targets.isEmpty then ["Targets:        (none)"]
   else "Targets:" :: targets.map fun t =>
     "  " ++ padRight 20 t.1 ++ " " ++ (if t.2 then "global" else "keyword"))

/-- The report of a query's routing under a configuration. -/
def routeLines (c : Config) (text : String) : List String :=
  let plan := routePlan c text
  routeReport plan.1 c.dispatchOptions (plan.2.map fun m => (m.id, m.isGlobal))

/-- One row of the plugin table. -/
def pluginRow (id keyword global boost status : String) : String :=
  padRight 20 id ++ " " ++ padRight 8 keyword ++ " " ++ padRight 7 global ++ " " ++ padLeft 6 boost ++
    "  " ++ status

/-- The plugin table of a configuration, then its problems. -/
def pluginLines (c : Config) (configPath : Path) : List String :=
  let table := if c.plugins.isEmpty then ["No plugins configured in " ++ configPath]
    else pluginRow "ID" "KEYWORD" "GLOBAL" "BOOST" "STATUS" :: c.plugins.map fun p =>
      let k := Text.trim p.actionKeyword
      pluginRow p.id (if k.isEmpty then "-" else k) (if p.isGlobal then "yes" else "no")
        (toString p.weightBoost) (if p.disabled then "disabled" else "enabled")
  let problems := c.problems
  table ++ (if problems.isEmpty then [] else "" :: "Problems:" :: problems.map ("  " ++ ·))

/-- One line of the history listing. -/
def entryLine (e : HistoryEntry) : String :=
  padRight 19 ((stamp e.lastSelectedAt).getD "-") ++ "  " ++ padLeft 4 (toString e.selectionCount) ++
    "x  " ++ padRight 16 e.queryText ++ " " ++ padRight 12 e.pluginId ++ " " ++ e.resultKey.title

/-- Run a history command on an opened store. -/
def historyRun (d : Disk) (store : HistoryStore) (historyPath : Path) : Action → Exit
  | .list query =>
    let entries := store.entries.filter fun e =>
      match query with
      | some q => e.queryText == q
      | none => true
    if entries.isEmpty then printed d ["No history entries"]
    else printed d (entries.map entryLine)
  | .forget text =>
    let o := store.forget d text
    match o.result with
    | .ok n => printed o.disk [s!"Removed {n} entries for {Text.quoted text}"]
    | .error e => failed o.disk "Failed to update history" e.causes
  | .compact =>
    let o := store.compact d
    match o.result with
    | .ok _ => printed o.disk [s!"Compacted {historyPath} to {o.store.size} entries"]
    | .error e => failed o.disk "Failed to compact history" e.causes
  | _ => printed d []

/-- Run a read command line. -/
def execute (i : Invocation) (env : Environment) (d : Disk) : Exit :=
  let logged := match i.logFile with
    | some p => openLog d p
    | none => .ok d
  match logged with
  | .error x => x
  | .ok d =>
    let dirs := Directories.ofEnvironment env
    let configPath := i.config.getD dirs.configFile
    let historyPath := i.history.getD dirs.historyFile
    match Config.load d configPath with
    | .error e => failed d ("Failed to load " ++ configPath) e.causes
    | .ok c =>
      match i.action with
      | .route text => printed d (routeLines c text)
      | .plugins => printed d (pluginLines c configPath)
      | a =>
        match HistoryStore.openAt d historyPath c.options with
        | .error e => failed d ("Failed to open " ++ historyPath) e.causes
        | .ok store => historyRun d store historyPath a

/-- Run the program with its arguments, without the program's name. -/
def runProgram (args : List String) (env : Environment) (d : Disk) : Exit :=
  match readArguments args with
  | .run i => execute i env d
  | .show text .out status => { status := status, stdout := text, disk := d }
  | .show text .err status => { status := status, stderr := text, disk := d }

end Launcher.Cli
