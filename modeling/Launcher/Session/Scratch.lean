import Launcher.Cli.Commands
import Launcher.Json.Value

/-!
# Program runs in a scratch directory

A `ScratchRun` runs the program once on a fresh scratch directory `$DIR`, which is also the
working directory: listed directories are made first, then `config.json` and `history.jsonl`
are written when their texts are given. `HOME` is `$DIR/home` unless the run's environment says
otherwise. The answer reports the exit status, both output streams, the history journal as the
run left it, and which of the listed files exist afterwards.
-/

namespace Launcher.Cli

open Json

/-- One run of the program in a scratch directory. -/
structure ScratchRun where
  args : List String
  configText : Option String := none
  historyText : Option String := none
  mkdirs : List String := []
  env : List (String × String) := []
  readFiles : List String := []
  deriving Inhabited

namespace ScratchRun

/-- The scratch directory before the run. -/
def disk (r : ScratchRun) : Disk :=
  let d := r.mkdirs.foldl (fun d p => (d.makeDirs p).1) Disk.fresh
  let d := match r.configText with
    | some t => (d.create (Path.join Path.scratch "config.json") t).toOption.getD d
    | none => d
  match r.historyText with
  | some t => (d.create (Path.join Path.scratch "history.jsonl") t).toOption.getD d
  | none => d

/-- The environment variables that place the program's folders. -/
def environment (r : ScratchRun) : Environment :=
  { home := some ((r.env.lookup "HOME").getD (Path.join Path.scratch "home")),
    configHome := r.env.lookup "XDG_CONFIG_HOME", dataHome := r.env.lookup "XDG_DATA_HOME" }

/-- Run the program and report what it did. -/
def answer (r : ScratchRun) : Value :=
  let x := runProgram r.args r.environment r.disk
  let journal := match x.disk.read (Path.join Path.scratch "history.jsonl") with
    | .ok t => Value.string t
    | .error _ => .null
  .object [("status", .ofNat x.status), ("stdout", .string x.stdout), ("stderr", .string x.stderr),
    ("history", journal),
    ("files", .object (r.readFiles.map fun p => (p, .bool (x.disk.exists? p))))]

end ScratchRun

end Launcher.Cli
