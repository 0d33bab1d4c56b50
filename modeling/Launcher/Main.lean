import Launcher.Cli.Commands

/-!
# The program

The command line is read and run by `Launcher.Cli.runProgram` against a disk value. This module
is the only place that touches the real file system: it copies into a disk value the entries on
the way to every file the run may read or write (the configuration, the history journal, its
temporary sibling and the log file), runs the program, writes back what the run changed, and
prints the two output streams. Relative paths are taken from the working directory.
-/

namespace Launcher.Cli

/-- The real location of an entry of the disk value: entries under the scratch directory live
under the working directory. -/
def realLocation (cwd : String) (parts : List String) : String :=
  match parts with
  | first :: rest =>
    if first == Path.scratch then String.join (cwd :: rest.map ("/" ++ ·))
    else String.join (parts.map ("/" ++ ·))
  | [] => "/"

/-- Copy the entries on the way to a path into a disk value, walking it as the system does and
stopping at the first missing entry or file. -/
def loadPath (cwd : String) (d : Disk) (p : Path) : IO Disk := do
  let (from_, pieces) := p.start
  let mut d := d
  let mut cur := from_
  for piece in pieces do
    if piece == "." then continue
    if piece == ".." then
      cur := cur.dropLast
      continue
    let key := cur ++ [piece]
    let real := System.mkFilePath [realLocation cwd key]
    if ← real.isDir then
      d := d.put key .dir
      cur := key
    else if ← real.pathExists then
      let text ← try IO.FS.readFile real catch _ => pure ""
      d := d.put key (.file text)
      break
    else break
  return d

/-- Write back what a run changed: removed files are deleted, new directories made, and new or
changed files written. -/
def storeChanges (cwd : String) (before after : Disk) : IO Unit := do
  for (key, node) in before.entries do
    if (after.node? key).isNone then
      if let .file _ := node then
        try IO.FS.removeFile (System.mkFilePath [realLocation cwd key]) catch _ => pure ()
  let changed := after.entries.filter fun (key, node) => before.node? key != some node
  let ordered := changed.mergeSort fun a b => a.1.length ≤ b.1.length
  for (key, node) in ordered do
    let real := System.mkFilePath [realLocation cwd key]
    match node with
    | .dir => try IO.FS.createDirAll real catch _ => pure ()
    | .file text => try IO.FS.writeFile real text catch _ => pure ()

/-- The paths a run of an invocation may touch. -/
def touchedPaths (i : Invocation) (env : Environment) : List Path :=
  let dirs := Directories.ofEnvironment env
  let history := i.history.getD dirs.historyFile
  [i.config.getD dirs.configFile, history, Path.withExtension history "jsonl.tmp"] ++
    (match i.logFile with
     | some p => [p]
     | none => [])

end Launcher.Cli

open Launcher Launcher.Cli in
/-- Run the program on the real file system. -/
def main (args : List String) : IO UInt32 := do
  let env : Environment :=
    { home := ← IO.getEnv "HOME", configHome := ← IO.getEnv "XDG_CONFIG_HOME",
      dataHome := ← IO.getEnv "XDG_DATA_HOME" }
  let cwd := (← IO.currentDir).toString
  match readArguments args with
  | .show text .out status => IO.print text; return UInt32.ofNat status
  | .show text .err status => IO.eprint text; return UInt32.ofNat status
  | .run i =>
    let mut d := Disk.fresh
    for p in touchedPaths i env do
      d ← loadPath cwd d p
    let x := execute i env d
    storeChanges cwd d x.disk
    IO.print x.stdout
    IO.eprint x.stderr
    return UInt32.ofNat x.status
