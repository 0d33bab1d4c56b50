import Launcher.Disk

/-!
# Where files live

The configuration lives in the user's configuration directory and the history journal in the
data directory, each in a `kestrel` folder: under `XDG_CONFIG_HOME` and `XDG_DATA_HOME` when
they hold absolute paths, else under `~/.config` and `~/.local/share`. A base directory can
also hold both (`Directories.withBase`).
-/

namespace Launcher

/-- The program's folders and files. -/
structure Directories where
  config : Path
  data : Path
  configFile : Path
  historyFile : Path
  deriving Inhabited

/-- The environment variables that place the folders. -/
structure Environment where
  home : Option String := none
  configHome : Option String := none
  dataHome : Option String := none
  deriving Inhabited

namespace Directories

/-- The name of the program's folder. -/
def folder : String := "kestrel"

/-- Everything in one base directory. -/
def withBase (base : Path) : Directories :=
  { config := base, data := base, configFile := Path.join base "config.json",
    historyFile := Path.join base "history.jsonl" }

/-- A variable's value when it is an absolute path. -/
def absolute? : Option String → Option String
  | some p => if p.startsWith "/" || p.startsWith Path.scratch then some p else none
  | none => none

/-- The folders for an environment. -/
def ofEnvironment (env : Environment) : Directories :=
  let home : Path := env.home.getD ""
  let config := Path.join ((absolute? env.configHome).getD (Path.join home ".config")) folder
  let data :=
    Path.join ((absolute? env.dataHome).getD (Path.join (Path.join home ".local") "share")) folder
  { config := config, data := data, configFile := Path.join config "config.json",
    historyFile := Path.join data "history.jsonl" }

/-- Create both folders and those above them, the configuration folder first: the disk
afterwards, with the first failure, if any. Folders made before a failure stay. -/
def ensureExists (dirs : Directories) (d : Disk) : Disk × Option OsError :=
  match d.makeDirs dirs.config with
  | (d, some e) => (d, some e)
  | (d, none) => d.makeDirs dirs.data

end Directories

end Launcher
