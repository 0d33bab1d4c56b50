/-!
# The command line's grammar

The program is driven by subcommands, each with its own options and positional argument:

```
kestrel [OPTIONS] <COMMAND>
  route <TEXT>                  parse a query and list its targets
  plugins                       list the configured plugins
  history <COMMAND>
    list [--query <QUERY>]      list remembered selections
    forget <TEXT>               forget a query text
    compact                     rewrite the journal
```

The four options `--config`, `--history`, `--verbose` and `--log-file` are accepted by every
command; `--help` by every command and `--version` by the program itself. A `help` subcommand
beside the others prints the help of the command it names.

This module holds the grammar as data (`Command`, `Opt`, `Positional`) and renders what is
derived from it: usage lines and help pages, with columns aligned to the longest entry.
-/

namespace Launcher.Cli

/-- The nodes of the command tree. -/
inductive Command where
  | main
  | route
  | plugins
  | history
  | historyList
  | historyForget
  | historyCompact
  | mainHelp
  | historyHelp
  deriving DecidableEq, Inhabited

/-- The options. -/
inductive Opt where
  | config
  | history
  | verbose
  | logFile
  | query
  | help
  | version
  deriving DecidableEq, Inhabited

/-- A positional argument: its value name, its help, whether it must be given, and whether it
takes any number of values. -/
structure Positional where
  name : String
  about : String
  required : Bool
  many : Bool
  deriving Inhabited

/-- The version line. -/
def versionLine : String := "kestrel 0.1.0"

namespace Opt

/-- The long name, written after `--`. -/
def long : Opt → String
  | .config => "config"
  | .history => "history"
  | .verbose => "verbose"
  | .logFile => "log-file"
  | .query => "query"
  | .help => "help"
  | .version => "version"

/-- The one-letter name, written after `-`. -/
def short : Opt → Option Char
  | .verbose => some 'v'
  | .help => some 'h'
  | .version => some 'V'
  | _ => none

/-- The name of the value an option takes, if it takes one. -/
def valueName : Opt → Option String
  | .config | .history | .logFile => some "PATH"
  | .query => some "QUERY"
  | _ => none

/-- Whether the option's value is a path, which may not be empty. -/
def isPath : Opt → Bool
  | .config | .history | .logFile => true
  | _ => false

/-- The option's help line. -/
def about : Opt → String
  | .config => "Config file (defaults to the XDG config directory)"
  | .history => "History journal (defaults to the XDG data directory)"
  | .verbose => "Log at debug level"
  | .logFile => "Also write logs to this file"
  | .query => "Only entries recorded for this exact query text"
  | .help => "Print help"
  | .version => "Print version"

/-- Where the option is listed in help: by this rank, then by `sortKey`. -/
def rank : Opt → Nat
  | .config | .query => 0
  | .history => 1
  | .verbose => 2
  | .logFile => 3
  | .help | .version => 999

/-- The tie-breaking key of the help order: the lower-cased short name followed by `0` for a
lower-case and `1` for an upper-case letter, else the long name. -/
def sortKey (o : Opt) : String :=
  match o.short with
  | some c => String.ofList [c.toLower, if c.isLower then '0' else '1']
  | none => o.long

/-- The option as written in messages: `--config <PATH>`, `--verbose`. -/
def spec (o : Opt) : String :=
  match o.valueName with
  | some v => s!"--{o.long} <{v}>"
  | none => "--" ++ o.long

/-- The option as listed in help, before its help line: the short name (or room for it), the
long name and the value. -/
def column (o : Opt) : String :=
  let lead := match o.short with
    | some c => String.ofList ['-', c, ',', ' ']
    | none => "    "
  lead ++ o.spec

end Opt

namespace Command

/-- The command's own name. -/
def name : Command → String
  | .main => "kestrel"
  | .route => "route"
  | .plugins => "plugins"
  | .history => "history"
  | .historyList => "list"
  | .historyForget => "forget"
  | .historyCompact => "compact"
  | .mainHelp | .historyHelp => "help"

/-- The words that invoke the command, starting with the program's name. -/
def path : Command → List String
  | .main => ["kestrel"]
  | .route => ["kestrel", "route"]
  | .plugins => ["kestrel", "plugins"]
  | .history => ["kestrel", "history"]
  | .historyList => ["kestrel", "history", "list"]
  | .historyForget => ["kestrel", "history", "forget"]
  | .historyCompact => ["kestrel", "history", "compact"]
  | .mainHelp => ["kestrel", "help"]
  | .historyHelp => ["kestrel", "history", "help"]

/-- The command's invocation as one text. -/
def invocation (c : Command) : String := " ".intercalate c.path

/-- What the command does. -/
def about : Command → String
  | .main => "Inspect Kestrel query routing, plugin settings and history"
  | .route => "Parse a query and list the plugins it would be dispatched to"
  | .plugins => "List configured plugins in configuration order"
  | .history => "Inspect or maintain selection history"
  | .historyList => "List entries, most recent first"
  | .historyForget => "Remove every entry recorded for a query text"
  | .historyCompact => "Rewrite the journal to hold only live entries"
  | .mainHelp | .historyHelp => "Print this message or the help of the given subcommand(s)"

/-- The subcommands, in the order they are listed. -/
def subcommands : Command → List Command
  | .main => [.route, .plugins, .history, .mainHelp]
  | .history => [.historyList, .historyForget, .historyCompact, .historyHelp]
  | _ => []

/-- The options a command accepts: its own, the shared ones, then help and version. -/
def options : Command → List Opt
  | .main => [.config, .history, .verbose, .logFile, .help, .version]
  | .historyList => [.query, .config, .history, .verbose, .logFile, .help]
  | .mainHelp | .historyHelp => []
  | _ => [.config, .history, .verbose, .logFile, .help]

/-- The positional argument of a command. -/
def positional : Command → Option Positional
  | .route => some ⟨"TEXT", "Raw query text, exactly as typed", true, false⟩
  | .historyForget => some ⟨"TEXT", "", true, false⟩
  | .mainHelp | .historyHelp => some ⟨"COMMAND", "Print help for the subcommand(s)", false, true⟩
  | _ => none

/-- The options that form the command's group: naming one of them names the group, and a usage
line that names the group shows it whole, as alternatives, in place of its members. -/
def groupMembers : Command → List Opt
  | .main => [.config, .history, .verbose, .logFile]
  | .historyList => [.query]
  | _ => []

/-- Whether an option belongs to the command's group. -/
def inGroup (c : Command) (o : Opt) : Bool := c.groupMembers.contains o

/-- The command's group as a usage line shows it: `<--config <PATH>|--verbose>`. -/
def groupSpec (c : Command) : String := "<" ++ "|".intercalate (c.groupMembers.map Opt.spec) ++ ">"

/-- Whether the command is one that prints the help of another. -/
def isHelp : Command → Bool
  | .mainHelp | .historyHelp => true
  | _ => false

/-- Text printed after the help of a command. -/
def afterHelp : Command → Option String
  | .main => some ("Examples:\n" ++
      "  kestrel route \"> 2+2\"              Show which plugins would answer\n" ++
      "  kestrel plugins                    List configured plugins and problems\n" ++
      "  kestrel history list               Show recent selections\n" ++
      "  kestrel history list --query rep   Show selections recorded for \"rep\"\n" ++
      "  kestrel history forget rep         Remove history for \"rep\"\n" ++
      "  kestrel history compact            Rewrite the history journal\n")
  | _ => none

/-- The subcommand of a command with a given name. -/
def subcommand? (c : Command) (name : String) : Option Command :=
  c.subcommands.find? (·.name == name)

/-- The option of a command with a given long name. -/
def findLong? (c : Command) (long : String) : Option Opt := c.options.find? (·.long == long)

/-- The option of a command with a given one-letter name. -/
def findShort? (c : Command) (ch : Char) : Option Opt := c.options.find? (·.short == some ch)

end Command

/-- A positional argument as written in usage: `<TEXT>`, `[COMMAND]...`. -/
def Positional.spec (p : Positional) : String :=
  (if p.required then "<" ++ p.name ++ ">" else "[" ++ p.name ++ "]") ++ (if p.many then "..." else "")

/-- A text padded with spaces on the right to a number of characters. -/
def padRight (n : Nat) (s : String) : String := s ++ String.ofList (List.replicate (n - s.length) ' ')

/-- A text padded with spaces on the left to a number of characters. -/
def padLeft (n : Nat) (s : String) : String := String.ofList (List.replicate (n - s.length) ' ') ++ s

namespace Command

/-- The full usage line of a command: its options as a placeholder, its positional argument and,
for a command with subcommands, the subcommand to give. -/
def usage (c : Command) : String :=
  let opts := if c.options.any (fun o => o != .help && o != .version) then " [OPTIONS]" else ""
  let pos := match c.positional with
    | some p => " " ++ p.spec
    | none => ""
  let sub := if c.subcommands.isEmpty then "" else " <COMMAND>"
  c.invocation ++ opts ++ pos ++ sub

/-- The usage line shown after a mistake, naming what was given: the options named (each once,
in the order first named; the members of a named group give way to the group, shown after
them), the positional argument when it is required or given, and the subcommand to give.
Naming nothing gives the full usage line. -/
def usageWith (c : Command) (given : List Opt) (grouped positionalGiven : Bool) : String :=
  let grouped := grouped && !c.groupMembers.isEmpty
  if given.isEmpty && !grouped && !positionalGiven then c.usage
  else
    let shown := given.eraseDups.filter fun o => !(grouped && c.inGroup o)
    let opts := shown.map fun o => " " ++ o.spec
    let group := if grouped then " " ++ c.groupSpec else ""
    let pos := match c.positional with
      | some p => if p.required || positionalGiven then " <" ++ p.name ++ ">" ++ (if p.many then "..." else "") else ""
      | none => ""
    let sub := if c.subcommands.isEmpty then "" else " <COMMAND>"
    c.invocation ++ String.join opts ++ group ++ pos ++ sub

/-- Rows of a help section: each first column padded to the widest plus two spaces, then the
help line. -/
def rows (entries : List (String × String)) : List String :=
  let width := entries.foldl (fun w (a, _) => max w a.length) 0
  entries.map fun (a, b) => "  " ++ padRight (width + 2) a ++ b

/-- The options of a command in help order. -/
def listedOptions (c : Command) : List Opt :=
  c.options.mergeSort fun a b => a.rank < b.rank || (a.rank == b.rank && a.sortKey ≤ b.sortKey)

/-- The help page of a command. -/
def helpText (c : Command) : String :=
  let commands := if c.subcommands.isEmpty then []
    else ["Commands:\n" ++ "\n".intercalate (rows (c.subcommands.map fun s => (s.name, s.about)))]
  let arguments := match c.positional with
    | some p => ["Arguments:\n" ++ "\n".intercalate (rows [(p.spec, p.about)])]
    | none => []
  let width := c.options.foldl (fun w o => max w o.spec.length) 2
  let options := if c.options.isEmpty then []
    else ["Options:\n" ++ "\n".intercalate (c.listedOptions.map fun o =>
      "  " ++ padRight (width + 6) o.column ++ o.about)]
  let body := c.about ++ "\n\nUsage: " ++ c.usage ++ "\n\n" ++
    "\n\n".intercalate (commands ++ arguments ++ options) ++
    (match c.afterHelp with
     | some t => "\n\n" ++ t
     | none => "")
  String.ofList (body.toList.reverse.dropWhile Char.isWhitespace).reverse ++ "\n"

end Command

end Launcher.Cli
