import Launcher.Cli.Grammar
import Launcher.Cli.Similarity

/-!
# Reading the command line

The arguments are read left to right, one command level at a time:

* `--name`, `--name=value` and `-abc` are options of the current command. An option that takes
  a value and has none attached *waits*: the next argument is its value, whatever it says,
  unless it looks like an option itself, which is then read as the option it looks like;
* a waiting option is *settled* — taken with its value, or refused when it has none, was named
  before or is an empty path — only when the next option, positional value or subcommand is taken,
  or at the end. A mistake found on the line before that (an unknown option, a stray word, a
  value attached to a flag) is reported first, and the waiting option is never looked at;
* after `--` every argument is a plain value;
* a plain value names a subcommand of a command that has subcommands (reading goes on at that
  level, and the level above settles only once the one below is read), or fills the command's
  positional argument;
* after the `help` subcommand every argument names a subcommand, one level below the other.

Reading ends with an `Invocation`, or with a text to show and an exit status: the help page or
version line (status 0, on standard output), or a usage mistake (status 2, on standard error).
A mistake names the offending argument, may add tips — a similar name that exists, or how to
pass a value that looks like an option — and ends with a usage line and a pointer to `--help`.
A command with subcommands given nothing at all shows its help as a mistake.
-/

namespace Launcher.Cli

/-- What a command line asks for. -/
inductive Action where
  | route (text : String)
  | plugins
  | list (query : Option String)
  | forget (text : String)
  | compact
  deriving DecidableEq, Inhabited

/-- A well-formed command line. -/
structure Invocation where
  config : Option String := none
  history : Option String := none
  verbose : Bool := false
  logFile : Option String := none
  action : Action
  deriving Inhabited

/-- Where a shown text goes. -/
inductive Stream where
  | out
  | err
  deriving DecidableEq, Inhabited

/-- The outcome of reading a command line. -/
inductive Verdict where
  | run (i : Invocation)
  | show (text : String) (stream : Stream) (status : Nat)
  deriving Inhabited

/-- An option waiting at one level: the option, and the next argument once it came as its
value. -/
structure Waiting where
  opt : Opt
  value : Option String := none
  deriving Inhabited

/-- What has been read at one command level. -/
structure Level where
  command : Command
  /-- the options taken, with their values, in order -/
  given : List (Opt × String) := []
  /-- the options named so far, in order, as a usage line after a mistake shows them -/
  named : List Opt := []
  /-- whether an option of the command's group was named -/
  grouped : Bool := false
  values : List String := []
  trailing : Bool := false
  waiting : Option Waiting := none
  deriving Inhabited

namespace Level

/-- Whether an option was taken. -/
def has (l : Level) (o : Opt) : Bool := l.given.any (·.1 == o)

/-- The value given to an option. -/
def value? (l : Level) (o : Opt) : Option String := (l.given.find? (·.1 == o)).map (·.2)

/-- The usage line for a mistake at this level, naming `named` and, if `grouped`, the group. -/
def usageWith (l : Level) (named : List Opt) (grouped : Bool) : String :=
  l.command.usageWith named grouped (!l.values.isEmpty)

end Level

/-- A usage mistake: the message, tips, an optional usage line, and the pointer to `--help` when
the command in question has that flag (the `help` subcommand has none). -/
def mistakeAt (message : String) (tips : List String) (usage : Option String) (pointer : Bool) :
    Verdict :=
  let tipText := if tips.isEmpty then "" else "\n\n" ++ "\n".intercalate (tips.map ("  tip: " ++ ·))
  let usageText := match usage with
    | some u => "\n\nUsage: " ++ u
    | none => ""
  let pointerText := if pointer then "\n\nFor more information, try '--help'." else ""
  .show ("error: " ++ message ++ tipText ++ usageText ++ pointerText ++ "\n") .err 2

/-- A usage mistake of a command with a `--help` flag. -/
def mistake (message : String) (tips : List String) (usage : Option String) : Verdict :=
  mistakeAt message tips usage true

/-- The tip naming the similar names of a kind (`subcommand`, `argument`) that exist, if any. -/
def similarTip (kind : String) : List String → List String
  | [] => []
  | [s] => [s!"a similar {kind} exists: '{s}'"]
  | names => [s!"some similar {kind}s exist: " ++ ", ".intercalate (names.map fun s => s!"'{s}'")]

/-- The tip for an argument that looks like an option but was meant as a value. -/
def valueTip (arg : String) : String :=
  s!"to pass '{arg}' as a value, use '-- {arg}'"

/-- An option without the value it needs. -/
def missingValue (o : Opt) : Verdict :=
  mistake s!"a value is required for '{o.spec}' but none was supplied" [] none

/-- An option given twice at one level. -/
def repeated (c : Command) (o : Opt) : Verdict :=
  mistake s!"the argument '{o.spec}' cannot be used multiple times" [] (some c.usage)

namespace Level

/-- Take an option with its value. An option named twice is refused, and its first naming is
forgotten; an empty path is refused once the option is named. Answers the level after the
attempt and the mistake, if any. -/
def take (l : Level) (o : Opt) (v : String) : Level × Option Verdict :=
  if l.named.contains o then ({ l with named := l.named.erase o }, some (repeated l.command o))
  else
    let l := { l with named := l.named ++ [o], grouped := l.grouped || l.command.inGroup o }
    if o.isPath && v.isEmpty then (l, some (missingValue o))
    else ({ l with given := l.given ++ [(o, v)] }, none)

/-- Take an option with its value, stopping at a mistake. -/
def took (l : Level) (o : Opt) (v : String) : Except Verdict Level :=
  match l.take o v with
  | (l, none) => .ok l
  | (_, some m) => .error m

/-- Settle the waiting option, if any: without a value it is refused, with one it is taken.
Answers the level after the attempt and the mistake, if any. -/
def settle (l : Level) : Level × Option Verdict :=
  match l.waiting with
  | none => (l, none)
  | some ⟨o, none⟩ => ({ l with waiting := none }, some (missingValue o))
  | some ⟨o, some v⟩ => { l with waiting := none }.take o v

/-- Settle the waiting option, stopping at a mistake. -/
def settled (l : Level) : Except Verdict Level :=
  match l.settle with
  | (l, none) => .ok l
  | (_, some m) => .error m

end Level

/-- An argument that looks like an option but is none. -/
def unknownOption (arg : String) (tips : List String) (usage : String) : Verdict :=
  mistake s!"unexpected argument '{arg}' found" tips (some usage)

/-- Whether an argument looks like an option rather than a value. -/
def looksLikeOption (a : String) : Bool := a.startsWith "-" && a != "-"

/-- The help page of the command a `help` subcommand names, starting from `parent`. A name that
is not a subcommand is reported against the command reached so far, which may be a `help`
subcommand itself (`help help x`). -/
def helpFor (parent : Command) : List String → Verdict
  | [] => .show parent.helpText .out 0
  | n :: rest =>
    match parent.subcommand? n with
    | some c => helpFor c rest
    | none => mistakeAt s!"unrecognized subcommand '{n}'" [] (some parent.usage) !parent.isHelp

/-- A plain argument that the command has no place for. After `--` a subcommand name is not
read as one, and the tip says so; a command with subcommands takes any other stray word for a
misspelt subcommand. -/
def strayValue (c : Command) (trailing : Bool) (a : String) : Verdict :=
  if trailing && (c.subcommand? a).isSome then
    unknownOption a [s!"subcommand '{a}' exists; to use it, remove the '--' before it"] c.usage
  else if c.subcommands.isEmpty then unknownOption a [] c.usage
  else
    mistake s!"unrecognized subcommand '{a}'"
      (similarTip "subcommand" (similar a (c.subcommands.map (·.name)))) (some c.usage)

/-- Check a level once its arguments are used up and its waiting option settled. -/
def finishLevel (l : Level) : Except Verdict (List Level) :=
  let c := l.command
  if !c.subcommands.isEmpty then
    if l.named.isEmpty then .error (.show c.helpText .err 2)
    else
      let names := ", ".intercalate (c.subcommands.map (·.name))
      .error (mistake (s!"'{c.invocation}' requires a subcommand but one was not provided\n" ++
        s!"  [subcommands: {names}]") [] (some c.usage))
  else
    match c.positional with
    | some p =>
      if p.required && l.values.isEmpty then
        .error (mistake s!"the following required arguments were not provided:\n  <{p.name}>" []
          (some (c.usageWith l.named false true)))
      else .ok [l]
    | none => .ok [l]

/-- For an unknown long option, a similar option of a subcommand that is named later on the line:
the subcommand named first among those with a similar option, and that option. -/
def deeperOption (name : String) (c : Command) (rest : List String) : Option (String × String) :=
  let found := c.subcommands.filterMap fun sub =>
    match suggestion name (sub.options.map Opt.long), rest.idxOf? sub.name with
    | some s, some i => some (i, sub.name, s)
    | _, _ => none
  (found.foldl (fun best x =>
    match best with
    | some b => if x.1 < b.1 then some x else best
    | none => some x) none).map (·.2)

/-- A long option `--name` or `--name=value`, given `rest` after it. An unknown name is reported
after settling the waiting option for the usage line, whatever that finds; a value attached to
a flag is reported before it. -/
def readLong (l : Level) (arg : String) (rest : List String) : Except Verdict Level :=
  let body := String.ofList (arg.toList.drop 2)
  let (name, inline) := match body.splitOn "=" with
    | [n] => (n, none)
    | n :: vs => (n, some ("=".intercalate vs))
    | [] => (body, none)
  let c := l.command
  match c.findLong? name with
  | none =>
    let (l, _) := l.settle
    match suggestion name (c.options.map Opt.long) with
    | some s =>
      let o := (c.findLong? s).getD Opt.help
      let named := if l.named.contains o then l.named else l.named ++ [o]
      .error (unknownOption ("--" ++ name) [s!"a similar argument exists: '--{s}'"]
        (l.usageWith named false))
    | none =>
      match deeperOption name c rest with
      | some (sub, s) =>
        .error (unknownOption ("--" ++ name) [s!"'{sub} --{s}' exists"] (l.usageWith l.named false))
      | none =>
        let tips := if c.positional.isSome && !l.trailing then [valueTip ("--" ++ name)] else []
        .error (unknownOption ("--" ++ name) tips (l.usageWith l.named false))
  | some o =>
    match o.valueName, inline with
    | none, some v =>
      .error (mistake s!"unexpected value '{v}' for '{o.spec}' found; no more were expected" []
        (some (l.usageWith (l.named ++ [o]) l.grouped)))
    | none, none => do
      let l ← l.settled
      if o == Opt.help then .error (.show c.helpText .out 0)
      else if o == Opt.version then .error (.show (versionLine ++ "\n") .out 0)
      else l.took o ""
    | some _, some v => do
      let l ← l.settled
      l.took o v
    | some _, none => do
      let l ← l.settled
      pure { l with waiting := some ⟨o, none⟩ }

/-- A cluster of one-letter options `-abc`; each known one settles the waiting option first. -/
def readShorts (l : Level) : List Char → Except Verdict Level
  | [] => .ok l
  | ch :: more =>
    let c := l.command
    match c.findShort? ch with
    | none =>
      let arg := String.ofList ['-', ch]
      let tips := if c.positional.isSome && !l.trailing then [valueTip arg] else []
      .error (unknownOption arg tips c.usage)
    | some o => do
      let l ← l.settled
      if o == .help then .error (.show c.helpText .out 0)
      else if o == .version then .error (.show (versionLine ++ "\n") .out 0)
      else readShorts (← l.took o "") more

/-- Read the arguments of one level and of the levels below it; `fuel` bounds the number of
steps and is at least the number of arguments left. -/
def readLevel : Nat → Level → List String → Except Verdict (List Level)
  | 0, l, _ => finishLevel l
  | _ + 1, l, [] => do finishLevel (← l.settled)
  | fuel + 1, l, a :: rest =>
    let c := l.command
    let positional (l : Level) : Except Verdict (List Level) :=
      match c.positional with
      | some p =>
        if p.many || l.values.isEmpty then do
          let l ← l.settled
          readLevel fuel { l with values := l.values ++ [a] } rest
        else .error (strayValue c l.trailing a)
      | none => .error (strayValue c l.trailing a)
    let option (l : Level) : Except Verdict (List Level) :=
      if a.startsWith "--" then do readLevel fuel (← readLong l a rest) rest
      else do readLevel fuel (← readShorts l (a.toList.drop 1)) rest
    if l.trailing then positional l
    else
      match l.waiting with
      | some ⟨o, none⟩ =>
        if a == "--" then readLevel fuel { l with trailing := true } rest
        else if looksLikeOption a then option l
        else readLevel fuel { l with waiting := some ⟨o, some a⟩ } rest
      | _ =>
        match c.subcommand? a with
        | some sub =>
          if sub.isHelp then .error (helpFor c rest)
          else do
            let below ← readLevel fuel { command := sub } rest
            pure ((← l.settled) :: below)
        | none =>
          if a == "--" then readLevel fuel { l with trailing := true } rest
          else if looksLikeOption a then option l
          else positional l

/-- The value of an option at the deepest level that gives it. -/
def lastValue (levels : List Level) (o : Opt) : Option String :=
  levels.foldl (fun acc l => (l.value? o).or acc) none

/-- The invocation described by the levels read. -/
def invocationOf (levels : List Level) : Verdict :=
  let deepest := levels.getLastD default
  let text := deepest.values.headD ""
  let action : Action := match deepest.command with
    | .route => .route text
    | .historyForget => .forget text
    | .historyList => .list (deepest.value? .query)
    | .historyCompact => .compact
    | _ => .plugins
  .run { config := lastValue levels .config, history := lastValue levels .history,
         verbose := levels.any (·.has .verbose), logFile := lastValue levels .logFile,
         action := action }

/-- Read a whole command line, without the program's name. -/
def readArguments (args : List String) : Verdict :=
  match readLevel (args.length + 1) { command := .main } args with
  | .ok levels => invocationOf levels
  | .error v => v

end Launcher.Cli
