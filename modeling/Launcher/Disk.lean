/-!
# A disk of files and directories

The history journal and the config file live on a disk. The disk here is a value: a map from
paths to files (with their text) and directories, and the operations the program performs return
the new disk and an operating-system error where a real system would give one:

* `OsError` — missing entry, entry exists, not a directory, is a directory, name too long, and
  a failing device, each with the text and number that users see (`Is a directory (os error 21)`);
* `Path` — the written form of a path, its `parent` and `fileName` read from the written
  components (where `..` is a component like any other); the scratch directory is written `$DIR`,
  and relative paths start from it;
* `Disk.place` — the walk along a path that the system makes: `..` steps up from the directory
  actually reached, so `missing/..` fails where the written form alone would not, and a file
  followed by `/`, `/.` or `/..` is not a directory, a name longer than `Path.nameMax` bytes
  is refused when the walk looks it up in a directory it has reached, and a whole path longer
  than `Path.lengthMax` bytes is refused before the walk begins;
* `Disk.read`, `Disk.append`, `Disk.create`, `Disk.rename`, `Disk.makeDir`, `Disk.makeDirs`,
  `Disk.removeDir` — one operation each, with the checks a POSIX system makes in the same order;
  an append can also be cut short by a fault the device holds (`Disk.cutAfter`), leaving part of
  its text written.
-/

namespace Launcher

/-- The operating-system errors the program meets. -/
inductive OsError where
  | notFound
  | alreadyExists
  | notADirectory
  | isADirectory
  | nameTooLong
  | inputOutput
  deriving DecidableEq, Inhabited

/-- The text of an operating-system error, with its number. -/
def OsError.message : OsError → String
  | .notFound => "No such file or directory (os error 2)"
  | .alreadyExists => "File exists (os error 17)"
  | .notADirectory => "Not a directory (os error 20)"
  | .isADirectory => "Is a directory (os error 21)"
  | .nameTooLong => "File name too long (os error 36)"
  | .inputOutput => "Input/output error (os error 5)"

/-- What a path leads to. -/
inductive Node where
  | file (text : String)
  | dir
  deriving DecidableEq, Inhabited

/-- A path as written. -/
abbrev Path := String

namespace Path

/-- The name of the scratch directory that relative paths start from. -/
def scratch : String := "$DIR"

/-- The longest name a directory entry may have, in bytes of its UTF-8 form. -/
def nameMax : Nat := 255

/-- Whether a name is too long to be looked up in a directory. -/
def tooLong (name : String) : Bool := name.utf8ByteSize > nameMax

/-- The longest path text a system call takes, in bytes of its UTF-8 form: 4096 with the zero
that ends it. -/
def lengthMax : Nat := 4095

/-- The length in bytes of the scratch directory's real name, which `$DIR` stands for: a
temporary directory such as `/tmp/.tmpAbCdEf`. -/
def scratchBytes : Nat := 15

/-- The pieces of a written path between slashes, empty ones included. -/
def segments (p : Path) : List String := p.splitOn "/"

/-- Whether a written path starts at the root. -/
def hasRoot (p : Path) : Bool := p.startsWith "/"

/-- The positions of the segments that are components of the path: the non-empty ones, without
`.` except as the first segment of a relative path. -/
def componentIndices (p : Path) : List Nat :=
  (p.segments.zipIdx.filter fun (s, i) =>
    !s.isEmpty && (s != "." || (i == 0 && !p.hasRoot))).map (·.2)

/-- The written path up to the end of the segment at position `i`. -/
def upTo (p : Path) (i : Nat) : Path := "/".intercalate (p.segments.take (i + 1))

/-- The last component of a path, unless the path ends at the root, in `.` or in `..`. -/
def fileName (p : Path) : Option String :=
  match p.componentIndices.getLast? with
  | some i =>
    let s := p.segments.getD i ""
    if s == "." || s == ".." then none else some s
  | none => none

/-- The path without its last component, as written up to the component before it: `none` for
the root and the empty path, `""` for a single relative component. -/
def parent (p : Path) : Option Path :=
  match p.componentIndices.reverse with
  | [] => none
  | [_] => some (if p.hasRoot then "/" else "")
  | _ :: i :: _ => some (p.upTo i)

/-- A path followed by one more component (an absolute component replaces the path). -/
def join (p : Path) (name : String) : Path :=
  if name.startsWith "/" then name
  else if p.isEmpty then name
  else if p.endsWith "/" then p ++ name
  else p ++ "/" ++ name

/-- The length in bytes of the text the system receives for a path: `$DIR` at its start counts
as the scratch directory's real name. -/
def systemLength (p : Path) : Nat :=
  if p.segments.head? == some scratch then p.utf8ByteSize - scratch.utf8ByteSize + scratchBytes
  else p.utf8ByteSize

/-- Whether a path is too long for the system to take at all. -/
def overlong (p : Path) : Bool := p.systemLength > lengthMax

/-- The directory a written path starts from and the pieces to walk from there: the root for a
path starting with a slash, the scratch directory otherwise. -/
def start (p : Path) : List String × List String :=
  let pieces := p.segments.filter (!·.isEmpty)
  if p.hasRoot then ([], pieces)
  else
    match p.segments with
    | s :: _ => if s == scratch then ([scratch], pieces.drop 1) else ([scratch], pieces)
    | [] => ([scratch], pieces)

end Path

/-- A disk: the entries below the root, by component list, and a fault the device may hold. The
root itself is always a directory. -/
structure Disk where
  entries : List (List String × Node)
  /-- a fault ahead on the device: it takes this many more characters of appended text, then
  cuts the append that would go past them, and is spent -/
  cutAfter : Option Nat := none
  deriving Inhabited

/-- Where the walk along a written path ends: in the directory `dir`, at the entry named `last`
there, or at `dir` itself when the path ends in `.`, `..` or a starting point. `slash` records
a slash after the last piece, which asks for a directory. -/
structure Place where
  dir : List String
  last : Option String
  slash : Bool
  deriving Inhabited

namespace Disk

/-- A disk holding only the empty scratch directory. -/
def fresh : Disk := { entries := [([Path.scratch], .dir)] }

/-- The entry at exactly these components. -/
def node? (d : Disk) (parts : List String) : Option Node :=
  if parts.isEmpty then some .dir else (d.entries.find? (·.1 == parts)).map (·.2)

/-- Walk the pieces of a path from a directory, the way the system does: `.` stays, `..` goes
up (the root is its own parent), and every other piece before the last must be a directory
that exists. Every name is looked up in the directory reached so far, the last one by the
operation that follows the walk, so a name that is too long fails there, after the pieces
before it. -/
def walk (d : Disk) (slash : Bool) : List String → List String → Except OsError Place
  | cur, [] => .ok ⟨cur, none, slash⟩
  | cur, [c] =>
    if c == "." then .ok ⟨cur, none, slash⟩
    else if c == ".." then .ok ⟨cur.dropLast, none, slash⟩
    else if Path.tooLong c then .error .nameTooLong
    else .ok ⟨cur, some c, slash⟩
  | cur, c :: rest =>
    if c == "." then walk d slash cur rest
    else if c == ".." then walk d slash cur.dropLast rest
    else if Path.tooLong c then .error .nameTooLong
    else
      match d.node? (cur ++ [c]) with
      | some .dir => walk d slash (cur ++ [c]) rest
      | some (.file _) => .error .notADirectory
      | none => .error .notFound

/-- Where a written path leads. Relative paths start in the scratch directory. A path too long
for the system is refused before any of its names is looked up. -/
def place (d : Disk) (p : Path) : Except OsError Place :=
  if p.overlong then .error .nameTooLong
  else
    let (from_, pieces) := p.start
    d.walk (p.endsWith "/" && !pieces.isEmpty) from_ pieces

/-- The entry a path names, with its components. A file written with a trailing slash is not a
directory. -/
def resolve (d : Disk) (p : Path) : Except OsError (List String × Node) :=
  match d.place p with
  | .error e => .error e
  | .ok ⟨dir, none, _⟩ => .ok (dir, .dir)
  | .ok ⟨dir, some n, slash⟩ =>
    match d.node? (dir ++ [n]) with
    | some (.file t) => if slash then .error .notADirectory else .ok (dir ++ [n], .file t)
    | some .dir => .ok (dir ++ [n], .dir)
    | none => .error .notFound

/-- The entry a path names, if the walk reaches it. -/
def stat (d : Disk) (p : Path) : Except OsError Node := (d.resolve p).map (·.2)

/-- Whether a path names an entry. -/
def exists? (d : Disk) (p : Path) : Bool := (d.stat p).toOption.isSome

/-- Whether a path names a directory. -/
def isDir (d : Disk) (p : Path) : Bool :=
  match d.stat p with
  | .ok .dir => true
  | _ => false

/-- The disk with an entry set. -/
def put (d : Disk) (parts : List String) (n : Node) : Disk :=
  { d with entries := (d.entries.filter (·.1 != parts)) ++ [(parts, n)] }

/-- The disk without an entry and everything below it. -/
def remove (d : Disk) (parts : List String) : Disk :=
  { d with entries := d.entries.filter fun e => !(parts.isPrefixOf e.1) }

/-- The disk without the entry a path names, and everything below it; unchanged when the path
names nothing. -/
def erase (d : Disk) (p : Path) : Disk :=
  match d.resolve p with
  | .ok (parts, _) => d.remove parts
  | .error _ => d

/-- The text of a file. Reading a directory fails with `isADirectory`. -/
def read (d : Disk) (p : Path) : Except OsError String :=
  match d.stat p with
  | .ok (.file t) => .ok t
  | .ok .dir => .error .isADirectory
  | .error e => .error e

/-- Check that a file may be opened for writing, created when missing: the walk must reach its
directory, and the entry must not be a directory. A missing file written with a trailing slash
cannot be created. Returns the file's components and its current text, if any. -/
def openForWrite (d : Disk) (p : Path) : Except OsError (List String × Option String) :=
  match d.place p with
  | .error e => .error e
  | .ok ⟨_, none, _⟩ => .error .isADirectory
  | .ok ⟨dir, some n, slash⟩ =>
    match d.node? (dir ++ [n]) with
    | some .dir => .error .isADirectory
    | some (.file t) => if slash then .error .notADirectory else .ok (dir ++ [n], some t)
    | none => if slash then .error .isADirectory else .ok (dir ++ [n], none)

/-- Append text to a file, creating it when missing, and give the disk afterwards with the
failure, if any. A fault ahead on the device cuts the append that would go past it: the
characters before the cut are written and the append fails, as a `write_all` cut short leaves
the file, and the fault is spent. -/
def append (d : Disk) (p : Path) (text : String) : Disk × Option OsError :=
  match d.openForWrite p with
  | .error e => (d, some e)
  | .ok (parts, old) =>
    match d.cutAfter with
    | none => (d.put parts (.file (old.getD "" ++ text)), none)
    | some n =>
      if text.length ≤ n then
        ({ d.put parts (.file (old.getD "" ++ text)) with cutAfter := some (n - text.length) }, none)
      else
        ({ d.put parts (.file (old.getD "" ++ String.ofList (text.toList.take n))) with
          cutAfter := none }, some .inputOutput)

/-- Create or truncate a file and write text to it. -/
def create (d : Disk) (p : Path) (text : String) : Except OsError Disk :=
  match d.openForWrite p with
  | .ok (parts, _) => .ok (d.put parts (.file text))
  | .error e => .error e

/-- Create one directory: the walk must reach the directory above it, and the entry must not
exist. -/
def makeDir (d : Disk) (p : Path) : Except OsError Disk :=
  match d.place p with
  | .error e => .error e
  | .ok ⟨_, none, _⟩ => .error .alreadyExists
  | .ok ⟨dir, some n, _⟩ =>
    match d.node? (dir ++ [n]) with
    | some _ => .error .alreadyExists
    | none => .ok (d.put (dir ++ [n]) .dir)

/-- Create a directory and any missing directories above it, the directories above taken from
the written path. An existing directory is fine; the first failure that is not a missing parent
is the answer. The directories are made one at a time from the top, so those made before a
failure stay: the result is the disk afterwards with the failure, if any. -/
def makeDirs (d : Disk) (p : Path) : Disk × Option OsError :=
  let rec go : Nat → Disk → Path → Disk × Option OsError
    | 0, d, _ => (d, none)
    | fuel + 1, d, p =>
      if p.isEmpty then (d, none) else
      match d.makeDir p with
      | .ok d' => (d', none)
      | .error e =>
        if e != .notFound then (d, if d.isDir p then none else some e)
        else
          match p.parent with
          | none => (d, none)
          | some up =>
            match go fuel d up with
            | (d', some e) => (d', some e)
            | (d', none) =>
              match d'.makeDir p with
              | .ok d'' => (d'', none)
              | .error e => (d', if d'.isDir p then none else some e)
  go (p.length + 1) d p

/-- Move a file onto another path, replacing a file there. Moving onto a directory fails with
`isADirectory`. -/
def rename (d : Disk) (src dst : Path) : Except OsError Disk :=
  match d.resolve src with
  | .error e => .error e
  | .ok (from_, n) =>
    match d.place dst with
    | .error e => .error e
    | .ok ⟨_, none, _⟩ => .error .isADirectory
    | .ok ⟨dir, some name, slash⟩ =>
      match d.node? (dir ++ [name]) with
      | some .dir => .error .isADirectory
      | _ =>
        if slash then .error .notADirectory
        else .ok ((d.remove from_).put (dir ++ [name]) n)

/-- Remove a directory. -/
def removeDir (d : Disk) (p : Path) : Except OsError Disk :=
  match d.resolve p with
  | .ok (parts, .dir) => .ok (d.remove parts)
  | .ok (_, .file _) => .error .notADirectory
  | .error e => .error e

end Disk

end Launcher
