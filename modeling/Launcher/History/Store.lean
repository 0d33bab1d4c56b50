import Launcher.History.Options
import Launcher.History.Recency
import Launcher.Disk
import Launcher.Error
import Launcher.Text.Blank

/-!
# The history store

Selections live in a recency list; a store with a path also keeps an append-only journal on disk
so that history survives restarts:

* `HistoryStore.load` replays a journal text: every line that is not blank counts, a line that
  reads as a record is applied (a selection is stored, a forget drops the query's entries), any
  other line is skipped; a text that does not end in a line break has a *torn tail*;
* `HistoryStore.record` appends the entry's new state and then stores it; memory changes only
  once the journal took the line;
* `HistoryStore.forget` appends a forget record, then drops the query's entries;
* `HistoryStore.compact` rewrites the journal to hold exactly the live entries, oldest first,
  through a temporary file renamed over the journal. A record triggers it once the journal has
  at least 64 lines and more than `threshold` times as many lines as entries.

Each operation returns an `Outcome`: its answer or error, with the store and disk after it, since
an operation that fails part way may already have changed both.
-/

namespace Launcher

/-- Selections, their order, and the journal that keeps them. -/
structure HistoryStore where
  recency : Recency
  options : HistoryOptions
  path : Option Path := none
  journalLines : Nat := 0
  tornTail : Bool := false
  deriving Inhabited

/-- What an operation on a store answers, with the store and disk after it. -/
structure Outcome (α : Type) where
  result : Except Error α
  store : HistoryStore
  disk : Disk

/-- Journals shorter than this are never compacted on their own. -/
def minCompactLines : Nat := 64

/-- The largest selection count; counts stop there. -/
def countMax : Nat := Nat.pow 2 32 - 1

/-- The lines of a text: cut at each line break, one carriage return before a break dropped, and
no empty line after a final break. -/
def textLines (s : String) : List String :=
  let pieces := s.splitOn "\n"
  let body := if s.endsWith "\n" then pieces.dropLast else pieces
  let n := body.length
  (body.zipIdx.map fun (l, i) =>
    if (i + 1 < n || s.endsWith "\n") && l.endsWith "\r" then l.dropEnd 1 |>.toString else l)

/-- The stem of a file name: the name without the part after its last dot, unless that dot
starts the name. -/
def fileStem (name : String) : String :=
  if name == ".." then name else
  match (name.toList.reverse.dropWhile (· != '.')).reverse with
  | [] => name
  | [_] => name
  | front => String.ofList front.dropLast

/-- A path with its extension replaced: the written path is cut right after the stem of its file
name, so slashes and `.` pieces after the name go too, and the new extension follows. A path
without a file name stays as it is. -/
def Path.withExtension (p : Path) (ext : String) : Path :=
  match p.componentIndices.getLast?, p.fileName with
  | some i, some name =>
    let front := if i = 0 then "" else p.upTo (i - 1) ++ "/"
    front ++ fileStem name ++ "." ++ ext
  | _, _ => p

namespace HistoryStore

/-- An empty store without a journal. -/
def inMemory (o : HistoryOptions) : HistoryStore :=
  let o := o.normalized
  { recency := Recency.empty o.slots, options := o }

/-- Apply one journal record. -/
def replay (s : HistoryStore) : JournalRecord → HistoryStore
  | .select e => { s with recency := s.recency.put e }
  | .forget q => { s with recency := (s.recency.dropQuery q).2 }

/-- Read one journal line into the store: blank lines are passed over, others counted and, when
they are records, applied. -/
def loadLine (s : HistoryStore) (line : String) : HistoryStore :=
  if (Text.trim line).isEmpty then s
  else
    let s := { s with journalLines := s.journalLines + 1 }
    match JournalRecord.ofLine? line with
    | some r => s.replay r
    | none => s

/-- A store rebuilt from the text of its journal. -/
def load (o : HistoryOptions) (path : Path) (content : String) : HistoryStore :=
  let torn := !content.isEmpty && !content.endsWith "\n"
  let s := { inMemory o with path := some path, tornTail := torn }
  (textLines content).foldl loadLine s

/-- Open the journal at a path: a missing file gives an empty store, an unreadable one an error. -/
def openAt (d : Disk) (path : Path) (o : HistoryOptions) : Except Error HistoryStore :=
  if !d.exists? path then .ok { inMemory o with path := some path }
  else
    match d.read path with
    | .ok content => .ok (load o path content)
    | .error e => .error (.io e)

/-- The directory holding a path is created when missing; directories made before a failure
stay. -/
def ensureParent (d : Disk) (path : Path) : Disk × Option OsError :=
  match path.parent with
  | some dir => d.makeDirs dir
  | none => (d, none)

/-- Append one record to the journal, starting a fresh line after a torn tail. The store changes
only once the whole line is written: an append cut short leaves part of the line in the journal,
and the store, its torn tail included, as it was. -/
def append (s : HistoryStore) (d : Disk) (r : JournalRecord) : Outcome Unit :=
  match s.path with
  | none => ⟨.ok (), s, d⟩
  | some path =>
    match ensureParent d path with
    | (d, some e) => ⟨.error (.io e), s, d⟩
    | (d, none) =>
      let text := (if s.tornTail then "\n" else "") ++ r.line ++ "\n"
      match d.append path text with
      | (d, some e) => ⟨.error (.io e), s, d⟩
      | (d, none) => ⟨.ok (), { s with tornTail := false, journalLines := s.journalLines + 1 }, d⟩

/-- Whether the journal has grown enough, against the live entries, to be rewritten. -/
def needsCompaction (s : HistoryStore) : Bool :=
  s.path.isSome && s.journalLines ≥ minCompactLines &&
    Binary64.lt (Binary64.mul (Binary64.ofNat (max s.recency.size 1)) s.options.compactThreshold)
      (Binary64.ofNat s.journalLines)

/-- The journal text of the live entries, oldest first. -/
def liveJournal (s : HistoryStore) : String :=
  String.join (s.recency.entries.reverse.map fun e => (JournalRecord.select e).line ++ "\n")

/-- Rewrite the journal to hold exactly the live entries. -/
def compact (s : HistoryStore) (d : Disk) : Outcome Unit :=
  match s.path with
  | none => ⟨.ok (), s, d⟩
  | some path =>
    match ensureParent d path with
    | (d, some e) => ⟨.error (.io e), s, d⟩
    | (d, none) =>
      let tmp := path.withExtension "jsonl.tmp"
      match d.create tmp s.liveJournal with
      | .error e => ⟨.error (.io e), s, d⟩
      | .ok d =>
        match d.rename tmp path with
        | .error e => ⟨.error (.history s!"failed to replace {path}: {e.message}"), s, d⟩
        | .ok d => ⟨.ok (), { s with journalLines := s.recency.size, tornTail := false }, d⟩

/-- The entry of a key. -/
def find? (s : HistoryStore) (k : SelectionKey) : Option HistoryEntry := s.recency.find? k

/-- The entry a selection leaves: the key's entry counted once more, saturating, or a first
selection, picked at the given time. -/
def recordedEntry (s : HistoryStore) (queryText pluginId : String) (key : ResultKey) (at_ : Nat) :
    HistoryEntry :=
  match s.find? ⟨queryText, ⟨pluginId, key⟩⟩ with
  | some e =>
    { e with
      selectionCount := min (e.selectionCount + 1) countMax
      lastSelectedAt := at_ }
  | none => ⟨queryText, pluginId, key, 1, at_⟩

/-- Record that a result was picked for a query text at a time; answers the new count. -/
def record (s : HistoryStore) (d : Disk) (queryText pluginId : String) (key : ResultKey)
    (at_ : Nat) : Outcome Nat :=
  let entry := s.recordedEntry queryText pluginId key at_
  let a := s.append d (.select entry)
  match a.result with
  | .error e => ⟨.error e, s, a.disk⟩
  | .ok () =>
    let (s, d) := (a.store, a.disk)
    let s := { s with recency := s.recency.put entry }
    if s.needsCompaction then
      let c := s.compact d
      ⟨c.result.map fun _ => entry.selectionCount, c.store, c.disk⟩
    else ⟨.ok entry.selectionCount, s, d⟩

/-- Drop every entry of a query text; answers how many were dropped. -/
def forget (s : HistoryStore) (d : Disk) (queryText : String) : Outcome Nat :=
  if !s.recency.entries.any (·.queryText == queryText) then ⟨.ok 0, s, d⟩
  else
    let a := s.append d (.forget queryText)
    match a.result with
    | .error e => ⟨.error e, s, a.disk⟩
    | .ok () =>
      let (s, d) := (a.store, a.disk)
      let (n, r) := s.recency.dropQuery queryText
      ⟨.ok n, { s with recency := r }, d⟩

/-- How often a result was picked for exactly this query text. -/
def selectionCount (s : HistoryStore) (queryText : String) (i : ResultIdentity) : Nat :=
  match s.find? ⟨queryText, i⟩ with
  | some e => e.selectionCount
  | none => 0

/-- The ranking bonus of a result for a query text. -/
def boost (s : HistoryStore) (queryText : String) (i : ResultIdentity) : Int :=
  historyBoost (s.selectionCount queryText i) s.options.boostCap s.options.boostHalfCount

/-- The entries, most recent first. -/
def entries (s : HistoryStore) : List HistoryEntry := s.recency.entries

/-- The number of entries. -/
def size (s : HistoryStore) : Nat := s.recency.size

end HistoryStore

end Launcher
