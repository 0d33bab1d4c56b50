import Launcher.History.Store
import Launcher.Session.Reply

/-!
# History sessions

Commands on one history store, answered in turn. A store kept in memory answers the selection
commands; a store with a journal (at `$DIR/history.jsonl` on a scratch disk) also reopens its
journal, shows the journal's text, appends raw text to it behind the store's back, and can have
the journal replaced by a directory (`breakJournal`) and restored (`unbreakJournal`) so that
writes fail.
-/

namespace Launcher

open Json

/-- A command on a history store. -/
inductive HistoryCommand where
  | record (queryText pluginId title subTitle : String) (at_ : Nat)
  | forget (queryText : String)
  | count (queryText pluginId title subTitle : String)
  | boost (queryText pluginId title subTitle : String)
  | entries
  | size
  | hasPath
  | compact
  | reopen (options : Option HistoryOptions)
  | journal
  | appendRaw (text : String)
  | breakJournal
  | unbreakJournal
  deriving Inhabited

/-- A history store with the disk its journal lives on. -/
structure HistorySession where
  store : HistoryStore
  disk : Disk
  /-- the options the store was first opened with -/
  options : HistoryOptions
  deriving Inhabited

/-- Where a session keeps its journal. -/
def journalPath : Path := Path.join Path.scratch "history.jsonl"

namespace HistorySession

/-- A session on a store in memory. -/
def inMemory (o : HistoryOptions) : HistorySession :=
  { store := HistoryStore.inMemory o, disk := Disk.fresh, options := o }

/-- A session on a journal holding `text` (none: no journal file yet). -/
def onJournal (o : HistoryOptions) (text : Option String) : Except Error HistorySession := do
  let disk := match text with
    | some t => (Disk.fresh.create journalPath t).toOption.getD Disk.fresh
    | none => Disk.fresh
  let store ← HistoryStore.openAt disk journalPath o
  return { store := store, disk := disk, options := o }

/-- Whether the store keeps a journal. -/
def onDisk (s : HistorySession) : Bool := s.store.path.isSome

/-- A session after an operation on its store. -/
def settle (s : HistorySession) (o : Outcome α) (answer : α → Value) : Reply × HistorySession :=
  ({ s with store := o.store, disk := o.disk } |> fun s' =>
    match o.result with
    | .ok a => (.ok (answer a), s')
    | .error e => (.failed e, s'))

/-- The refusal of a journal command on a store kept in memory. -/
def needsJournal (name : String) : Reply := .refused s!"{name} needs file mode"

/-- Run one command. -/
def run (s : HistorySession) : HistoryCommand → Reply × HistorySession
  | .record q p t st at_ => s.settle (s.store.record s.disk q p ⟨t, st⟩ at_) .ofNat
  | .forget q => s.settle (s.store.forget s.disk q) .ofNat
  | .count q p t st => (.ok (.ofNat (s.store.selectionCount q ⟨p, ⟨t, st⟩⟩)), s)
  | .boost q p t st => (.ok (.ofInt (s.store.boost q ⟨p, ⟨t, st⟩⟩)), s)
  | .entries => (.ok (.array (s.store.entries.map HistoryEntry.toJson)), s)
  | .size => (.ok (.object [("len", .ofNat s.store.size), ("isEmpty", .bool (s.store.size == 0))]), s)
  | .hasPath => (.ok (.bool s.onDisk), s)
  | .compact => s.settle (s.store.compact s.disk) fun _ => .null
  | .reopen o =>
    if !s.onDisk then (needsJournal "reopen", s)
    else
      match HistoryStore.openAt s.disk journalPath (o.getD s.options) with
      | .ok store => (.ok (.ofNat store.size), { s with store := store })
      | .error e => (.failed e, s)
  | .journal =>
    if !s.onDisk then (needsJournal "journal", s)
    else (.ok (match s.disk.read journalPath with
      | .ok t => .string t
      | .error _ => .null), s)
  | .appendRaw t =>
    if !s.onDisk then (needsJournal "append_raw", s)
    else
      match s.disk.append journalPath t with
      | (d, none) => (.ok .null, { s with disk := d })
      | (d, some e) => (.failed (.io e), { s with disk := d })
  | .breakJournal =>
    if !s.onDisk then (needsJournal "break", s)
    else
      let d := s.disk.erase journalPath
      match d.makeDir journalPath with
      | .ok d => (.ok .null, { s with disk := d })
      | .error e => (.failed (.io e), s)
  | .unbreakJournal =>
    if !s.onDisk then (needsJournal "unbreak", s)
    else
      match s.disk.removeDir journalPath with
      | .ok d => (.ok .null, { s with disk := d })
      | .error _ => (.ok .null, s)

/-- Run commands in turn. -/
def runAll (s : HistorySession) (cs : List HistoryCommand) : List Reply :=
  (cs.foldl (fun (s, out) c => let (r, s) := run s c; (s, r :: out)) (s, [])).2.reverse

end HistorySession

end Launcher
