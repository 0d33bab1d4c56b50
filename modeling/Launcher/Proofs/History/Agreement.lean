import Mathlib.Logic.Relation
import Launcher.Proofs.Disk.Frame
import Launcher.Proofs.History.Replay

/-!
# A store and its journal agree after every run

A store with a journal keeps in memory exactly what reloading the journal gives: each write
appends one record line, memory changes only once the line is written, and compaction replaces
the journal by the live entries in one rename. Here that is an invariant of the store and the
disk together:

* `HistoryStore.Mirrors` — the scratch directory stands, the store's path names a file, and
  reloading the file's text with the store's options gives the store back;
* `HistoryStore.Mirrors.append` — an append either fails and leaves the store as it was, or
  writes the record's line, after which applying the record keeps the two in step;
* `HistoryStore.Mirrors.record`, `.forget`, `.compact` — every call keeps `Mirrors`, whatever
  it answers;
* `HistoryStore.Call` — one call of any of the three; `HistoryStore.Mirrors.run` carries
  `Mirrors` along any sequence of calls, and `HistoryStore.reopen_after_calls` reads it back:
  after any run, reopening the journal gives the live store, which counts the file's non-blank
  lines and knows whether its last line is torn.
-/

namespace Launcher

namespace HistoryStore

open Disk

variable {o : HistoryOptions} {path : Path} {s : HistoryStore} {d d' : Disk}

/-- A store mirrors its journal on a disk: the scratch directory stands, the path names a file,
reloading that file's text with the options `o` gives the store back, and no fault lies ahead
on the device, so every append is written whole or not at all. -/
structure Mirrors (o : HistoryOptions) (path : Path) (s : HistoryStore) (d : Disk) : Prop where
  scratch : d.node? [Path.scratch] = some .dir
  journal : ∃ parts text, d.resolve path = .ok (parts, .file text) ∧ s = load o path text
  whole : d.cutAfter = none

/-- Opening a journal a path names loads its text. -/
theorem openAt_of_resolve {parts : List String} {text : String}
    (h : d.resolve path = .ok (parts, .file text)) : openAt d path o = .ok (load o path text) := by
  have hread : d.read path = .ok text := read_eq_ok.2 ⟨parts, h⟩
  simp [openAt, exists?_of_resolve h, hread]

theorem mirrors_of_openAt (hs : d.node? [Path.scratch] = some .dir) (hc : d.cutAfter = none)
    {text : String} (hread : d.read path = .ok text) (hopen : openAt d path o = .ok s) :
    Mirrors o path s d := by
  obtain ⟨parts, hres⟩ := read_eq_ok.1 hread
  rw [openAt_of_resolve hres, Except.ok.injEq] at hopen
  exact ⟨hs, ⟨parts, text, hres, hopen.symm⟩, hc⟩

theorem Mirrors.replayed (h : Mirrors o path s d) : Replayed o path s := by
  obtain ⟨_, _, _, rfl⟩ := h.journal
  exact load_replayed o path _

/-- Growing the disk, as making directories does, keeps the journal where it was. -/
theorem Mirrors.extend (h : Mirrors o path s d) (he : Extends d d') : Mirrors o path s d' := by
  obtain ⟨parts, text, hres, hs⟩ := h.journal
  exact ⟨he.keeps.scratch h.scratch, ⟨parts, text, resolve_extends h.scratch he hres, hs⟩,
    he.cutAfter.trans h.whole⟩

theorem ensureParent_extends (d : Disk) (path : Path) : Extends d (ensureParent d path).1 := by
  unfold ensureParent
  split
  · exact makeDirs_extends _
  · exact Extends.refl

/-! ## Appending a record -/

/-- Applying a record after the counted, finished append is applying it to the counted store
and finishing the tail. -/
theorem replay_finished (s : HistoryStore) (r : JournalRecord) :
    ({ s with tornTail := false, journalLines := s.journalLines + 1 } : HistoryStore).replay r =
      { ({ s with journalLines := s.journalLines + 1 } : HistoryStore).replay r with
        tornTail := false } := by
  cases r <;> rfl

/-- **An append keeps memory and journal in step.** Either it fails and leaves the store as it
was, or the record's line is written, and the store, once the record is applied, is what the
longer journal reloads to. -/
theorem Mirrors.append (h : Mirrors o path s d) (r : JournalRecord) (hr : r.Fits) :
    ((s.append d r).result = .ok () ∧
      Mirrors o path ((s.append d r).store.replay r) (s.append d r).disk) ∨
    (∃ e, (s.append d r).result = .error e ∧ (s.append d r).store = s ∧
      Mirrors o path s (s.append d r).disk) := by
  have hens := h.extend (ensureParent_extends d path)
  unfold HistoryStore.append
  split
  · rename_i hnone
    simp [h.replayed.path] at hnone
  · rename_i p hsome
    obtain rfl : p = path := Option.some.inj (hsome.symm.trans h.replayed.path)
    rcases hparent : ensureParent d p with ⟨d₁, _ | e⟩
    · rw [hparent] at hens
      obtain ⟨parts, text, hres, rfl⟩ := hens.journal
      obtain ⟨_, _, _, _, hfile⟩ := resolve_eq_file.1 hres
      have hnd : d₁.node? parts ≠ some .dir := by simp [hfile]
      dsimp only
      rw [append_of_resolve hens.whole hres]
      refine .inl ⟨rfl, (keeps_put hnd _).scratch hens.scratch, ⟨parts, _,
        resolve_put_file hens.scratch hres _, ?_⟩, hens.whole⟩
      rw [load_append_record o p text hr, loadLine_line hr, replay_finished]
    · rw [hparent] at hens
      exact .inr ⟨_, rfl, rfl, hens⟩

/-! ## Every call keeps the store and the journal in step -/

/-- **Compaction keeps memory and journal in step**: it either fails before the rename, with the
journal untouched, or replaces the journal by the live entries, which reload to the store. -/
theorem Mirrors.compact (h : Mirrors o path s d) :
    Mirrors o path (s.compact d).store (s.compact d).disk := by
  have hens := h.extend (ensureParent_extends d path)
  unfold HistoryStore.compact
  split
  · exact h
  · rename_i p hsome
    obtain rfl : p = path := Option.some.inj (hsome.symm.trans h.replayed.path)
    rcases hparent : ensureParent d p with ⟨d₁, _ | e⟩
    · rw [hparent] at hens
      obtain ⟨parts, text, hres, -⟩ := hens.journal
      dsimp only
      rcases hcreate : d₁.create (p.withExtension "jsonl.tmp") s.liveJournal with e | d₂
      · exact hens
      · obtain ⟨d₃, hrename, hk, hres₃, hc₃⟩ := rename_created hens.scratch hres hcreate
        dsimp only
        rw [hrename]
        exact ⟨hk.scratch hens.scratch, ⟨parts, _, hres₃, (load_liveJournal h.replayed).symm⟩,
          hc₃.trans hens.whole⟩
    · rw [hparent] at hens
      exact hens

/-- The entry a selection leaves has numbers that fit their journal widths, for a time that fits
64 bits. -/
theorem recordedEntry_fits (s : HistoryStore) (queryText pluginId : String) (key : ResultKey)
    {at_ : Nat} (hat : at_ < 2 ^ 64) : (s.recordedEntry queryText pluginId key at_).Fits := by
  unfold recordedEntry
  split
  · exact ⟨lt_of_le_of_lt (min_le_right _ _) (by decide), hat⟩
  · exact ⟨(by decide : 1 < 2 ^ 32), hat⟩

theorem Mirrors.record (h : Mirrors o path s d) (queryText pluginId : String) (key : ResultKey)
    {at_ : Nat} (hat : at_ < 2 ^ 64) :
    Mirrors o path (s.record d queryText pluginId key at_).store
      (s.record d queryText pluginId key at_).disk := by
  rcases h.append (.select (s.recordedEntry queryText pluginId key at_))
      (recordedEntry_fits s queryText pluginId key hat) with
    ⟨hok, hm⟩ | ⟨e, herr, -, hm⟩
  · simp only [HistoryStore.record, hok]
    split
    · exact hm.compact
    · exact hm
  · simp only [HistoryStore.record, herr]
    exact hm

theorem Mirrors.forget (h : Mirrors o path s d) (queryText : String) :
    Mirrors o path (s.forget d queryText).store (s.forget d queryText).disk := by
  unfold HistoryStore.forget
  split
  · exact h
  · rcases h.append (.forget queryText) trivial with ⟨hok, hm⟩ | ⟨e, herr, -, hm⟩
    · simp only [hok]
      exact hm
    · simp only [herr]
      exact hm

/-- One call on a store and the disk its journal is on, whatever it answers: a selection
recorded at a time that fits 64 bits, a query text forgotten, or a compaction. -/
inductive Call : HistoryStore × Disk → HistoryStore × Disk → Prop
  | record (s : HistoryStore) (d : Disk) (queryText pluginId : String) (key : ResultKey)
      (at_ : Nat) (hat : at_ < 2 ^ 64) :
      Call (s, d) ((s.record d queryText pluginId key at_).store,
        (s.record d queryText pluginId key at_).disk)
  | forget (s : HistoryStore) (d : Disk) (queryText : String) :
      Call (s, d) ((s.forget d queryText).store, (s.forget d queryText).disk)
  | compact (s : HistoryStore) (d : Disk) : Call (s, d) ((s.compact d).store, (s.compact d).disk)

theorem Mirrors.call {p q : HistoryStore × Disk} (h : Mirrors o path p.1 p.2) (hc : Call p q) :
    Mirrors o path q.1 q.2 := by
  cases hc with
  | record s d queryText pluginId key at_ hat => exact h.record queryText pluginId key hat
  | forget s d queryText => exact h.forget queryText
  | compact s d => exact h.compact

/-- `Mirrors` holds after any sequence of calls, by induction on the run. -/
theorem Mirrors.run {p q : HistoryStore × Disk} (h : Mirrors o path p.1 p.2)
    (hr : Relation.ReflTransGen Call p q) : Mirrors o path q.1 q.2 := by
  induction hr with
  | refl => exact h
  | tail _ hc ih => exact ih.call hc

/-- **Reopening after any run gives the live store.** A store opened on a journal file, after
any sequence of recorded selections, forgotten query texts and compactions, each of which may
fail, has a journal file that reopens with the same options to exactly the live store; the store
counts the file's non-blank lines, and its tail is torn exactly when the file is not empty and
does not end in a line break. -/
theorem reopen_after_calls (hs : d.node? [Path.scratch] = some .dir) (hc : d.cutAfter = none)
    {text : String}
    (hread : d.read path = .ok text) (hopen : openAt d path o = .ok s) {s' : HistoryStore}
    (hrun : Relation.ReflTransGen Call (s, d) (s', d')) :
    ∃ text', d'.read path = .ok text' ∧ openAt d' path o = .ok s' ∧
      s'.journalLines = (nonBlankLines text').length ∧
      (s'.tornTail = true ↔ text' ≠ "" ∧ text'.endsWith "\n" = false) := by
  have hm : Mirrors o path s' d' := (mirrors_of_openAt hs hc hread hopen).run hrun
  obtain ⟨-, ⟨parts, text', hres, rfl⟩, -⟩ := hm
  refine ⟨text', read_eq_ok.2 ⟨parts, hres⟩, openAt_of_resolve hres,
    load_journalLines o path text', ?_⟩
  rw [load_tornTail]
  simp

/-! ## A journal file in the scratch directory -/

/-- The name `h` is one segment. -/
theorem segments_h : Path.segments "h" = ["h"] := by
  rw [Path.segments, show ("/" : String) = String.singleton '/' from rfl,
    splitOn_singleton _ _ (by decide)]
  rfl

/-- The name `h` is relative, so it is looked up in the scratch directory. -/
theorem hasRoot_h : Path.hasRoot "h" = false := by simp [Path.hasRoot]

/-- The parent of `h` is the empty path, so no directory is made before writing it. -/
theorem ensureParent_h (d : Disk) : ensureParent d "h" = (d, none) := by
  simp [ensureParent, Path.parent, Path.componentIndices, segments_h, hasRoot_h, Disk.makeDirs,
    Disk.makeDirs.go]

/-- A disk of the scratch directory and one file `h` in it resolves the name `h` to that file. -/
theorem resolve_scratch_file {text : String}
    (hd : d.entries = [([Path.scratch], .dir), ([Path.scratch, "h"], .file text)]) :
    d.resolve "h" = .ok ([Path.scratch, "h"], .file text) := by
  have hend : ("h" : String).endsWith "/" = false := by
    rw [show ("/" : String) = String.singleton '/' from rfl, ← Bool.not_eq_true,
      endsWith_singleton_iff]
    decide
  have hname : ("h" : String) ≠ Path.scratch := by decide
  have hshort : ¬ Path.lengthMax < ("h" : String).utf8ByteSize := by decide
  have hpiece : Path.tooLong "h" = false := by decide
  simp [Disk.resolve, Disk.place, Path.overlong, Path.systemLength, Path.start, segments_h,
    hasRoot_h, hend, hname, Disk.walk, Disk.node?, hshort, hpiece, hd]

theorem read_scratch_file {text : String}
    (hd : d.entries = [([Path.scratch], .dir), ([Path.scratch, "h"], .file text)]) :
    d.read "h" = .ok text :=
  read_eq_ok.2 ⟨_, resolve_scratch_file hd⟩

/-- Writing the file `h` leaves a disk of the scratch directory and that one file. -/
theorem entries_put_h {t : String}
    (hd : d.entries = [([Path.scratch], .dir), ([Path.scratch, "h"], .file t)]) (u : String) :
    (d.put [Path.scratch, "h"] (.file u)).entries =
      [([Path.scratch], .dir), ([Path.scratch, "h"], .file u)] := by
  simp [Disk.put, hd]

/-- A journal file `h` in the scratch directory holding one torn line, opened and given one
selection, reopens to the live store. -/
theorem reopen_after_selection_on_torn_line :
    let o : HistoryOptions := {}
    let d : Disk := { entries := [([Path.scratch], .dir), ([Path.scratch, "h"], .file "x")] }
    let a := (load o "h" "x").record d "q" "p" ⟨"t", ""⟩ 1
    d.node? [Path.scratch] = some .dir ∧ d.cutAfter = none ∧ d.read "h" = .ok "x" ∧
      openAt d "h" o = .ok (load o "h" "x") ∧
      Relation.ReflTransGen Call (load o "h" "x", d) (a.store, a.disk) ∧
      ∃ text', a.disk.read "h" = .ok text' ∧ openAt a.disk "h" o = .ok a.store ∧
        a.store.journalLines = (nonBlankLines text').length ∧
        (a.store.tornTail = true ↔ text' ≠ "" ∧ text'.endsWith "\n" = false) := by
  intro o d a
  have hres : d.resolve "h" = .ok ([Path.scratch, "h"], .file "x") := resolve_scratch_file rfl
  have hs : d.node? [Path.scratch] = some .dir := rfl
  have hread : d.read "h" = .ok "x" := read_eq_ok.2 ⟨_, hres⟩
  have hopen : openAt d "h" o = .ok (load o "h" "x") := openAt_of_resolve hres
  have hrun : Relation.ReflTransGen Call (load o "h" "x", d) (a.store, a.disk) :=
    .single (.record _ _ _ _ _ _ (by decide))
  have hc : d.cutAfter = none := rfl
  exact ⟨hs, hc, hread, hopen, hrun, reopen_after_calls hs hc hread hopen hrun⟩

/-! ## A write cut short -/

/-- An append whose journal's directory stands, and whose line is written whole, counts the
line and finishes the tail. -/
theorem append_of_written (hp : s.path = some path) (hparent : ensureParent d path = (d, none))
    {r : JournalRecord}
    (hw : d.append path ((if s.tornTail then "\n" else "") ++ r.line ++ "\n") = (d', none)) :
    s.append d r =
      ⟨.ok (), { s with tornTail := false, journalLines := s.journalLines + 1 }, d'⟩ := by
  simp only [HistoryStore.append, hp, hparent, hw]

/-- An append whose write fails answers the device's error and leaves the store as it was. -/
theorem append_of_failed (hp : s.path = some path) (hparent : ensureParent d path = (d, none))
    {r : JournalRecord} {e : OsError}
    (hw : d.append path ((if s.tornTail then "\n" else "") ++ r.line ++ "\n") = (d', some e)) :
    s.append d r = ⟨.error (.io e), s, d'⟩ := by
  simp only [HistoryStore.append, hp, hparent, hw]

/-- An append cut one character in, on a store whose tail is finished, leaves only the brace
that opens the record's line, and answers the device's error. -/
theorem append_cut_after_brace (hp : s.path = some path)
    (hparent : ensureParent d path = (d, none)) (ht : s.tornTail = false)
    (hc : d.cutAfter = some 1) {parts : List String} {t : String}
    (hres : d.resolve path = .ok (parts, .file t)) (r : JournalRecord) :
    s.append d r =
      ⟨.error (.io .inputOutput), s, { d.put parts (.file (t ++ "\x7b")) with cutAfter := none }⟩ := by
  obtain ⟨body, hbody⟩ := JournalRecord.line_toList r
  have hline : ((if s.tornTail then "\n" else "") ++ r.line ++ "\n").toList =
      '{' :: (body ++ ['}', '\n']) := by
    simp [ht, hbody]
  have hlen : 1 < ((if s.tornTail then "\n" else "") ++ r.line ++ "\n").length := by
    rw [← String.length_toList, hline]
    simp
  refine append_of_failed hp hparent ?_
  rw [append_cut_of_resolve hc hres hlen, hline]
  rfl

/-- An append on a store whose tail is finished, to a device with no fault ahead, writes the
record's line at the end of the journal and counts it. -/
theorem append_whole (hp : s.path = some path) (hparent : ensureParent d path = (d, none))
    (ht : s.tornTail = false) (hc : d.cutAfter = none) {parts : List String} {t : String}
    (hres : d.resolve path = .ok (parts, .file t)) (r : JournalRecord) :
    s.append d r = ⟨.ok (), { s with journalLines := s.journalLines + 1 },
      d.put parts (.file (t ++ (r.line ++ "\n")))⟩ := by
  have hw : d.append path ((if s.tornTail then "\n" else "") ++ r.line ++ "\n") =
      (d.put parts (.file (t ++ (r.line ++ "\n"))), none) := by
    rw [append_of_resolve hc hres, ht]
    simp only [Bool.false_eq_true, if_false, String.empty_append]
  rw [append_of_written hp hparent hw, ht]

theorem record_of_written {s' : HistoryStore} {queryText pluginId : String} {key : ResultKey}
    {at_ : Nat}
    (hA : s.append d (.select (s.recordedEntry queryText pluginId key at_)) = ⟨.ok (), s', d'⟩)
    (hq : ({ s' with recency := s'.recency.put (s.recordedEntry queryText pluginId key at_) }
      : HistoryStore).needsCompaction = false) :
    s.record d queryText pluginId key at_ = ⟨.ok (s.recordedEntry queryText pluginId key at_).selectionCount,
      { s' with recency := s'.recency.put (s.recordedEntry queryText pluginId key at_) }, d'⟩ := by
  unfold record
  dsimp only
  rw [hA]
  dsimp only
  rw [hq]
  rfl

theorem record_of_failed {s' : HistoryStore} {queryText pluginId : String} {key : ResultKey}
    {at_ : Nat} {e : Error}
    (hA : s.append d (.select (s.recordedEntry queryText pluginId key at_)) = ⟨.error e, s', d'⟩) :
    s.record d queryText pluginId key at_ = ⟨.error e, s, d'⟩ := by
  unfold record
  dsimp only
  rw [hA]

/-- **A write cut short breaks the agreement.** A journal file `h` holds one selection, on a
device whose next append is cut one character in. Selecting the same result again fails and
leaves the store as it was, with no mark that the file now ends in a stray `{`. The next
selection is written straight after that brace, into a line that reads as no record: the live
store then holds two entries where the reopened journal holds one. -/
theorem cut_append_loses_next_selection :
    let o : HistoryOptions := {}
    let text := (JournalRecord.select ⟨"q", "p", ⟨"a", ""⟩, 1, 1⟩).line ++ "\n"
    let d : Disk :=
      { entries := [([Path.scratch], .dir), ([Path.scratch, "h"], .file text)]
        cutAfter := some 1 }
    let s := load o "h" text
    let a := s.record d "q" "p" ⟨"a", ""⟩ 2
    let b := a.store.record a.disk "r" "p" ⟨"b", ""⟩ 3
    d.node? [Path.scratch] = some .dir ∧ d.read "h" = .ok text ∧ openAt d "h" o = .ok s ∧
      Relation.ReflTransGen Call (s, d) (b.store, b.disk) ∧
      a.result = .error (.io .inputOutput) ∧ a.store = s ∧ b.store.size = 2 ∧
      ∃ text', b.disk.read "h" = .ok text' ∧ openAt b.disk "h" o = .ok (load o "h" text') ∧
        (load o "h" text').size = 1 := by
  intro o text d s a b
  have hfitsA : (JournalRecord.select ⟨"q", "p", ⟨"a", ""⟩, 1, 1⟩).Fits := ⟨by decide, by decide⟩
  have hfitsB : (JournalRecord.select ⟨"r", "p", ⟨"b", ""⟩, 1, 3⟩).Fits := ⟨by decide, by decide⟩
  have hs : s = { inMemory o with
      path := some "h"
      journalLines := 1
      recency := (inMemory o).recency.put ⟨"q", "p", ⟨"a", ""⟩, 1, 1⟩ } := by
    have hempty : load o "h" "" = { inMemory o with path := some "h" } := by
      simp [load, foldl_loadLine_empty, inMemory]
    simp only [s, text, load_line o "h" hfitsA, hempty, loadLine_line hfitsA]
    rfl
  have hpath : s.path = some "h" := by rw [hs]
  have htorn : s.tornTail = false := by rw [hs]; rfl
  have hlines : s.journalLines = 1 := by rw [hs]
  have hentry : s.recordedEntry "r" "p" ⟨"b", ""⟩ 3 = ⟨"r", "p", ⟨"b", ""⟩, 1, 3⟩ := by
    rw [hs]
    decide
  have hres : d.resolve "h" = .ok ([Path.scratch, "h"], .file text) := resolve_scratch_file rfl
  set d₂ : Disk := { d.put [Path.scratch, "h"] (.file (text ++ "\x7b")) with cutAfter := none }
  have ha : a = ⟨.error (.io .inputOutput), s, d₂⟩ :=
    record_of_failed (append_cut_after_brace hpath (ensureParent_h d) htorn rfl hres _)
  have hres₂ : d₂.resolve "h" = .ok ([Path.scratch, "h"], .file (text ++ "\x7b")) :=
    resolve_scratch_file (entries_put_h rfl _)
  have hb : b = s.record d₂ "r" "p" ⟨"b", ""⟩ 3 := by simp only [b, ha]
  have hwritten := record_of_written (append_whole hpath (ensureParent_h d₂) htorn rfl hres₂
    (.select (s.recordedEntry "r" "p" ⟨"b", ""⟩ 3)))
    (by simp [needsCompaction, hlines, minCompactLines])
  have hrun : Relation.ReflTransGen Call (s, d) (b.store, b.disk) :=
    (Relation.ReflTransGen.single (.record _ _ _ _ _ _ (by decide))).tail
      (.record _ _ _ _ _ _ (by decide))
  refine ⟨rfl, read_scratch_file rfl, openAt_of_resolve hres, hrun, by rw [ha], by rw [ha], ?_⟩
  rw [hb, hwritten, hentry]
  refine ⟨by rw [hs]; decide, ?_⟩
  have hres₃ := resolve_scratch_file (entries_put_h (d := d₂) (entries_put_h rfl _)
    (text ++ "\x7b" ++ ((JournalRecord.select ⟨"r", "p", ⟨"b", ""⟩, 1, 3⟩).line ++ "\n")))
  refine ⟨_, read_eq_ok.2 ⟨_, hres₃⟩, openAt_of_resolve hres₃, ?_⟩
  have htext : text ++ "\x7b" ++ ((JournalRecord.select ⟨"r", "p", ⟨"b", ""⟩, 1, 3⟩).line ++ "\n") =
      text ++ ("\x7b" ++ (JournalRecord.select ⟨"r", "p", ⟨"b", ""⟩, 1, 3⟩).line ++ "\n") := by
    simp only [String.append_assoc]
  have hend : text.endsWith "\n" = true := by
    have hbreak : ("\n" : String).toList = ['\n'] := rfl
    rw [endsWith_newline_iff]
    simp only [text, String.toList_append, hbreak, List.getLast?_concat]
  have hload : load o "h" text = { inMemory o with
      path := some "h"
      journalLines := 1
      recency := (inMemory o).recency.put ⟨"q", "p", ⟨"a", ""⟩, 1, 1⟩ } := hs
  rw [htext, load_append_brace_line o "h" hend hfitsB, hload]
  decide

end HistoryStore

end Launcher
