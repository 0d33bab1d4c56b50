import Mathlib.Data.List.Nodup
import Launcher.Proofs.History.Journal

/-!
# Rebuilding a store from its journal

Loading a journal replays its lines in order on an empty store. This file says what such a
replay gives, for the texts the store itself writes:

* `Recency.Valid` — one entry per key and no more entries than slots; `put` and `dropQuery`
  keep it, and replaying the entries oldest first rebuilds the list (`foldl_put_reverse`);
* `HistoryStore.Replayed` — what every store rebuilt from a journal satisfies: its options and
  path, a valid recency list with the store's slots, and entries whose numbers fit their
  journal lines (`load_replayed`);
* `HistoryStore.load_append_record` — a record appended to a journal, after a line break when
  the journal ended in a torn line, is replayed after the journal's own lines;
  `HistoryStore.load_append_brace_line` — one written straight after a stray brace is counted
  and applies nothing;
* `HistoryStore.load_liveJournal` — replaying the journal that compaction writes gives the store
  back, with one line per entry;
* `HistoryStore.load_journalLines`, `HistoryStore.load_tornTail` — a rebuilt store counts the
  journal's lines that are not blank, and its tail is torn exactly when the text is not empty
  and does not end in a line break.
-/

namespace Launcher

namespace Recency

/-- A recency list is well formed: one entry per key, and no more entries than slots. -/
structure Valid (r : Recency) : Prop where
  nodup : (r.entries.map HistoryEntry.key).Nodup
  length_le : r.entries.length ≤ r.slots

variable {r : Recency}

theorem mem_put {e x : HistoryEntry} (h : x ∈ (r.put e).entries) : x = e ∨ x ∈ r.entries := by
  simp only [put, List.mem_cons] at h
  rcases h with h | h
  · exact .inl h
  · exact .inr (List.mem_of_mem_filter (List.mem_of_mem_take h))

theorem mem_dropQuery {q : String} {x : HistoryEntry} (h : x ∈ (r.dropQuery q).2.entries) :
    x ∈ r.entries :=
  List.mem_of_mem_filter h

theorem Valid.put (h : r.Valid) (hs : 0 < r.slots) (e : HistoryEntry) : (r.put e).Valid where
  nodup := by
    have hsub : List.Sublist
        (((r.entries.filter (·.key != e.key)).take (r.slots - 1)).map HistoryEntry.key)
        (r.entries.map HistoryEntry.key) :=
      List.Sublist.map _ ((List.take_sublist _ _).trans List.filter_sublist)
    simp only [Recency.put, List.map_cons, List.nodup_cons]
    refine ⟨?_, h.nodup.sublist hsub⟩
    intro hmem
    obtain ⟨x, hx, hkey⟩ := List.mem_map.1 hmem
    have := List.of_mem_filter (List.mem_of_mem_take hx)
    simp [hkey] at this
  length_le := by
    simp only [Recency.put, List.length_cons, List.length_take]
    omega

theorem Valid.dropQuery (h : r.Valid) (q : String) : (r.dropQuery q).2.Valid where
  nodup := h.nodup.sublist (List.Sublist.map _ List.filter_sublist)
  length_le := (List.length_filter_le _ _).trans h.length_le

/-- **Replaying a valid list's entries oldest first rebuilds it**: each entry is new when it
comes and finds room. -/
theorem foldl_put_reverse (slots : Nat) :
    ∀ l : List HistoryEntry, (l.map HistoryEntry.key).Nodup → l.length ≤ slots →
      l.reverse.foldl Recency.put (Recency.empty slots) = ⟨slots, l⟩
  | [], _, _ => rfl
  | e :: l, hnd, hlen => by
    simp only [List.map_cons, List.nodup_cons] at hnd
    have hlen' : l.length ≤ slots - 1 := by simp at hlen; omega
    rw [List.reverse_cons, List.foldl_append, foldl_put_reverse slots l hnd.2 (by omega)]
    have hfilter : l.filter (·.key != e.key) = l := by
      rw [List.filter_eq_self]
      intro x hx
      have : x.key ≠ e.key := fun heq => hnd.1 (heq ▸ List.mem_map_of_mem hx)
      simpa using this
    simp [Recency.put, hfilter, List.take_of_length_le hlen']

theorem foldl_put_entries (h : r.Valid) :
    r.entries.reverse.foldl Recency.put (Recency.empty r.slots) = r :=
  foldl_put_reverse r.slots r.entries h.nodup h.length_le

end Recency

namespace HistoryStore

variable {o : HistoryOptions} {path : Path} {s : HistoryStore}

/-- What every store rebuilt from a journal satisfies. -/
structure Replayed (o : HistoryOptions) (path : Path) (s : HistoryStore) : Prop where
  options : s.options = o.normalized
  path : s.path = some path
  slots : s.recency.slots = o.normalized.slots
  valid : s.recency.Valid
  fits : ∀ e ∈ s.recency.entries, e.Fits

theorem slots_pos (o : HistoryOptions) : 0 < o.slots := by
  unfold HistoryOptions.slots
  omega

/-- Only the options, the path and the recency list of a store matter to `Replayed`. -/
theorem Replayed.of_eq {s' : HistoryStore} (h : Replayed o path s) (hr : s'.recency = s.recency)
    (ho : s'.options = s.options) (hp : s'.path = s.path) : Replayed o path s' :=
  ⟨ho.trans h.options, hp.trans h.path, hr ▸ h.slots, hr ▸ h.valid, hr ▸ h.fits⟩

theorem Replayed.replay (h : Replayed o path s) {r : JournalRecord} (hr : r.Fits) :
    Replayed o path (s.replay r) := by
  cases r with
  | select e =>
    refine ⟨h.options, h.path, h.slots, h.valid.put (h.slots ▸ slots_pos _) e, ?_⟩
    intro x hx
    rcases Recency.mem_put hx with rfl | hx
    · exact hr
    · exact h.fits x hx
  | forget q =>
    exact ⟨h.options, h.path, h.slots, h.valid.dropQuery q,
      fun x hx => h.fits x (Recency.mem_dropQuery hx)⟩

theorem Replayed.loadLine (h : Replayed o path s) (l : String) :
    Replayed o path (s.loadLine l) := by
  unfold HistoryStore.loadLine
  split
  · exact h
  · split
    · rename_i r hr
      have hcount : Replayed o path { s with journalLines := s.journalLines + 1 } :=
        h.of_eq rfl rfl rfl
      exact hcount.replay (JournalRecord.fits_of_ofLine? hr)
    · exact h.of_eq rfl rfl rfl

theorem Replayed.foldl_loadLine (ls : List String) :
    ∀ s, Replayed o path s → Replayed o path (ls.foldl HistoryStore.loadLine s) := by
  induction ls with
  | nil => exact fun _ h => h
  | cons l ls ih =>
    intro s h
    rw [List.foldl_cons]
    exact ih (s.loadLine l) (h.loadLine l)

theorem replayed_opened (o : HistoryOptions) (path : Path) :
    Replayed o path { inMemory o with path := some path } where
  options := rfl
  path := rfl
  slots := rfl
  valid := ⟨List.nodup_nil, Nat.zero_le _⟩
  fits := fun _ h => nomatch h

/-! ## Loading as a replay of lines -/

/-- Reading a line and setting the torn-tail flag can be done in either order. -/
theorem loadLine_setTorn (s : HistoryStore) (b : Bool) (l : String) :
    ({ s with tornTail := b } : HistoryStore).loadLine l = { s.loadLine l with tornTail := b } := by
  unfold HistoryStore.loadLine
  split
  · rfl
  · split
    · rename_i r _
      cases r <;> rfl
    · rfl

theorem foldl_loadLine_setTorn (b : Bool) (ls : List String) :
    ∀ s : HistoryStore,
      ls.foldl loadLine { s with tornTail := b } = { ls.foldl loadLine s with tornTail := b } := by
  induction ls with
  | nil => exact fun _ => rfl
  | cons l ls ih =>
    intro s
    rw [List.foldl_cons, List.foldl_cons, loadLine_setTorn, ih]

/-- Loading replays the lines on the opened empty store, then records whether the tail is torn. -/
theorem load_eq (o : HistoryOptions) (path : Path) (text : String) :
    load o path text = { (textLines text).foldl loadLine { inMemory o with path := some path } with
      tornTail := !text.isEmpty && !text.endsWith "\n" } :=
  foldl_loadLine_setTorn (!text.isEmpty && !text.endsWith "\n") (textLines text)
    { inMemory o with path := some path }

theorem load_tornTail (o : HistoryOptions) (path : Path) (text : String) :
    (load o path text).tornTail = (!text.isEmpty && !text.endsWith "\n") := by
  rw [load_eq]

theorem load_replayed (o : HistoryOptions) (path : Path) (text : String) :
    Replayed o path (load o path text) := by
  rw [load_eq]
  exact (Replayed.foldl_loadLine (textLines text) _ (replayed_opened o path)).of_eq rfl rfl rfl

/-- A blank line is passed over. -/
theorem loadLine_blank {l : String} (h : (Text.trim l).isEmpty = true) (s : HistoryStore) :
    s.loadLine l = s := by
  simp [HistoryStore.loadLine, h]

/-- A record's line is counted and applied. -/
theorem loadLine_line {r : JournalRecord} (hr : r.Fits) (s : HistoryStore) :
    s.loadLine r.line = ({ s with journalLines := s.journalLines + 1 } : HistoryStore).replay r := by
  simp [HistoryStore.loadLine, JournalRecord.isEmpty_trim_line, JournalRecord.ofLine?_line hr]

/-- A record's line written straight after a stray brace is counted and applies nothing. -/
theorem loadLine_brace_line (s : HistoryStore) (r : JournalRecord) :
    s.loadLine ("\x7b" ++ r.line) = { s with journalLines := s.journalLines + 1 } := by
  have hbrace : Text.isBlank '{' = false := by decide
  have hblank : (Text.trim ("\x7b" ++ r.line)).isEmpty = false := by
    rw [Text.isEmpty_trim, String.toList_append]
    simp [hbrace]
  simp [HistoryStore.loadLine, hblank, JournalRecord.ofLine?_brace_line]

/-- A carriage return at the end of a line changes nothing. -/
theorem loadLine_withoutCR (s : HistoryStore) (l : String) : s.loadLine (withoutCR l) = s.loadLine l := by
  unfold withoutCR
  split
  · rename_i hcr
    have hsplit : (l.dropEnd 1).toString ++ "\r" = l := by
      rw [← String.toList_inj, String.toList_append, String.Slice.toString_eq,
        String.toList_copy_dropEnd]
      have hlast := (endsWith_singleton_iff l '\r').1 hcr
      obtain ⟨front, hfront⟩ := List.getLast?_eq_some_iff.1 hlast
      rw [hfront]
      simp
    conv => rhs; rw [← hsplit]
    unfold HistoryStore.loadLine
    rw [Text.isEmpty_trim_append_cr, JournalRecord.ofLine?_append_cr]
  · rfl

/-- The empty text is one blank line. -/
theorem foldl_loadLine_empty (s : HistoryStore) : (textLines "").foldl loadLine s = s := by
  rw [textLines_empty, List.foldl_cons, List.foldl_nil]
  exact loadLine_blank (by decide) s

/-! ## A record appended -/

/-- **A line appended to a text is read after the text's lines**, a torn last line first finished
by the break written before the new one. -/
theorem foldl_loadLine_append_line (text l : String) (hl : '\n' ∉ l.toList)
    (hcr : l.endsWith "\r" = false) (s : HistoryStore) :
    (textLines (text ++ ((if !text.isEmpty && !text.endsWith "\n" then "\n" else "") ++ l ++
      "\n"))).foldl loadLine s = ((textLines text).foldl loadLine s).loadLine l := by
  have hline : textLines (l ++ "\n") = [l] := by
    rw [textLines_line_break hl]
    simp [withoutCR, hcr]
  have hne : l ++ "\n" ≠ "" := by
    rw [ne_eq, ← String.toList_inj, String.toList_append]
    simp
  by_cases hempty : text = ""
  · subst hempty
    have hnew : ("" : String).isEmpty = true := String.isEmpty_iff.2 rfl
    rw [foldl_loadLine_empty, hnew]
    simp only [Bool.not_true, Bool.false_and, Bool.false_eq_true, if_false, String.empty_append,
      hline, List.foldl_cons, List.foldl_nil]
  · have hnot : text.isEmpty = false := by simpa [String.isEmpty_iff] using hempty
    by_cases hend : text.endsWith "\n" = true
    · obtain ⟨s₀, rfl⟩ := eq_append_newline_of_endsWith hend
      rw [hnot, hend]
      simp only [Bool.not_false, Bool.not_true, Bool.and_false, Bool.false_eq_true, if_false,
        String.empty_append]
      rw [textLines_append_break _ _ hne, hline, List.foldl_append, List.foldl_cons, List.foldl_nil]
    · have hend' : text.endsWith "\n" = false := by simpa using hend
      rw [hnot, hend']
      simp only [Bool.not_false, Bool.and_self, if_true]
      have hsplit : text ++ ("\n" ++ l ++ "\n") = text ++ "\n" ++ (l ++ "\n") := by
        simp only [String.append_assoc]
      obtain ⟨pre, last, hold, hfin⟩ := textLines_append_newline_of_torn hend'
      rw [hsplit, textLines_append_break _ _ hne, hline, hfin, hold]
      simp only [List.foldl_append, List.foldl_cons, List.foldl_nil, loadLine_withoutCR]

/-- **A record appended to a journal is replayed after the journal's lines**, a torn last line
first finished by the break written before the record. -/
theorem load_append_record (o : HistoryOptions) (path : Path) (text : String)
    {r : JournalRecord} (hr : r.Fits) :
    load o path (text ++ ((if (load o path text).tornTail then "\n" else "") ++ r.line ++ "\n")) =
      { (load o path text).loadLine r.line with tornTail := false } := by
  have hends : (text ++ ((if (load o path text).tornTail then "\n" else "") ++ r.line ++
      "\n")).endsWith "\n" = true := by
    rw [endsWith_newline_iff, String.toList_append, String.toList_append]
    simp
  rw [load_eq o path (text ++ _), hends, Bool.not_true, Bool.and_false, load_tornTail,
    foldl_loadLine_append_line _ _ (JournalRecord.newline_not_mem_line hr)
      (JournalRecord.endsWith_cr_line r),
    load_eq o path text]
  conv_rhs => rw [loadLine_setTorn]

/-- A journal of one record's line loads to the opened store given that line. -/
theorem load_line (o : HistoryOptions) (path : Path) {r : JournalRecord} (hr : r.Fits) :
    load o path (r.line ++ "\n") = { (load o path "").loadLine r.line with tornTail := false } := by
  have h := load_append_record o path "" hr
  rw [load_tornTail] at h
  simpa using h

/-- **A record written straight after a stray brace loads as no record.** On a journal whose
last line is finished, the merged line is counted and applies nothing. -/
theorem load_append_brace_line (o : HistoryOptions) (path : Path) {text : String}
    (hend : text.endsWith "\n" = true) {r : JournalRecord} (hr : r.Fits) :
    load o path (text ++ ("\x7b" ++ r.line ++ "\n")) =
      { load o path text with journalLines := (load o path text).journalLines + 1 } := by
  obtain ⟨s₀, rfl⟩ := eq_append_newline_of_endsWith hend
  have hno : '\n' ∉ ("\x7b" ++ r.line).toList := by
    simp [JournalRecord.newline_not_mem_line hr]
  have hne : "\x7b" ++ r.line ++ "\n" ≠ "" := by
    rw [ne_eq, ← String.toList_inj, String.toList_append]
    simp
  have hends : (s₀ ++ "\n" ++ ("\x7b" ++ r.line ++ "\n")).endsWith "\n" = true := by
    have hbreak : ("\n" : String).toList = ['\n'] := rfl
    rw [endsWith_newline_iff]
    simp only [String.toList_append, hbreak, ← List.append_assoc, List.getLast?_concat]
  rw [load_eq, load_eq, hends, hend, textLines_append_break _ _ hne, textLines_line_break hno,
    List.foldl_append, List.foldl_cons, List.foldl_nil, loadLine_withoutCR, loadLine_brace_line]
  simp only [Bool.not_true, Bool.and_false]

/-! ## The journal that compaction writes -/

/-- Lines of records whose numbers fit are each counted and applied. -/
theorem foldl_loadLine_lines (es : List HistoryEntry) (hfits : ∀ e ∈ es, e.Fits) :
    ∀ s : HistoryStore, (es.map fun e => (JournalRecord.select e).line).foldl loadLine s =
      { s with recency := es.foldl Recency.put s.recency,
               journalLines := s.journalLines + es.length } := by
  induction es with
  | nil => exact fun _ => rfl
  | cons e es ih =>
    intro s
    rw [List.map_cons, List.foldl_cons,
      @loadLine_line (.select e) (hfits e (List.mem_cons_self ..)),
      ih (fun x hx => hfits x (List.mem_cons_of_mem _ hx))]
    simp only [HistoryStore.replay, List.foldl_cons, List.length_cons]
    congr 1
    omega

/-- **A journal of select records is replayed entry by entry**, one line each, on the empty store. -/
theorem load_selects (o : HistoryOptions) (path : Path) (es : List HistoryEntry)
    (hfits : ∀ e ∈ es, e.Fits) :
    load o path (String.join (es.map fun e => (JournalRecord.select e).line ++ "\n")) =
      { inMemory o with
        path := some path
        recency := es.foldl Recency.put (inMemory o).recency
        journalLines := es.length } := by
  have hmap : (es.map fun e => (JournalRecord.select e).line ++ "\n") =
      (es.map fun e => (JournalRecord.select e).line).map (· ++ "\n") := by
    rw [List.map_map]
    rfl
  cases es with
  | nil =>
    rw [load_eq, List.map_nil, String.join_nil, foldl_loadLine_empty]
    rfl
  | cons e es =>
    have hne : (e :: es).map (fun e => (JournalRecord.select e).line) ≠ [] := by simp
    have hcr : ((e :: es).map fun e => (JournalRecord.select e).line).map withoutCR =
        (e :: es).map fun e => (JournalRecord.select e).line := by
      rw [List.map_map]
      exact List.map_congr_left fun x _ => by
        simp [withoutCR, JournalRecord.endsWith_cr_line]
    rw [load_eq, hmap, endsWith_join_lines _ hne,
      textLines_join_lines _ hne (fun l hl => by
        obtain ⟨x, hx, rfl⟩ := List.mem_map.1 hl
        exact JournalRecord.newline_not_mem_line (hfits x hx)),
      hcr, foldl_loadLine_lines _ hfits]
    simp [inMemory]

/-- **Replaying the live journal rebuilds the store**, with one line per entry. -/
theorem load_liveJournal (h : Replayed o path s) :
    load o path s.liveJournal = { s with journalLines := s.recency.size, tornTail := false } := by
  have hempty : (inMemory o).recency = Recency.empty s.recency.slots := by
    rw [h.slots]
    rfl
  have hrecency : s.recency.entries.reverse.foldl Recency.put (inMemory o).recency = s.recency := by
    rw [hempty]
    exact Recency.foldl_put_entries h.valid
  rw [liveJournal, load_selects o path _ (fun e he => h.fits e (List.mem_reverse.1 he)),
    hrecency]
  obtain ⟨recency, options, spath, lines, torn⟩ := s
  obtain ⟨hopt, hpath, -, -, -⟩ := h
  simp only at hopt hpath
  subst hopt hpath
  simp [Recency.size, inMemory]

/-! ## Counting lines -/

/-- The lines of a text that are not blank. -/
def nonBlankLines (text : String) : List String :=
  (textLines text).filter fun l => !(Text.trim l).isEmpty

theorem foldl_loadLine_journalLines (ls : List String) :
    ∀ s : HistoryStore, (ls.foldl loadLine s).journalLines =
      s.journalLines + (ls.filter fun l => !(Text.trim l).isEmpty).length := by
  induction ls with
  | nil => exact fun _ => rfl
  | cons l ls ih =>
    intro s
    rw [List.foldl_cons, ih]
    by_cases hl : (Text.trim l).isEmpty = true
    · simp [loadLine_blank hl, hl]
    · have hcount : (s.loadLine l).journalLines = s.journalLines + 1 := by
        unfold HistoryStore.loadLine
        rw [if_neg hl]
        split
        · rename_i r _
          cases r <;> rfl
        · rfl
      simp [hcount, hl]
      omega

/-- A rebuilt store counts the journal's lines that are not blank. -/
theorem load_journalLines (o : HistoryOptions) (path : Path) (text : String) :
    (load o path text).journalLines = (nonBlankLines text).length := by
  rw [load_eq]
  simp [foldl_loadLine_journalLines, nonBlankLines, inMemory]

end HistoryStore

end Launcher
