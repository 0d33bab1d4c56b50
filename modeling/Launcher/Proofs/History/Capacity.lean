import Launcher.Proofs.History.Agreement

/-!
# A smaller capacity keeps the most recent entries

A recency list evicts its least recently selected entry when it is full, so it behaves as a
stack in the sense of cache analysis: a list with room for `a` entries holds the first `a`
entries of what a list with more room holds, after any sequence of stores. Loading a journal
stores its select records in order, so one journal opened with two capacities gives lists of
which the smaller is the front of the larger. A forget record breaks this: it frees room in the
larger list for entries that the smaller one has already evicted for good.

* `Recency.Within` — one list is the most recent part of another; `Within.put` keeps it over one
  store and `Within.foldl` over any sequence of them;
* `HistoryStore.lineRecord`, `HistoryStore.journalSelections` — the record a journal line
  replays, and the entries of a journal's select records in order;
* `HistoryStore.load_recency` — a journal without forget records loads to its selections stored
  one after the other;
* `HistoryStore.openAt_capacity_prefix` — opening a journal of selections with a smaller
  capacity gives the most recent entries of opening it with a larger one.
-/

namespace Launcher

/-- Dropping the first element of a list that fails a test, where at most one does, and cutting
the rest to `n` entries gives the first `n` passing entries of the whole list, already from its
first `n + 1` entries. -/
theorem take_filter_take {α : Type} (p : α → Bool) :
    ∀ (l : List α) (n : Nat), (l.filter (fun x => !p x)).length ≤ 1 →
      ((l.take (n + 1)).filter p).take n = (l.filter p).take n
  | [], _, _ => by simp
  | x :: xs, n, h => by
    by_cases hx : p x = true
    · have hxs : (xs.filter (fun x => !p x)).length ≤ 1 := by simpa [List.filter_cons, hx] using h
      cases n with
      | zero => simp
      | succ m =>
        rw [List.take_succ_cons, List.filter_cons_of_pos hx, List.filter_cons_of_pos hx,
          List.take_succ_cons, List.take_succ_cons, take_filter_take p xs m hxs]
    · have hall : ∀ y ∈ xs, p y = true := by
        have hnil : xs.filter (fun x => !p x) = [] := by
          simpa [List.filter_cons, hx] using h
        intro y hy
        simpa using List.filter_eq_nil_iff.1 hnil y hy
      have hxs : xs.filter p = xs := List.filter_eq_self.2 hall
      have htake : (xs.take n).filter p = xs.take n :=
        List.filter_eq_self.2 fun y hy => hall y (List.mem_of_mem_take hy)
      rw [List.take_succ_cons, List.filter_cons_of_neg hx, List.filter_cons_of_neg hx, htake, hxs,
        List.take_take, Nat.min_self]

/-- In a list with one entry per key, at most one entry has a given key. -/
theorem length_filter_key_le {l : List HistoryEntry} (h : (l.map HistoryEntry.key).Nodup)
    (k : SelectionKey) : (l.filter (fun x => !(x.key != k))).length ≤ 1 := by
  have hcount : (l.map HistoryEntry.key).count k ≤ 1 := List.nodup_iff_count_le_one.1 h k
  rw [List.count_eq_countP, List.countP_map, List.countP_eq_length_filter] at hcount
  simpa [Function.comp_def, bne, Bool.not_not] using hcount

namespace Recency

/-- `r₁` is the most recent part of `r₂`: it has room for at least one entry and for no more than
`r₂`, and holds the first of `r₂`'s entries, as many as it has room for. -/
structure Within (r₁ r₂ : Recency) : Prop where
  slots_pos : 0 < r₁.slots
  slots_le : r₁.slots ≤ r₂.slots
  entries : r₁.entries = r₂.entries.take r₁.slots

variable {r₁ r₂ : Recency}

/-- **One store keeps the smaller list the front of the larger.** The stored entry goes first in
both; behind it, the smaller list drops the same entry of that key as the larger one, and the
entry it evicts is one that the larger list holds past the smaller one's room. -/
theorem Within.put (h : Within r₁ r₂) (hv : r₂.Valid) (e : HistoryEntry) :
    Within (r₁.put e) (r₂.put e) := by
  obtain ⟨hpos, hle, hentries⟩ := h
  obtain ⟨n, hn⟩ : ∃ n, r₁.slots = n + 1 := ⟨r₁.slots - 1, by omega⟩
  refine ⟨hpos, hle, ?_⟩
  have hdrop : ((r₂.entries.take (n + 1)).filter (·.key != e.key)).take n =
      (r₂.entries.filter (·.key != e.key)).take n :=
    take_filter_take _ r₂.entries n (length_filter_key_le hv.nodup e.key)
  have hmin : min n (r₂.slots - 1) = n := by omega
  simp only [Recency.put, hn, hentries, Nat.add_sub_cancel, List.take_succ_cons, List.take_take,
    hmin]
  rw [← hdrop]

/-- **Any sequence of stores keeps the smaller list the front of the larger**, by induction on
the sequence, the larger list staying well formed. -/
theorem Within.foldl :
    ∀ (es : List HistoryEntry) {r₁ r₂ : Recency}, Within r₁ r₂ → r₂.Valid →
      Within (es.foldl Recency.put r₁) (es.foldl Recency.put r₂)
  | [], _, _, h, _ => h
  | e :: es, _, _, h, hv =>
    Within.foldl es (h.put hv e) (hv.put (h.slots_pos.trans_le h.slots_le) e)

theorem within_empty {a b : Nat} (ha : 0 < a) (hab : a ≤ b) : Within (empty a) (empty b) :=
  ⟨ha, hab, by simp [empty]⟩

/-- Stores never change a list's room. -/
theorem slots_foldl_put : ∀ (es : List HistoryEntry) (r : Recency), (es.foldl put r).slots = r.slots
  | [], _ => rfl
  | e :: es, r => slots_foldl_put es (r.put e)

theorem valid_empty (b : Nat) : (empty b).Valid := ⟨List.nodup_nil, Nat.zero_le _⟩

end Recency

namespace HistoryStore

/-- The record a journal line replays: none for a blank line or a line that reads as no record. -/
def lineRecord (l : String) : Option JournalRecord :=
  if (Text.trim l).isEmpty then none else JournalRecord.ofLine? l

/-- The entry a record stores, if it is a selection. -/
def selected? : JournalRecord → Option HistoryEntry
  | .select e => some e
  | .forget _ => none

/-- The entries of a journal's select records, in journal order. -/
def journalSelections (text : String) : List HistoryEntry :=
  (textLines text).filterMap fun l => (lineRecord l).bind selected?

/-- A journal none of whose lines reads as a forget record. -/
def SelectsOnly (text : String) : Prop :=
  ∀ l ∈ textLines text, ∀ q, JournalRecord.ofLine? l ≠ some (.forget q)

/-- Reading a line changes the entries by the record it replays, if any. -/
theorem loadLine_recency (s : HistoryStore) (l : String) :
    (s.loadLine l).recency = (lineRecord l).elim s.recency fun r => (s.replay r).recency := by
  unfold loadLine lineRecord
  by_cases hb : (Text.trim l).isEmpty = true
  · simp [hb]
  · simp only [hb, if_false, Bool.false_eq_true]
    cases JournalRecord.ofLine? l with
    | none => rfl
    | some r => cases r <;> rfl

/-- **Lines without forget records replay as their selections stored in order.** -/
theorem foldl_loadLine_recency :
    ∀ (ls : List String), (∀ l ∈ ls, ∀ q, JournalRecord.ofLine? l ≠ some (.forget q)) →
      ∀ s : HistoryStore, (ls.foldl loadLine s).recency =
        (ls.filterMap fun l => (lineRecord l).bind selected?).foldl Recency.put s.recency
  | [], _, _ => rfl
  | l :: ls, h, s => by
    have hrest := foldl_loadLine_recency ls (fun l' hl' => h l' (List.mem_cons_of_mem _ hl'))
    rw [List.foldl_cons, hrest, List.filterMap_cons]
    have hline := loadLine_recency s l
    cases hr : lineRecord l with
    | none =>
      rw [hr] at hline
      simp [hline]
    | some r =>
      rw [hr] at hline
      cases r with
      | select e => simp [hline, selected?, replay]
      | forget q =>
        have hq : JournalRecord.ofLine? l = some (.forget q) := by
          unfold lineRecord at hr
          split at hr
          · cases hr
          · exact hr
        exact absurd hq (h l (List.mem_cons_self ..) q)

/-- **A journal of selections loads to its selections stored one after the other** on an empty
list with the options' room. -/
theorem load_recency (o : HistoryOptions) (path : Path) {text : String} (h : SelectsOnly text) :
    (load o path text).recency =
      (journalSelections text).foldl Recency.put (Recency.empty o.slots) := by
  rw [load_eq]
  exact foldl_loadLine_recency (textLines text) h _

/-- **Opening a journal of selections with a smaller capacity keeps the most recent entries.**
For any disk and path whose file, when it can be read, has no line that reads as a forget
record (other lines, blank ones, and a torn last line are allowed), opening it with capacity
`c₁` gives the first `max c₁ 1` entries of opening it with any capacity `c₂ ≥ c₁`, whatever the
other options; a missing file gives two empty stores, and a read failure the same error. -/
theorem openAt_capacity_prefix (d : Disk) (path : Path) {o₁ o₂ : HistoryOptions}
    (hc : o₁.capacity ≤ o₂.capacity) (hsel : ∀ text, d.read path = .ok text → SelectsOnly text) :
    (openAt d path o₁).map entries =
      (openAt d path o₂).map fun s => s.entries.take (max o₁.capacity 1) := by
  unfold openAt
  by_cases hex : d.exists? path = true
  · simp only [hex, Bool.not_true, Bool.false_eq_true, if_false]
    cases hread : d.read path with
    | error e => rfl
    | ok text =>
      have hw := Recency.Within.foldl (journalSelections text)
        (Recency.within_empty (slots_pos o₁) (by unfold HistoryOptions.slots; omega))
        (Recency.valid_empty o₂.slots)
      simp only [Except.map, entries, load_recency o₁ path (hsel text hread),
        load_recency o₂ path (hsel text hread), hw.entries, Recency.slots_foldl_put]
      rfl
  · simp [hex, Except.map, entries, inMemory, Recency.empty]

/-- Three selections of one query text, `a` then `b` then `c`, reopened with room for one entry:
the journal has no forget record, and the store keeps the most recent entry of the default one. -/
theorem smaller_capacity_keeps_last_pick :
    let pick := fun (title : String) (at_ : Nat) =>
      ({ queryText := "q", pluginId := "p", resultKey := ⟨title, ""⟩, selectionCount := 1,
         lastSelectedAt := at_ } : HistoryEntry)
    let text := String.join
      ([pick "a" 1, pick "b" 2, pick "c" 3].map fun e => (JournalRecord.select e).line ++ "\n")
    let d : Disk := { entries := [([Path.scratch], .dir), ([Path.scratch, "h"], .file text)] }
    let small : HistoryOptions := { capacity := 1 }
    let large : HistoryOptions := {}
    small.capacity ≤ large.capacity ∧ (∀ t, d.read "h" = .ok t → SelectsOnly t) ∧
      (openAt d "h" small).map entries =
        (openAt d "h" large).map fun s => s.entries.take (max small.capacity 1) := by
  intro pick text d small large
  have hc : small.capacity ≤ large.capacity := by decide
  have hsel : ∀ t, d.read "h" = .ok t → SelectsOnly t := by
    intro t ht
    have hread : d.read "h" = .ok text := read_scratch_file rfl
    rw [hread, Except.ok.injEq] at ht
    subst ht
    have hfits : ∀ e ∈ [pick "a" 1, pick "b" 2, pick "c" 3], (JournalRecord.select e).Fits := by
      intro e he
      simp only [List.mem_cons, List.not_mem_nil, or_false] at he
      rcases he with rfl | rfl | rfl <;> exact ⟨by decide, by decide⟩
    have hmap :
        ([pick "a" 1, pick "b" 2, pick "c" 3].map fun e => (JournalRecord.select e).line ++ "\n") =
          ([pick "a" 1, pick "b" 2, pick "c" 3].map fun e =>
            (JournalRecord.select e).line).map (· ++ "\n") := by
      rw [List.map_map]
      rfl
    intro l hl q
    dsimp only [text] at hl
    rw [hmap, textLines_join_lines _ (by simp) (fun l hl => by
      obtain ⟨e, he, rfl⟩ := List.mem_map.1 hl
      exact JournalRecord.newline_not_mem_line (hfits e he))] at hl
    obtain ⟨l₀, hl₀, rfl⟩ := List.mem_map.1 hl
    obtain ⟨e, he, rfl⟩ := List.mem_map.1 hl₀
    have hcr : withoutCR (JournalRecord.select e).line = (JournalRecord.select e).line := by
      simp [withoutCR, JournalRecord.endsWith_cr_line]
    rw [hcr, JournalRecord.ofLine?_line (hfits e he)]
    simp
  exact ⟨hc, hsel, openAt_capacity_prefix d "h" hc hsel⟩

end HistoryStore

end Launcher
