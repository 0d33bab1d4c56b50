import Launcher.Proofs.Number.Rounding
import Launcher.Proofs.History.Capacity

/-!
# Automatic compaction never thrashes

A recorded selection rewrites the journal once it holds at least 64 lines and more lines than
`threshold` times the live entries (at least one), both counts taken as doubles. Options are
normalized so that the threshold is never below 1.5 and never NaN. After a compaction the
journal holds one line per live entry, say `L`; each selection adds a line and never removes an
entry, so the journal must grow by half its entries, and to 64 lines, before the next rewrite.

* `HistoryOptions.normalized_threshold` — a normalized threshold is `+∞` or a double of value
  at least 1.5;
* `Binary64.lt_mul_ofNat_eq_false` — a journal of at most one and a half lines per entry (for at
  most `2^53` entries, where counts are exact doubles) is not over the threshold;
* `HistoryStore.Replayed.compact` — a successful compaction leaves a journal of exactly the live
  entries;
* `HistoryStore.Selections` — a run of successful selections, each flagged with whether it
  compacted the journal;
* `HistoryStore.compactions_spaced` — from a journal holding exactly its live entries, the
  first compacting selection is at least the `max (64 - L) (L / 2 + 1)`-th.
-/

namespace Launcher

namespace HistoryOptions

theorem view_defaultCompactThreshold :
    defaultCompactThreshold.view = .finite false 4503599627370496 (-51) := by decide

theorem view_minCompactThreshold :
    minCompactThreshold.view = .finite false 6755399441055744 (-52) := by decide

/-- **A normalized threshold is at least 1.5**, or `+∞`: NaN gives the default 2, and anything
below 1.5, `-∞` included, is raised to 1.5. -/
theorem normalized_threshold (o : HistoryOptions) :
    o.normalized.compactThreshold.view = .infinite false ∨
      ∃ v, o.normalized.compactThreshold.HasValue v ∧ 3 / 2 ≤ v := by
  have hmin : minCompactThreshold.HasValue (3 / 2) :=
    ⟨6755399441055744, -52, view_minCompactThreshold, by norm_num⟩
  simp only [normalized]
  split
  · exact .inr ⟨2, ⟨4503599627370496, -51, view_defaultCompactThreshold, by norm_num⟩, by norm_num⟩
  · rename_i hnan
    unfold Binary64.atLeast
    split
    · exact .inr ⟨3 / 2, hmin, le_rfl⟩
    · rename_i hlt
      cases hview : o.compactThreshold.view with
      | nan => simp [Binary64.isNaN, hview] at hnan
      | infinite neg =>
        cases neg with
        | true =>
          unfold Binary64.lt at hlt
          rw [hview, view_minCompactThreshold] at hlt
          exact absurd rfl hlt
        | false => exact .inl rfl
      | finite neg m e =>
        cases neg with
        | true =>
          unfold Binary64.lt at hlt
          rw [hview, view_minCompactThreshold] at hlt
          have hpos : 0 < (Binary64.ratio m e).2 := Binary64.ratio_snd_pos m e
          simp only [Binary64.ratio, Binary64.ratioLt] at hlt
          split at hlt <;> simp_all
        | false =>
          have hv : o.compactThreshold.HasValue (m * 2 ^ e) := ⟨m, e, hview, rfl⟩
          refine .inr ⟨_, hv, ?_⟩
          have := (Binary64.lt_iff_of_hasValue hv hmin).not.1 (by simpa using hlt)
          exact le_of_not_gt this

end HistoryOptions

namespace Binary64

/-- **A count of lines at most one and a half times a count of entries is no more than the entry
count times a threshold from 1.5 on**, as doubles, for up to `2^53` entries: the entry count,
possibly larger and rounded, times the threshold rounds no lower than the line count does. -/
theorem lt_mul_ofNat_eq_false {t : Binary64}
    (ht : t.view = .infinite false ∨ ∃ v, t.HasValue v ∧ 3 / 2 ≤ v) {L n lines : Nat}
    (hL : L ≤ Nat.pow 2 53) (hLn : L ≤ n) (hpos : 0 < lines) (hlines : 2 * lines ≤ 3 * L) :
    lt (mul (ofNat n) t) (ofNat lines) = false := by
  have hL0 : 0 < L := by omega
  have hn0 : 0 < n := by omega
  unfold ofNat
  rcases round_cases hn0 Nat.one_pos with ⟨hinf, -⟩ | ⟨-, hvn⟩
  · refine lt_of_infinite (infinite_mul hinf ?_) _
    rcases ht with ht | ⟨v, hv, hv32⟩
    · exact .inl ht
    · exact .inr ⟨v, hv, by linarith⟩
  · have hvnL : (L : ℚ) ≤ significand n 1 * 2 ^ keptExponent n 1 :=
      le_of_ofNat_hasValue hL hL0 hLn hvn
    have hvn0 : (0 : ℚ) < significand n 1 * 2 ^ keptExponent n 1 :=
      lt_of_lt_of_le (by exact_mod_cast hL0) hvnL
    rcases ht with ht | ⟨v, hv, hv32⟩
    · exact lt_of_infinite (mul_infinite hvn hvn0 ht) _
    · obtain ⟨A, B, hB, hmul, hAB⟩ := mul_of_hasValue hvn hv
      rw [hmul]
      have hprod : (lines : ℚ) / (1 : Nat) ≤ (A : ℚ) / B := by
        rw [hAB, Nat.cast_one, div_one]
        have h3 : (2 : ℚ) * lines ≤ 3 * L := by exact_mod_cast hlines
        nlinarith
      have hA : 0 < A := by
        rcases Nat.eq_zero_or_pos A with h0 | h0
        · rw [h0, Nat.cast_zero, zero_div, Nat.cast_one, div_one] at hprod
          exact absurd hprod (not_le.2 (by exact_mod_cast hpos))
        · exact h0
      exact lt_round_eq_false hpos Nat.one_pos hA hB hprod

end Binary64

namespace Recency

/-- A store never shrinks a well formed list: it replaces at most one entry of the same key,
and evicts only when the list is full. -/
theorem size_le_size_put {r : Recency} (h : r.Valid) (hs : 0 < r.slots) (e : HistoryEntry) :
    r.size ≤ (r.put e).size := by
  have hsplit := List.length_eq_length_filter_add (l := r.entries) (·.key != e.key)
  have hone := length_filter_key_le h.nodup e.key
  have hlen := h.length_le
  simp only [put, size, List.length_cons, List.length_take]
  omega

end Recency

namespace HistoryStore

/-- The store a selection leaves once its journal line is written and its entry stored, before
compaction is considered. -/
def selected (s : HistoryStore) (e : HistoryEntry) : HistoryStore :=
  { s with tornTail := false, journalLines := s.journalLines + 1, recency := s.recency.put e }

/-- An append that succeeds on a store with a journal counts one more line and finishes the
tail. -/
theorem append_store_of_ok {s : HistoryStore} {p : Path} (hp : s.path = some p) {d : Disk}
    {r : JournalRecord} (h : (s.append d r).result = .ok ()) :
    (s.append d r).store = { s with tornTail := false, journalLines := s.journalLines + 1 } := by
  unfold append at h ⊢
  simp only [hp] at h ⊢
  rcases hparent : ensureParent d p with ⟨d₁, _ | e⟩
  · simp only [hparent] at h ⊢
    rcases happ : d₁.append p ((if s.tornTail = true then "\n" else "") ++ r.line ++ "\n") with
      ⟨d₂, _ | e⟩
    · rfl
    · simp [happ] at h
  · simp [hparent] at h

/-- **A successful selection that does not compact leaves the selected store.** -/
theorem record_store_of_quiet {s : HistoryStore} {p : Path} (hp : s.path = some p) {d : Disk}
    {queryText pluginId : String} {key : ResultKey} {at_ n : Nat}
    (h : (s.record d queryText pluginId key at_).result = .ok n)
    (hquiet : (s.selected (s.recordedEntry queryText pluginId key at_)).needsCompaction = false) :
    (s.record d queryText pluginId key at_).store =
      s.selected (s.recordedEntry queryText pluginId key at_) := by
  unfold record at h ⊢
  cases ha : (s.append d (.select (s.recordedEntry queryText pluginId key at_))).result with
  | error e => simp [ha] at h
  | ok u =>
    have hstore := append_store_of_ok hp ha
    simp only [ha, hstore]
    split
    · rename_i hfires
      have hfires' : (s.selected (s.recordedEntry queryText pluginId key at_)).needsCompaction =
          true := hfires
      rw [hquiet] at hfires'
      cases hfires'
    · rfl

/-- A compaction that succeeds on a journaled store counts one line per live entry and finishes
the tail. -/
theorem compact_store_of_ok {s : HistoryStore} {p : Path} (hp : s.path = some p) {d : Disk}
    (h : (s.compact d).result = .ok ()) :
    (s.compact d).store = { s with journalLines := s.size, tornTail := false } := by
  unfold compact at h ⊢
  simp only [hp] at h ⊢
  rcases hparent : ensureParent d p with ⟨d₁, _ | e⟩
  · simp only [hparent] at h ⊢
    cases hc : d₁.create (p.withExtension "jsonl.tmp") s.liveJournal with
    | error e => simp [hc] at h
    | ok d₂ =>
      simp only [hc] at h ⊢
      cases hr : d₂.rename (p.withExtension "jsonl.tmp") p with
      | error e => simp [hr] at h
      | ok d₃ => rfl
  · simp [hparent] at h

/-- **Every successful compaction is a start for `compactions_spaced`**: the store is still
replayed with the same options and path, and its journal holds exactly its live entries. -/
theorem Replayed.compact {o : HistoryOptions} {path : Path} {s : HistoryStore}
    (hs : Replayed o path s) {d : Disk} (h : (s.compact d).result = .ok ()) :
    Replayed o path (s.compact d).store ∧
      (s.compact d).store.journalLines = (s.compact d).store.size := by
  rw [compact_store_of_ok hs.path h]
  exact ⟨hs.of_eq rfl rfl rfl, rfl⟩

/-- Successful selections from `s₀`, each on any disk, with a flag for each saying whether it
compacted the journal. -/
inductive Selections (s₀ : HistoryStore) : List Bool → HistoryStore → Prop
  | nil : Selections s₀ [] s₀
  | record {flags : List Bool} {s : HistoryStore} (d : Disk) (queryText pluginId : String)
      (key : ResultKey) (at_ : Nat) {n : Nat} :
      Selections s₀ flags s → (s.record d queryText pluginId key at_).result = .ok n →
      Selections s₀
        (flags ++ [(s.selected (s.recordedEntry queryText pluginId key at_)).needsCompaction])
        (s.record d queryText pluginId key at_).store

/-- A store `k` selections past `s₀`, none of which compacted: one more line per selection, no
fewer entries, and the same options, path and room, with a well formed list. -/
structure Since (s₀ : HistoryStore) (k : Nat) (s : HistoryStore) : Prop where
  lines : s.journalLines = s₀.journalLines + k
  size : s₀.size ≤ s.size
  options : s.options = s₀.options
  path : s.path = s₀.path
  slots : s.recency.slots = s₀.recency.slots
  valid : s.recency.Valid

theorem Since.refl {s₀ : HistoryStore} (h : s₀.recency.Valid) : Since s₀ 0 s₀ :=
  ⟨rfl, le_rfl, rfl, rfl, rfl, h⟩

/-- One more selection without compaction keeps `Since`. -/
theorem Since.selected {s₀ s : HistoryStore} {k : Nat} (h : Since s₀ k s)
    (hs : 0 < s₀.recency.slots) (e : HistoryEntry) : Since s₀ (k + 1) (s.selected e) where
  lines := by simp only [HistoryStore.selected, h.lines]; omega
  size := h.size.trans (Recency.size_le_size_put h.valid (h.slots ▸ hs) e)
  options := h.options
  path := h.path
  slots := h.slots
  valid := h.valid.put (h.slots ▸ hs) e

/-- **Selections that compact nothing keep `Since`**, by induction on the run. -/
theorem Selections.since {s₀ s : HistoryStore} {flags : List Bool} (hrun : Selections s₀ flags s)
    {p : Path} (hp : s₀.path = some p) (hv : s₀.recency.Valid) (hs : 0 < s₀.recency.slots)
    (hquiet : ∀ b ∈ flags, b = false) : Since s₀ flags.length s := by
  induction hrun with
  | nil => exact Since.refl hv
  | record d queryText pluginId key at_ _ hok ih =>
    have hflags := hquiet
    simp only [List.mem_append, List.mem_singleton] at hflags
    have hsince := ih fun b hb => hflags b (.inl hb)
    rw [record_store_of_quiet (hsince.path.trans hp) hok (hflags _ (.inr rfl)), List.length_append,
      List.length_singleton]
    exact hsince.selected hs _

/-- **A selection `k` selections past a journal of exactly its `L` entries compacts only if it
is at least the `max (64 - L) (L / 2 + 1)`-th**: the journal must have reached 64 lines and, for
up to `2^53` entries, more than one and a half lines per entry. -/
theorem Since.compacts_late {o : HistoryOptions} {s₀ s : HistoryStore} {k : Nat}
    (h : Since s₀ k s) (ho : s₀.options = o.normalized) (hfresh : s₀.journalLines = s₀.size)
    (hsize : s₀.size ≤ Nat.pow 2 53) (hs : 0 < s₀.recency.slots) {e : HistoryEntry}
    (hfire : (s.selected e).needsCompaction = true) :
    max (minCompactLines - s₀.size) (s₀.size / 2 + 1) ≤ k + 1 := by
  have hnext := h.selected hs e
  unfold needsCompaction at hfire
  simp only [Bool.and_eq_true, decide_eq_true_eq] at hfire
  obtain ⟨⟨-, hlines⟩, hlt⟩ := hfire
  rw [hnext.options, ho, hnext.lines, hfresh] at hlt
  rw [hnext.lines, hfresh] at hlines
  refine max_le (by omega) ?_
  by_contra hearly
  have hquiet : Binary64.lt (Binary64.mul (Binary64.ofNat (max (s.selected e).recency.size 1))
      o.normalized.compactThreshold) (Binary64.ofNat (s₀.size + (k + 1))) = false :=
    Binary64.lt_mul_ofNat_eq_false (HistoryOptions.normalized_threshold o) hsize
      (le_max_of_le_left hnext.size) (by omega) (by omega)
  rw [hquiet] at hlt
  cases hlt

/-- **Automatic compaction never thrashes.** From a journaled store whose journal holds exactly
its `L` live entries, as every compaction leaves it, with normalized options and at most `2^53`
entries (where entry counts are exact doubles), in any run of successful selections the
selections that compact the journal are all at least the `max (64 - L) (L / 2 + 1)`-th. -/
theorem compactions_spaced {o : HistoryOptions} {path : Path} {s₀ s : HistoryStore}
    (hs : Replayed o path s₀) (hfresh : s₀.journalLines = s₀.size)
    (hsize : s₀.size ≤ Nat.pow 2 53) {flags : List Bool} (hrun : Selections s₀ flags s) :
    ∀ i, flags[i]? = some true → max (minCompactLines - s₀.size) (s₀.size / 2 + 1) ≤ i + 1 := by
  have hslots : 0 < s₀.recency.slots := hs.slots ▸ slots_pos _
  induction hrun with
  | nil =>
    intro i hi
    simp at hi
  | @record flags s d queryText pluginId key at_ n hprev hok ih =>
    intro i hi
    by_cases hold : i < flags.length
    · exact ih i (by rwa [List.getElem?_append_left hold] at hi)
    · rw [List.getElem?_append_right (by omega)] at hi
      have hi' : i = flags.length := by
        by_contra hne
        rw [List.getElem?_singleton, if_neg (by omega)] at hi
        cases hi
      subst hi'
      rw [Nat.sub_self, List.getElem?_singleton, if_pos rfl, Option.some_inj] at hi
      by_cases hquiet : ∀ b ∈ flags, b = false
      · exact (hprev.since hs.path hs.valid hslots hquiet).compacts_late hs.options hfresh hsize
          hslots hi
      · simp only [not_forall] at hquiet
        obtain ⟨b, hb, hbtrue⟩ := hquiet
        obtain ⟨j, hj⟩ := List.mem_iff_getElem?.1 hb
        have hjlt : j < flags.length := (List.getElem?_eq_some_iff.1 hj).1
        have := ih j (by rw [hj]; simpa using hbtrue)
        omega

/-- A store opened on an empty journal file `h` in the scratch directory, given one selection
that is written and compacts nothing, meets every hypothesis of `compactions_spaced`. -/
theorem selection_on_empty_journal_spaced :
    let o : HistoryOptions := {}
    let s₀ : HistoryStore := { inMemory o with path := some "h" }
    let d : Disk := { entries := [([Path.scratch], .dir), ([Path.scratch, "h"], .file "")] }
    let flag := (s₀.selected (s₀.recordedEntry "q" "p" ⟨"t", ""⟩ 1)).needsCompaction
    Replayed o "h" s₀ ∧ s₀.journalLines = s₀.size ∧ s₀.size ≤ Nat.pow 2 53 ∧
      Selections s₀ [flag] (s₀.record d "q" "p" ⟨"t", ""⟩ 1).store ∧
      ∀ i, [flag][i]? = some true → max (minCompactLines - s₀.size) (s₀.size / 2 + 1) ≤ i + 1 := by
  intro o s₀ d flag
  have hres : d.resolve "h" = .ok ([Path.scratch, "h"], .file "") := resolve_scratch_file rfl
  have hok : (s₀.record d "q" "p" ⟨"t", ""⟩ 1).result = .ok 1 := by
    simp [record, append, s₀, ensureParent_h d, Disk.append_of_resolve rfl hres, needsCompaction,
      recordedEntry, minCompactLines, find?, Recency.find?, Recency.empty, inMemory]
  have hrun : Selections s₀ [flag] (s₀.record d "q" "p" ⟨"t", ""⟩ 1).store :=
    Selections.nil.record d "q" "p" ⟨"t", ""⟩ 1 hok
  have hs : Replayed o "h" s₀ := replayed_opened o "h"
  exact ⟨hs, rfl, Nat.zero_le _, hrun, compactions_spaced hs rfl (Nat.zero_le _) hrun⟩

end HistoryStore

end Launcher
