import Mathlib.Tactic.Linarith
import Launcher.History.Store
import Launcher.Proofs.History.Boost
import Launcher.Proofs.Ranking.Places

/-!
# What a selection does to the next ranking

A selection is remembered for the query text it was made from, and the next merge for that text
lifts the selected result by its history bonus, `cap · n / (n + half)` for `n` selections. The
bonus grows with `n` only while `cap · n` fits a machine word: beyond that the product saturates
and the bonus falls again, so a selection lifts its result only while the cap is small enough.
Within that bound:

* `historyBoost_le_historyBoost` (from the bonus curve) — the bonus grows with the count;
* `HistoryStore.boost_record_self`, `HistoryStore.boost_record_other` — a recorded selection does
  not lower the bonus of the selected result, and does not raise any other (it may evict one);
* `rank_after_selection` — after a selection, each result of the selected identity scores no
  lower in the next merge for its text, and no result of another identity overtakes it; alone of
  its identity, it stands no later in the full list;
* `selection_reorders_equal_identities` — with two results of the selected identity whose scores
  both reach the largest machine word, the lift makes them equal, and the stable order then
  puts the one that was ahead behind the other.
-/

namespace Launcher

/-! ## A recorded selection -/

namespace Recency

/-- The entry just stored is found under its key. -/
theorem find?_put_self (r : Recency) (e : HistoryEntry) : (r.put e).find? e.key = some e := by
  simp [put, find?]

/-- Under any other key, storing an entry finds what was there, or nothing once it was evicted. -/
theorem find?_put_of_ne {r : Recency} {e : HistoryEntry} {k : SelectionKey} (hk : k ≠ e.key)
    {x : HistoryEntry} (h : (r.put e).find? k = some x) : r.find? k = some x := by
  have hek : (e.key == k) = false := by simpa using Ne.symm hk
  simp only [put, find?, List.find?_cons, hek] at h
  have hpre := (List.take_prefix (r.slots - 1) (r.entries.filter (·.key != e.key))).find?_eq_some h
  rw [List.find?_filter] at hpre
  rw [find?, ← hpre]
  congr 1
  funext y
  by_cases hy : y.key = k
  · simp [hy, hk]
  · simp [hy]

end Recency

namespace HistoryStore

variable {s : HistoryStore} {d : Disk}

/-- Appending to the journal leaves the entries and options alone. -/
theorem recency_append (s : HistoryStore) (d : Disk) (r : JournalRecord) :
    (s.append d r).store.recency = s.recency ∧ (s.append d r).store.options = s.options := by
  unfold append
  split
  · exact ⟨rfl, rfl⟩
  · split
    · exact ⟨rfl, rfl⟩
    · dsimp only
      split <;> exact ⟨rfl, rfl⟩

/-- Compacting the journal leaves the entries and options alone. -/
theorem recency_compact (s : HistoryStore) (d : Disk) :
    (s.compact d).store.recency = s.recency ∧ (s.compact d).store.options = s.options := by
  unfold compact
  split
  · exact ⟨rfl, rfl⟩
  · split
    · exact ⟨rfl, rfl⟩
    · dsimp only
      split
      · exact ⟨rfl, rfl⟩
      · split <;> exact ⟨rfl, rfl⟩

/-- A selection recorded without error stores its entry as the most recent, and keeps the
options. -/
theorem recency_record {queryText pluginId : String} {key : ResultKey} {at_ n : Nat}
    (h : (s.record d queryText pluginId key at_).result = .ok n) :
    (s.record d queryText pluginId key at_).store.recency =
        s.recency.put (s.recordedEntry queryText pluginId key at_) ∧
      (s.record d queryText pluginId key at_).store.options = s.options := by
  have ha := recency_append s d (.select (s.recordedEntry queryText pluginId key at_))
  cases hres : (s.append d (.select (s.recordedEntry queryText pluginId key at_))).result with
  | error e => simp [record, hres] at h
  | ok u =>
    simp only [record, hres] at h ⊢
    split
    · exact ⟨(recency_compact _ _).1.trans (by rw [ha.1]), (recency_compact _ _).2.trans ha.2⟩
    · exact ⟨by simp only [ha.1], ha.2⟩

/-- The count a selection leaves is one more than before, stopping at the largest count. -/
theorem selectionCount_recordedEntry (s : HistoryStore) (queryText pluginId : String)
    (key : ResultKey) (at_ : Nat) :
    (s.recordedEntry queryText pluginId key at_).selectionCount =
      min (s.selectionCount queryText ⟨pluginId, key⟩ + 1) countMax := by
  unfold recordedEntry selectionCount
  split <;> rfl

theorem key_recordedEntry (s : HistoryStore) (queryText pluginId : String) (key : ResultKey)
    (at_ : Nat) : (s.recordedEntry queryText pluginId key at_).key = ⟨queryText, ⟨pluginId, key⟩⟩ := by
  unfold recordedEntry
  split
  · rename_i e he
    have := List.find?_some he
    simp only [beq_iff_eq] at this
    exact this
  · rfl

section Record

variable {queryText pluginId : String} {key : ResultKey} {at_ n : Nat}

/-- After a recorded selection the selected result counts one more selection, saturating. -/
theorem selectionCount_record_self (h : (s.record d queryText pluginId key at_).result = .ok n) :
    (s.record d queryText pluginId key at_).store.selectionCount queryText ⟨pluginId, key⟩ =
      min (s.selectionCount queryText ⟨pluginId, key⟩ + 1) countMax := by
  rw [selectionCount, find?, (recency_record h).1, ← key_recordedEntry s queryText pluginId key at_,
    Recency.find?_put_self]
  exact selectionCount_recordedEntry s queryText pluginId key at_

/-- After a recorded selection any other result counts as before, or nothing once evicted. -/
theorem selectionCount_record_other (h : (s.record d queryText pluginId key at_).result = .ok n)
    {i : ResultIdentity} (hi : i ≠ ⟨pluginId, key⟩) :
    (s.record d queryText pluginId key at_).store.selectionCount queryText i ≤
      s.selectionCount queryText i := by
  have hk : (⟨queryText, i⟩ : SelectionKey) ≠ (s.recordedEntry queryText pluginId key at_).key := by
    rw [key_recordedEntry]
    intro heq
    exact hi (SelectionKey.mk.inj heq).2
  unfold selectionCount find?
  rw [(recency_record h).1]
  cases hx : (s.recency.put (s.recordedEntry queryText pluginId key at_)).find? ⟨queryText, i⟩ with
  | none => exact Nat.zero_le _
  | some x => rw [Recency.find?_put_of_ne hk hx]

/-- **A selection does not lower its own bonus**, when the counts fit their 32 bits and the cap
times the new count fits a machine word. -/
theorem boost_record_self (h : (s.record d queryText pluginId key at_).result = .ok n)
    (hfit : s.selectionCount queryText ⟨pluginId, key⟩ ≤ countMax)
    (hsat : s.options.boostCap *
      ((s.record d queryText pluginId key at_).store.selectionCount queryText ⟨pluginId, key⟩) ≤
        wordMax) :
    s.boost queryText ⟨pluginId, key⟩ ≤
      (s.record d queryText pluginId key at_).store.boost queryText ⟨pluginId, key⟩ := by
  unfold boost
  rw [(recency_record h).2]
  apply historyBoost_le_historyBoost _ _ hsat
  rw [selectionCount_record_self h]
  omega

/-- **A selection does not raise any other bonus.** -/
theorem boost_record_other (h : (s.record d queryText pluginId key at_).result = .ok n)
    {i : ResultIdentity} (hi : i ≠ ⟨pluginId, key⟩) :
    (s.record d queryText pluginId key at_).store.boost queryText i ≤ s.boost queryText i := by
  unfold boost
  rw [(recency_record h).2]
  have hle := selectionCount_record_other h hi
  by_cases hz : (s.record d queryText pluginId key at_).store.selectionCount queryText i = 0
  · rw [hz, historyBoost, if_pos (.inl rfl)]
    exact historyBoost_nonneg _ _ _
  · have heq : (s.record d queryText pluginId key at_).store.selectionCount queryText i =
        s.selectionCount queryText i := by
      unfold selectionCount find? at hz ⊢
      rw [(recency_record h).1] at hz ⊢
      cases hx : (s.recency.put (s.recordedEntry queryText pluginId key at_)).find? ⟨queryText, i⟩ with
      | none => rw [hx] at hz; exact absurd rfl hz
      | some x =>
        have hk : (⟨queryText, i⟩ : SelectionKey) ≠
            (s.recordedEntry queryText pluginId key at_).key := by
          rw [key_recordedEntry]
          intro heq
          exact hi (SelectionKey.mk.inj heq).2
        rw [Recency.find?_put_of_ne hk hx]
    rw [heq]

end Record

end HistoryStore

/-! ## The next ranking -/

/-- **A selection does not lower its result in the next ranking, within the bound of the
bonus.** A store records a selection of `(pluginId, key)` for a query's text without error; the
counts fit their 32 bits and the cap times the new count fits a machine word. Then in the next
merge of any batches for that query, each result of that identity is the same result with a
score no lower, standing in the full list at its place; every result of another identity placed
ahead of it was placed ahead of it before, and so, when it is the only result of its identity, its
place is no later. -/
theorem rank_after_selection (batches : List Batch) (q : Query) (snap : Snapshot)
    (s : HistoryStore) (d : Disk) (pluginId : String) (key : ResultKey) (at_ n m : Nat)
    (hrec : (s.record d q.rawText pluginId key at_).result = .ok n)
    (hfit : s.selectionCount q.rawText ⟨pluginId, key⟩ ≤ countMax)
    (hsat : s.options.boostCap *
      ((s.record d q.rawText pluginId key at_).store.selectionCount q.rawText ⟨pluginId, key⟩) ≤
        wordMax) :
    let before := scored batches q snap (s.boost q.rawText)
    let after := scored batches q snap ((s.record d q.rawText pluginId key at_).store.boost q.rawText)
    ∀ i r, before[i]? = some r → r.identity = ⟨pluginId, key⟩ →
      ∃ r', after[i]? = some r' ∧ r' = { r with finalScore := r'.finalScore } ∧
        r.finalScore ≤ r'.finalScore ∧
        (merge batches q snap (s.boost q.rawText) m).full[place before i]? = some r ∧
        (merge batches q snap ((s.record d q.rawText pluginId key at_).store.boost q.rawText)
          m).full[place after i]? = some r' ∧
        (∀ j rj, before[j]? = some rj → rj.identity ≠ ⟨pluginId, key⟩ →
          placedAhead after j i = true → placedAhead before j i = true) ∧
        ((∀ j rj, j ≠ i → before[j]? = some rj → rj.identity ≠ ⟨pluginId, key⟩) →
          place after i ≤ place before i) := by
  intro before after i r hr hid
  have hbefore : before = (scored batches q snap fun _ => 0).map
      fun r => r.withBonus (s.boost q.rawText r.identity) := scored_boost _ _ _ _
  have hafter : after = (scored batches q snap fun _ => 0).map fun r =>
      r.withBonus ((s.record d q.rawText pluginId key at_).store.boost q.rawText r.identity) :=
    scored_boost _ _ _ _
  have hup := HistoryStore.boost_record_self hrec hfit hsat
  have hdown : ∀ i', i' ≠ ⟨pluginId, key⟩ →
      (s.record d q.rawText pluginId key at_).store.boost q.rawText i' ≤ s.boost q.rawText i' :=
    fun _ hi' => HistoryStore.boost_record_other hrec hi'
  obtain ⟨hi, hri⟩ := List.getElem?_eq_some_iff.1 hr
  have hlen : after.length = before.length := by
    rw [hafter, hbefore, List.length_map, List.length_map]
  have hi' : i < after.length := hlen ▸ hi
  rw [hbefore, List.getElem?_map] at hr
  obtain ⟨r₀, hr₀, rfl⟩ := Option.map_eq_some_iff.1 hr
  have hid₀ : r₀.identity = ⟨pluginId, key⟩ := hid
  have hr₀' : after[i]? = some (r₀.withBonus
      ((s.record d q.rawText pluginId key at_).store.boost q.rawText r₀.identity)) := by
    rw [hafter, List.getElem?_map, hr₀]
    rfl
  have hahead : ∀ j rj, before[j]? = some rj → rj.identity ≠ ⟨pluginId, key⟩ →
      placedAhead after j i = true → placedAhead before j i = true := by
    intro j rj hj hjid hpl
    rw [hbefore, List.getElem?_map] at hj
    obtain ⟨rj₀, hrj₀, rfl⟩ := Option.map_eq_some_iff.1 hj
    rw [hbefore]
    rw [hafter] at hpl
    exact placedAhead_of_bonus hup hdown hr₀ hrj₀ hid₀ hjid hpl
  refine ⟨_, hr₀', rfl, finalScore_le_of_bonus hup hid₀, ?_, ?_,
    hahead, ?_⟩
  · rw [← hri]
    exact full_merge_place batches q snap (s.boost q.rawText) m hi
  · rw [← (List.getElem?_eq_some_iff.1 hr₀').2]
    exact full_merge_place batches q snap _ m hi'
  · intro honly
    apply place_le_place hlen
    intro j hpl
    have hj : j < before.length := hlen ▸ lt_length_of_placedAhead hpl
    have hji : j ≠ i := by
      rintro rfl
      simp at hpl
    exact hahead j _ (List.getElem?_eq_getElem hj) (honly j _ hji (List.getElem?_eq_getElem hj)) hpl

/-- A single result of the selected identity, before and after the first selection of it. -/
theorem rank_after_first_selection :
    let q : Query := { rawText := "q", search := "q" }
    let snap : Snapshot := { plugins := [⟨PluginMetadata.new "p", 0⟩] }
    let batches : List Batch := [⟨"p", [{ title := "a", score := 5 }]⟩]
    let s := HistoryStore.inMemory {}
    let s' := s.record Disk.fresh q.rawText "p" ⟨"a", ""⟩ 0
    s'.result = .ok 1 ∧ s.selectionCount q.rawText ⟨"p", ⟨"a", ""⟩⟩ ≤ countMax ∧
      s.options.boostCap * (s'.store.selectionCount q.rawText ⟨"p", ⟨"a", ""⟩⟩) ≤ wordMax ∧
      let before := scored batches q snap (s.boost q.rawText)
      let after := scored batches q snap (s'.store.boost q.rawText)
      ∀ i r, before[i]? = some r → r.identity = ⟨"p", ⟨"a", ""⟩⟩ →
        ∃ r', after[i]? = some r' ∧ r' = { r with finalScore := r'.finalScore } ∧
          r.finalScore ≤ r'.finalScore ∧
          (merge batches q snap (s.boost q.rawText) 25).full[place before i]? = some r ∧
          (merge batches q snap (s'.store.boost q.rawText) 25).full[place after i]? = some r' ∧
          (∀ j rj, before[j]? = some rj → rj.identity ≠ ⟨"p", ⟨"a", ""⟩⟩ →
            placedAhead after j i = true → placedAhead before j i = true) ∧
          ((∀ j rj, j ≠ i → before[j]? = some rj → rj.identity ≠ ⟨"p", ⟨"a", ""⟩⟩) →
            place after i ≤ place before i) := by
  intro q snap batches s s'
  have hrec : s'.result = .ok 1 := rfl
  have hfit : s.selectionCount q.rawText ⟨"p", ⟨"a", ""⟩⟩ ≤ countMax := by decide +kernel
  have hsat : s.options.boostCap * (s'.store.selectionCount q.rawText ⟨"p", ⟨"a", ""⟩⟩) ≤
      wordMax := by decide +kernel
  exact ⟨hrec, hfit, hsat,
    rank_after_selection batches q snap s Disk.fresh "p" ⟨"a", ""⟩ 0 1 25 hrec hfit hsat⟩

/-- **Where the lift cannot keep the order.** Two results of one identity score the largest machine
word less 60 and less 70. One selection of that identity lifts both by 75, so both saturate to the
largest word; the tie then goes to the one scored first, and the result that stood first in the
full list now stands second. -/
theorem selection_reorders_equal_identities :
    let q : Query := { rawText := "q", search := "q" }
    let snap : Snapshot := { plugins := [⟨PluginMetadata.new "p", 0⟩] }
    let batches : List Batch :=
      [⟨"p", [{ title := "a", score := wordMax - 70 }, { title := "a", score := wordMax - 60 }]⟩]
    let s := HistoryStore.inMemory {}
    let s' := s.record Disk.fresh q.rawText "p" ⟨"a", ""⟩ 0
    s'.result = .ok 1 ∧
      (merge batches q snap (s.boost q.rawText) 25).full.map (·.item.score) =
        [wordMax - 60, wordMax - 70] ∧
      (merge batches q snap (s'.store.boost q.rawText) 25).full.map (·.item.score) =
        [wordMax - 70, wordMax - 60] := by
  intro q snap batches s s'
  refine ⟨rfl, ?_, ?_⟩ <;>
  · simp only [full_merge, scored, orderBatches, batches, List.mergeSort_singleton,
      List.flatMap_cons, List.flatMap_nil, scoreBatch, List.map_cons, List.map_nil,
      List.append_nil, byScore_pair]
    decide +kernel

end Launcher
