import Mathlib.Data.List.Sort
import Mathlib.Data.String.Basic
import Launcher.History.Store
import Launcher.Proofs.Ranking.Places

/-!
# The order of a merged list

`merge` puts the batches in configuration order, scores their results and sorts them by score
with a stable sort. Its specification says where every result lands without the two sorts:

* `Batch.ranked` — the results of a batch as the ranking scores them, each with its position in
  the batch: the item's score plus the plugin's weight boost in the snapshot (none for a plugin
  the snapshot lacks) plus the history bonus, all saturating, and the text that completes the
  query;
* `RanksBefore` — the ranking order: higher final score first; among equal scores, by the
  plugin's place in the snapshot (plugins it lacks last), then by plugin id; within one plugin,
  by position in the batch;
* `pairwise_mergeSort_key` — a stable sort by a key, highest first, leaves a list ordered by the
  key and, among equal keys, in the order it had;
* `orderBatches_pairwise` — batches of distinct plugins are put strictly in configuration order;
* `merge_ranks_and_cuts` — the full list of a merge is every batch's results, so scored, in the
  ranking order; the shown list is its first rows, with a marker when some were cut; and the
  merge does not depend on the order the batches came in.
-/

namespace Launcher

/-! ## The specification -/

/-- The weight boost a snapshot gives a plugin: none for a plugin it does not list. -/
def Snapshot.weightOf (s : Snapshot) (id : String) : Int :=
  match s.get? id with
  | some p => p.metadata.weightBoost
  | none => 0

/-- The results of a batch as the ranking scores them, each with its position in the batch. -/
def Batch.ranked (b : Batch) (s : Snapshot) (q : Query) (boost : ResultIdentity → Int) :
    List (RankedResult × Nat) :=
  b.results.zipIdx.map fun p =>
    ({ pluginId := b.pluginId, item := p.1,
       finalScore := saturatingAdd (saturatingAdd p.1.score (s.weightOf b.pluginId))
         (boost (p.1.identity b.pluginId)),
       queryTextDisplay := displayText p.1 ((s.get? b.pluginId).map (·.metadata)) q }, p.2)

/-- Whether one plugin's results go before another's among equal scores: by place in the
snapshot, plugins it lacks last, then by id. -/
def Snapshot.PluginBefore (s : Snapshot) (a b : String) : Prop :=
  s.orderOf a < s.orderOf b ∨ (s.orderOf a = s.orderOf b ∧ a < b)

/-- The order of results with equal scores: by plugin, then by position in the batch. -/
def TieBefore (s : Snapshot) (x y : RankedResult × Nat) : Prop :=
  s.PluginBefore x.1.pluginId y.1.pluginId ∨ (x.1.pluginId = y.1.pluginId ∧ x.2 < y.2)

/-- **The ranking order**: a higher final score first, and among equal scores the tie order. -/
def RanksBefore (s : Snapshot) (x y : RankedResult × Nat) : Prop :=
  y.1.finalScore < x.1.finalScore ∨ (x.1.finalScore = y.1.finalScore ∧ TieBefore s x y)

/-! ## Stable sorting by a key -/

/-- **A stable sort by a key keeps the order among equal keys**: sorting a list that is in an
order `T` by a key, highest first, orders it by the key and, among equal keys, by `T`. -/
theorem pairwise_mergeSort_key {α : Type} (key : α → Int) {T : α → α → Prop} {l : List α}
    (hl : l.Pairwise T) :
    (l.mergeSort fun a b => decide (key b ≤ key a)).Pairwise
      fun a b => key b < key a ∨ (key a = key b ∧ T a b) := by
  let le : α → α → Bool := fun a b => decide (key b ≤ key a)
  let S := l.zipIdx.mergeSort (List.zipIdxLE le)
  have hperm : S.Perm l.zipIdx := List.mergeSort_perm _ _
  have hsorted : S.Pairwise fun x y => List.zipIdxLE le x y = true :=
    List.pairwise_mergeSort
      (List.zipIdxLE_trans fun a b c hab hbc => by simp only [le, decide_eq_true_eq] at *; omega)
      (List.zipIdxLE_total fun a b => by simp only [le, Bool.or_eq_true, decide_eq_true_eq]; omega)
      _
  have hdistinct : S.Pairwise fun x y => x.2 ≠ y.2 := by
    have hnodup : (S.map (·.2)).Nodup := by
      rw [(hperm.map _).nodup_iff, List.zipIdx_map_snd, ← List.range_eq_range']
      exact List.nodup_range
    exact List.pairwise_map.1 hnodup
  rw [← List.mergeSort_zipIdx, List.pairwise_map]
  refine (hsorted.and hdistinct).imp_of_mem fun {x y} hx hy ⟨hxy, hne⟩ => ?_
  obtain ⟨hi, hx'⟩ := List.getElem?_eq_some_iff.1
    (List.mem_zipIdx_iff_getElem?.1 (hperm.mem_iff.1 hx))
  obtain ⟨hj, hy'⟩ := List.getElem?_eq_some_iff.1
    (List.mem_zipIdx_iff_getElem?.1 (hperm.mem_iff.1 hy))
  simp only [List.zipIdxLE, le] at hxy
  by_cases hlt : key y.1 < key x.1
  · exact .inl hlt
  · have h₁ : key y.1 ≤ key x.1 := by
      by_contra h
      simp [h] at hxy
    have heq : key x.1 = key y.1 := by omega
    have hij : x.2 < y.2 := by
      have h₂ : key x.1 ≤ key y.1 := by omega
      simp only [h₁, h₂, decide_true, if_true, decide_eq_true_eq] at hxy
      omega
    refine .inr ⟨heq, ?_⟩
    rw [← hx', ← hy']
    exact List.pairwise_iff_getElem.1 hl _ _ hi hj hij

/-! ## Batches and their results in order -/

/-- Positions in a batch increase along it. -/
theorem pairwise_ranked (b : Batch) (s : Snapshot) (q : Query) (boost : ResultIdentity → Int) :
    (b.ranked s q boost).Pairwise fun x y => x.2 < y.2 := by
  rw [Batch.ranked, List.pairwise_map, List.pairwise_iff_getElem]
  intro i j hi hj hij
  simpa using hij

/-- A ranked result of a batch is of the batch's plugin. -/
theorem pluginId_of_mem_ranked {b : Batch} {s : Snapshot} {q : Query}
    {boost : ResultIdentity → Int} {x : RankedResult × Nat} (hx : x ∈ b.ranked s q boost) :
    x.1.pluginId = b.pluginId := by
  obtain ⟨p, -, rfl⟩ := List.mem_map.1 hx
  rfl

/-- Forgetting positions, a batch's ranked results are the results `merge` scores. -/
theorem ranked_map_fst (b : Batch) (s : Snapshot) (q : Query) (boost : ResultIdentity → Int) :
    (b.ranked s q boost).map Prod.fst = scoreBatch s q boost b := by
  have hweight : (((s.get? b.pluginId).map (·.metadata)).map (·.weightBoost)).getD 0 =
      s.weightOf b.pluginId := by
    unfold Snapshot.weightOf
    cases s.get? b.pluginId <;> rfl
  rw [Batch.ranked, List.map_map, scoreBatch, hweight]
  conv => rhs; rw [← List.zipIdx_map_fst 0 b.results, List.map_map]
  rfl

/-- **Batches of distinct plugins are put strictly in configuration order**, ties of place
broken by plugin id. -/
theorem orderBatches_pairwise (s : Snapshot) {bs : List Batch}
    (hn : (bs.map (·.pluginId)).Nodup) :
    (orderBatches s bs).Pairwise fun a b => s.PluginBefore a.pluginId b.pluginId := by
  have hn' : ((orderBatches s bs).map (·.pluginId)).Nodup :=
    ((List.mergeSort_perm bs _).map _).nodup_iff.2 hn
  refine ((orderBatches_pairwise_le s bs).and (List.pairwise_map.1 hn')).imp ?_
  rintro a b ⟨h | ⟨h, hle⟩, hne⟩
  · exact .inl h
  · exact .inr ⟨h, lt_of_le_of_ne hle hne⟩

/-- The results of batches of distinct plugins, taken in the order `merge` takes the batches,
are in the tie order. -/
theorem pairwise_orderBatches_ranked (s : Snapshot) (q : Query) (boost : ResultIdentity → Int)
    {bs : List Batch} (hn : (bs.map (·.pluginId)).Nodup) :
    ((orderBatches s bs).flatMap fun b => b.ranked s q boost).Pairwise (TieBefore s) := by
  rw [List.pairwise_flatMap]
  refine ⟨fun b _ => ?_, (orderBatches_pairwise s hn).imp fun hab x hx y hy => ?_⟩
  · refine (pairwise_ranked b s q boost).imp_of_mem fun hx hy hxy => .inr ⟨?_, hxy⟩
    rw [pluginId_of_mem_ranked hx, pluginId_of_mem_ranked hy]
  · left
    rw [pluginId_of_mem_ranked hx, pluginId_of_mem_ranked hy]
    exact hab

/-! ## The merged list -/

/-- The rows shown: the first `min total m` results (all of them when `m` is zero), then a
marker with the total and `m` exactly when some were cut. -/
theorem cutDown_eq (full : List RankedResult) (m : Nat) :
    cutDown full m =
      (full.take (if m = 0 then full.length else min full.length m)).map ListEntry.result ++
        (if 0 < m ∧ m < full.length then [.truncated full.length m] else []) := by
  unfold cutDown
  by_cases hm : m = 0
  · subst hm
    simp
  · have hmin : full.take (min full.length m) = full.take m := by
      rw [List.take_eq_take_iff]
      omega
    simp only [hm, if_false, beq_iff_eq, hmin, gt_iff_lt, Bool.and_eq_true, decide_eq_true_eq]
    split <;> simp_all

/-- **A merge meets its ranking specification.** For batches of distinct plugins:
* the full list is every batch's results, each scored `score + weight boost + history bonus`
  with saturation and completed by `displayText`, in the ranking order `RanksBefore`: by final
  score, highest first, then by the plugin's place in the snapshot (plugins it lacks last, by id),
  then by position in the batch;
* the shown list is the first `min total m` rows of it (all when `m` is zero), followed by a
  marker with the total and `m` exactly when `m` is positive and smaller than the total;
* batches arriving in any other order give the same merge. -/
theorem merge_ranks_and_cuts (batches : List Batch) (hn : (batches.map (·.pluginId)).Nodup)
    (q : Query) (s : Snapshot) (history : HistoryStore) (m : Nat) :
    let r := merge batches q s (history.boost q.rawText) m
    (∃ placed : List (RankedResult × Nat),
      placed.Perm (batches.flatMap fun b => b.ranked s q (history.boost q.rawText)) ∧
      placed.Pairwise (RanksBefore s) ∧ r.full = placed.map Prod.fst) ∧
    r.entries =
      (r.full.take (if m = 0 then r.full.length else min r.full.length m)).map ListEntry.result ++
        (if 0 < m ∧ m < r.full.length then [.truncated r.full.length m] else []) ∧
    ∀ batches', batches'.Perm batches → merge batches' q s (history.boost q.rawText) m = r := by
  intro r
  let boost := history.boost q.rawText
  let tagged := (orderBatches s batches).flatMap fun b => b.ranked s q boost
  have hfull : r.full = (tagged.mergeSort fun x y => decide (y.1.finalScore ≤ x.1.finalScore)).map
      Prod.fst := by
    rw [List.map_mergeSort (s := fun a b : RankedResult => decide (b.finalScore ≤ a.finalScore))
      (fun _ _ _ _ => rfl), List.map_flatMap]
    simp only [ranked_map_fst]
    rfl
  refine ⟨⟨_, ?_, ?_, hfull⟩, cutDown_eq _ m, fun batches' hp => ?_⟩
  · exact (List.mergeSort_perm _ _).trans ((List.mergeSort_perm batches _).flatMap_right _)
  · exact pairwise_mergeSort_key (fun x => x.1.finalScore)
      (pairwise_orderBatches_ranked s q boost hn)
  · exact merge_perm hp (hp.map _ |>.nodup_iff.2 hn) q s boost m

/-- Two plugins' batches arriving against configuration order, merged for a query and cut to two
rows. -/
theorem merge_ranks_two_plugins :
    let batches : List Batch :=
      [⟨"b", [{ title := "x", score := 5 }]⟩, ⟨"a", [{ title := "y", score := 5 }, { title := "z" }]⟩]
    let s := Registry.snapshot ⟨[⟨{ id := "a" }, .ready⟩, ⟨{ id := "b" }, .ready⟩]⟩
    let q : Query := { rawText := "q", search := "q" }
    let history := HistoryStore.inMemory {}
    let r := merge batches q s (history.boost q.rawText) 2
    (batches.map (·.pluginId)).Nodup ∧
    (∃ placed : List (RankedResult × Nat),
      placed.Perm (batches.flatMap fun b => b.ranked s q (history.boost q.rawText)) ∧
      placed.Pairwise (RanksBefore s) ∧ r.full = placed.map Prod.fst) ∧
    r.entries =
      (r.full.take (if 2 = 0 then r.full.length else min r.full.length 2)).map ListEntry.result ++
        (if 0 < 2 ∧ 2 < r.full.length then [.truncated r.full.length 2] else []) ∧
    ∀ batches', batches'.Perm batches → merge batches' q s (history.boost q.rawText) 2 = r := by
  intro batches s q history r
  have hn : (batches.map (·.pluginId)).Nodup := by decide
  exact ⟨hn, merge_ranks_and_cuts batches hn q s history 2⟩

end Launcher
