import Mathlib.Data.List.Sort
import Mathlib.Data.String.Basic
import Launcher.Ranking

/-!
# Where a result lands in a merged list

`merge` scores every result of a generation's batches, taken in configuration order, and then
orders them by score with a stable sort. So the place of one result in the full list is decided by
the scores alone: the results with a higher score come first, and of those with the same score,
the ones scored before it.

* `placedAhead`, `place` — that rule, for the `j`-th and `i`-th of a list of scored results, and the
  number of results it puts ahead of the `i`-th;
* `byScore_getElem_place` — ordering by score puts the `i`-th result exactly at its place;
* `scored`, `scored_boost` — the results a merge orders, and how a history bonus enters them: each
  score is the bonus-free score with the bonus added, saturating;
* `full_merge_place` — so the `i`-th scored result stands at its place in a merge's full list;
* `merge_perm` — batches of distinct plugins give the same merge in whatever order they come.
-/

namespace Launcher

/-- Whether ordering by score puts the `j`-th of a list of results ahead of the `i`-th: it has a
higher score, or the same score and comes earlier. -/
def placedAhead (l : List RankedResult) (j i : Nat) : Bool :=
  match l[j]?, l[i]? with
  | some a, some b =>
    decide (b.finalScore < a.finalScore) || (decide (a.finalScore = b.finalScore) && decide (j < i))
  | _, _ => false

@[simp] theorem placedAhead_self (l : List RankedResult) (i : Nat) : placedAhead l i i = false := by
  unfold placedAhead
  split
  · next a b ha hb =>
    obtain rfl : a = b := Option.some.inj (ha.symm.trans hb)
    simp
  · rfl

/-- Only a result of the list is placed ahead of anything. -/
theorem lt_length_of_placedAhead {l : List RankedResult} {j i : Nat}
    (h : placedAhead l j i = true) : j < l.length := by
  unfold placedAhead at h
  split at h
  · next a _ ha _ => exact (List.getElem?_eq_some_iff.1 ha).1
  · simp at h

/-- The place ordering by score gives the `i`-th of a list of results: the number of results it
puts ahead. -/
def place (l : List RankedResult) (i : Nat) : Nat :=
  ((List.range l.length).filter fun j => placedAhead l j i).length

/-- The order of the sort, with ties broken by the position in the list. -/
theorem zipIdxLE_byScore {a b : RankedResult} {j i : Nat} (hji : j ≠ i) :
    List.zipIdxLE (fun a b : RankedResult => decide (b.finalScore ≤ a.finalScore)) (a, j) (b, i) =
      (decide (b.finalScore < a.finalScore) ||
        (decide (a.finalScore = b.finalScore) && decide (j < i))) := by
  rw [Bool.eq_iff_iff]
  simp only [List.zipIdxLE, Bool.or_eq_true, Bool.and_eq_true, decide_eq_true_eq]
  by_cases h₁ : b.finalScore ≤ a.finalScore <;> by_cases h₂ : a.finalScore ≤ b.finalScore <;>
    simp [h₁, h₂] <;> omega

/-- Two results keep their order unless the second scores higher. -/
theorem byScore_pair (a b : RankedResult) :
    byScore [a, b] = if b.finalScore ≤ a.finalScore then [a, b] else [b, a] := by
  unfold byScore
  rw [List.mergeSort]
  simp [List.MergeSort.Internal.splitInTwo, List.merge]

/-- **Ordering by score puts a result at its place**: the `i`-th result stands, in the ordered
list, behind exactly the results `placedAhead` of it. -/
theorem byScore_getElem_place (l : List RankedResult) {i : Nat} (hi : i < l.length) :
    (byScore l)[place l i]? = some l[i] := by
  let S := l.zipIdx.mergeSort
    (List.zipIdxLE fun a b : RankedResult => decide (b.finalScore ≤ a.finalScore))
  have hmap : byScore l = S.map (·.1) := (List.mergeSort_zipIdx).symm
  have hperm : S.Perm l.zipIdx := List.mergeSort_perm _ _
  have hsorted : S.Pairwise (fun a b => List.zipIdxLE
      (fun a b : RankedResult => decide (b.finalScore ≤ a.finalScore)) a b = true) :=
    List.pairwise_mergeSort
      (List.zipIdxLE_trans (fun a b c hab hbc => by simp only [decide_eq_true_eq] at *; omega))
      (List.zipIdxLE_total (fun a b => by simp only [Bool.or_eq_true, decide_eq_true_eq]; omega))
      _
  have hnodup : (S.map (·.2)).Nodup := by
    rw [(hperm.map _).nodup_iff, List.zipIdx_map_snd, ← List.range_eq_range']
    exact List.nodup_range
  have hmem : (l[i], i) ∈ S := hperm.mem_iff.2 (List.mem_zipIdx_iff_getElem?.2 (by simp))
  obtain ⟨A, B, hS⟩ := List.append_of_mem hmem
  let P : RankedResult × Nat → Bool := fun y => List.zipIdxLE
    (fun a b : RankedResult => decide (b.finalScore ≤ a.finalScore)) y (l[i], i) && y.2 != i
  have hA : S.filter P = A := by
    rw [hS] at hsorted hnodup
    rw [List.pairwise_append, List.pairwise_cons] at hsorted
    rw [List.map_append, List.map_cons, List.nodup_append, List.nodup_cons] at hnodup
    rw [hS, List.filter_append, List.filter_cons, List.filter_eq_self.2, List.filter_eq_nil_iff.2]
    · simp [P]
    · rintro ⟨a, j⟩ hy
      have hyi : j ≠ i := fun h => hnodup.2.1.1 (List.mem_map.2 ⟨(a, j), hy, h⟩)
      have hxy := hsorted.2.1.1 (a, j) hy
      rw [zipIdxLE_byScore (Ne.symm hyi)] at hxy
      simp only [P, zipIdxLE_byScore hyi]
      simp only [Bool.or_eq_true, Bool.and_eq_true, decide_eq_true_eq, bne_iff_ne, ne_eq] at hxy ⊢
      omega
    · intro y hy
      have hyi : y.2 ≠ i := hnodup.2.2 y.2 (List.mem_map.2 ⟨y, hy, rfl⟩) i (List.mem_cons_self ..)
      simp [P, hsorted.2.2 y hy (l[i], i) (List.mem_cons_self ..), hyi]
  have hcount : (S.filter P).length = place l i := by
    rw [(hperm.filter P).length_eq, place, List.range_eq_range', ← List.zipIdx_map_snd,
      List.filter_map, List.length_map]
    congr 1
    apply List.filter_congr
    rintro ⟨a, j⟩ hmem
    have ha : l[j]? = some a := List.mem_zipIdx_iff_getElem?.1 hmem
    by_cases hji : j = i
    · subst hji
      simp [P, placedAhead, ha]
    · simp [P, placedAhead, ha, List.getElem?_eq_getElem hi, zipIdxLE_byScore hji, hji]
  rw [hmap, ← hcount, hA, hS, List.map_append, List.getElem?_append_right (by simp)]
  simp

/-- Fewer results placed ahead of the `i`-th means an earlier place. -/
theorem place_le_place {l l' : List RankedResult} {i : Nat} (hlen : l'.length = l.length)
    (h : ∀ j, placedAhead l' j i = true → placedAhead l j i = true) : place l' i ≤ place l i := by
  unfold place
  rw [hlen]
  exact (List.monotone_filter_right _ h).length_le

/-! ## Saturating sums -/

/-- A sum that saturated already is left alone by adding nothing. -/
theorem saturatingAdd_saturatingAdd_zero (a b : Int) :
    saturatingAdd (saturatingAdd a b) 0 = saturatingAdd a b := by
  simp only [saturatingAdd, wordMax, Nat.pow_eq, Nat.reducePow]
  omega

/-- A saturating sum grows with its second term. -/
theorem saturatingAdd_le_saturatingAdd {a b b' : Int} (h : b ≤ b') :
    saturatingAdd a b ≤ saturatingAdd a b' := by
  simp only [saturatingAdd, wordMax, Nat.pow_eq, Nat.reducePow]
  omega

/-! ## The results a merge orders -/

/-- The identity of a ranked result: its plugin and its key. -/
def RankedResult.identity (r : RankedResult) : ResultIdentity := r.item.identity r.pluginId

/-- A ranked result with a bonus added to its score, saturating. -/
def RankedResult.withBonus (r : RankedResult) (bonus : Int) : RankedResult :=
  { r with finalScore := saturatingAdd r.finalScore bonus }

@[simp] theorem RankedResult.identity_withBonus (r : RankedResult) (bonus : Int) :
    (r.withBonus bonus).identity = r.identity := rfl

/-- The results a merge orders: every result of the batches, in configuration order, scored with
a history bonus. -/
def scored (batches : List Batch) (q : Query) (s : Snapshot) (boost : ResultIdentity → Int) :
    List RankedResult :=
  (orderBatches s batches).flatMap (scoreBatch s q boost)

/-- A merge's full list is its scored results, ordered by score. -/
theorem full_merge (batches : List Batch) (q : Query) (s : Snapshot)
    (boost : ResultIdentity → Int) (m : Nat) :
    (merge batches q s boost m).full = byScore (scored batches q s boost) := rfl

/-- **A merged result at its place**: the `i`-th scored result stands at its place in the full
list of the merge. -/
theorem full_merge_place (batches : List Batch) (q : Query) (s : Snapshot)
    (boost : ResultIdentity → Int) (m : Nat) {i : Nat} (hi : i < (scored batches q s boost).length) :
    (merge batches q s boost m).full[place (scored batches q s boost) i]? =
      some (scored batches q s boost)[i] :=
  byScore_getElem_place _ hi

/-- **How the history enters a merge**: each result is scored without history, and its history
bonus is then added, saturating. -/
theorem scored_boost (batches : List Batch) (q : Query) (s : Snapshot)
    (boost : ResultIdentity → Int) :
    scored batches q s boost =
      (scored batches q s fun _ => 0).map fun r => r.withBonus (boost r.identity) := by
  simp only [scored, List.map_flatMap]
  congr 1
  funext b
  simp only [scoreBatch, List.map_map]
  congr 1
  funext item
  simp [RankedResult.withBonus, RankedResult.identity, saturatingAdd_saturatingAdd_zero]

/-! ## Batches in any order -/

/-- A merge takes batches in configuration order, then by plugin id. -/
theorem orderBatches_pairwise_le (s : Snapshot) (bs : List Batch) :
    (orderBatches s bs).Pairwise fun a b => s.orderOf a.pluginId < s.orderOf b.pluginId ∨
      s.orderOf a.pluginId = s.orderOf b.pluginId ∧ a.pluginId ≤ b.pluginId := by
  let le : Batch → Batch → Bool := fun a b =>
    s.orderOf a.pluginId < s.orderOf b.pluginId ||
      (s.orderOf a.pluginId == s.orderOf b.pluginId && decide (a.pluginId ≤ b.pluginId))
  have hle : ∀ a b, le a b = true ↔ s.orderOf a.pluginId < s.orderOf b.pluginId ∨
      s.orderOf a.pluginId = s.orderOf b.pluginId ∧ a.pluginId ≤ b.pluginId := by
    intro a b
    simp [le]
  have htrans : ∀ a b c, le a b = true → le b c = true → le a c = true := by
    intro a b c hab hbc
    rw [hle] at hab hbc ⊢
    rcases hab with h | ⟨h, h'⟩ <;> rcases hbc with h₂ | ⟨h₂, h₂'⟩
    · exact .inl (Nat.lt_trans h h₂)
    · exact .inl (h₂ ▸ h)
    · exact .inl (h ▸ h₂)
    · exact .inr ⟨h.trans h₂, le_trans h' h₂'⟩
  have htotal : ∀ a b, (le a b || le b a) = true := by
    intro a b
    rw [Bool.or_eq_true, hle, hle]
    rcases Nat.lt_trichotomy (s.orderOf a.pluginId) (s.orderOf b.pluginId) with h | h | h
    · exact .inl (.inl h)
    · rcases le_total a.pluginId b.pluginId with h' | h'
      · exact .inl (.inr ⟨h, h'⟩)
      · exact .inr (.inr ⟨h.symm, h'⟩)
    · exact .inr (.inl h)
  exact (List.pairwise_mergeSort htrans htotal bs).imp fun h => (hle _ _).1 h

/-- The order a merge takes batches in (configuration order, then plugin id) puts batches of
distinct plugins in one order only, whatever order they came in. -/
theorem orderBatches_perm (s : Snapshot) {bs bs' : List Batch} (hp : bs.Perm bs')
    (hn : (bs.map (·.pluginId)).Nodup) : orderBatches s bs = orderBatches s bs' := by
  have hanti : ∀ a b, a ∈ orderBatches s bs → b ∈ orderBatches s bs' →
      (s.orderOf a.pluginId < s.orderOf b.pluginId ∨
        s.orderOf a.pluginId = s.orderOf b.pluginId ∧ a.pluginId ≤ b.pluginId) →
      (s.orderOf b.pluginId < s.orderOf a.pluginId ∨
        s.orderOf b.pluginId = s.orderOf a.pluginId ∧ b.pluginId ≤ a.pluginId) → a = b := by
    intro a b ha hb hab hba
    have hid : a.pluginId = b.pluginId := by
      rcases hab with h | ⟨h, h'⟩ <;> rcases hba with h₂ | ⟨h₂, h₂'⟩
      · omega
      · omega
      · omega
      · exact le_antisymm h' h₂'
    exact List.inj_on_of_nodup_map hn ((List.mergeSort_perm bs _).mem_iff.1 ha)
      (hp.mem_iff.2 ((List.mergeSort_perm bs' _).mem_iff.1 hb)) hid
  exact List.Perm.eq_of_pairwise hanti (orderBatches_pairwise_le s bs)
    (orderBatches_pairwise_le s bs')
    (((List.mergeSort_perm bs _).trans hp).trans (List.mergeSort_perm bs' _).symm)

/-- **A merge does not depend on the order batches arrive in**, as long as they are of distinct
plugins. -/
theorem merge_perm {bs bs' : List Batch} (hp : bs.Perm bs') (hn : (bs.map (·.pluginId)).Nodup)
    (q : Query) (s : Snapshot) (boost : ResultIdentity → Int) (m : Nat) :
    merge bs q s boost m = merge bs' q s boost m := by
  simp only [merge, orderBatches_perm s hp hn]

/-! ## Raising one bonus -/

section Bonus

variable {L : List RankedResult} {B B' : ResultIdentity → Int} {id : ResultIdentity}

/-- Raising the bonus of an identity raises the score of each of its results. -/
theorem finalScore_le_of_bonus (hup : B id ≤ B' id) {r : RankedResult} (hr : r.identity = id) :
    (r.withBonus (B r.identity)).finalScore ≤ (r.withBonus (B' r.identity)).finalScore := by
  subst hr
  exact saturatingAdd_le_saturatingAdd hup

/-- **Raising one bonus and lowering the others**: a result of another identity that is placed
ahead of a result of the raised identity afterwards was placed ahead of it before. -/
theorem placedAhead_of_bonus (hup : B id ≤ B' id) (hdown : ∀ id', id' ≠ id → B' id' ≤ B id')
    {i j : Nat} {ri rj : RankedResult} (hri : L[i]? = some ri) (hrj : L[j]? = some rj)
    (hi : ri.identity = id) (hj : rj.identity ≠ id)
    (h : placedAhead (L.map fun r => r.withBonus (B' r.identity)) j i = true) :
    placedAhead (L.map fun r => r.withBonus (B r.identity)) j i = true := by
  have hsi := finalScore_le_of_bonus hup hi
  have hsj : (rj.withBonus (B' rj.identity)).finalScore ≤ (rj.withBonus (B rj.identity)).finalScore :=
    saturatingAdd_le_saturatingAdd (hdown _ hj)
  simp only [placedAhead, List.getElem?_map, hri, hrj, Option.map_some, Bool.or_eq_true,
    Bool.and_eq_true, decide_eq_true_eq] at h ⊢
  omega

end Bonus

end Launcher
