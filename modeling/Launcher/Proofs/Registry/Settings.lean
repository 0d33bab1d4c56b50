import Mathlib.Data.List.Induction
import Launcher.Proofs.Registry.Invariant

/-!
# Applying settings

`Registry.applySettings` overrides the metadata of every configured plugin and adopts the
configuration's order. Settings may name ids that are not installed and may name one id several
times; the two halves of the call read such lists differently, the overrides by the last
setting for an id and the order by the first:

* `Registry.configure_eq` — an entry ends with the overrides of the last setting for its id,
  and is left alone when no setting names it;
* `Registry.applySettings_eq_first_match` — under distinct ids, the same as a loop over the
  settings that changes the first entry of each one's id;
* `Registry.rankIn_lt_length_iff` — an id's rank is below the number of settings exactly when a
  setting names it;
* `Registry.eq_named_append_unnamed`, `Registry.filter_unnamed_applySettings` — the sort puts
  the named entries first, by the first setting for each id, and keeps the others in their old
  order, since the sort is stable and they share the last rank;
* `Registry.applySettings_applySettings` — applying the same settings again changes nothing;
* `Registry.applySettings_reorders_and_updates` — all of it together.
-/

namespace Launcher.Registry

open Text

section Settings

variable {S : List PluginSettings}

/-! ## Overrides: the last setting wins -/

/-- A setting sets the same four fields whatever set them before. -/
theorem overridden_overridden (m : PluginMetadata) (s s' : PluginSettings) :
    overridden (overridden m s) s' = overridden m s' := by
  simp only [overridden]

/-- Configuring by one more setting applies it to the entry configured so far. -/
theorem configure_append_singleton (S : List PluginSettings) (s : PluginSettings) (e : Entry) :
    Entry.configure (S ++ [s]) e =
      if s.id == (Entry.configure S e).metadata.id then
        { Entry.configure S e with metadata := overridden (Entry.configure S e).metadata s }
      else Entry.configure S e := by
  rw [Entry.configure, List.foldl_append]
  rfl

/-- **The last setting wins.** An entry configured by settings carries the overrides of the last
setting for its id, and is left alone when no setting names it. -/
theorem configure_eq (S : List PluginSettings) (e : Entry) :
    Entry.configure S e =
      ((S.reverse.find? (·.id == e.metadata.id)).map fun s =>
        { e with metadata := overridden e.metadata s }).getD e := by
  induction S using List.reverseRecOn with
  | nil => rfl
  | append_singleton S s ih =>
    rw [configure_append_singleton, id_configure, List.reverse_append, List.reverse_singleton,
      List.singleton_append, List.find?_cons]
    cases hs : (s.id == e.metadata.id) with
    | true =>
      rw [if_pos rfl, ih]
      cases S.reverse.find? (·.id == e.metadata.id) <;> simp [overridden_overridden]
    | false => rw [if_neg Bool.false_ne_true, ih]

/-- Settings that name none of an entry's id leave it alone. -/
theorem configure_of_not_mem {e : Entry} (h : ∀ s ∈ S, s.id ≠ e.metadata.id) :
    Entry.configure S e = e := by
  have hnone : S.reverse.find? (·.id == e.metadata.id) = none :=
    List.find?_eq_none.2 fun s hs => by simpa using h s (List.mem_reverse.1 hs)
  rw [configure_eq, hnone]
  rfl

/-- Settings that name an entry's id once override it with that setting. -/
theorem configure_of_mem (hS : (S.map (·.id)).Nodup) {p : PluginSettings} (hp : p ∈ S)
    {e : Entry} (hid : p.id = e.metadata.id) :
    Entry.configure S e = { e with metadata := overridden e.metadata p } := by
  induction S generalizing e with
  | nil => cases hp
  | cons s ss ih =>
    rw [List.map_cons, List.nodup_cons] at hS
    simp only [Entry.configure, List.foldl_cons] at ih ⊢
    by_cases hs : s.id = e.metadata.id
    · have hsp : s = p := by
        rcases List.mem_cons.1 hp with rfl | hp'
        · rfl
        · exact absurd (List.mem_map.2 ⟨p, hp', hid.trans hs.symm⟩) hS.1
      subst hsp
      rw [if_pos (beq_iff_eq.2 hs)]
      apply configure_of_not_mem
      intro s' hs' heq
      exact hS.1 (List.mem_map.2 ⟨s', hs', heq.trans (by simp only [overridden]; exact hs.symm)⟩)
    · rw [if_neg (by simpa using hs)]
      rcases List.mem_cons.1 hp with rfl | hp'
      · exact absurd hid hs
      · exact ih hS.2 hp' hid

/-- Settings change an entry's metadata only. -/
theorem state_configure (S : List PluginSettings) (e : Entry) :
    (Entry.configure S e).state = e.state := by
  rw [configure_eq]
  cases S.reverse.find? (·.id == e.metadata.id) <;> simp

/-- Configuring twice by the same settings is configuring once. -/
theorem configure_configure (S : List PluginSettings) (e : Entry) :
    Entry.configure S (Entry.configure S e) = Entry.configure S e := by
  rw [configure_eq S (Entry.configure S e), id_configure, configure_eq S e]
  cases S.reverse.find? (·.id == e.metadata.id) <;> simp [overridden_overridden]

/-- Apply one setting to the first entry of its id, as a loop over the settings that searches
for each one's entry does; a setting for an id no entry has changes nothing. -/
def configureFirst : List Entry → PluginSettings → List Entry
  | [], _ => []
  | e :: rest, s =>
    if s.id == e.metadata.id then { e with metadata := overridden e.metadata s } :: rest
    else e :: configureFirst rest s

theorem ids_configureFirst (s : PluginSettings) :
    ∀ l : List Entry, (configureFirst l s).map (·.metadata.id) = l.map (·.metadata.id)
  | [] => rfl
  | e :: rest => by
    rw [configureFirst]
    split
    · simp [overridden]
    · rw [List.map_cons, List.map_cons, ids_configureFirst s rest]

/-- Under distinct ids, applying a setting to the first entry of its id applies it to every
entry of its id. -/
theorem configureFirst_eq_map (s : PluginSettings) :
    ∀ {l : List Entry}, (l.map (·.metadata.id)).Nodup →
      configureFirst l s = l.map fun e =>
        if s.id == e.metadata.id then { e with metadata := overridden e.metadata s } else e
  | [], _ => rfl
  | e :: rest, hn => by
    rw [List.map_cons, List.nodup_cons] at hn
    rw [configureFirst, List.map_cons]
    by_cases hid : s.id = e.metadata.id
    · have hrest : ∀ e' ∈ rest, (s.id == e'.metadata.id) = false := fun e' he' =>
        beq_eq_false_iff_ne.2 fun heq => hn.1 (hid ▸ heq ▸ List.mem_map_of_mem he')
      rw [if_pos (beq_iff_eq.2 hid), if_pos (beq_iff_eq.2 hid)]
      congr 1
      conv_lhs => rw [← List.map_id rest]
      exact List.map_congr_left fun e' he' => by rw [hrest e' he', if_neg Bool.false_ne_true]; rfl
    · rw [if_neg (by simpa using hid), if_neg (by simpa using hid), configureFirst_eq_map s hn.2]

/-- Under distinct ids, the settings applied one by one, each to the first entry of its id,
configure every entry with all the settings of its id. -/
theorem foldl_configureFirst (S : List PluginSettings) :
    ∀ {l : List Entry}, (l.map (·.metadata.id)).Nodup →
      S.foldl configureFirst l = l.map (Entry.configure S) := by
  induction S with
  | nil =>
    intro l _
    have hid : Entry.configure [] = id := funext fun _ => rfl
    rw [List.foldl_nil, hid, List.map_id]
  | cons s S ih =>
    intro l hn
    rw [List.foldl_cons, ih (by rwa [ids_configureFirst]), configureFirst_eq_map s hn, List.map_map]
    rfl

/-! ## Order: the first setting places -/

/-- The rank of an id among settings: a setting's place when it is the first to name it. -/
theorem rankIn_cons (s : PluginSettings) (ss : List PluginSettings) (id : String) :
    rankIn (s :: ss) id = if s.id = id then 0 else rankIn ss id + 1 := by
  unfold rankIn
  rw [List.findIdx?_cons]
  by_cases h : s.id = id
  · simp [h]
  · cases ss.findIdx? (·.id == id) <;> simp [h]

/-- Settings that name each id once rank their ids in their own order. -/
theorem pairwise_rankIn (hS : (S.map (·.id)).Nodup) :
    (S.map (·.id)).Pairwise fun a b => rankIn S a < rankIn S b := by
  induction S with
  | nil => exact List.Pairwise.nil
  | cons s ss ih =>
    rw [List.map_cons, List.nodup_cons] at hS
    rw [List.map_cons, List.pairwise_cons]
    refine ⟨fun b hb => ?_, (ih hS.2).imp_of_mem fun ha hb hab => ?_⟩
    · have hne : s.id ≠ b := fun h : s.id = b => hS.1 (h ▸ hb)
      rw [rankIn_cons, rankIn_cons, if_pos rfl, if_neg hne]
      omega
    · rw [rankIn_cons, rankIn_cons, if_neg fun h : s.id = _ => hS.1 (h ▸ ha),
        if_neg fun h : s.id = _ => hS.1 (h ▸ hb)]
      omega

/-- Ids that settings name have distinct ranks. -/
theorem eq_of_rankIn_eq {a b : String} (ha : a ∈ S.map (·.id)) (hb : b ∈ S.map (·.id))
    (h : rankIn S a = rankIn S b) : a = b := by
  induction S with
  | nil => cases ha
  | cons s ss ih =>
    rw [rankIn_cons, rankIn_cons] at h
    rw [List.map_cons, List.mem_cons] at ha hb
    by_cases hsa : s.id = a <;> by_cases hsb : s.id = b
    · exact hsa.symm.trans hsb
    · rw [if_pos hsa, if_neg hsb] at h
      omega
    · rw [if_neg hsa, if_pos hsb] at h
      omega
    · rw [if_neg hsa, if_neg hsb] at h
      exact ih (ha.resolve_left (Ne.symm hsa)) (hb.resolve_left (Ne.symm hsb)) (by omega)

/-- An id's rank is below the number of settings exactly when a setting names it. -/
theorem rankIn_lt_length_iff (id : String) : rankIn S id < S.length ↔ id ∈ S.map (·.id) := by
  induction S with
  | nil => simp [rankIn]
  | cons s ss ih =>
    rw [rankIn_cons, List.length_cons, List.map_cons, List.mem_cons]
    by_cases h : s.id = id
    · simp [h]
    · rw [if_neg h, Nat.add_lt_add_iff_right, ih]
      exact ⟨.inr, fun h' => h'.resolve_left (Ne.symm h)⟩

/-- An id no setting names has the last rank. -/
theorem rankIn_of_not_mem {id : String} (h : id ∉ S.map (·.id)) : rankIn S id = S.length := by
  unfold rankIn
  rw [List.findIdx?_eq_none_iff.2 fun s hs => by
    simpa using fun heq : s.id = id => h (List.mem_map.2 ⟨s, hs, heq⟩)]
  rfl

/-- Two entries in the order settings give them: by the first setting for each id. -/
def rankLE (S : List PluginSettings) (a b : Entry) : Bool :=
  decide (rankIn S a.metadata.id ≤ rankIn S b.metadata.id)

@[simp]
theorem rankLE_eq_true (a b : Entry) :
    rankLE S a b = true ↔ rankIn S a.metadata.id ≤ rankIn S b.metadata.id :=
  decide_eq_true_iff

theorem rankLE_trans (a b c : Entry) (hab : rankLE S a b = true) (hbc : rankLE S b c = true) :
    rankLE S a c = true := by
  rw [rankLE_eq_true] at *
  omega

theorem rankLE_total (a b : Entry) : (rankLE S a b || rankLE S b a) = true := by
  rw [Bool.or_eq_true, rankLE_eq_true, rankLE_eq_true]
  omega

/-- The entries of a registry with settings applied: the configured entries, sorted by rank. -/
theorem entries_applySettings (r : Registry) (S : List PluginSettings) :
    (r.applySettings S).entries = (r.entries.map (Entry.configure S)).mergeSort (rankLE S) := rfl

/-- **Under distinct ids, settings applied as a loop**, each changing the first entry of its id,
followed by the sort by rank, give the entries `applySettings` gives. -/
theorem applySettings_eq_first_match {r : Registry} (hn : r.ids.Nodup) (S : List PluginSettings) :
    (r.applySettings S).entries = (S.foldl configureFirst r.entries).mergeSort (rankLE S) := by
  rw [foldl_configureFirst S hn]
  rfl

/-- Entries sorted by rank list the named ones first: an unnamed entry has the last rank, so
only unnamed entries follow it. -/
theorem eq_named_append_unnamed {l : List Entry}
    (hl : l.Pairwise fun a b => rankIn S a.metadata.id ≤ rankIn S b.metadata.id) :
    l = l.filter (fun e => e.metadata.id ∈ S.map (·.id)) ++
      l.filter (fun e => e.metadata.id ∉ S.map (·.id)) := by
  induction l with
  | nil => rfl
  | cons x l ih =>
    rw [List.pairwise_cons] at hl
    by_cases hx : x.metadata.id ∈ S.map (·.id)
    · rw [List.filter_cons_of_pos (by simpa using hx), List.filter_cons_of_neg (by simpa using hx),
        List.cons_append, ← ih hl.2]
    · have hrest : ∀ y ∈ l, y.metadata.id ∉ S.map (·.id) := by
        intro y hy hy'
        have hxy := hl.1 y hy
        have hlt := (rankIn_lt_length_iff _).2 hy'
        rw [rankIn_of_not_mem hx] at hxy
        omega
      rw [List.filter_cons_of_neg (by simpa using hx), List.filter_cons_of_pos (by simpa using hx),
        List.filter_eq_nil_iff.2 fun y hy => by simpa using hrest y hy,
        List.filter_eq_self.2 fun y hy => by simpa using hrest y hy, List.nil_append]

/-- The configured entries, sorted by rank. -/
theorem pairwise_applySettings (r : Registry) (S : List PluginSettings) :
    (r.applySettings S).entries.Pairwise fun a b =>
      rankIn S a.metadata.id ≤ rankIn S b.metadata.id := by
  rw [entries_applySettings]
  exact (List.pairwise_mergeSort rankLE_trans rankLE_total _).imp (rankLE_eq_true _ _).1

/-- **Unnamed entries keep their order.** They are left alone by the overrides and share the
last rank, so the stable sort keeps them as they were. -/
theorem filter_unnamed_applySettings (r : Registry) (S : List PluginSettings) :
    (r.applySettings S).entries.filter (fun e => e.metadata.id ∉ S.map (·.id)) =
      r.entries.filter (fun e => e.metadata.id ∉ S.map (·.id)) := by
  have hconf : (r.entries.map (Entry.configure S)).filter
      (fun e => e.metadata.id ∉ S.map (·.id)) =
        r.entries.filter (fun e => e.metadata.id ∉ S.map (·.id)) := by
    rw [List.filter_map]
    have hp : ((fun e : Entry => decide (e.metadata.id ∉ S.map (·.id))) ∘ Entry.configure S) =
        fun e => decide (e.metadata.id ∉ S.map (·.id)) := by
      funext e
      simp [id_configure]
    rw [hp]
    refine (List.map_congr_left fun e he => ?_).trans (List.map_id _)
    have hu : e.metadata.id ∉ S.map (·.id) := by simpa using (List.mem_filter.1 he).2
    exact configure_of_not_mem fun s hs heq => hu (List.mem_map.2 ⟨s, hs, heq⟩)
  have hpair : (r.entries.filter (fun e => e.metadata.id ∉ S.map (·.id))).Pairwise
      fun a b => rankLE S a b = true := by
    refine List.Pairwise.imp_of_mem (R := fun _ _ => True) (fun ha hb _ => ?_)
      (List.pairwise_of_forall fun _ _ => trivial)
    rw [rankLE_eq_true, rankIn_of_not_mem (by simpa using (List.mem_filter.1 ha).2),
      rankIn_of_not_mem (by simpa using (List.mem_filter.1 hb).2)]
  have hsub₀ : List.Sublist (r.entries.filter (fun e => e.metadata.id ∉ S.map (·.id)))
      (r.entries.map (Entry.configure S)) := by
    rw [← hconf]
    exact List.filter_sublist
  have hsub := (List.sublist_mergeSort rankLE_trans rankLE_total hpair hsub₀).filter
    (fun e => e.metadata.id ∉ S.map (·.id))
  rw [List.filter_eq_self.2 fun e he => (List.mem_filter.1 he).2, ← entries_applySettings] at hsub
  have hperm := ((List.mergeSort_perm _ (rankLE S)).filter
    (fun e => e.metadata.id ∉ S.map (·.id))).trans (.of_eq hconf)
  rw [← entries_applySettings] at hperm
  exact (hsub.eq_of_length hperm.length_eq.symm).symm

/-- **Applying the same settings again changes nothing**: the entries are configured already,
and sorted already. -/
theorem applySettings_applySettings (r : Registry) (S : List PluginSettings) :
    (r.applySettings S).applySettings S = r.applySettings S := by
  have hmap : (r.applySettings S).entries.map (Entry.configure S) = (r.applySettings S).entries := by
    refine (List.map_congr_left fun x hx => ?_).trans (List.map_id _)
    obtain ⟨e, -, rfl⟩ := List.mem_map.1 ((List.mergeSort_perm _ (rankLE S)).mem_iff.1 hx)
    exact configure_configure S e
  have hsorted : (r.applySettings S).entries.mergeSort (rankLE S) = (r.applySettings S).entries := by
    have hpair : (r.applySettings S).entries.Pairwise fun a b => rankLE S a b = true :=
      (pairwise_applySettings r S).imp (rankLE_eq_true _ _).2
    exact ((List.sublist_mergeSort rankLE_trans rankLE_total hpair (List.Sublist.refl _)).eq_of_length
      (List.mergeSort_perm _ _).length_eq.symm).symm
  calc (r.applySettings S).applySettings S
      = ⟨((r.applySettings S).entries.map (Entry.configure S)).mergeSort (rankLE S)⟩ := rfl
    _ = ⟨(r.applySettings S).entries⟩ := by rw [hmap, hsorted]

/-- **Settings reorder and update the registry as documented.** The entries are the old ones,
each configured, so ids and states stay; the entries that settings name come first, ranked by
the first setting for each id, and the others follow in their old order, unchanged; a named
entry's keyword (trimmed), global flag, boost and disabled flag come from the last setting for
its id and its other fields stay; and applying the same settings again changes nothing. -/
theorem applySettings_reorders_and_updates (r : Registry) (S : List PluginSettings) :
    (r.applySettings S).entries.Perm (r.entries.map (Entry.configure S)) ∧
      (r.applySettings S).entries =
        (r.applySettings S).entries.filter (fun e => e.metadata.id ∈ S.map (·.id)) ++
          r.entries.filter (fun e => e.metadata.id ∉ S.map (·.id)) ∧
      ((r.applySettings S).entries.filter (fun e => e.metadata.id ∈ S.map (·.id))).Pairwise
        (fun a b => rankIn S a.metadata.id ≤ rankIn S b.metadata.id) ∧
      (∀ e, (Entry.configure S e).state = e.state ∧
        ∀ s, S.reverse.find? (·.id == e.metadata.id) = some s →
          (Entry.configure S e).metadata = { e.metadata with
            actionKeyword := trim s.actionKeyword, isGlobal := s.isGlobal,
            weightBoost := s.weightBoost, disabled := s.disabled }) ∧
      (∀ e, e.metadata.id ∉ S.map (·.id) → Entry.configure S e = e) ∧
      (r.applySettings S).applySettings S = r.applySettings S := by
  have hsorted := pairwise_applySettings r S
  refine ⟨List.mergeSort_perm _ _, ?_, List.Pairwise.filter _ hsorted, fun e => ⟨state_configure S e,
    fun s hs => by rw [configure_eq, hs]; simp [overridden]⟩,
    fun e he => configure_of_not_mem fun s hs heq => he (List.mem_map.2 ⟨s, hs, heq⟩),
    applySettings_applySettings r S⟩
  conv_lhs => rw [eq_named_append_unnamed hsorted]
  rw [filter_unnamed_applySettings]

end Settings

end Launcher.Registry
