import Launcher.Proofs.Registry.Invariant

/-!
# Which plugins no query reaches

The registry reports as inaccessible the enabled plugins that are neither global nor have a
scoped keyword. Whether a query reaches a plugin is decided elsewhere, by the parser and the
target rule: a global plugin takes every query that is not skipped as blank, and a keyword plugin
takes the queries whose first word is its keyword. The two views are compared here over every raw
text and every dispatch option. They part on one kind of plugin: the parser only ever adopts the
first blank-free word of a text, so a keyword that holds a blank (`"a b"`) is never matched, while
the report counts it as a way in.

* `Text.exists_head_words_iff` — some text begins with the word `k` exactly when `k` is not empty
  and holds no blank;
* `PluginMetadata.exists_addressedBy_iff` — some text, under some options, addresses a plugin
  exactly when it is global or its keyword is such a word;
* `Registry.mem_targets_iff`, `Registry.mem_inaccessible_iff` — under distinct ids, the targets
  and the report speak of a plugin's entry through its id;
* `Registry.unreachable_iff` — an enabled, ready plugin is out of every query's reach exactly
  when it is reported, or when it is not global and its keyword holds a blank.
-/

namespace Launcher

open Text

namespace Text

/-- **Some text begins with the word `k`** exactly when `k` is not empty and holds no blank: the
first word of a text is a blank-free run, and a blank-free `k` is its own first word. -/
theorem exists_head_words_iff (k : String) :
    (∃ raw, (words raw).head? = some k) ↔ k ≠ "" ∧ ∀ c ∈ k.toList, isBlank c = false := by
  constructor
  · rintro ⟨raw, h⟩
    rw [head_words] at h
    split at h
    · cases h
    · rename_i hblank
      obtain rfl := Option.some.inj h
      refine ⟨?_, fun c hc => ?_⟩
      · rw [ne_eq, String.ofList_eq_empty_iff, breakAtBlank_trim_eq_nil_iff]
        exact hblank
      · rw [String.toList_ofList, breakAtBlank_trim] at hc
        have hnot := List.mem_takeWhile_imp hc
        rwa [Bool.not_eq_true'] at hnot
  · rintro ⟨hne, hword⟩
    refine ⟨k, ?_⟩
    have hdrop : k.toList.dropWhile isBlank = k.toList :=
      List.dropWhile_eq_self_iff.2 fun hl h => by
        rw [hword _ (List.getElem_mem hl)] at h
        cases h
    have htake : k.toList.takeWhile (fun c => !isBlank c) = k.toList :=
      List.takeWhile_eq_self_iff.2 fun c hc => by rw [hword c hc]; rfl
    have htrim : trim k ≠ "" := by
      rw [ne_eq, trim_eq_empty_iff, hdrop, String.toList_eq_nil_iff]
      exact hne
    rw [head_words, if_neg htrim, breakAtBlank_trim, hdrop, htake, String.ofList_toList]

end Text

namespace PluginMetadata

/-- **Some text, under some options, addresses a plugin** exactly when the plugin is global or
its keyword is a blank-free word. -/
theorem exists_addressedBy_iff (m : PluginMetadata) :
    (∃ raw o, m.addressedBy raw o = true) ↔
      m.isGlobal = true ∨ ∃ k, m.scopedKeyword = some k ∧ ∀ c ∈ k.toList, isBlank c = false := by
  constructor
  · rintro ⟨raw, o, h⟩
    simp only [addressedBy, Bool.or_eq_true, Bool.and_eq_true] at h
    rcases h with ⟨hg, -⟩ | ⟨hs, heq⟩
    · exact .inl hg
    · obtain ⟨k, hk⟩ := Option.isSome_iff_exists.1 hs
      rw [hk, beq_iff_eq] at heq
      exact .inr ⟨k, hk, ((Text.exists_head_words_iff k).1 ⟨raw, heq.symm⟩).2⟩
  · rintro (hg | ⟨k, hk, hword⟩)
    · exact ⟨"", { skipEmptyGlobalQuery := false }, by simp [addressedBy, hg]⟩
    · obtain ⟨raw, hraw⟩ :=
        (Text.exists_head_words_iff k).2 ⟨(scopedKeyword_eq_some hk).1, hword⟩
      exact ⟨raw, {}, by simp [addressedBy, hk, hraw]⟩

/-- Inaccessible metadata: enabled, not global, and without a scoped keyword. -/
theorem inaccessible_eq_true_iff (m : PluginMetadata) :
    m.inaccessible = true ↔ m.disabled = false ∧ m.isGlobal = false ∧ m.scopedKeyword = none := by
  simp [inaccessible, Option.isNone_iff_eq_none, and_assoc]

end PluginMetadata

namespace Registry

variable {r : Registry} {e : Entry}

/-- Under distinct ids, an enabled, ready plugin is among the targets of a text exactly when the
text addresses it. -/
theorem mem_targets_iff (hn : r.ids.Nodup) (he : e ∈ r.entries)
    (hd : e.metadata.disabled = false) (hr : e.state.isReady = true) (raw : String)
    (o : DispatchOptions) :
    e.metadata.id ∈ (r.snapshot.targets (r.snapshot.parse raw) o).map (·.metadata.id) ↔
      e.metadata.addressedBy raw o = true := by
  rw [targets_parse]
  constructor
  · intro h
    obtain ⟨l, hl, hid⟩ := List.mem_map.1 h
    obtain ⟨e', he', hm, -, -, ha⟩ := mem_routed hl
    have hsame : e' = e := List.inj_on_of_nodup_map hn he' he (by simp [← hm, hid])
    rw [← hsame]
    exact ha
  · intro ha
    obtain ⟨i, hi⟩ := List.mem_iff_getElem?.1 he
    refine List.mem_map.2 ⟨⟨e.metadata, i⟩, List.mem_filterMap.2
      ⟨(e, i), List.mem_zipIdx_iff_getElem?.2 hi, by simp [hd, hr, ha]⟩, rfl⟩

/-- Under distinct ids, a plugin is reported as inaccessible exactly when its metadata is. -/
theorem mem_inaccessible_iff (hn : r.ids.Nodup) (he : e ∈ r.entries) :
    e.metadata.id ∈ r.inaccessible ↔ e.metadata.inaccessible = true := by
  simp only [inaccessible, List.mem_map, List.mem_filter]
  constructor
  · rintro ⟨e', ⟨he', hi⟩, hid⟩
    rwa [← List.inj_on_of_nodup_map hn he' he hid]
  · intro hi
    exact ⟨e, ⟨he, hi⟩, rfl⟩

/-- **Which plugins no query reaches.** Under distinct ids, an enabled, ready plugin is among the
targets of no text under no dispatch options exactly when the registry reports it as
inaccessible, or when it is not global and its keyword holds a blank: only the first blank-free
word of a text is ever read as a keyword, so such a keyword opens no way in, yet the report
counts it as one. -/
theorem unreachable_iff (hn : r.ids.Nodup) (he : e ∈ r.entries)
    (hd : e.metadata.disabled = false) (hr : e.state.isReady = true) :
    (¬ ∃ raw o,
        e.metadata.id ∈ (r.snapshot.targets (r.snapshot.parse raw) o).map (·.metadata.id)) ↔
      e.metadata.id ∈ r.inaccessible ∨
        (e.metadata.isGlobal = false ∧
          ∃ k, e.metadata.scopedKeyword = some k ∧ ∃ c ∈ k.toList, isBlank c = true) := by
  simp only [mem_targets_iff hn he hd hr, PluginMetadata.exists_addressedBy_iff,
    mem_inaccessible_iff hn he, PluginMetadata.inaccessible_eq_true_iff, hd]
  cases e.metadata.isGlobal <;> cases e.metadata.scopedKeyword <;> simp

/-- A ready plugin whose keyword is `a b`: no text reaches it, and it is not reported. -/
theorem spaced_keyword_unreported :
    let e : Entry := ⟨{ id := "p", actionKeyword := "a b" }, .ready⟩
    let r : Registry := ⟨[e]⟩
    r.ids.Nodup ∧ e ∈ r.entries ∧ e.metadata.disabled = false ∧ e.state.isReady = true ∧
      e.metadata.id ∉ r.inaccessible ∧
      ¬ ∃ raw o,
        e.metadata.id ∈ (r.snapshot.targets (r.snapshot.parse raw) o).map (·.metadata.id) := by
  intro e r
  have hn : r.ids.Nodup := List.nodup_singleton _
  have he : e ∈ r.entries := List.mem_singleton_self e
  have hk : e.metadata.scopedKeyword = some "a b" := by decide
  refine ⟨hn, he, rfl, rfl, ?_, (unreachable_iff hn he rfl rfl).2
    (.inr ⟨rfl, "a b", hk, ' ', by simp, by decide⟩)⟩
  rw [mem_inaccessible_iff hn he, PluginMetadata.inaccessible_eq_true_iff, hk]
  simp

end Registry

end Launcher
