import Mathlib.Data.List.Basic
import Mathlib.Data.List.TakeWhile
import Launcher.Registry
import Launcher.Proofs.Text.Words

/-!
# Where a query goes

A query is read against the keywords of the registry's snapshot, and then sent to the snapshot's
plugins that take it. Three pieces meet here: the keywords every enabled plugin contributes, the
parser's rule that only the first word of the text can be a keyword, and the target rule's four
cases. With the first word of a text (`Text.head_words`), they say that a text reaches exactly
the plugins it addresses:

* `Registry.mem_keywords_snapshot` — the snapshot's keywords are the scoped keywords of the
  enabled plugins, in whatever state;
* `Query.parse_of_keywordOf_some`, `Query.parse_of_keywordOf_none` — a text is scoped to its
  first word when that is a known keyword other than the wildcard, and is otherwise searched for
  as a whole;
* `Registry.targets_parse` — the targets of a text are the enabled, ready entries, in
  configuration order, that the text addresses (`PluginMetadata.addressedBy`): global ones unless
  the text is blank and blank queries are skipped, and those whose keyword is the first word;
* `Registry.targets_of_raw_text` — with its two consequences: no disabled plugin is a target, and
  a first word that is no enabled plugin's keyword reaches only global plugins.
-/

namespace Launcher

open Text

/-! ## The keywords of a snapshot -/

namespace Registry

/-- Inserting a keyword into the sorted keywords adds just that keyword. -/
theorem mem_insertKeyword (k x : String) :
    ∀ ks : List String, x ∈ insertKeyword k ks ↔ x = k ∨ x ∈ ks
  | [] => by simp [insertKeyword]
  | y :: ys => by
    unfold insertKeyword
    split
    · simp
    · split
      · rename_i hky
        have hky : k = y := by simpa using hky
        subst hky
        simp
      · simp only [List.mem_cons, mem_insertKeyword k x ys]
        exact or_left_comm

/-- Gathering keywords entry by entry, where each entry adds at most its own scoped keyword when
enabled, keeps those gathered and adds the scoped keyword of every enabled entry. -/
theorem mem_foldl_of_step {x : String} {f : List String → Entry → List String}
    (hf : ∀ ks e, x ∈ f ks e ↔
      x ∈ ks ∨ (e.metadata.disabled = false ∧ e.metadata.scopedKeyword = some x)) :
    ∀ (es : List Entry) (ks : List String), x ∈ es.foldl f ks ↔
      x ∈ ks ∨ ∃ e ∈ es, e.metadata.disabled = false ∧ e.metadata.scopedKeyword = some x
  | [], ks => by simp
  | e :: es, ks => by
    rw [List.foldl_cons, mem_foldl_of_step hf es, hf]
    simp only [List.mem_cons, exists_eq_or_imp, or_assoc]

/-- **The keywords of a snapshot** are the scoped keywords of the enabled plugins, whatever
their state. -/
theorem mem_keywords_snapshot (r : Registry) (k : String) :
    k ∈ r.snapshot.keywords ↔
      ∃ e ∈ r.entries, e.metadata.disabled = false ∧ e.metadata.scopedKeyword = some k := by
  simp only [snapshot]
  rw [mem_foldl_of_step]
  · simp
  · intro ks e
    cases hd : e.metadata.disabled with
    | true => simp
    | false =>
      cases hk : e.metadata.scopedKeyword with
      | none => simp
      | some k' =>
        simp only [Bool.false_eq_true, if_false, mem_insertKeyword, Option.some.injEq, true_and]
        rw [@eq_comm _ k' k, or_comm]

end Registry

/-! ## Reading a text -/

namespace Query

/-- The first word of a text is a keyword when it is known and not the wildcard. -/
def keywordOf (raw : String) (keywords : List String) : Option String :=
  ((words raw).head?).filter fun k => k != wildcardKeyword && keywords.contains k

/-- A parsed query keeps the text as typed. -/
theorem rawText_parse (raw : String) (keywords : List String) :
    (parse raw keywords).rawText = raw := by
  simp only [parse]
  split <;> rfl

/-- A text whose first word is a known keyword is scoped to it. -/
theorem parse_of_keywordOf_some {raw : String} {keywords : List String} {k : String}
    (h : keywordOf raw keywords = some k) : (parse raw keywords).actionKeyword = k ∧ k ≠ "" := by
  obtain ⟨hw, hk⟩ := Option.filter_eq_some_iff.1 h
  rw [head_words] at hw
  have hnil := breakAtBlank_trim_eq_nil_iff raw
  simp only [parse]
  generalize (breakAtBlank (trim raw).toList).1 = token at hw hnil ⊢
  split at hw
  · cases hw
  · rename_i hblank
    obtain rfl := Option.some.inj hw
    have hne : String.ofList token ≠ "" := by
      rw [ne_eq, String.ofList_eq_empty_iff, hnil]
      exact hblank
    have hc : (!(String.ofList token).isEmpty && String.ofList token != "*" &&
        keywords.contains (String.ofList token)) = true := by
      simp only [Bool.and_eq_true] at hk ⊢
      exact ⟨⟨by simpa [String.isEmpty_iff] using hne, hk.1⟩, hk.2⟩
    rw [if_pos hc]
    exact ⟨rfl, hne⟩

/-- A text whose first word is no known keyword is searched for as a whole, trimmed. -/
theorem parse_of_keywordOf_none {raw : String} {keywords : List String}
    (h : keywordOf raw keywords = none) :
    parse raw keywords = { rawText := raw, search := trim raw } := by
  rw [keywordOf, head_words] at h
  have hnil := breakAtBlank_trim_eq_nil_iff raw
  simp only [parse]
  generalize (breakAtBlank (trim raw).toList).1 = token at h hnil ⊢
  rw [if_neg]
  split at h
  · rename_i hblank
    rw [hnil.2 hblank]
    simp
  · have hp := Option.filter_eq_none_iff.1 h (String.ofList token) rfl
    intro hc
    simp only [Bool.and_eq_true] at hc hp
    exact hp ⟨hc.1.2, hc.2⟩

end Query

namespace PluginMetadata

/-- A scoped keyword is never empty, and never the wildcard. -/
theorem scopedKeyword_eq_some {m : PluginMetadata} {k : String} (h : m.scopedKeyword = some k) :
    k ≠ "" ∧ k ≠ wildcardKeyword := by
  simp only [scopedKeyword] at h
  split at h
  · cases h
  · rename_i hk
    obtain rfl := Option.some.inj h
    simp only [Bool.or_eq_true, not_or, String.isEmpty_iff, beq_iff_eq] at hk
    exact hk

/-- Whether raw text addresses a plugin: a global plugin is addressed by every text that is not
blank, and by blank ones too when blank queries are not skipped; a plugin with a keyword is
addressed by every text whose first word is that keyword. -/
def addressedBy (m : PluginMetadata) (raw : String) (o : DispatchOptions) : Bool :=
  (m.isGlobal && (trim raw != "" || !o.skipEmptyGlobalQuery)) ||
    (m.scopedKeyword.isSome && m.scopedKeyword == (words raw).head?)

end PluginMetadata

namespace Registry

/-- The plugins a query for raw text should reach: the enabled, ready entries that the text
addresses, in configuration order, each with its position among all entries. -/
def routed (r : Registry) (raw : String) (o : DispatchOptions) : List Listed :=
  r.entries.zipIdx.filterMap fun (e, i) =>
    if !e.metadata.disabled && e.state.isReady && e.metadata.addressedBy raw o then
      some ⟨e.metadata, i⟩
    else none

/-- An enabled plugin whose keyword is known takes the query read from raw text exactly when the
text addresses it. -/
theorem isTarget_parse_of_known {keywords : List String} {m : PluginMetadata}
    (hd : m.disabled = false) (hknown : ∀ k, m.scopedKeyword = some k → k ∈ keywords)
    (raw : String) (o : DispatchOptions) :
    isTarget m (Query.parse raw keywords) o = m.addressedBy raw o := by
  cases hkw : Query.keywordOf raw keywords with
  | some k =>
    obtain ⟨hak, hne⟩ := Query.parse_of_keywordOf_some hkw
    have hw : (words raw).head? = some k := (Option.filter_eq_some_iff.1 hkw).1
    have htrim : trim raw ≠ "" := by
      intro h
      rw [head_words, if_pos h] at hw
      cases hw
    have hscoped : (Query.parse raw keywords).isScoped = true := by
      rw [Query.isScoped, hak]
      simpa [String.isEmpty_iff] using hne
    simp only [isTarget, PluginMetadata.addressedBy]
    rw [hd, hscoped, hak, hw]
    cases m.isGlobal <;> cases m.scopedKeyword <;> simp [htrim]
  | none =>
    have hq := Query.parse_of_keywordOf_none hkw
    have hno : (m.scopedKeyword.isSome && m.scopedKeyword == (words raw).head?) = false := by
      cases hs : m.scopedKeyword with
      | none => rfl
      | some k =>
        cases hw : (words raw).head? with
        | none => simp
        | some k' =>
          rw [Option.isSome_some, Bool.true_and, beq_eq_false_iff_ne]
          intro heq
          obtain rfl := Option.some.inj heq
          have hwild := (PluginMetadata.scopedKeyword_eq_some hs).2
          have : Query.keywordOf raw keywords = some k := by
            rw [Query.keywordOf, hw, Option.filter_eq_some_iff]
            simp [hknown k hs, hwild]
          rw [hkw] at this
          cases this
    simp only [isTarget, PluginMetadata.addressedBy, hq, hd, hno, Query.isScoped]
    by_cases ht : trim raw = "" <;>
      cases o.skipEmptyGlobalQuery <;> cases m.isGlobal <;> simp [String.isEmpty_iff, ht]

/-- An enabled plugin takes the query read from raw text exactly when the text addresses it. -/
theorem isTarget_parse (r : Registry) {e : Entry} (he : e ∈ r.entries)
    (hd : e.metadata.disabled = false) (raw : String) (o : DispatchOptions) :
    isTarget e.metadata (r.snapshot.parse raw) o = e.metadata.addressedBy raw o :=
  isTarget_parse_of_known hd (fun k hs => (mem_keywords_snapshot r k).2 ⟨e, he, hd, hs⟩) raw o

/-- The plugins of a snapshot: the enabled, ready entries, each with its position. -/
theorem plugins_snapshot (r : Registry) :
    r.snapshot.plugins = r.entries.zipIdx.filterMap fun (e, i) =>
      if !e.metadata.disabled && e.state.isReady then some ⟨e.metadata, i⟩ else none :=
  rfl

/-- **Where a text goes.** The plugins a query for raw text is dispatched to are exactly the
enabled, ready entries that the text addresses, in configuration order. -/
theorem targets_parse (r : Registry) (raw : String) (o : DispatchOptions) :
    r.snapshot.targets (r.snapshot.parse raw) o = r.routed raw o := by
  rw [Snapshot.targets, plugins_snapshot, List.filter_filterMap, routed]
  apply List.filterMap_congr
  rintro ⟨e, i⟩ hmem
  have he : e ∈ r.entries := List.fst_mem_of_mem_zipIdx hmem
  cases hd : e.metadata.disabled with
  | true => simp [hd]
  | false =>
    cases hr : e.state.isReady with
    | false => simp [hr]
    | true => simp [hd, hr, Option.filter, isTarget_parse r he hd raw o]

/-- A routed plugin is an enabled, ready entry that the text addresses. -/
theorem mem_routed {r : Registry} {raw : String} {o : DispatchOptions} {p : Listed}
    (h : p ∈ r.routed raw o) :
    ∃ e ∈ r.entries, p.metadata = e.metadata ∧ e.metadata.disabled = false ∧
      e.state.isReady = true ∧ e.metadata.addressedBy raw o = true := by
  obtain ⟨⟨e, i⟩, hmem, hp⟩ := List.mem_filterMap.1 h
  refine ⟨e, List.fst_mem_of_mem_zipIdx hmem, ?_⟩
  cases hd : e.metadata.disabled <;> cases hr : e.state.isReady <;>
    cases ha : e.metadata.addressedBy raw o <;> simp [hd, hr, ha] at hp
  subst hp
  exact ⟨rfl, rfl, rfl, rfl⟩

/-- **Routing end to end.** The plugins a query for raw text is dispatched to are exactly the
enabled, ready entries, in configuration order, that are global (with a text that is not blank,
when blank queries are skipped) or whose keyword is the text's first word. So a disabled plugin
never receives a query, and a first word that is no enabled plugin's keyword reaches only global
plugins. -/
theorem targets_of_raw_text (r : Registry) (raw : String) (o : DispatchOptions) :
    r.snapshot.targets (r.snapshot.parse raw) o = r.routed raw o ∧
      (∀ p ∈ r.snapshot.targets (r.snapshot.parse raw) o, p.metadata.disabled = false) ∧
      ((∀ e ∈ r.entries, e.metadata.disabled = false →
          ∀ k, e.metadata.scopedKeyword = some k → (words raw).head? ≠ some k) →
        ∀ p ∈ r.snapshot.targets (r.snapshot.parse raw) o, p.metadata.isGlobal = true) := by
  have heq := targets_parse r raw o
  refine ⟨heq, ?_, ?_⟩
  · intro p hp
    obtain ⟨e, -, hm, hd, -⟩ := mem_routed (heq ▸ hp)
    rw [hm, hd]
  · intro hnone p hp
    obtain ⟨e, he, hm, hd, -, ha⟩ := mem_routed (heq ▸ hp)
    have hkw : (e.metadata.scopedKeyword.isSome &&
        e.metadata.scopedKeyword == (words raw).head?) = false := by
      cases hs : e.metadata.scopedKeyword with
      | none => rfl
      | some k =>
        rw [Option.isSome_some, Bool.true_and, beq_eq_false_iff_ne]
        exact fun h => hnone e he hd k hs h.symm
    rw [PluginMetadata.addressedBy, hkw, Bool.or_false, Bool.and_eq_true] at ha
    rw [hm]
    exact ha.1

end Registry

end Launcher
