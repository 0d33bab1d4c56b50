import Launcher.Config.Basic
import Launcher.Config.UnknownKeys
import Launcher.Proofs.Json.Legible

/-!
# Unknown configuration keys and the keys decoding passes over

`unknownKeys` keeps its own table of the keys a configuration knows, apart from the shapes the
configuration is decoded with. This file says which keys the decoder passes over, following
`decodeWith` shape by shape, and compares the two.

* `Json.ignoredBelow` — the keys a document leaves unread against a shape: unknown keys of a
  record read from an object, and whatever its fields, list items, optional values and variant
  contents leave unread, with a record read from an array taken field by field;
* `Json.decodeRecord_filter_known` — a record read from an object gives the same result once
  the pairs with unknown keys are taken out, so those keys are the ones it passes over;
* `unknownBelow_configKeys` — for every document but an array, the table of known keys finds
  exactly the keys the configuration's shape passes over;
* `unknownKeys_eq_ignoredKeys` — so the keys reported for a text are those the configuration
  passes over in its document, whenever the text reads as a document that is not an array.

A configuration written as an array is read field by field, its first element as the `search`
section, and the keys in those sections are passed over without being reported. A text the
document reader refuses, such as a number too large for a double under an unknown key, is still
read as a configuration, which skips that value, and reports nothing.
-/

namespace Launcher

open Json

namespace Json

/-- The keys a document leaves unread when it is checked against a shape, as paths below `pre`.
A record read from an object passes over the keys it has no field for, unless its flattened part
takes them; a record read from an array takes its fields in order; a tagged union passes the
other keys to the content of the variant the tag names, and a variant without content passes
over all of them. -/
def ignoredBelow : Nat → Shape → String → Value → List String
  | 0, _, _, _ => []
  | fuel + 1, .maybe inner, pre, v => ignoredBelow fuel inner pre v
  | fuel + 1, .list item, pre, .array items =>
    items.zipIdx.flatMap fun (x, i) => ignoredBelow fuel item s!"{pre}[{i}]" x
  | fuel + 1, .record _ fields flat, pre, .object entries =>
    (entries.flatMap fun (k, child) =>
      match fields.find? (·.1 == k) with
      | some (_, s, _) => ignoredBelow fuel s (keyPath pre k) child
      | none => if flat.isSome then [] else [keyPath pre k]) ++
    match flat with
    | some s =>
      ignoredBelow fuel s pre (.object (entries.filter fun e => (fields.find? (·.1 == e.1)).isNone))
    | none => []
  | fuel + 1, .record _ fields none, pre, .array items =>
    (fields.zip items).flatMap fun ((name, s, _), x) => ignoredBelow fuel s (keyPath pre name) x
  | fuel + 1, .tagged _ tag variants, pre, .object entries =>
    match splitTag tag entries none [] with
    | .ok (some t, rest) =>
      match decodeTag true variants t with
      | .ok (_, some s) => ignoredBelow fuel s pre (.object rest)
      | .ok (_, none) => rest.map fun e => keyPath pre e.1
      | .error _ => []
    | _ => []
  | fuel + 1, .tagged _ _ variants, pre, .array (t :: rest) =>
    match decodeTag true variants t with
    | .ok (_, some s) => ignoredBelow fuel s pre (.array rest)
    | _ => []
  | _ + 1, _, _, _ => []

/-- The keys a document leaves unread against a shape, with the fuel `Shape.decode` gives. -/
def Shape.ignoredKeys (s : Shape) (v : Value) : List String := ignoredBelow (s.depth + 1) s "" v

/-! ## The record decoder passes over unknown keys -/

/-- Whether a pair's key is one of a record's fields. -/
def knownKey (fields : List (String × Shape × Option Value)) (e : String × Value) : Bool :=
  (fields.find? (·.1 == e.1)).isSome

/-- The fields a walk over an object's pairs finds do not depend on the pairs whose keys are
not fields, nor on what was set aside before. -/
theorem collectFields_filter_known (fuel : Nat) (buffered : Bool)
    (fields : List (String × Shape × Option Value)) :
    ∀ (entries found others others' : List (String × Value)),
      (collectFields fuel buffered fields entries found others).map Prod.fst =
        (collectFields fuel buffered fields (entries.filter (knownKey fields)) found others').map
          Prod.fst := by
  intro entries
  induction entries with
  | nil => intro found others others'; simp [collectFields, Except.map]
  | cons kv rest ih =>
    intro found others others'
    obtain ⟨k, v⟩ := kv
    cases hk : fields.find? (·.1 == k) with
    | none =>
      have hdrop : knownKey fields (k, v) = false := by simp [knownKey, hk]
      rw [List.filter_cons_of_neg (by simp [hdrop])]
      simp only [collectFields, hk]
      exact ih found ((k, v) :: others) others'
    | some f =>
      have hkeep : knownKey fields (k, v) = true := by simp [knownKey, hk]
      rw [List.filter_cons_of_pos hkeep]
      obtain ⟨name, s, d⟩ := f
      simp only [collectFields, hk]
      split
      · rfl
      · cases decodeWith fuel buffered s v with
        | error m => rfl
        | ok w => exact ih ((k, w) :: found) others others'

/-- **A record read from an object passes over its unknown keys**: without a flattened part, it
reads the same once every pair whose key is not a field is taken out. -/
theorem decodeRecord_filter_known (fuel : Nat) (buffered : Bool)
    (fields : List (String × Shape × Option Value)) (entries : List (String × Value)) :
    decodeRecord fuel buffered fields none entries =
      decodeRecord fuel buffered fields none (entries.filter (knownKey fields)) := by
  have h := collectFields_filter_known fuel buffered fields entries [] [] []
  unfold decodeRecord
  cases h₁ : collectFields fuel buffered fields entries [] [] with
  | error m₁ =>
    cases h₂ : collectFields fuel buffered fields (entries.filter (knownKey fields)) [] [] with
    | error m₂ =>
      rw [h₁, h₂] at h
      simp only [Except.map, Except.error.injEq] at h
      simp [h]
    | ok r₂ => rw [h₁, h₂] at h; cases h
  | ok r₁ =>
    cases h₂ : collectFields fuel buffered fields (entries.filter (knownKey fields)) [] [] with
    | error m₂ => rw [h₁, h₂] at h; cases h
    | ok r₂ =>
      rw [h₁, h₂] at h
      simp only [Except.map, Except.ok.injEq] at h
      obtain ⟨found₁, others₁⟩ := r₁
      obtain ⟨found₂, others₂⟩ := r₂
      simp only at h
      subst h
      rfl

/-! ## Shapes that hold no keys -/

/-- Whether a shape is a scalar, which holds no keys whatever document it is given. -/
def Shape.plain : Shape → Bool
  | .text _ | .flag | .whole _ | .real => true
  | _ => false

theorem ignoredBelow_of_plain {s : Shape} (hs : s.plain = true) (fuel : Nat) (pre : String)
    (v : Value) : ignoredBelow fuel s pre v = [] := by
  cases s <;> simp only [Shape.plain, Bool.false_eq_true] at hs <;> cases fuel <;> rfl

end Json

/-! ## The table of known keys follows the configuration's shape -/

/-- **A section of plain fields**: the key set of its field names finds in any document exactly
the keys the record passes over, an object's unknown keys, and none in an array, whose items
fill fields that hold no keys. -/
theorem unknownBelow_leaf {n m : Nat} {s : Shape} {e : String} {names : List String}
    {fields : List (String × Shape × Option Value)} (hs : s = .record e fields none)
    (hnames : fields.map (·.1) = names)
    (hplain : fields.all (·.2.1.plain) = true)
    (pre : String) (v : Value) :
    unknownBelow (n + 1) (.node names [] []) pre v = ignoredBelow (m + 1) s pre v := by
  subst hs
  cases v with
  | object entries =>
    simp only [unknownBelow, ignoredBelow, List.append_nil]
    congr 1
    funext kv
    obtain ⟨k, child⟩ := kv
    subst hnames
    cases hk : fields.find? (·.1 == k) with
    | none =>
      have hout : (fields.map (·.1)).contains k = false := by
        rw [List.contains_map, Bool.eq_false_iff]
        intro hany
        obtain ⟨f, hf, hkf⟩ := List.any_eq_true.1 hany
        have hfk : f.1 = k := (beq_iff_eq.1 hkf).symm
        exact absurd (List.find?_eq_none.1 hk f hf) (by simp [hfk])
      simp only [List.lookup_nil, hout, Option.isSome_none, Bool.false_eq_true, if_false]
    | some f =>
      have hf := List.mem_of_find?_eq_some hk
      have hkf : f.1 = k := by simpa using List.find?_some hk
      have hin : (fields.map (·.1)).contains k = true :=
        List.contains_map.trans (List.any_eq_true.2 ⟨f, hf, by simp [hkf]⟩)
      obtain ⟨name, s, d⟩ := f
      simp only [List.lookup_nil, hin, if_true,
        ignoredBelow_of_plain (List.all_eq_true.1 hplain _ hf)]
  | array items =>
    simp only [unknownBelow, ignoredBelow]
    refine (List.flatMap_eq_nil_iff.2 fun x hx => ?_).symm
    obtain ⟨⟨name, s, d⟩, item⟩ := x
    exact ignoredBelow_of_plain (List.all_eq_true.1 hplain _ (List.of_mem_zip hx).1) _ _ _
  | null => rfl
  | bool b => rfl
  | number x => rfl
  | string s => rfl

/-- The search section's key set finds what its shape passes over. -/
theorem unknownBelow_search (n m : Nat) (pre : String) (v : Value) :
    unknownBelow (n + 1) (.node ["maxResults", "pluginTimeoutMs", "skipEmptyGlobalQuery"] [] [])
      pre v = ignoredBelow (m + 1) SearchConfig.shape pre v := by
  apply unknownBelow_leaf
  case hs => rfl
  case hnames => rfl
  case hplain => rfl

/-- The history section's key set finds what its shape passes over. -/
theorem unknownBelow_history (n m : Nat) (pre : String) (v : Value) :
    unknownBelow (n + 1)
      (.node ["capacity", "boostCap", "boostHalfCount", "compactThreshold"] [] []) pre v =
      ignoredBelow (m + 1) HistoryConfig.shape pre v := by
  apply unknownBelow_leaf
  case hs => rfl
  case hnames => rfl
  case hplain => rfl

/-- A plugin entry's key set finds what its shape passes over. -/
theorem unknownBelow_plugin (n m : Nat) (pre : String) (v : Value) :
    unknownBelow (n + 1) pluginKeys pre v = ignoredBelow (m + 1) PluginSettings.shape pre v := by
  apply unknownBelow_leaf
  case hs => rfl
  case hnames => rfl
  case hplain => rfl

/-- **The table of known keys follows the configuration's shape**: in every document that is
not an array, it finds exactly the keys the configuration passes over, in the same order. -/
theorem unknownBelow_configKeys (v : Value) (hv : ∀ items, v ≠ .array items) :
    unknownBelow 3 configKeys "" v = Config.shape.ignoredKeys v := by
  have hdepth : Config.shape.depth = 4 := rfl
  unfold Shape.ignoredKeys
  rw [hdepth]
  cases v with
  | object entries =>
    simp only [unknownBelow, configKeys, Config.shape, ignoredBelow, List.append_nil]
    congr 1
    funext kv
    obtain ⟨k, child⟩ := kv
    by_cases hs : k = "search"
    · subst hs
      exact unknownBelow_search 1 3 _ child
    by_cases hh : k = "history"
    · subst hh
      exact unknownBelow_history 1 3 _ child
    by_cases hp : k = "plugins"
    · subst hp
      cases child with
      | array items =>
        simp only [List.lookup_cons, List.lookup_nil, List.find?, ignoredBelow, String.reduceBEq]
        congr 1
        funext x
        obtain ⟨item, i⟩ := x
        exact unknownBelow_plugin 1 2 _ item
      | _ => rfl
    · simp only [List.lookup_cons, List.lookup_nil, List.find?, beq_false_of_ne hs,
        beq_false_of_ne hh, beq_false_of_ne hp, beq_false_of_ne (Ne.symm hs),
        beq_false_of_ne (Ne.symm hh), beq_false_of_ne (Ne.symm hp)]
      rfl
  | array items => exact absurd rfl (hv items)
  | _ => rfl

/-- Settling sorts an object's keys and keeps an array an array, so a document that is not an
array stays one that is not. -/
theorem settle_ne_array {v : Value} (hv : ∀ items, v ≠ .array items) (items : List Value) :
    v.settle ≠ .array items := by
  cases v with
  | array xs => exact absurd rfl (hv xs)
  | object entries => simp [Value.settle]
  | _ => simp [Value.settle]

/-- **Unknown keys are the keys the configuration passes over.** For a text that reads as a
document other than an array, the keys reported, in order, are exactly those that checking the
document against the configuration's shape leaves unread. -/
theorem unknownKeys_eq_ignoredKeys {text : String} {v : Value} (hv : Value.parse text = .ok v)
    (hroot : ∀ items, v ≠ .array items) : unknownKeys text = Config.shape.ignoredKeys v.settle := by
  unfold unknownKeys
  rw [hv]
  exact unknownBelow_configKeys v.settle (settle_ne_array hroot)

/-- A misspelt plugin key and a misspelt search key are both reported, sorted, with the plugin's
position in the table. -/
theorem misspelt_keys_reported :
    let text := "\x7b\"plugins\":[\x7b\"id\":\"a\",\"keyword\":\"k\"\x7d]," ++
      "\"search\":\x7b\"maxResult\":5\x7d\x7d"
    let doc : Value := .object [("plugins", .array [.object [("id", .string "a"),
      ("keyword", .string "k")]]), ("search", .object [("maxResult", .number (.nat 5))])]
    Value.parse text = .ok doc ∧ (∀ items, doc ≠ .array items) ∧
      unknownKeys text = Config.shape.ignoredKeys doc.settle ∧
      Config.shape.ignoredKeys doc.settle = ["plugins[0].keyword", "search.maxResult"] := by
  intro text doc
  have hleg : Legible depthLimit doc := by
    refine .object fun e he => ?_
    simp only [List.mem_cons, List.mem_nil_iff, or_false] at he
    rcases he with rfl | rfl
    · refine .array fun x hx => ?_
      simp only [List.mem_cons, List.mem_nil_iff, or_false] at hx
      subst hx
      refine .object fun f hf => ?_
      simp only [List.mem_cons, List.mem_nil_iff, or_false] at hf
      rcases hf with rfl | rfl <;> exact .string _
    · refine .object fun f hf => ?_
      simp only [List.mem_cons, List.mem_nil_iff, or_false] at hf
      subst hf
      exact .nat (by decide)
  have hparse : Value.parse text = .ok doc := by
    have htext : doc.compact = text := by decide
    rw [← htext]
    exact Value.parse_compact_legible hleg
  have hroot : ∀ items, doc ≠ .array items := fun _ h => Value.noConfusion h
  exact ⟨hparse, hroot, unknownKeys_eq_ignoredKeys hparse hroot, by decide⟩

/-- **A configuration written as an array hides its unknown keys.** The text `[{"x":1}]` is read
as a configuration, its one element as the `search` section whose key `x` is passed over, while
no key is reported. -/
theorem array_config_keys_unreported :
    let text := "[\x7b\"x\":1\x7d]"
    let doc : Value := .array [.object [("x", .number (.nat 1))]]
    (Config.readText text).isOk = true ∧ Value.parse text = .ok doc ∧
      unknownKeys text = [] ∧ Config.shape.ignoredKeys doc.settle = ["search.x"] := by
  intro text doc
  have hleg : Legible depthLimit doc := by
    refine .array fun x hx => ?_
    simp only [List.mem_cons, List.mem_nil_iff, or_false] at hx
    subst hx
    refine .object fun f hf => ?_
    simp only [List.mem_cons, List.mem_nil_iff, or_false] at hf
    subst hf
    exact .nat (by decide)
  have hparse : Value.parse text = .ok doc := by
    have htext : doc.compact = text := by decide
    rw [← htext]
    exact Value.parse_compact_legible hleg
  refine ⟨by decide +kernel, hparse, ?_, by decide⟩
  unfold unknownKeys
  rw [hparse]
  rfl

end Launcher
