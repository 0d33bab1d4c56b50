import Mathlib.Data.List.Forall2
import Launcher.Update
import Launcher.Config.Basic
import Launcher.Proofs.Json.Filled
import Launcher.Proofs.History.Journal

/-!
# Every value decodes from its document

Each type that travels as JSON has a document form (`toJson`) and a reader (`decode`: the check
against its shape, then `ofCanonical`). For every value whose numbers fit the widths they are
written in, reading its document gives the value back:

* `canonicalPairs` — what the check of a value's document returns: every field in declared
  order, unset optional fields as null;
* `T.decodeWith_toJson` — a value's document checks to its canonical pairs (one lemma per type,
  each from the record, flat-record and tagged-union lemmas of `Filled`);
* `T.ofCanonical_canonicalPairs` — the typed reader takes the value back from them;
* `T.decode_toJson` — so the document of a value that fits decodes to the value. Strings are any
  text and context data any document: neither is looked into.
-/

namespace Launcher

open Json

variable {fuel : Nat} {buffered : Bool}

/-! ## Reading fields of canonical documents -/

namespace Json.Value

theorem intAt_ofInt {v : Value} {key : String} {i : Int} (h : v.get key = .ofInt i) :
    v.intAt key = i := by
  unfold intAt
  rw [h, ofInt]
  by_cases hi : i ≥ 0
  · simp [hi, Int.toNat_of_nonneg hi]
  · simp [hi]

theorem optTextAt_ofOption {v : Value} {key : String} {o : Option String}
    (h : v.get key = .ofOption o) : v.optTextAt key = o := by
  unfold optTextAt
  rw [h]
  cases o <;> rfl

/-- A pair under another key does not change what a key reads. -/
theorem get_cons_of_ne {k key : String} (h : k ≠ key) (v : Value) (ps : List (String × Value)) :
    (Value.object ((k, v) :: ps)).get key = (Value.object ps).get key := by
  simp [get, field?, JournalRecord.lookup_cons_of_ne h]

end Json.Value

/-! ## Plugin metadata -/

/-- The weight boost fits the signed 64-bit range it is written in. -/
def PluginMetadata.Fits (m : PluginMetadata) : Prop := Width.i64.fits m.weightBoost = true

namespace PluginMetadata

/-- The checked document of metadata: every field, an unset path as null. -/
def canonicalPairs (m : PluginMetadata) : List (String × Value) :=
  [("id", .string m.id), ("name", .string m.name), ("actionKeyword", .string m.actionKeyword),
   ("isGlobal", .bool m.isGlobal), ("weightBoost", .ofInt m.weightBoost),
   ("disabled", .bool m.disabled), ("directory", .ofOption m.directory),
   ("iconPathLight", .ofOption m.iconPathLight), ("iconPathDark", .ofOption m.iconPathDark)]

theorem decodeWith_toJson {m : PluginMetadata} (hm : m.Fits) :
    decodeWith (fuel + 3) buffered shape m.toJson = .ok (.object m.canonicalPairs) := by
  obtain ⟨id, name, kw, g, wb, dis, dir, light, dark⟩ := m
  unfold Fits at hm
  rw [shape, toJson, decodeWith_object_record]
  cases dir <;> cases light <;> cases dark <;>
  · refine decodeRecord_filled ?_ (List.forall₂_same.2 ?_) ?_
    · simp [optionalPairs]
    · simp [optionalPairs, Checks, decodeWith_text, decodeWith_flag, decodeWith_ofInt hm,
        decodeWith_maybe_string]
    · simp [Filled, optionalPairs, canonicalPairs, Value.ofOption]

theorem ofCanonical_canonicalPairs (m : PluginMetadata) : ofCanonical (.object m.canonicalPairs) = m := by
  simp only [ofCanonical]
  rw [Value.intAt_ofInt (i := m.weightBoost) (by simp [canonicalPairs, Value.get, Value.field?, Value.lookup]),
    Value.optTextAt_ofOption (o := m.directory) (by simp [canonicalPairs, Value.get, Value.field?, Value.lookup]),
    Value.optTextAt_ofOption (o := m.iconPathLight) (by simp [canonicalPairs, Value.get, Value.field?, Value.lookup]),
    Value.optTextAt_ofOption (o := m.iconPathDark) (by simp [canonicalPairs, Value.get, Value.field?, Value.lookup])]
  simp [canonicalPairs, Value.textAt, Value.flagAt, Value.get, Value.field?, Value.lookup]

/-- **Metadata decodes from its document.** -/
theorem decode_toJson {m : PluginMetadata} (hm : m.Fits) : decode m.toJson = .ok m := by
  have hdepth : shape.depth = 3 := rfl
  simp [decode, Shape.decode, hdepth, decodeWith_toJson hm, Except.map, ofCanonical_canonicalPairs]

end PluginMetadata

/-! ## Queries -/

namespace Query

theorem decodeWith_toJson (q : Query) :
    decodeWith (fuel + 2) buffered shape q.toJson = .ok q.toJson := by
  rw [shape, toJson, decodeWith_object_record]
  refine decodeRecord_filled ?_ (List.forall₂_same.2 ?_) ?_
  · simp
  · simp [Checks, decodeWith_text]
  · simp [Filled]

theorem ofCanonical_toJson (q : Query) : ofCanonical q.toJson = q := by
  simp [ofCanonical, toJson, Value.textAt, Value.get, Value.field?, Value.lookup]

/-- **A query decodes from its document.** -/
theorem decode_toJson (q : Query) : decode q.toJson = .ok q := by
  have hdepth : shape.depth = 2 := rfl
  simp [decode, Shape.decode, hdepth, decodeWith_toJson, Except.map, ofCanonical_toJson]

end Query

/-! ## Result items -/

/-- The score fits the signed 64-bit range it is written in. -/
def ResultItem.Fits (i : ResultItem) : Prop := Width.i64.fits i.score = true

namespace ResultItem

/-- The checked document of an item: every field, an unset icon or display text as null. -/
def canonicalPairs (i : ResultItem) : List (String × Value) :=
  [("title", .string i.title), ("subTitle", .string i.subTitle), ("icoPath", .ofOption i.icoPath),
   ("score", .ofInt i.score), ("queryTextDisplay", .ofOption i.queryTextDisplay),
   ("contextData", i.contextData)]

theorem decodeWith_toJson {i : ResultItem} (hi : i.Fits) :
    decodeWith (fuel + 3) buffered shape i.toJson = .ok (.object i.canonicalPairs) := by
  unfold Fits at hi
  rw [shape, toJson, decodeWith_object_record]
  split <;> split <;> split <;>
  · rename_i hctx _ hdisp _ hico
    refine decodeRecord_filled ?_ (List.forall₂_same.2 ?_) ?_
    · simp
    · simp [Checks, decodeWith_text, decodeWith_ofInt hi, decodeWith_maybe_string, decodeWith_any]
    · simp_all [Filled, canonicalPairs, Value.ofOption]

theorem ofCanonical_canonicalPairs (i : ResultItem) : ofCanonical (.object i.canonicalPairs) = i := by
  simp only [ofCanonical]
  rw [Value.intAt_ofInt (i := i.score) (by simp [canonicalPairs, Value.get, Value.field?, Value.lookup]),
    Value.optTextAt_ofOption (o := i.icoPath) (by simp [canonicalPairs, Value.get, Value.field?, Value.lookup]),
    Value.optTextAt_ofOption (o := i.queryTextDisplay) (by simp [canonicalPairs, Value.get, Value.field?, Value.lookup])]
  simp [canonicalPairs, Value.textAt, Value.get, Value.field?, Value.lookup]

/-- **An item decodes from its document**, whatever its context data. -/
theorem decode_toJson {i : ResultItem} (hi : i.Fits) : decode i.toJson = .ok i := by
  have hdepth : shape.depth = 3 := rfl
  simp [decode, Shape.decode, hdepth, decodeWith_toJson hi, Except.map, ofCanonical_canonicalPairs]

end ResultItem

/-! ## Result identities -/

namespace ResultIdentity

theorem decodeWith_toJson (r : ResultIdentity) :
    decodeWith (fuel + 3) buffered shape r.toJson = .ok r.toJson := by
  rw [shape, toJson, decodeWith_object_record]
  have hown : List.Forall₂ (Checks (fuel + 2) buffered [("pluginId", .text "a string", none)])
      [("pluginId", .string r.pluginId)] [("pluginId", .string r.pluginId)] := by
    simp [Checks, decodeWith_text]
  have hfull : List.Forall₂ (Filled [("pluginId", .string r.pluginId)])
      [("pluginId", .text "a string", none)] [("pluginId", .string r.pluginId)] := by
    simp [Filled]
  exact decodeRecord_flat (by simp) hown (by simp) hfull r.key.decodeWith_toJson

theorem ofCanonical_toJson (r : ResultIdentity) : ofCanonical r.toJson = r := by
  simp [ofCanonical, toJson, ResultKey.ofCanonical, ResultKey.pairs, Value.textAt, Value.get,
    Value.field?, Value.lookup]

/-- **An identity decodes from its document.** -/
theorem decode_toJson (r : ResultIdentity) : decode r.toJson = .ok r := by
  have hdepth : shape.depth = 3 := rfl
  simp [decode, Shape.decode, hdepth, decodeWith_toJson, Except.map, ofCanonical_toJson]

end ResultIdentity

/-! ## Ranked results and rows -/

/-- The item and the final score fit the widths they are written in. -/
def RankedResult.Fits (r : RankedResult) : Prop := r.item.Fits ∧ Width.i64.fits r.finalScore = true

namespace RankedResult

/-- The checked document of a ranked result: its item's checked document in place of the item's. -/
def canonicalPairs (r : RankedResult) : List (String × Value) :=
  [("pluginId", .string r.pluginId), ("item", .object r.item.canonicalPairs),
   ("finalScore", .ofInt r.finalScore), ("queryTextDisplay", .string r.queryTextDisplay)]

theorem decodeWith_pairs {r : RankedResult} (hr : r.Fits) :
    decodeWith (fuel + 4) buffered shape (.object r.pairs) = .ok (.object r.canonicalPairs) := by
  rw [shape, decodeWith_object_record]
  have hchecks : List.Forall₂ (Checks (fuel + 3) buffered fields) r.pairs r.canonicalPairs := by
    simp [pairs, canonicalPairs, Checks, fields, decodeWith_text, decodeWith_ofInt hr.2,
      ResultItem.decodeWith_toJson hr.1]
  exact decodeRecord_filled (by simp [pairs]) hchecks (by simp [Filled, fields, canonicalPairs])

theorem ofCanonical_canonicalPairs (r : RankedResult) : ofCanonical (.object r.canonicalPairs) = r := by
  simp only [ofCanonical]
  rw [Value.intAt_ofInt (i := r.finalScore) (by simp [canonicalPairs, Value.get, Value.field?, Value.lookup])]
  have hitem : (Value.object r.canonicalPairs).get "item" = .object r.item.canonicalPairs := by
    simp [canonicalPairs, Value.get, Value.field?, Value.lookup]
  rw [hitem, ResultItem.ofCanonical_canonicalPairs]
  simp [canonicalPairs, Value.textAt, Value.get, Value.field?, Value.lookup]

/-- **A ranked result decodes from its document.** -/
theorem decode_toJson {r : RankedResult} (hr : r.Fits) : decode r.toJson = .ok r := by
  have hdepth : shape.depth = 4 := rfl
  simp [decode, Shape.decode, hdepth, toJson, decodeWith_pairs hr, Except.map,
    ofCanonical_canonicalPairs]

end RankedResult

/-- A ranked result fits, and the counts of a marker fit the unsigned width they are written in. -/
def ListEntry.Fits : ListEntry → Prop
  | .result r => r.Fits
  | .truncated pre post => Width.usize.fits pre = true ∧ Width.usize.fits post = true

namespace ListEntry

/-- The checked document of a row. -/
def canonical : ListEntry → Value
  | .result r => .object (("type", .string "result") :: r.canonicalPairs)
  | .truncated pre post => (ListEntry.truncated pre post).toJson

theorem decodeWith_toJson {e : ListEntry} (he : e.Fits) :
    decodeWith (fuel + 5) buffered shape e.toJson = .ok e.canonical := by
  cases e with
  | result r =>
    exact decodeWith_tagged_object (by simp [RankedResult.pairs]) rfl
      (RankedResult.decodeWith_pairs he)
  | truncated pre post =>
    refine decodeWith_tagged_object (by simp) rfl ?_
    rw [decodeWith_object_record]
    refine decodeRecord_filled ?_ (List.forall₂_same.2 ?_) ?_
    · simp
    · simp [Checks, Value.ofNat, decodeWith_whole he.1, decodeWith_whole he.2]
    · simp [Filled]

theorem ofCanonical_canonical (e : ListEntry) : ofCanonical e.canonical = e := by
  cases e with
  | result r =>
    have htype : (canonical (.result r)).textAt "type" = "result" := by
      simp [canonical, RankedResult.canonicalPairs, Value.textAt, Value.get, Value.field?,
        Value.lookup]
    have hsame : RankedResult.ofCanonical (canonical (.result r)) =
        RankedResult.ofCanonical (.object r.canonicalPairs) := by
      simp only [canonical, RankedResult.ofCanonical, Value.textAt, Value.intAt,
        Value.get_cons_of_ne (show "type" ≠ "pluginId" by decide),
        Value.get_cons_of_ne (show "type" ≠ "item" by decide),
        Value.get_cons_of_ne (show "type" ≠ "finalScore" by decide),
        Value.get_cons_of_ne (show "type" ≠ "queryTextDisplay" by decide)]
    simp [ofCanonical, htype, hsame, RankedResult.ofCanonical_canonicalPairs]
  | truncated pre post =>
    simp [canonical, ofCanonical, toJson, Value.textAt, Value.natAt, Value.get, Value.field?,
      Value.lookup, Value.ofNat]

theorem ofCanonical_comp_canonical : ofCanonical ∘ canonical = id :=
  funext ofCanonical_canonical

/-- **A row decodes from its document.** -/
theorem decode_toJson {e : ListEntry} (he : e.Fits) : decode e.toJson = .ok e := by
  have hdepth : shape.depth = 5 := rfl
  simp [decode, Shape.decode, hdepth, decodeWith_toJson he, Except.map, ofCanonical_canonical]

end ListEntry

/-! ## Warnings -/

/-- A time budget fits the unsigned 64-bit width it is written in. -/
def WarningKind.Fits : WarningKind → Prop
  | .timeout ms => Width.u64.fits ms = true
  | .fault _ => True

/-- The kind of a warning fits. -/
def PluginWarning.Fits (w : PluginWarning) : Prop := w.kind.Fits

theorem WarningKind.decodeWith_pairs {k : WarningKind} (hk : k.Fits) :
    decodeWith (fuel + 3) buffered shape (.object k.pairs) = .ok (.object k.pairs) := by
  cases k with
  | timeout ms =>
    refine decodeWith_tagged_object (by simp) rfl ?_
    rw [decodeWith_object_record]
    refine decodeRecord_filled ?_ (List.forall₂_same.2 ?_) ?_
    · simp
    · simp [Checks, Value.ofNat, decodeWith_whole hk]
    · simp [Filled]
  | fault m =>
    refine decodeWith_tagged_object (by simp) rfl ?_
    rw [decodeWith_object_record]
    refine decodeRecord_filled ?_ (List.forall₂_same.2 ?_) ?_
    · simp
    · simp [Checks, decodeWith_text]
    · simp [Filled]

namespace PluginWarning

theorem decodeWith_toJson {w : PluginWarning} (hw : w.Fits) :
    decodeWith (fuel + 4) buffered shape w.toJson = .ok w.toJson := by
  rw [shape, toJson, decodeWith_object_record]
  have hown : List.Forall₂ (Checks (fuel + 3) buffered [("pluginId", .text "a string", none)])
      [("pluginId", .string w.pluginId)] [("pluginId", .string w.pluginId)] := by
    simp [Checks, decodeWith_text]
  have hfull : List.Forall₂ (Filled [("pluginId", .string w.pluginId)])
      [("pluginId", .text "a string", none)] [("pluginId", .string w.pluginId)] := by
    simp [Filled]
  have hothers : ∀ e ∈ w.kind.pairs,
      [("pluginId", Shape.text "a string", (none : Option Value))].find? (·.1 == e.1) = none := by
    cases w.kind <;> simp [WarningKind.pairs]
  exact decodeRecord_flat (by simp) hown hothers hfull (WarningKind.decodeWith_pairs hw)

theorem ofCanonical_toJson (w : PluginWarning) : ofCanonical w.toJson = w := by
  obtain ⟨id, k⟩ := w
  cases k <;> simp [ofCanonical, toJson, WarningKind.ofCanonical, WarningKind.pairs, Value.textAt,
    Value.natAt, Value.get, Value.field?, Value.lookup, Value.ofNat]

/-- **A warning decodes from its document.** -/
theorem decode_toJson {w : PluginWarning} (hw : w.Fits) : decode w.toJson = .ok w := by
  have hdepth : shape.depth = 4 := rfl
  simp [decode, Shape.decode, hdepth, decodeWith_toJson hw, Except.map, ofCanonical_toJson]

theorem ofCanonical_comp_toJson : ofCanonical ∘ toJson = id :=
  funext ofCanonical_toJson

end PluginWarning

/-! ## Plugin states -/

namespace PluginState

theorem decodeWith_toJson (s : PluginState) :
    decodeWith (fuel + 3) buffered shape s.toJson = .ok s.toJson := by
  cases s with
  | failed e =>
    refine decodeWith_tagged_object (by simp) rfl ?_
    rw [decodeWith_object_record]
    refine decodeRecord_filled ?_ (List.forall₂_same.2 ?_) ?_
    · simp
    · simp [Checks, decodeWith_text]
    · simp [Filled]
  | unloaded => exact decodeWith_tagged_bare rfl
  | initializing => exact decodeWith_tagged_bare rfl
  | ready => exact decodeWith_tagged_bare rfl

theorem ofCanonical_toJson (s : PluginState) : ofCanonical s.toJson = s := by
  cases s <;> simp [ofCanonical, toJson, name, stage, Stage.name, Value.textAt, Value.get,
    Value.field?, Value.lookup]

/-- **A state decodes from its document.** -/
theorem decode_toJson (s : PluginState) : decode s.toJson = .ok s := by
  have hdepth : shape.depth = 3 := rfl
  simp [decode, Shape.decode, hdepth, decodeWith_toJson, Except.map, ofCanonical_toJson]

end PluginState

/-! ## Updates -/

/-- The generation fits the unsigned 64-bit width it is written in, and every row and warning
fits. -/
def EngineUpdate.Fits : EngineUpdate → Prop
  | .results g _ es ws => Width.u64.fits g = true ∧ (∀ e ∈ es, e.Fits) ∧ ∀ w ∈ ws, w.Fits
  | .stateChanged .. => True

namespace EngineUpdate

/-- The checked document of an update: rows as checked, and the warnings always present. -/
def canonical : EngineUpdate → Value
  | .results g q es ws =>
    .object [("type", .string "results"), ("generation", .ofNat g), ("query", q.toJson),
      ("entries", .array (es.map ListEntry.canonical)),
      ("warnings", .array (ws.map PluginWarning.toJson))]
  | u@(.stateChanged ..) => u.toJson

theorem decodeWith_toJson {u : EngineUpdate} (hu : u.Fits) :
    decodeWith (fuel + 8) buffered shape u.toJson = .ok u.canonical := by
  cases u with
  | results g q es ws =>
    obtain ⟨hg, hes, hws⟩ := hu
    have hentries : decodeWith (fuel + 6) true (.list ListEntry.shape)
        (.array (es.map ListEntry.toJson)) = .ok (.array (es.map ListEntry.canonical)) :=
      decodeWith_list_map fun e he => ListEntry.decodeWith_toJson (hes e he)
    have hwarnings : decodeWith (fuel + 6) true (.list PluginWarning.shape)
        (.array (ws.map PluginWarning.toJson)) = .ok (.array (ws.map PluginWarning.toJson)) :=
      decodeWith_list_map fun w hw => PluginWarning.decodeWith_toJson (hws w hw)
    refine decodeWith_tagged_object ?_ rfl ?_
    · cases ws <;> simp
    rw [decodeWith_object_record]
    cases ws with
    | nil =>
      have hchecks : List.Forall₂ (Checks (fuel + 6) true
          [("generation", .whole .u64, none), ("query", Query.shape, none),
           ("entries", .list ListEntry.shape, none),
           ("warnings", .list PluginWarning.shape, some (.array []))])
          [("generation", .ofNat g), ("query", q.toJson), ("entries", .array (es.map ListEntry.toJson))]
          [("generation", .ofNat g), ("query", q.toJson),
            ("entries", .array (es.map ListEntry.canonical))] := by
        simp [Checks, Value.ofNat, decodeWith_whole hg, Query.decodeWith_toJson, hentries]
      exact decodeRecord_filled (by simp) hchecks (by simp [Filled])
    | cons w ws =>
      have hchecks : List.Forall₂ (Checks (fuel + 6) true
          [("generation", .whole .u64, none), ("query", Query.shape, none),
           ("entries", .list ListEntry.shape, none),
           ("warnings", .list PluginWarning.shape, some (.array []))])
          [("generation", .ofNat g), ("query", q.toJson), ("entries", .array (es.map ListEntry.toJson)),
            ("warnings", .array ((w :: ws).map PluginWarning.toJson))]
          [("generation", .ofNat g), ("query", q.toJson),
            ("entries", .array (es.map ListEntry.canonical)),
            ("warnings", .array ((w :: ws).map PluginWarning.toJson))] := by
        exact .cons ⟨rfl, _, rfl, by simp [Value.ofNat, decodeWith_whole hg]⟩
          (.cons ⟨rfl, _, rfl, Query.decodeWith_toJson q⟩
          (.cons ⟨rfl, _, rfl, hentries⟩ (.cons ⟨rfl, _, rfl, hwarnings⟩ .nil)))
      exact decodeRecord_filled (by simp) hchecks (by simp [Filled])
  | stateChanged id s =>
    refine decodeWith_tagged_object (by simp) rfl ?_
    rw [decodeWith_object_record]
    refine decodeRecord_filled ?_ (List.forall₂_same.2 ?_) ?_
    · simp
    · simp [Checks, decodeWith_text, PluginState.decodeWith_toJson]
    · simp [Filled]

theorem ofCanonical_canonical (u : EngineUpdate) : ofCanonical u.canonical = u := by
  cases u with
  | results g q es ws =>
    simp [canonical, ofCanonical, Value.textAt, Value.natAt, Value.itemsAt, Value.get,
      Value.field?, Value.lookup, Value.ofNat, Query.ofCanonical_toJson,
      ListEntry.ofCanonical_comp_canonical, PluginWarning.ofCanonical_comp_toJson]
  | stateChanged id s =>
    simp [canonical, ofCanonical, toJson, Value.textAt, Value.get, Value.field?, Value.lookup,
      PluginState.ofCanonical_toJson]

/-- **An update decodes from its document.** -/
theorem decode_toJson {u : EngineUpdate} (hu : u.Fits) : decode u.toJson = .ok u := by
  have hdepth : shape.depth = 8 := rfl
  simp [decode, Shape.decode, hdepth, decodeWith_toJson hu, Except.map, ofCanonical_canonical]

end EngineUpdate

/-! ## History entries -/

/-- **An entry whose numbers fit decodes from its document.** -/
theorem HistoryEntry.decode_toJson {e : HistoryEntry} (he : e.Fits) : decode e.toJson = .ok e := by
  have hdepth : shape.depth = 3 := rfl
  rw [decode, Shape.decode, hdepth, toJson, decodeWith_pairs he]
  simp [Except.map, ofCanonical, pairs, ResultKey.ofCanonical, ResultKey.toJson, ResultKey.pairs, Value.textAt, Value.natAt, Value.get,
    Value.field?, Value.lookup, Value.ofNat]

/-! ## Configuration -/

/-- The weight boost fits the signed 64-bit range it is written in. -/
def PluginSettings.Fits (s : PluginSettings) : Prop := Width.i64.fits s.weightBoost = true

/-- The counts fit the unsigned widths they are written in. -/
def SearchConfig.Fits (s : SearchConfig) : Prop :=
  Width.usize.fits s.maxResults = true ∧ Width.u64.fits s.pluginTimeoutMs = true

/-- The capacity, ceiling and half-way count fit the widths they are written in. -/
def HistoryConfig.Fits (h : HistoryConfig) : Prop :=
  Width.usize.fits h.capacity = true ∧ Width.i64.fits h.boostCap = true ∧
    Width.u32.fits h.boostHalfCount = true

/-- Every section and every plugin's settings fit. -/
def Config.Fits (c : Config) : Prop := c.search.Fits ∧ c.history.Fits ∧ ∀ p ∈ c.plugins, p.Fits

theorem PluginSettings.decodeWith_toJson {s : PluginSettings} (hs : s.Fits) :
    decodeWith (fuel + 2) buffered shape s.toJson = .ok s.toJson := by
  rw [shape, toJson, decodeWith_object_record]
  refine decodeRecord_filled ?_ (List.forall₂_same.2 ?_) ?_
  · simp
  · simp [Checks, decodeWith_text, decodeWith_flag, decodeWith_ofInt hs]
  · simp [Filled]

theorem SearchConfig.decodeWith_toJson {s : SearchConfig} (hs : s.Fits) :
    decodeWith (fuel + 2) buffered shape s.toJson = .ok s.toJson := by
  rw [shape, toJson, decodeWith_object_record]
  refine decodeRecord_filled ?_ (List.forall₂_same.2 ?_) ?_
  · simp
  · simp [Checks, Value.ofNat, decodeWith_whole hs.1, decodeWith_whole hs.2, decodeWith_flag]
  · simp [Filled]

theorem HistoryConfig.decodeWith_toJson {h : HistoryConfig} (hh : h.Fits) :
    decodeWith (fuel + 2) buffered shape h.toJson = .ok h.toJson := by
  rw [shape, toJson, decodeWith_object_record]
  refine decodeRecord_filled ?_ (List.forall₂_same.2 ?_) ?_
  · simp
  · simp [Checks, Value.ofNat, decodeWith_whole hh.1, decodeWith_ofInt hh.2.1,
      decodeWith_whole hh.2.2, decodeWith_real]
  · simp [Filled]

theorem PluginSettings.ofCanonical_toJson (s : PluginSettings) : ofCanonical s.toJson = s := by
  simp only [ofCanonical]
  rw [Value.intAt_ofInt (i := s.weightBoost) (by simp [toJson, Value.get, Value.field?, Value.lookup])]
  simp [toJson, Value.textAt, Value.flagAt, Value.get, Value.field?, Value.lookup]

theorem PluginSettings.ofCanonical_comp_toJson : ofCanonical ∘ toJson = fun s => s :=
  funext ofCanonical_toJson

theorem SearchConfig.ofCanonical_toJson (s : SearchConfig) : ofCanonical s.toJson = s := by
  simp [ofCanonical, toJson, Value.natAt, Value.flagAt, Value.get, Value.field?, Value.lookup,
    Value.ofNat]

theorem HistoryConfig.ofCanonical_toJson (h : HistoryConfig) : ofCanonical h.toJson = h := by
  simp only [ofCanonical]
  rw [Value.intAt_ofInt (i := h.boostCap) (by simp [toJson, Value.get, Value.field?, Value.lookup])]
  simp [toJson, Value.natAt, Value.realAt, Value.get, Value.field?, Value.lookup, Value.ofNat]

namespace Config

theorem decodeWith_toJson {c : Config} (hc : c.Fits) :
    decodeWith (fuel + 4) buffered shape c.toJson = .ok c.toJson := by
  have hplugins : decodeWith (fuel + 3) buffered (.list PluginSettings.shape)
      (.array (c.plugins.map PluginSettings.toJson)) = .ok (.array (c.plugins.map PluginSettings.toJson)) :=
    decodeWith_list_map fun p hp => PluginSettings.decodeWith_toJson (hc.2.2 p hp)
  rw [shape, toJson, decodeWith_object_record]
  refine decodeRecord_filled ?_ (List.forall₂_same.2 ?_) ?_
  · simp
  · simp [Checks, SearchConfig.decodeWith_toJson hc.1, HistoryConfig.decodeWith_toJson hc.2.1,
      hplugins]
  · simp [Filled]

theorem ofCanonical_toJson (c : Config) : ofCanonical c.toJson = c := by
  simp [ofCanonical, toJson, Value.itemsAt, Value.get, Value.field?, Value.lookup,
    SearchConfig.ofCanonical_toJson, HistoryConfig.ofCanonical_toJson,
    PluginSettings.ofCanonical_comp_toJson]

/-- **A configuration decodes from its document.** -/
theorem decode_toJson {c : Config} (hc : c.Fits) : decode c.toJson = .ok c := by
  have hdepth : shape.depth = 4 := rfl
  simp [decode, Shape.decode, hdepth, decodeWith_toJson hc, Except.map, ofCanonical_toJson]

end Config

end Launcher
