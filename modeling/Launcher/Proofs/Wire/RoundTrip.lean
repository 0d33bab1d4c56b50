import Launcher.Proofs.Wire.Documents
import Launcher.Proofs.Json.Pretty

/-!
# Every wire format reads back

The documents the launcher exchanges decode to the values they were written from, for every
value whose numbers fit the widths they are written in: strings of any characters, whole numbers
over their full ranges, context data of any kind. The two formats read from text read back from
their text: a journal line, which also holds no line break, and the configuration file, written
with indentation and read in one pass, given that its compaction threshold reads back from the
numeral written for it (`ReadsBack`, which fails for the non-finite doubles written as `null`).

* `PluginSettings.shaped_toJson`, `SearchConfig.shaped_toJson`, `HistoryConfig.shaped_toJson`,
  `Config.shaped_toJson` — a configuration's document is shaped like the configuration's shape;
* `Config.readText_render` — a configuration reads back from the text of its file;
* `T.legible_toJson` — every other document reads back from its compact text, once the context
  data of the items it carries does (`contextDepth`);
* `wire_formats_round_trip` — every format, collected, as documents and as texts.
-/

namespace Launcher

open Json

/-! ## The configuration file -/

theorem PluginSettings.shaped_toJson {s : PluginSettings} (hs : s.Fits) (depth : Nat) :
    Shaped (depth + 2) shape s.toJson := by
  rw [shape, toJson]
  exact Shaped.record_of_forall₂ (by simp)
    (.cons ⟨rfl, .text _ _⟩ (.cons ⟨rfl, .text _ _⟩ (.cons ⟨rfl, .flag _⟩
      (.cons ⟨rfl, .ofInt hs⟩ (.cons ⟨rfl, .flag _⟩ .nil)))))

theorem SearchConfig.shaped_toJson {s : SearchConfig} (hs : s.Fits) (depth : Nat) :
    Shaped (depth + 2) shape s.toJson := by
  rw [shape, toJson]
  exact Shaped.record_of_forall₂ (by simp)
    (.cons ⟨rfl, .nat hs.1⟩ (.cons ⟨rfl, .nat hs.2⟩ (.cons ⟨rfl, .flag _⟩ .nil)))

theorem HistoryConfig.shaped_toJson {h : HistoryConfig} (hh : h.Fits)
    (hx : ReadsBack h.compactThreshold) (depth : Nat) : Shaped (depth + 2) shape h.toJson := by
  rw [shape, toJson]
  exact Shaped.record_of_forall₂ (by simp)
    (.cons ⟨rfl, .nat hh.1⟩ (.cons ⟨rfl, .ofInt hh.2.1⟩ (.cons ⟨rfl, .nat hh.2.2⟩
      (.cons ⟨rfl, .real hx⟩ .nil))))

/-- A configuration's document nests four levels: the sections, the plugin table, each plugin's
settings, their values. -/
theorem Config.shaped_toJson {c : Config} (hc : c.Fits) (hx : ReadsBack c.history.compactThreshold)
    (depth : Nat) : Shaped (depth + 4) shape c.toJson := by
  have hplugins : Shaped (depth + 3) (.list PluginSettings.shape)
      (.array (c.plugins.map PluginSettings.toJson)) := by
    refine .list fun v hv => ?_
    obtain ⟨p, hp, rfl⟩ := List.mem_map.1 hv
    exact PluginSettings.shaped_toJson (hc.2.2 p hp) depth
  rw [shape, toJson]
  exact Shaped.record_of_forall₂ (by simp)
    (.cons ⟨rfl, SearchConfig.shaped_toJson hc.1 (depth + 1)⟩
      (.cons ⟨rfl, HistoryConfig.shaped_toJson hc.2.1 hx (depth + 1)⟩ (.cons ⟨rfl, hplugins⟩ .nil)))

/-- **A configuration reads back from the text of its file**, when its numbers fit and its
compaction threshold reads back from its numeral. -/
theorem Config.readText_render {c : Config} (hc : c.Fits) (hx : ReadsBack c.history.compactThreshold) :
    readText c.render = .ok c := by
  have hshaped : Shaped depthLimit shape c.toJson := shaped_toJson hc hx 124
  simp [readText, render, Shape.readText_pretty hshaped, Except.map, ofCanonical_toJson]

/-! ## Documents read back from their compact text -/

namespace Json.Legible

variable {d : Nat}

/-- A whole number that fits any of the widths reads back. -/
theorem ofInt {w : Width} {i : Int} (h : w.fits i = true) : Legible d (.ofInt i) := by
  have h64 : Nat.pow 2 64 = 18446744073709551616 := rfl
  have h63 : Nat.pow 2 63 = 9223372036854775808 := rfl
  have h32 : Nat.pow 2 32 = 4294967296 := rfl
  have hw : -9223372036854775808 ≤ i ∧ i < 18446744073709551616 := by
    cases w <;> simp only [Width.fits, h64, h63, h32, Bool.and_eq_true, decide_eq_true_eq] at h <;>
      omega
  unfold Value.ofInt
  split
  · refine .nat ?_
    unfold u64Max
    omega
  · exact .neg (by rw [h63]; omega) (by omega)

theorem ofNat {w : Width} {n : Nat} (h : w.fits n = true) : Legible d (.ofNat n) := by
  have hn := ofInt (d := d) h
  rwa [Value.ofInt, if_pos (Int.natCast_nonneg n), Int.toNat_natCast] at hn

end Json.Legible

/-- How deep the context data of an item may nest for every document that carries the item to
read back from its text: an update holds it four levels down. -/
def contextDepth : Nat := depthLimit - 4

/-- The item a row carries, none for the marker. -/
def ListEntry.items : ListEntry → List ResultItem
  | .result r => [r.item]
  | .truncated .. => []

/-- The items an update carries in its rows. -/
def EngineUpdate.items : EngineUpdate → List ResultItem
  | .results _ _ es _ => es.flatMap ListEntry.items
  | .stateChanged .. => []

theorem PluginMetadata.legible_optionalPairs {d : Nat} (ps : List (String × Option String)) :
    ∀ e ∈ optionalPairs ps, Legible d e.2 := by
  intro e he
  obtain ⟨⟨k, o⟩, -, ho⟩ := List.mem_filterMap.1 he
  obtain ⟨s, -, rfl⟩ := Option.map_eq_some_iff.1 ho
  exact .string s

theorem PluginMetadata.legible_toJson {m : PluginMetadata} (hm : m.Fits) (d : Nat) :
    Legible (d + 2) m.toJson := by
  refine .object fun e he => ?_
  rcases List.mem_append.1 he with he | he
  · simp only [List.mem_cons, List.not_mem_nil, or_false] at he
    rcases he with rfl | rfl | rfl | rfl | rfl | rfl <;> simp [Legible.ofInt hm]
  · exact legible_optionalPairs _ e he

theorem Query.legible_toJson (q : Query) (d : Nat) : Legible (d + 2) q.toJson := by
  simp [toJson]

theorem ResultItem.legible_toJson {i : ResultItem} (hi : i.Fits) {d : Nat}
    (hc : Legible (d + 1) i.contextData) : Legible (d + 2) i.toJson := by
  obtain ⟨title, sub, ico, score, qtd, cd⟩ := i
  cases ico <;> cases qtd <;> cases cd <;> simp_all [toJson, Legible.ofInt hi]

theorem ResultIdentity.legible_toJson (r : ResultIdentity) (d : Nat) : Legible (d + 2) r.toJson := by
  simp [toJson, ResultKey.pairs]

theorem RankedResult.legible_toJson {r : RankedResult} (hr : r.Fits) {d : Nat}
    (hc : Legible (d + 1) r.item.contextData) : Legible (d + 3) r.toJson := by
  have hitem : Legible (d + 2) r.item.toJson := ResultItem.legible_toJson hr.1 hc
  simp [toJson, pairs, Legible.ofInt hr.2, hitem]

theorem ListEntry.legible_toJson {e : ListEntry} (he : e.Fits) {d : Nat}
    (hc : ∀ i ∈ e.items, Legible (d + 1) i.contextData) : Legible (d + 3) e.toJson := by
  cases e with
  | result r =>
    have hr : Legible (d + 3) r.toJson := RankedResult.legible_toJson he (hc r.item (by simp [items]))
    simp only [RankedResult.toJson, Legible.object_iff] at hr
    simp only [toJson, Legible.object_iff, List.forall_mem_cons]
    exact ⟨.string _, hr⟩
  | truncated pre post => simp [toJson, Legible.ofNat he.1, Legible.ofNat he.2]

theorem PluginState.legible_toJson (s : PluginState) (d : Nat) : Legible (d + 2) s.toJson := by
  cases s <;> simp [toJson]

theorem PluginWarning.legible_toJson {w : PluginWarning} (hw : w.Fits) (d : Nat) :
    Legible (d + 2) w.toJson := by
  have hkind : ∀ e ∈ w.kind.pairs, Legible (d + 1) e.2 := by
    cases hk : w.kind with
    | timeout ms =>
      have hms : Width.u64.fits ms = true := by rw [Fits, hk] at hw; exact hw
      simp [WarningKind.pairs, Legible.ofNat hms]
    | fault m => simp [WarningKind.pairs]
  simp only [toJson, Legible.object_iff, List.forall_mem_cons]
  exact ⟨.string _, hkind⟩

theorem EngineUpdate.legible_toJson {u : EngineUpdate} (hu : u.Fits) {d : Nat}
    (hc : ∀ i ∈ u.items, Legible (d + 1) i.contextData) : Legible (d + 5) u.toJson := by
  cases u with
  | results g q es ws =>
    obtain ⟨hg, hes, hws⟩ := hu
    have hentries : ∀ e ∈ es, Legible (d + 3) e.toJson := fun e he =>
      ListEntry.legible_toJson (hes e he) fun i hi =>
        hc i (List.mem_flatMap.2 ⟨e, he, hi⟩)
    have hwarnings : ∀ w ∈ ws, Legible (d + 3) w.toJson := fun w hw =>
      PluginWarning.legible_toJson (hws w hw) (d + 1)
    have hquery : Legible (d + 4) q.toJson := Query.legible_toJson q (d + 2)
    refine .object fun p hp => ?_
    rcases List.mem_append.1 hp with hp | hp
    · simp only [List.mem_cons, List.not_mem_nil, or_false] at hp
      rcases hp with rfl | rfl | rfl | rfl
      · exact .string _
      · exact Legible.ofNat hg
      · exact hquery
      · refine .array fun v hv => ?_
        obtain ⟨e, he, rfl⟩ := List.mem_map.1 hv
        exact hentries e he
    · split at hp
      · cases hp
      · rw [List.mem_singleton] at hp
        subst hp
        refine .array fun v hv => ?_
        obtain ⟨w, hw, rfl⟩ := List.mem_map.1 hv
        exact hwarnings w hw
  | stateChanged id s =>
    have hs : Legible (d + 4) s.toJson := PluginState.legible_toJson s (d + 2)
    simp [toJson, hs]

theorem HistoryEntry.legible_toJson {e : HistoryEntry} (he : e.Fits) (d : Nat) :
    Legible (d + 3) e.toJson := by
  simp [toJson, pairs, ResultKey.toJson, ResultKey.pairs, Legible.ofNat_lt he.2,
    Legible.ofNat_lt (lt_trans he.1 (by decide))]

/-- A value whose legible document decodes to it also reads back from that document's compact
text. -/
theorem reads_back_of_legible {α : Type} {decode : Value → Except String α} {v : Value} {x : α}
    (hd : decode v = .ok x) (hv : Legible depthLimit v) :
    decode v = .ok x ∧ (Value.parseText v.compact >>= decode) = .ok x :=
  ⟨hd, (parseText_compact_bind hv).trans hd⟩

/-- Context data legible where an update holds it is legible wherever the item sits higher. -/
theorem legible_contextData {i : ResultItem} (hc : Legible contextDepth i.contextData) {d : Nat}
    (hd : 123 ≤ d) : Legible (d + 1) i.contextData :=
  hc.mono (by unfold contextDepth depthLimit; omega)

/-! ## All formats -/

/-- **Every wire format reads back.** Each document decodes to the value it was written from
whenever the value's numbers fit their widths, and so does its compact text, read and then
decoded, when the context data of the items it carries nests no deeper than `contextDepth`; a
journal line reads back as its record and holds no line break; a configuration reads back from
its document and, when its compaction threshold reads back from its numeral, from the text of
its file. -/
theorem wire_formats_round_trip :
    (∀ m : PluginMetadata, m.Fits → PluginMetadata.decode m.toJson = .ok m ∧
      (Value.parseText m.toJson.compact >>= PluginMetadata.decode) = .ok m) ∧
    (∀ q : Query, Query.decode q.toJson = .ok q ∧
      (Value.parseText q.toJson.compact >>= Query.decode) = .ok q) ∧
    (∀ i : ResultItem, i.Fits → ResultItem.decode i.toJson = .ok i ∧
      (Legible contextDepth i.contextData →
        (Value.parseText i.toJson.compact >>= ResultItem.decode) = .ok i)) ∧
    (∀ r : ResultIdentity, ResultIdentity.decode r.toJson = .ok r ∧
      (Value.parseText r.toJson.compact >>= ResultIdentity.decode) = .ok r) ∧
    (∀ r : RankedResult, r.Fits → RankedResult.decode r.toJson = .ok r ∧
      (Legible contextDepth r.item.contextData →
        (Value.parseText r.toJson.compact >>= RankedResult.decode) = .ok r)) ∧
    (∀ e : ListEntry, e.Fits → ListEntry.decode e.toJson = .ok e ∧
      ((∀ i ∈ e.items, Legible contextDepth i.contextData) →
        (Value.parseText e.toJson.compact >>= ListEntry.decode) = .ok e)) ∧
    (∀ w : PluginWarning, w.Fits → PluginWarning.decode w.toJson = .ok w ∧
      (Value.parseText w.toJson.compact >>= PluginWarning.decode) = .ok w) ∧
    (∀ s : PluginState, PluginState.decode s.toJson = .ok s ∧
      (Value.parseText s.toJson.compact >>= PluginState.decode) = .ok s) ∧
    (∀ u : EngineUpdate, u.Fits → EngineUpdate.decode u.toJson = .ok u ∧
      ((∀ i ∈ u.items, Legible contextDepth i.contextData) →
        (Value.parseText u.toJson.compact >>= EngineUpdate.decode) = .ok u)) ∧
    (∀ e : HistoryEntry, e.Fits → HistoryEntry.decode e.toJson = .ok e ∧
      (Value.parseText e.toJson.compact >>= HistoryEntry.decode) = .ok e) ∧
    (∀ r : JournalRecord, r.Fits → JournalRecord.ofLine? r.line = some r ∧ '\n' ∉ r.line.toList) ∧
    (∀ c : Config, c.Fits → Config.decode c.toJson = .ok c ∧
      (ReadsBack c.history.compactThreshold → Config.readText c.render = .ok c)) := by
  refine ⟨fun m hm => ?_, fun q => ?_, fun i hi => ?_, fun r => ?_, fun r hr => ?_,
    fun e he => ?_, fun w hw => ?_, fun s => ?_, fun u hu => ?_, fun e he => ?_,
    fun r hr => ⟨JournalRecord.ofLine?_line hr, JournalRecord.newline_not_mem_line hr⟩,
    fun c hc => ⟨Config.decode_toJson hc, Config.readText_render hc⟩⟩
  · exact reads_back_of_legible (PluginMetadata.decode_toJson hm) (PluginMetadata.legible_toJson hm 126)
  · exact reads_back_of_legible (Query.decode_toJson q) (Query.legible_toJson q 126)
  · have hd := ResultItem.decode_toJson hi
    exact ⟨hd, fun hc => (reads_back_of_legible hd
      (ResultItem.legible_toJson hi (legible_contextData hc (d := 126) (by omega)))).2⟩
  · exact reads_back_of_legible (ResultIdentity.decode_toJson r) (ResultIdentity.legible_toJson r 126)
  · have hd := RankedResult.decode_toJson hr
    exact ⟨hd, fun hc => (reads_back_of_legible hd
      (RankedResult.legible_toJson hr (legible_contextData hc (d := 125) (by omega)))).2⟩
  · have hd := ListEntry.decode_toJson he
    exact ⟨hd, fun hc => (reads_back_of_legible hd (ListEntry.legible_toJson he
      fun i hi => legible_contextData (hc i hi) (d := 125) (by omega))).2⟩
  · exact reads_back_of_legible (PluginWarning.decode_toJson hw) (PluginWarning.legible_toJson hw 126)
  · exact reads_back_of_legible (PluginState.decode_toJson s) (PluginState.legible_toJson s 126)
  · have hd := EngineUpdate.decode_toJson hu
    exact ⟨hd, fun hc => (reads_back_of_legible hd (EngineUpdate.legible_toJson hu
      fun i hi => legible_contextData (hc i hi) (d := 123) (by omega))).2⟩
  · exact reads_back_of_legible (HistoryEntry.decode_toJson he) (HistoryEntry.legible_toJson he 125)

/-- The default configuration reads back from its file: its compaction threshold, two, reads back
from its numeral. -/
theorem default_config_reads_back :
    ReadsBack defaultCompactThreshold ∧ Config.readText ({} : Config).render = .ok {} := by
  have hx : ReadsBack defaultCompactThreshold := by
    unfold ReadsBack
    rw [readValue]
    rfl
  have hfits : ({} : Config).Fits := ⟨⟨rfl, rfl⟩, ⟨rfl, rfl, rfl⟩, fun p hp => by cases hp⟩
  exact ⟨hx, (wire_formats_round_trip.2.2.2.2.2.2.2.2.2.2.2 {} hfits).2 hx⟩

end Launcher
