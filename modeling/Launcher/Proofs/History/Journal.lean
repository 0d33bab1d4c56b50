import Launcher.History.Store
import Launcher.Proofs.Json.Written
import Launcher.Proofs.Json.Canonical
import Launcher.Proofs.Json.Checked
import Launcher.Proofs.Text.Lines

/-!
# Journal lines

A record written to the journal reads back as itself, and a record read from the journal is one
that could have been written:

* `HistoryEntry.Fits` — the counts of an entry fit the widths its line is checked against;
* `JournalRecord.ofLine?_line` — a record whose numbers fit reads back from its line;
* `JournalRecord.fits_of_ofLine?` — a record read from any line has numbers that fit, so writing
  it out again loses nothing;
* `JournalRecord.newline_not_mem_line`, `JournalRecord.isEmpty_trim_line`,
  `JournalRecord.endsWith_cr_line` — a record's line holds no break, is not blank and does not
  end in a carriage return;
* `JournalRecord.ofLine?_append_cr`, `Text.isEmpty_trim_append_cr` — a carriage return after a
  line changes neither what the line reads as nor whether it is blank;
* `JournalRecord.ofLine?_brace_line` — a record's line after a stray brace reads as no record.
-/

namespace Launcher

open Json

/-! ## Blank lines -/

namespace Text

theorem all_dropWhile (p : Char → Bool) (l : List Char) : (l.dropWhile p).all p = l.all p := by
  induction l with
  | nil => rfl
  | cons c l ih => by_cases hc : p c = true <;> simp [hc, ih]

theorem dropWhile_eq_nil (p : Char → Bool) (l : List Char) : (l.dropWhile p = []) = (l.all p = true) := by
  induction l with
  | nil => simp
  | cons c l ih => by_cases hc : p c = true <;> simp [hc, ih]

/-- A text trims to nothing exactly when all its characters are blank. -/
theorem isEmpty_trim (s : String) : (trim s).isEmpty = s.toList.all isBlank := by
  have hnil : ∀ l : List Char, (l.dropWhile isBlank = []) = (l.all isBlank = true) :=
    dropWhile_eq_nil isBlank
  rw [Bool.eq_iff_iff, String.isEmpty_iff, ← all_dropWhile isBlank s.toList]
  simp only [trim, trimEnd, trimStart, dropBlanks, String.toList_ofList, ← String.toList_inj,
    String.toList_empty, List.reverse_eq_nil_iff, hnil, List.all_reverse]

/-- A carriage return after a text leaves it blank or not. -/
theorem isEmpty_trim_append_cr (l : String) : (trim (l ++ "\r")).isEmpty = (trim l).isEmpty := by
  have hcr : isBlank '\r' = true := by decide
  simp [isEmpty_trim, List.all_append, hcr]

end Text

namespace JournalRecord

/-- A carriage return after a line does not change what it reads as: the reader passes over
trailing blanks. -/
theorem ofLine?_append_cr (l : String) : ofLine? (l ++ "\r") = ofLine? l := by
  have hb : IsBlank '\r' := by unfold IsBlank; decide
  have hiff := fun v => Value.parse_append_blank hb l v
  unfold ofLine?
  cases hl : Value.parse l with
  | ok v =>
    rw [show l ++ "\r" = l ++ String.singleton '\r' from rfl, (hiff v).2 hl]
  | error e =>
    cases hcr : Value.parse (l ++ String.singleton '\r') with
    | ok v =>
      have := (hiff v).1 hcr
      rw [hl] at this
      cases this
    | error e' => rw [show l ++ "\r" = l ++ String.singleton '\r' from rfl, hcr]

end JournalRecord

/-! ## Records read back -/

/-- The numbers of an entry fit the widths its journal line is checked against. -/
def HistoryEntry.Fits (e : HistoryEntry) : Prop := e.selectionCount < 2 ^ 32 ∧ e.lastSelectedAt < 2 ^ 64

/-- The numbers of a record fit the widths its journal line is checked against. -/
def JournalRecord.Fits : JournalRecord → Prop
  | .select e => e.Fits
  | .forget _ => True

variable {fuel : Nat} {buffered : Bool}

theorem ResultKey.decodeWith_toJson (k : ResultKey) :
    decodeWith (fuel + 2) buffered ResultKey.shape k.toJson = .ok k.toJson := by
  rw [ResultKey.shape, ResultKey.toJson, decodeWith_record]
  apply decodeRecord_canonical
  · rfl
  · simp [ResultKey.pairs]
  · intro p hp
    simp only [ResultKey.pairs, List.mem_cons, List.not_mem_nil, or_false] at hp
    rcases hp with rfl | rfl
    · exact ⟨_, rfl, decodeWith_text _ _⟩
    · exact ⟨_, rfl, decodeWith_text _ _⟩

theorem HistoryEntry.decodeWith_pairs {e : HistoryEntry} (he : e.Fits) :
    decodeWith (fuel + 3) buffered HistoryEntry.shape (.object e.pairs) = .ok (.object e.pairs) := by
  have hcount : Width.u32.fits e.selectionCount = true := by
    have := he.1
    simp [Width.fits]
    omega
  have hat : Width.u64.fits e.lastSelectedAt = true := by
    have := he.2
    simp [Width.fits]
    omega
  rw [HistoryEntry.shape, decodeWith_record]
  apply decodeRecord_canonical
  · rfl
  · simp [HistoryEntry.pairs]
  · intro p hp
    simp only [HistoryEntry.pairs, List.mem_cons, List.not_mem_nil, or_false] at hp
    rcases hp with rfl | rfl | rfl | rfl | rfl
    · exact ⟨_, rfl, decodeWith_text _ _⟩
    · exact ⟨_, rfl, decodeWith_text _ _⟩
    · exact ⟨_, rfl, e.resultKey.decodeWith_toJson⟩
    · exact ⟨_, rfl, decodeWith_whole hcount⟩
    · exact ⟨_, rfl, decodeWith_whole hat⟩

namespace JournalRecord

/-- A record whose numbers fit checks to its own document. -/
theorem decode_toJson {r : JournalRecord} (hr : r.Fits) : shape.decode r.toJson = .ok r.toJson := by
  have hdepth : shape.depth = 4 := rfl
  rw [Shape.decode, hdepth, shape]
  cases r with
  | select e =>
    apply decodeWith_tagged_canonical
    · simp [HistoryEntry.pairs]
    · rfl
    · exact HistoryEntry.decodeWith_pairs hr
  | forget q =>
    apply decodeWith_tagged_canonical
    · simp
    · rfl
    · rw [decodeWith_record]
      apply decodeRecord_canonical
      · rfl
      · simp
      · intro p hp
        simp only [List.mem_cons, List.not_mem_nil, or_false] at hp
        subst hp
        exact ⟨_, rfl, decodeWith_text _ _⟩

/-- Reading a record's document gives the record. -/
theorem ofCanonical_toJson (r : JournalRecord) : ofCanonical r.toJson = r := by
  cases r with
  | select e =>
    obtain ⟨q, p, ⟨t, st⟩, n, at_⟩ := e
    simp [ofCanonical, toJson, HistoryEntry.ofCanonical, HistoryEntry.pairs, Value.textAt,
      Value.natAt, Value.get, Value.field?, Value.lookup, ResultKey.ofCanonical, ResultKey.toJson,
      ResultKey.pairs, Value.ofNat]
  | forget q =>
    simp [ofCanonical, toJson, Value.textAt, Value.get, Value.field?, Value.lookup]

theorem toJson_plain {r : JournalRecord} (hr : r.Fits) : Plain depthLimit r.toJson := by
  have hmax : u64Max = 2 ^ 64 - 1 := rfl
  show Plain (126 + 2) r.toJson
  cases r with
  | select e =>
    apply Plain.object
    intro p hp
    simp only [HistoryEntry.pairs, List.mem_cons, List.not_mem_nil, or_false] at hp
    rcases hp with rfl | rfl | rfl | rfl | rfl | rfl
    · exact .string _
    · exact .string _
    · exact .string _
    · show Plain (125 + 2) (.object e.resultKey.pairs)
      apply Plain.object
      intro k hk
      simp only [ResultKey.pairs, List.mem_cons, List.not_mem_nil, or_false] at hk
      rcases hk with rfl | rfl
      · exact .string _
      · exact .string _
    · exact .nat (by have := hr.1; rw [hmax]; omega)
    · exact .nat (by have := hr.2; rw [hmax]; omega)
  | forget q =>
    apply Plain.object
    intro p hp
    simp only [List.mem_cons, List.not_mem_nil, or_false] at hp
    rcases hp with rfl | rfl
    · exact .string _
    · exact .string _

/-- **A record whose numbers fit reads back from its line.** -/
theorem ofLine?_line {r : JournalRecord} (hr : r.Fits) : ofLine? r.line = some r := by
  simp [ofLine?, line, Value.parse_compact (toJson_plain hr), decode_toJson hr,
    ofCanonical_toJson]

/-! ## The text of a line -/

/-- A record's line is an object: a brace, the pairs, a brace. -/
theorem line_toList (r : JournalRecord) : ∃ body, r.line.toList = '{' :: (body ++ ['}']) := by
  obtain ⟨es, hes⟩ : ∃ es, r.toJson = .object es := by
    cases r
    · exact ⟨_, rfl⟩
    · exact ⟨_, rfl⟩
  exact ⟨(Value.compactEntries es).toList, by simp [line, hes, Value.compact]⟩

/-- A record's line holds no line break. -/
theorem newline_not_mem_line {r : JournalRecord} (hr : r.Fits) : '\n' ∉ r.line.toList :=
  newline_not_mem_compact (toJson_plain hr)

/-- A record's line is not blank: it starts with a brace. -/
theorem isEmpty_trim_line (r : JournalRecord) : (Text.trim r.line).isEmpty = false := by
  have hbrace : Text.isBlank '{' = false := by decide
  obtain ⟨body, hbody⟩ := line_toList r
  rw [Text.isEmpty_trim, hbody]
  simp [hbrace]

/-- A record's line ends with a brace, not a carriage return. -/
theorem endsWith_cr_line (r : JournalRecord) : r.line.endsWith "\r" = false := by
  obtain ⟨body, hbody⟩ := line_toList r
  have hlast : ('{' :: (body ++ ['}'])).getLast? = some '}' := by
    rw [← List.cons_append, List.getLast?_concat]
  rw [← Bool.not_eq_true, show ("\r" : String) = String.singleton '\r' from rfl,
    endsWith_singleton_iff, hbody, hlast]
  decide

/-- A record's line after a stray brace reads as no record: the first brace opens an object
whose first key would have to be a string, and finds a second brace. -/
theorem ofLine?_brace_line (r : JournalRecord) : ofLine? ("\x7b" ++ r.line) = none := by
  obtain ⟨body, hbody⟩ := line_toList r
  have hlist : "\x7b" ++ r.line = String.ofList ('{' :: '{' :: (body ++ ['}'])) := by
    rw [← String.toList_inj, String.toList_append, hbody]
    simp
  obtain ⟨f, hf⟩ : ∃ f, readValue depthLimit ('{' :: '{' :: (body ++ ['}'])) = .error f := by
    have hb : skipBlank ('{' :: '{' :: (body ++ ['}'])) = '{' :: '{' :: (body ++ ['}']) := rfl
    have hb' : skipBlank ('{' :: (body ++ ['}'])) = '{' :: (body ++ ['}']) := rfl
    have hd : (digitValue '{').isSome = false := by decide
    rw [readValue, hb]
    simp only [depthLimit]
    rw [readEntries, hb']
    simp [hd]
  rw [hlist]
  simp [ofLine?, Value.parse, hf, bind, Except.bind]

/-! ## Records read from any line -/

theorem lookup_cons_of_ne {k key : String} {v : Value} (h : k ≠ key) (l : List (String × Value)) :
    Value.lookup ((k, v) :: l) key = Value.lookup l key := by
  have hne : (k == key) = false := by simpa using h
  simp [Value.lookup, List.find?_append, hne]

theorem mem_of_lookup {l : List (String × Value)} {key : String} {v : Value}
    (h : Value.lookup l key = some v) : (key, v) ∈ l := by
  simp only [Value.lookup, Option.map_eq_some_iff] at h
  obtain ⟨p, hp, rfl⟩ := h
  have hkey : p.1 = key := by simpa using List.find?_some hp
  have hmem := List.mem_reverse.1 (List.mem_of_find?_eq_some hp)
  rw [← hkey]
  exact hmem

/-- A number read from an object is below a bound when every whole number stored under its key
is. -/
theorem natAt_lt {fs : List (String × Value)} {key : String} {b : Nat} (hb : 0 < b)
    (h : ∀ v, (key, v) ∈ fs → ∀ n, v = .number (.nat n) → n < b) :
    (Value.object fs).natAt key < b := by
  have hget : (Value.object fs).get key = (Value.lookup fs key).getD .null := rfl
  unfold Value.natAt
  rw [hget]
  cases hl : Value.lookup fs key with
  | none => exact hb
  | some v =>
    rw [Option.getD_some]
    cases v with
    | number num =>
      cases num with
      | nat n => exact h _ (mem_of_lookup hl) n rfl
      | neg _ => exact hb
      | real _ => exact hb
    | _ => exact hb

/-- A pair of a checked record under a key whose only field is a whole number of width `w`
holds, if a whole number, one that fits `w`. -/
theorem fieldValue_whole {fields : List (String × Shape × Option Value)} {key : String}
    {w : Width} {v : Value}
    (hfield : ∀ fld ∈ fields, fld.1 = key → fld = (key, .whole w, none))
    (h : FieldValue fuel buffered fields (key, v)) : ∀ n, v = .number (.nat n) → w.fits n = true := by
  obtain ⟨fld, hmem, hkey, hval⟩ := h
  obtain rfl := hfield fld hmem hkey
  rcases hval with ⟨x, hx⟩ | hd
  · intro n hn
    subst hn
    exact decodeWith_whole_fits hx
  · cases hd

/-- Every variant of a record checks to an object. -/
theorem variant_objects :
    ∀ vname s, (vname, some s) ∈ [("select", some HistoryEntry.shape),
      ("forget", some (Shape.record "struct variant JournalRecord::Forget"
        [("queryText", .text "a string", none)] none))] →
      ∀ x c, decodeWith 4 true s x = .ok c → ∃ fs, c = .object fs := by
  intro vname s hmem x c hc
  simp only [List.mem_cons, List.not_mem_nil, or_false, Prod.mk.injEq, Option.some.injEq] at hmem
  rcases hmem with ⟨-, rfl⟩ | ⟨-, rfl⟩
  · obtain ⟨vals, rfl, -⟩ := decodeWith_record_values hc
    exact ⟨vals, rfl⟩
  · obtain ⟨vals, rfl, -⟩ := decodeWith_record_values hc
    exact ⟨vals, rfl⟩

/-- A checked record document stores, under a key that only a whole-number field of a variant
uses, a number that fits that field's width. -/
theorem natAt_decode {v c : Value} (h : shape.decode v = .ok c) {key : String} {w : Width}
    (hentry : ∀ fld ∈ HistoryEntry.fields, fld.1 = key → fld = (key, .whole w, none))
    (hop : key ≠ "op") (hq : key ≠ "queryText") {b : Nat} (hb : 0 < b)
    (hfits : ∀ n : Nat, w.fits n = true → n < b) : c.natAt key < b := by
  have hdepth : shape.depth = 4 := rfl
  rw [Shape.decode, hdepth, shape] at h
  obtain ⟨vname, content, fs, hmem, rfl, -, hcontent⟩ := decodeWith_tagged_content variant_objects h
  have hlook : Value.natAt (.object (("op", .string vname) :: fs)) key =
      Value.natAt (.object fs) key := by
    simp [Value.natAt, Value.get, Value.field?, lookup_cons_of_ne (Ne.symm hop)]
  rw [hlook]
  apply natAt_lt hb
  intro u hu n hn
  simp only [List.mem_cons, List.not_mem_nil, or_false, Prod.mk.injEq] at hmem
  rcases hmem with ⟨-, rfl⟩ | ⟨-, rfl⟩
  · obtain ⟨x, hx⟩ := hcontent _ rfl
    obtain ⟨vals, hvals, hfv⟩ := decodeWith_record_values hx
    cases hvals
    exact hfits n (fieldValue_whole hentry (hfv _ hu) n hn)
  · obtain ⟨x, hx⟩ := hcontent _ rfl
    obtain ⟨vals, hvals, hfv⟩ := decodeWith_record_values hx
    cases hvals
    obtain ⟨fld, hfld, hkey, -⟩ := hfv _ hu
    simp only [List.mem_cons, List.not_mem_nil, or_false] at hfld
    subst hfld
    exact absurd hkey.symm hq

/-- **A record read from any line has numbers that fit**: the checks of its line bound them. -/
theorem fits_of_ofLine? {l : String} {r : JournalRecord} (h : ofLine? l = some r) : r.Fits := by
  have hcount : ∀ fld ∈ HistoryEntry.fields, fld.1 = "selectionCount" →
      fld = ("selectionCount", .whole .u32, none) := by
    intro fld hfld hkey
    simp only [HistoryEntry.fields, List.mem_cons, List.not_mem_nil, or_false] at hfld
    rcases hfld with rfl | rfl | rfl | rfl | rfl <;> simp_all
  have hat : ∀ fld ∈ HistoryEntry.fields, fld.1 = "lastSelectedAt" →
      fld = ("lastSelectedAt", .whole .u64, none) := by
    intro fld hfld hkey
    simp only [HistoryEntry.fields, List.mem_cons, List.not_mem_nil, or_false] at hfld
    rcases hfld with rfl | rfl | rfl | rfl | rfl <;> simp_all
  unfold ofLine? at h
  split at h
  · split at h
    · rename_i v _ c hc
      cases h
      unfold ofCanonical
      split
      · trivial
      · refine ⟨?_, ?_⟩
        · exact natAt_decode hc hcount (by decide) (by decide) (by decide)
            (fun n hn => by simp [Width.fits] at hn; omega)
        · exact natAt_decode hc hat (by decide) (by decide) (by decide)
            (fun n hn => by simp [Width.fits] at hn; omega)
    · cases h
  · cases h

end JournalRecord

end Launcher
