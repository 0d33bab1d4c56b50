import Launcher.Proofs.Json.Numerals

/-!
# Every legible document reads back from its compact text

`Written` covers the documents of the journal. The other documents the program writes hold
everything else a document can: null, booleans, negative numbers, doubles and arrays. A document
is `Legible` at a depth when each of its numbers is one the reader gives back (whole numbers in
their 64-bit ranges, doubles that read back) and it nests within the depth:

* `readValue_ok_head` — a document the reader accepts starts, after blanks, with a character
  that neither closes a list nor separates its elements;
* `readItems_written`, `readValue_array_written`, `readValue_object_written` — an array or an
  object reads back when each element, followed by anything that stops it, reads back;
* `readValue_compact_legible`, `Value.parse_compact_legible` — every legible document reads back
  from its compact form, leaving what follows unread; a whole compact text parses as its
  document;
* `Legible.object_iff`, `Legible.array_iff`, `Legible.mono` — legibility piece by piece, and
  kept at every greater depth; `parseText_compact_bind` — a typed reader after the text reader
  sees the document itself.
-/

namespace Launcher.Json

/-- Documents whose compact form reads back at a depth: the literals, whole numbers in the
ranges the reader keeps whole, doubles that read back, strings, and arrays and objects of them,
their elements one level deeper. -/
inductive Legible : Nat → Value → Prop
  | null {depth : Nat} : Legible depth .null
  | bool {depth : Nat} (b : Bool) : Legible depth (.bool b)
  | nat {depth n : Nat} (h : n ≤ u64Max) : Legible depth (.number (.nat n))
  | neg {depth : Nat} {n : Int} (hlow : -((Nat.pow 2 63 : Nat) : Int) ≤ n) (hneg : n < 0) :
      Legible depth (.number (.neg n))
  | real {depth : Nat} {x : Binary64} (h : ReadsBack x) : Legible depth (.number (.real x))
  | string {depth : Nat} (s : String) : Legible depth (.string s)
  | array {depth : Nat} {items : List Value} (h : ∀ v ∈ items, Legible (depth + 1) v) :
      Legible (depth + 2) (.array items)
  | object {depth : Nat} {entries : List (String × Value)}
      (h : ∀ e ∈ entries, Legible (depth + 1) e.2) : Legible (depth + 2) (.object entries)

/-! ## The first character of a document -/

theorem skipBlank_skipBlank (cs : List Char) : skipBlank (skipBlank cs) = skipBlank cs := by
  induction cs with
  | nil => rfl
  | cons c cs ih =>
    by_cases hc : IsBlank c
    · rw [skipBlank_blank hc, ih]
    · rw [skipBlank_cons_of_not_blank hc, skipBlank_cons_of_not_blank hc]

/-- The reader skips blanks before a document itself. -/
theorem readValue_skipBlank (depth : Nat) (cs : List Char) :
    readValue depth (skipBlank cs) = readValue depth cs := by
  rw [readValue, readValue, skipBlank_skipBlank]

/-- A document the reader accepts starts, after blanks, with neither `]` nor `,`. -/
theorem readValue_ok_head {depth : Nat} {cs r : List Char} {v : Value}
    (h : readValue depth cs = .ok (v, r)) :
    ∃ c u, skipBlank cs = c :: u ∧ c ≠ ']' ∧ c ≠ ',' := by
  rw [readValue] at h
  cases hsk : skipBlank cs with
  | nil =>
    rw [hsk] at h
    cases h
  | cons c u =>
    refine ⟨c, u, rfl, ?_, ?_⟩
    · rintro rfl
      rw [hsk] at h
      simp [digitValue] at h
    · rintro rfl
      rw [hsk] at h
      simp [digitValue] at h

/-! ## Arrays and objects -/

theorem stops_bracket (rest : List Char) : Stops (']' :: rest) := by
  intro x hx
  cases hx
  decide

theorem compactItems_cons (v : Value) (vs : List Value) :
    (Value.compactItems (v :: vs)).toList =
      v.compact.toList ++ vs.flatMap (fun w => ',' :: w.compact.toList) := by
  induction vs generalizing v with
  | nil => simp [Value.compactItems]
  | cons w vs ih =>
    rw [Value.compactItems, String.toList_append, String.toList_append, ih w]
    · simp
    · exact List.cons_ne_nil _ _

theorem length_le_itemsText (vs : List Value) :
    vs.length ≤ (vs.flatMap (fun w => ',' :: w.compact.toList)).length := by
  induction vs with
  | nil => exact Nat.le_refl _
  | cons x xs ih =>
    simp only [List.flatMap_cons, List.length_append, List.length_cons]
    omega

/-- An item's text, read where an item is due, adds the item and goes on after it. -/
theorem itemStep_item {depth fuel : Nat} {acc : List Value} {v : Value} {more : List Char}
    (hv : readValue depth (v.compact.toList ++ more) = .ok (v, more)) :
    itemStep depth fuel acc (skipBlank (v.compact.toList ++ more)) =
      readItems depth fuel false (v :: acc) more := by
  obtain ⟨c, u, hsk, hc, -⟩ := readValue_ok_head hv
  have hread : readValue depth (c :: u) = .ok (v, more) := by
    rw [← hsk, readValue_skipBlank, hv]
  rw [hsk]
  simp only [itemStep, hc, if_false, hread]

/-- The items of an array after its first one, each after a comma, then the closing bracket. -/
theorem readItems_written {depth : Nat} {vs : List Value}
    (hvs : ∀ v ∈ vs, ∀ more, Stops more →
      readValue depth (v.compact.toList ++ more) = .ok (v, more))
    (fuel : Nat) (hf : vs.length < fuel) (acc : List Value) (rest : List Char) :
    readItems depth fuel false acc (vs.flatMap (fun v => ',' :: v.compact.toList) ++ ']' :: rest) =
      .ok (.array (acc.reverse ++ vs), rest) := by
  induction vs generalizing fuel acc with
  | nil =>
    obtain ⟨f, rfl⟩ : ∃ f, fuel = f + 1 := ⟨fuel - 1, by simp at hf; omega⟩
    rw [readItems_succ, List.flatMap_nil, List.nil_append,
      skipBlank_cons_of_not_blank (by unfold IsBlank; decide)]
    simp
  | cons v vs ih =>
    obtain ⟨f, rfl⟩ : ∃ f, fuel = f + 1 := ⟨fuel - 1, by simp at hf; omega⟩
    simp only [List.length_cons] at hf
    have hmore : Stops (vs.flatMap (fun v => ',' :: v.compact.toList) ++ ']' :: rest) := by
      cases vs with
      | nil => exact stops_bracket rest
      | cons w ws => exact stops_cons (.inl rfl) _
    have hv := hvs v (List.mem_cons_self ..) _ hmore
    rw [readItems_succ]
    simp only [List.flatMap_cons, List.cons_append, List.append_assoc]
    rw [skipBlank_cons_of_not_blank (by unfold IsBlank; decide)]
    simp only [if_false, if_true, Bool.false_eq_true, show (',' : Char) ≠ ']' by decide]
    rw [itemStep_item hv, ih (fun x hx => hvs x (List.mem_cons_of_mem _ hx)) f (by omega) (v :: acc)]
    simp

/-- **An array reads back** when each item, followed by anything that stops it, reads back one
level deeper. -/
theorem readValue_array_written {d : Nat} {items : List Value}
    (hitems : ∀ v ∈ items, ∀ more, Stops more →
      readValue (d + 1) (v.compact.toList ++ more) = .ok (v, more)) (rest : List Char) :
    readValue (d + 2) ((Value.array items).compact.toList ++ rest) = .ok (.array items, rest) := by
  have hbracket : digitValue '[' = none := rfl
  have hbody : (Value.compact (.array items)).toList ++ rest =
      '[' :: ((Value.compactItems items).toList ++ ']' :: rest) := by
    simp [Value.compact]
  rw [hbody, readValue, skipBlank_cons_of_not_blank (by unfold IsBlank; decide)]
  simp only [hbracket, if_false, if_true, Option.isSome_none, Bool.false_eq_true]
  cases items with
  | nil =>
    simp only [Value.compactItems, String.toList_empty, List.nil_append, List.length_cons]
    rw [readItems_succ, skipBlank_cons_of_not_blank (by unfold IsBlank; decide)]
    simp
  | cons v vs =>
    have hmore : Stops (vs.flatMap (fun v => ',' :: v.compact.toList) ++ ']' :: rest) := by
      cases vs with
      | nil => exact stops_bracket rest
      | cons w ws => exact stops_cons (.inl rfl) _
    have hv := hitems v (List.mem_cons_self ..) _ hmore
    have hlen := length_le_itemsText vs
    rw [compactItems_cons, List.append_assoc, readItems_succ]
    obtain ⟨c, u, hsk, hc1, hc2⟩ := readValue_ok_head hv
    rw [hsk]
    simp only [hc1, hc2, if_false, if_true]
    rw [← hsk, itemStep_item hv,
      readItems_written (fun x hx more hm => hitems x (List.mem_cons_of_mem _ hx) more hm) _ ?_ [v] rest]
    · rfl
    · simp only [List.length_append, List.length_cons]
      omega

/-- **An object reads back** when each pair's value, followed by anything that stops it, reads
back one level deeper. -/
theorem readValue_object_written {d : Nat} {entries : List (String × Value)}
    (hentries : ∀ e ∈ entries, ∀ more, Stops more →
      readValue (d + 1) (e.2.compact.toList ++ more) = .ok (e.2, more)) (rest : List Char) :
    readValue (d + 2) ((Value.object entries).compact.toList ++ rest) =
      .ok (.object entries, rest) := by
  have hbrace : digitValue '{' = none := rfl
  have hbody : (Value.compact (.object entries)).toList ++ rest =
      '{' :: ((Value.compactEntries entries).toList ++ '}' :: rest) := by
    simp [Value.compact]
  rw [hbody, readValue, skipBlank_cons_of_not_blank (by unfold IsBlank; decide)]
  simp only [hbrace, if_false, if_true, Option.isSome_none, Bool.false_eq_true]
  cases entries with
  | nil =>
    simp only [Value.compactEntries, String.toList_empty, List.nil_append, List.length_cons]
    rw [readEntries_succ, skipBlank_cons_of_not_blank (by unfold IsBlank; decide)]
    simp
  | cons e es =>
    have hmore : Stops (es.flatMap (fun e => ',' :: pairChars e) ++ '}' :: rest) := by
      cases es with
      | nil => exact stops_cons (.inr rfl) rest
      | cons e' es' => exact stops_cons (.inl rfl) _
    have hv := hentries e (List.mem_cons_self ..) _ hmore
    have hlen := length_le_pairsText es
    rw [compactEntries_cons, List.append_assoc, readEntries_succ]
    obtain ⟨rest', hrest'⟩ : ∃ rest', pairChars e ++ (es.flatMap (fun e => ',' :: pairChars e) ++
        '}' :: rest) = '"' :: rest' := by
      simp only [pairChars, quote_toList, List.cons_append]
      exact ⟨_, rfl⟩
    rw [hrest', skipBlank_cons_of_not_blank (by unfold IsBlank; decide)]
    simp only [if_true, show ('"' : Char) ≠ '}' by decide, show ('"' : Char) ≠ ',' by decide,
      if_false]
    rw [← hrest', entryStep_pair hv,
      readEntries_written (fun x hx more hm => hentries x (List.mem_cons_of_mem _ hx) more hm) _ ?_
        [e] rest]
    · rfl
    · simp only [List.length_append, List.length_cons]
      omega

/-! ## Documents -/

/-- **A legible document reads back**, leaving what follows it unread. -/
theorem readValue_compact_legible {depth : Nat} {v : Value} (hv : Legible depth v)
    {rest : List Char} (hs : Stops rest) : readValue depth (v.compact.toList ++ rest) = .ok (v, rest) := by
  induction hv generalizing rest with
  | null =>
    rw [readValue]
    simp [Value.compact, skipBlank, readIdent, Except.map]
  | bool b =>
    rw [readValue]
    cases b <;> simp [Value.compact, skipBlank, readIdent, Except.map]
  | nat h => exact readValue_compact (.nat h) hs
  | neg hlow hneg =>
    rename_i n
    have hnum := readNumber_neg_toDigits (m := n.natAbs) (by omega) (by omega) hs
    have hval : -((n.natAbs : Nat) : Int) = n := by omega
    rw [hval] at hnum
    rw [Value.compact, render_neg_toList hneg, List.cons_append, readValue,
      skipBlank_cons_of_not_blank (by unfold IsBlank; decide)]
    simp [hnum, Except.map]
  | real h => exact h.readValue _ hs
  | string s => exact readValue_compact (.string s) hs
  | array h ih => exact readValue_array_written (fun v hv more hm => ih v hv hm) rest
  | object h ih => exact readValue_object_written (fun e he more hm => ih e he hm) rest

/-- **A whole compact text parses as its document.** -/
theorem Value.parse_compact_legible {v : Value} (hv : Legible depthLimit v) :
    Value.parse v.compact = .ok v := by
  have hs : Stops [] := fun c hc => by cases hc
  have h := readValue_compact_legible hv hs
  rw [List.append_nil] at h
  simp [Value.parse, h, bind, Except.bind, skipBlank, pure, Except.pure]

/-! ## Legibility piece by piece -/

namespace Legible

variable {d : Nat}

@[simp] theorem of_null : Legible d .null := .null

@[simp] theorem of_bool (b : Bool) : Legible d (.bool b) := .bool b

@[simp] theorem of_string (s : String) : Legible d (.string s) := .string s

@[simp] theorem object_iff {entries : List (String × Value)} :
    Legible (d + 2) (.object entries) ↔ ∀ e ∈ entries, Legible (d + 1) e.2 := by
  constructor
  · intro h
    cases h with
    | object h => exact h
  · exact .object

@[simp] theorem array_iff {items : List Value} :
    Legible (d + 2) (.array items) ↔ ∀ v ∈ items, Legible (d + 1) v := by
  constructor
  · intro h
    cases h with
    | array h => exact h
  · exact .array

theorem ofNat_lt {n : Nat} (h : n < Nat.pow 2 64) : Legible d (.ofNat n) := by
  have h' : n < 18446744073709551616 := h
  refine .nat ?_
  unfold u64Max
  omega

@[simp] theorem of_ofOption (o : Option String) : Legible d (.ofOption o) := by
  cases o <;> simp [Value.ofOption]

/-- A document legible at a depth is legible at every greater one. -/
theorem mono {v : Value} (h : Legible d v) : ∀ {d'}, d ≤ d' → Legible d' v := by
  induction h with
  | null => exact fun _ => .null
  | bool b => exact fun _ => .bool b
  | nat h => exact fun _ => .nat h
  | neg hlow hneg => exact fun _ => .neg hlow hneg
  | real h => exact fun _ => .real h
  | string s => exact fun _ => .string s
  | array _ ih =>
    intro d' hd
    obtain ⟨k, rfl⟩ : ∃ k, d' = k + 2 := ⟨d' - 2, by omega⟩
    exact .array fun v hv => ih v hv (by omega)
  | object _ ih =>
    intro d' hd
    obtain ⟨k, rfl⟩ : ∃ k, d' = k + 2 := ⟨d' - 2, by omega⟩
    exact .object fun e he => ih e he (by omega)

end Legible

/-- **Reading a legible document's compact text and decoding it** is decoding the document. -/
theorem parseText_compact_bind {α : Type} {decode : Value → Except String α} {v : Value}
    (hv : Legible depthLimit v) : (Value.parseText v.compact >>= decode) = decode v := by
  simp [Value.parseText, Value.parse_compact_legible hv, Except.mapError, bind, Except.bind]

end Launcher.Json
