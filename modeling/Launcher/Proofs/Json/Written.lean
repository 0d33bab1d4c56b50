import Launcher.Json.Write
import Launcher.Proofs.Json.Reading

/-!
# Written documents read back

The compact printer and the reader agree on the documents the journal is made of:

* `readStringChars_quoted` — the escaped characters of a string, then its closing quote, read
  back as the string, whatever comes after;
* `readWhole_digits`, `readNumber_toDigits` — a decimal numeral below `2^64` reads back as its
  number, when what follows it does not continue a numeral (`Stops`);
* `readValue_compact` — every `Plain` document (strings, whole numbers below `2^64`, and objects of
  them nested within the depth) reads back from its compact form, leaving what follows unread;
  so `Value.parse_compact`: a whole compact text parses as its document;
* `newline_not_mem_compact` — the compact form of a plain document holds no line break, so it
  fits on one line of a journal.
-/

namespace Launcher.Json

/-! ## Characters of strings -/

theorem hexDigit_spec {n : Nat} (h : n < 16) :
    hexValue (hexDigit n) = some n ∧ (hexDigit n).utf8Size = 1 := by
  have all : ∀ k : Fin 16, hexValue (hexDigit k) = some k ∧ (hexDigit k).utf8Size = 1 := by
    decide
  exact all ⟨n, h⟩

/-- Four hex digits `00XX` read back as the number `XX`. -/
theorem readHex4_low {k : Nat} (hk : k < 256) (rest : List Char) :
    readHex4 ('0' :: '0' :: hexDigit (k / 16) :: hexDigit (k % 16) :: rest) = .ok (k, rest) := by
  obtain ⟨hi, hi1⟩ := @hexDigit_spec (k / 16) (by omega)
  obtain ⟨lo, lo1⟩ := @hexDigit_spec (k % 16) (by omega)
  have hzero : hexValue '0' = some 0 := rfl
  have hzero1 : '0'.utf8Size = 1 := rfl
  have hn : ((0 * 16 + 0) * 16 + k / 16) * 16 + k % 16 = k := by omega
  unfold readHex4
  have hbytes : ¬ List.foldl (fun n c => n + c.utf8Size) 0
      (List.take 4 ('0' :: '0' :: hexDigit (k / 16) :: hexDigit (k % 16) :: rest)) < 4 := by
    simp [hi1, lo1, hzero1]
  rw [if_neg hbytes]
  simp only [hzero, hi, lo, hn]

/-- A character written below `0x20` as `\u00XX` reads back from its four hex digits. -/
theorem readUnicode_control {c : Char} (hc : c.toNat < 32) (rest : List Char) :
    readUnicode ('0' :: '0' :: hexDigit (c.toNat / 16) :: hexDigit (c.toNat % 16) :: rest) =
      .ok (c, rest) := by
  have hhex := @readHex4_low c.toNat (by omega) rest
  simp only [readUnicode, hhex, bind, Except.bind]
  have h1 : ¬ (0xDC00 ≤ c.toNat ∧ c.toNat ≤ 0xDFFF) := by omega
  have h2 : c.toNat < 0xD800 ∨ c.toNat > 0xDBFF := by omega
  simp only [h1, h2, if_false, if_true, Char.ofNat_toNat]
  rfl

/-- One character's escape, read inside a string, gives the character back. -/
theorem readStringChars_escapeChar (fuel : Nat) (acc : List Char) (c : Char) (rest : List Char) :
    readStringChars (fuel + 1) acc (escapeChar c ++ rest) = readStringChars fuel (c :: acc) rest := by
  fun_cases escapeChar c with
  | case1 h | case2 _ h | case3 _ _ h | case4 _ _ _ h | case5 _ _ _ _ h | case6 _ _ _ _ _ h
  | case7 _ _ _ _ _ _ h =>
    subst h
    rfl
  | case8 _ _ _ _ _ _ _ h =>
    simp only [List.cons_append, readStringChars, readEscape]
    simp only [if_true, readUnicode_control h]
    rfl
  | case9 hq hb _ _ _ _ _ h =>
    simp only [List.cons_append, List.nil_append, readStringChars, hq, hb, h, if_false]

/-- **The escaped characters of a string, then its closing quote, read back as the string.** -/
theorem readStringChars_quoted (cs : List Char) (fuel : Nat) (hf : cs.length < fuel)
    (acc rest : List Char) :
    readStringChars fuel acc (cs.flatMap escapeChar ++ '"' :: rest) =
      .ok (String.ofList (acc.reverse ++ cs), rest) := by
  induction cs generalizing fuel acc with
  | nil =>
    obtain ⟨f, rfl⟩ : ∃ f, fuel = f + 1 := ⟨fuel - 1, by simp at hf; omega⟩
    simp [readStringChars]
  | cons c cs ih =>
    obtain ⟨f, rfl⟩ : ∃ f, fuel = f + 1 := ⟨fuel - 1, by simp at hf; omega⟩
    simp only [List.length_cons] at hf
    rw [List.flatMap_cons, List.append_assoc, readStringChars_escapeChar, ih f (by omega)]
    simp

theorem length_le_flatMap_escapeChar (cs : List Char) :
    cs.length ≤ (cs.flatMap escapeChar).length := by
  induction cs with
  | nil => exact Nat.le_refl _
  | cons c cs ih =>
    have : 1 ≤ (escapeChar c).length := by
      fun_cases escapeChar c <;> simp
    simp only [List.flatMap_cons, List.length_append, List.length_cons]
    omega

/-- A string literal, read after its opening quote. -/
theorem readString_quote (s : String) (rest : List Char) :
    readString (s.toList.flatMap escapeChar ++ '"' :: rest) = .ok (s, rest) := by
  unfold readString
  have := length_le_flatMap_escapeChar s.toList
  rw [readStringChars_quoted s.toList _ (by rw [List.length_append, List.length_cons]; omega)]
  simp

/-! ## Decimal numerals -/

theorem toNat_of_isDigit {c : Char} (h : c.isDigit = true) : 48 ≤ c.toNat ∧ c.toNat ≤ 57 := by
  simp only [Char.isDigit, Bool.and_eq_true, decide_eq_true_eq, ge_iff_le] at h
  obtain ⟨h1, h2⟩ := h
  rw [UInt32.le_iff_toNat_le] at h1 h2
  exact ⟨h1, h2⟩

theorem digitValue_of_isDigit {c : Char} (h : c.isDigit = true) :
    digitValue c = some (c.toNat - 48) := by
  have h' := toNat_of_isDigit h
  unfold digitValue
  rw [if_pos]
  exact ⟨h'.1, h'.2⟩

/-- `overflows` says exactly that one more digit goes past the limit. -/
theorem overflows_iff {n d limit : Nat} (hd : d < 10) :
    overflows n d limit = true ↔ limit < 10 * n + d := by
  have := Nat.div_add_mod limit 10
  have := Nat.mod_lt limit (show 10 > 0 by omega)
  simp only [overflows, Bool.and_eq_true, decide_eq_true_eq, Bool.or_eq_true]
  omega

/-- The number that decimal digits stand for, after the digits `acc` stands for. -/
def digitsValue (acc : Nat) (ds : List Char) : Nat :=
  ds.foldl (fun a c => 10 * a + (c.toNat - 48)) acc

theorem le_digitsValue (acc : Nat) (ds : List Char) : acc ≤ digitsValue acc ds := by
  induction ds generalizing acc with
  | nil => exact Nat.le_refl _
  | cons c ds ih =>
    have := ih (10 * acc + (c.toNat - 48))
    simp only [digitsValue, List.foldl_cons] at this ⊢
    omega

/-- Digits read one by one, none of them going past `2^64 - 1`, then the end of the numeral. -/
theorem readWhole_digits (negative : Bool) (ds : List Char) (hds : ∀ c ∈ ds, c.isDigit = true)
    (acc : Nat) (hle : digitsValue acc ds ≤ u64Max) (rest : List Char)
    (hstop : ∀ c ∈ rest.head?, digitValue c = none) :
    readWhole negative acc (ds ++ rest) = afterWhole negative (digitsValue acc ds) 0 false rest := by
  induction ds generalizing acc with
  | nil =>
    rcases rest with _ | ⟨c, rest⟩
    · rfl
    · have hc : digitValue c = none := hstop c rfl
      simp only [List.nil_append, readWhole, hc]
      rfl
  | cons c ds ih =>
    have hc := digitValue_of_isDigit (hds c (List.mem_cons_self ..))
    have hd : c.toNat - 48 < 10 := by
      have := toNat_of_isDigit (hds c (List.mem_cons_self ..))
      omega
    have hnext : digitsValue (10 * acc + (c.toNat - 48)) ds = digitsValue acc (c :: ds) := rfl
    have hno : overflows acc (c.toNat - 48) u64Max = false := by
      have := le_digitsValue (10 * acc + (c.toNat - 48)) ds
      rw [hnext] at this
      rw [Bool.eq_false_iff, ne_eq, overflows_iff hd]
      omega
    simp only [List.cons_append, readWhole, hc, hno]
    rw [ih (fun x hx => hds x (List.mem_cons_of_mem _ hx)) _ (by rw [hnext]; exact hle), hnext]
    rfl

theorem digitsValue_toDigits (n : Nat) : digitsValue 0 (Nat.toDigits 10 n) = n := by
  induction n using Nat.strongRecOn with
  | _ n ih =>
    by_cases hn : n < 10
    · rw [Nat.toDigits_of_lt_base hn]
      simp [digitsValue, Nat.toNat_digitChar_sub_48_of_lt_ten hn]
    · rw [Nat.toDigits_of_base_le (by omega) (by omega)]
      have hlast : (Nat.digitChar (n % 10)).toNat - 48 = n % 10 :=
        Nat.toNat_digitChar_sub_48_of_lt_ten (Nat.mod_lt _ (by omega))
      have := ih (n / 10) (by omega)
      simp only [digitsValue, List.foldl_append, List.foldl_cons, List.foldl_nil] at this ⊢
      rw [this, hlast]
      omega

/-- The numeral of a positive number does not start with `0`. -/
theorem toDigits_head_ne_zero {n : Nat} (h : 0 < n) :
    ∃ c ds, Nat.toDigits 10 n = c :: ds ∧ c ≠ '0' := by
  induction n using Nat.strongRecOn with
  | _ n ih =>
    by_cases hn : n < 10
    · rw [Nat.toDigits_of_lt_base hn]
      exact ⟨_, [], rfl, fun hc => by rw [Nat.digitChar_eq_zero] at hc; omega⟩
    · obtain ⟨c, ds, hds, hc⟩ := ih (n / 10) (by omega) (by omega)
      rw [Nat.toDigits_of_base_le (by omega) (by omega), hds]
      exact ⟨c, ds ++ [Nat.digitChar (n % 10)], rfl, hc⟩

/-- What may follow a written document without being read as part of it: a character that
does not continue a numeral, or nothing. -/
def Stops (rest : List Char) : Prop :=
  ∀ c ∈ rest.head?, digitValue c = none ∧ c ≠ '.' ∧ c ≠ 'e' ∧ c ≠ 'E'

theorem afterWhole_stop (n : Nat) {rest : List Char} (hs : Stops rest) :
    afterWhole false n 0 false rest = .ok (.nat n, rest) := by
  rcases rest with _ | ⟨c, rest⟩
  · rfl
  · obtain ⟨-, hdot, he, hE⟩ := hs c rfl
    simp [afterWhole, hdot, he, hE]

/-- **A decimal numeral below `2^64` reads back as its number.** -/
theorem readNumber_toDigits {n : Nat} (hn : n ≤ u64Max) {rest : List Char} (hs : Stops rest) :
    readNumber false (Nat.toDigits 10 n ++ rest) = .ok (.nat n, rest) := by
  have hstop : ∀ c ∈ rest.head?, digitValue c = none := fun c hc => (hs c hc).1
  by_cases h0 : n = 0
  · subst h0
    rw [Nat.toDigits_zero]
    rcases rest with _ | ⟨c, rest⟩
    · rfl
    · simp only [List.cons_append, List.nil_append, readNumber, if_true, hstop c rfl,
        Option.isSome_none, Bool.false_eq_true, if_false]
      exact afterWhole_stop 0 hs
  · obtain ⟨c, ds, hds, hc⟩ := toDigits_head_ne_zero (Nat.pos_of_ne_zero h0)
    have hdig : ∀ x ∈ Nat.toDigits 10 n, x.isDigit = true :=
      fun x hx => Nat.isDigit_of_mem_toDigits (by omega) (by omega) hx
    have hval : digitsValue (c.toNat - 48) ds = n := by
      rw [← digitsValue_toDigits n, hds]
      simp [digitsValue]
    rw [hds, List.cons_append]
    simp only [readNumber, hc, if_false, digitValue_of_isDigit (hdig c (by rw [hds]; exact List.mem_cons_self ..))]
    rw [readWhole_digits false ds (fun x hx => hdig x (by rw [hds]; exact List.mem_cons_of_mem _ hx))
      _ (by rw [hval]; exact hn) rest hstop, hval]
    exact afterWhole_stop n hs

/-! ## Documents -/

/-- Documents whose compact form reads back at a depth: strings, whole numbers below `2^64`,
and objects of them, the pairs of an object one level deeper. -/
inductive Plain : Nat → Value → Prop
  | string {depth : Nat} (s : String) : Plain depth (.string s)
  | nat {depth n : Nat} (h : n ≤ u64Max) : Plain depth (.number (.nat n))
  | object {depth : Nat} {entries : List (String × Value)}
      (h : ∀ e ∈ entries, Plain (depth + 1) e.2) : Plain (depth + 2) (.object entries)

/-- The text of a pair inside an object: the key, a colon, the value. -/
def pairChars (kv : String × Value) : List Char :=
  (quote kv.1).toList ++ ':' :: kv.2.compact.toList

theorem compactEntries_cons (kv : String × Value) (es : List (String × Value)) :
    (Value.compactEntries (kv :: es)).toList =
      pairChars kv ++ es.flatMap (fun e => ',' :: pairChars e) := by
  induction es generalizing kv with
  | nil => simp [Value.compactEntries, pairChars]
  | cons e es ih =>
    rw [Value.compactEntries, String.toList_append, String.toList_append, ih e]
    · simp [pairChars]
    · exact List.cons_ne_nil _ _

theorem quote_toList (s : String) :
    (quote s).toList = '"' :: (s.toList.flatMap escapeChar ++ ['"']) := by
  simp [quote, quoteChars]

/-- A pair's text, read where a pair is due, adds the pair and goes on after it. -/
theorem entryStep_pair {depth fuel : Nat} {acc : List (String × Value)} {kv : String × Value}
    {more : List Char} (hv : readValue depth (kv.2.compact.toList ++ more) = .ok (kv.2, more)) :
    entryStep depth fuel acc (pairChars kv ++ more) =
      readEntries depth fuel false (kv :: acc) more := by
  have hkey := readString_quote kv.1 (':' :: (kv.2.compact.toList ++ more))
  have hcolon : skipBlank (':' :: (kv.2.compact.toList ++ more)) =
      ':' :: (kv.2.compact.toList ++ more) :=
    skipBlank_cons_of_not_blank (by unfold IsBlank; decide) _
  simp only [pairChars, quote_toList, List.cons_append, List.append_assoc, entryStep]
  simp [hkey, hcolon, hv]

theorem stops_cons {c : Char} (hc : c = ',' ∨ c = '}') (rest : List Char) : Stops (c :: rest) := by
  intro x hx
  cases hx
  rcases hc with rfl | rfl <;> decide

theorem length_le_pairsText (es : List (String × Value)) :
    es.length ≤ (es.flatMap (fun e => ',' :: pairChars e)).length := by
  induction es with
  | nil => exact Nat.le_refl _
  | cons x xs ih =>
    simp only [List.flatMap_cons, List.length_append, List.length_cons]
    omega

/-- The pairs of an object after its first one, each after a comma, then the closing brace. -/
theorem readEntries_written {depth : Nat} {es : List (String × Value)}
    (hes : ∀ e ∈ es, ∀ more, Stops more →
      readValue depth (e.2.compact.toList ++ more) = .ok (e.2, more))
    (fuel : Nat) (hf : es.length < fuel) (acc : List (String × Value)) (rest : List Char) :
    readEntries depth fuel false acc (es.flatMap (fun e => ',' :: pairChars e) ++ '}' :: rest) =
      .ok (.object (acc.reverse ++ es), rest) := by
  induction es generalizing fuel acc with
  | nil =>
    obtain ⟨f, rfl⟩ : ∃ f, fuel = f + 1 := ⟨fuel - 1, by simp at hf; omega⟩
    rw [readEntries_succ, List.flatMap_nil, List.nil_append,
      skipBlank_cons_of_not_blank (by unfold IsBlank; decide)]
    simp
  | cons e es ih =>
    obtain ⟨f, rfl⟩ : ∃ f, fuel = f + 1 := ⟨fuel - 1, by simp at hf; omega⟩
    simp only [List.length_cons] at hf
    have hstart : skipBlank (pairChars e ++ (es.flatMap (fun e => ',' :: pairChars e) ++
        '}' :: rest)) = pairChars e ++ (es.flatMap (fun e => ',' :: pairChars e) ++ '}' :: rest) := by
      simp only [pairChars, quote_toList, List.cons_append]
      exact skipBlank_cons_of_not_blank (by unfold IsBlank; decide) _
    have hmore : Stops (es.flatMap (fun e => ',' :: pairChars e) ++ '}' :: rest) := by
      cases es with
      | nil => exact stops_cons (.inr rfl) rest
      | cons e' es' => exact stops_cons (.inl rfl) _
    have hv := hes e (List.mem_cons_self ..) _ hmore
    rw [readEntries_succ]
    simp only [List.flatMap_cons, List.cons_append, List.append_assoc]
    rw [skipBlank_cons_of_not_blank (by unfold IsBlank; decide)]
    simp only [if_false, if_true, Bool.false_eq_true]
    rw [hstart, entryStep_pair hv,
      ih (fun x hx => hes x (List.mem_cons_of_mem _ hx)) f (by omega) (e :: acc)]
    simp

/-- **A written document reads back**, leaving what follows it unread. -/
theorem readValue_compact {depth : Nat} {v : Value} (hv : Plain depth v) {rest : List Char}
    (hs : Stops rest) : readValue depth (v.compact.toList ++ rest) = .ok (v, rest) := by
  induction hv generalizing rest with
  | string s =>
    simp only [Value.compact, quote_toList, List.cons_append, List.append_assoc]
    have hquote : digitValue '"' = none := rfl
    rw [readValue, skipBlank_cons_of_not_blank (by unfold IsBlank; decide)]
    simp [readString_quote, hquote, Except.map]
  | nat h =>
    rename_i n
    simp only [Value.compact, Number.render, Nat.toString_eq_repr, Nat.toList_repr]
    obtain ⟨c, ds, hds⟩ : ∃ c ds, Nat.toDigits 10 n = c :: ds := by
      cases h' : Nat.toDigits 10 n with
      | nil => exact absurd h' Nat.toDigits_ne_nil
      | cons c ds => exact ⟨c, ds, rfl⟩
    have hmem : c ∈ Nat.toDigits 10 n := by
      rw [hds]
      exact List.mem_cons_self ..
    have hc : c.isDigit = true := Nat.isDigit_of_mem_toDigits (by decide) (by decide) hmem
    have hnum := readNumber_toDigits h hs
    rw [hds, List.cons_append] at hnum
    rw [hds]
    have hb := toNat_of_isDigit hc
    have hne : ∀ x : Char, x.toNat < 48 ∨ 57 < x.toNat → c ≠ x := by
      intro x hx hcx
      subst hcx
      omega
    rw [List.cons_append, readValue, skipBlank_cons_of_not_blank]
    · simp [hne 'n' (by decide), hne 't' (by decide), hne 'f' (by decide), hne '-' (by decide),
        digitValue_of_isDigit hc, hnum, Except.map]
    · unfold IsBlank
      intro hblank
      rcases hblank with h1 | h1 | h1 | h1 <;> exact hne _ (by decide) h1
  | object h ih =>
    rename_i d entries
    have hbrace : digitValue '{' = none := rfl
    have hbody : (Value.compact (.object entries)).toList ++ rest =
        '{' :: ((Value.compactEntries entries).toList ++ '}' :: rest) := by
      simp [Value.compact]
    rw [hbody, readValue, skipBlank_cons_of_not_blank (by unfold IsBlank; decide)]
    simp only [hbrace, if_false, if_true, Option.isSome_none, Bool.false_eq_true]
    cases entries with
    | nil =>
      simp only [Value.compactEntries, String.toList_empty, List.nil_append, List.length_cons]
      rw [readEntries_succ, skipBlank_cons_of_not_blank (by unfold IsBlank; decide)]
      simp
    | cons e es =>
      have hmore : Stops (es.flatMap (fun e => ',' :: pairChars e) ++ '}' :: rest) := by
        cases es with
        | nil => exact stops_cons (.inr rfl) rest
        | cons e' es' => exact stops_cons (.inl rfl) _
      have hv := ih e (List.mem_cons_self ..) hmore
      have hlen := length_le_pairsText es
      rw [compactEntries_cons, List.append_assoc, readEntries_succ]
      have hstart : skipBlank (pairChars e ++ (es.flatMap (fun e => ',' :: pairChars e) ++
          '}' :: rest)) = pairChars e ++ (es.flatMap (fun e => ',' :: pairChars e) ++ '}' :: rest) := by
        simp only [pairChars, quote_toList, List.cons_append]
        exact skipBlank_cons_of_not_blank (by unfold IsBlank; decide) _
      rw [hstart]
      have hhead : ∃ rest', pairChars e ++ (es.flatMap (fun e => ',' :: pairChars e) ++
          '}' :: rest) = '"' :: rest' := by
        simp only [pairChars, quote_toList, List.cons_append]
        exact ⟨_, rfl⟩
      obtain ⟨rest', hrest'⟩ := hhead
      rw [hrest']
      simp only [if_true]
      rw [← hrest', entryStep_pair hv,
        readEntries_written (fun x hx more hm => ih x (List.mem_cons_of_mem _ hx) hm) _ ?_ [e] rest]
      · rfl
      · simp only [List.length_append, List.length_cons]
        omega

/-- **A whole compact text parses as its document.** -/
theorem Value.parse_compact {v : Value} (hv : Plain depthLimit v) : Value.parse v.compact = .ok v := by
  have hs : Stops [] := fun c hc => by cases hc
  have h := readValue_compact hv hs
  rw [List.append_nil] at h
  simp [Value.parse, h, bind, Except.bind, skipBlank, pure, Except.pure]

/-! ## Written documents hold no line break -/

theorem hexDigit_ne_newline {n : Nat} (h : n < 16) : hexDigit n ≠ '\n' := by
  have all : ∀ k : Fin 16, hexDigit k ≠ '\n' := by decide
  exact all ⟨n, h⟩

/-- Escaping writes a line break as `\n`, and writes no other. -/
theorem newline_not_mem_escapeChar (c : Char) : '\n' ∉ escapeChar c := by
  fun_cases escapeChar c with
  | case8 _ _ _ _ _ _ _ h =>
    have ha := @hexDigit_ne_newline (c.toNat / 16) (by omega)
    have hb := @hexDigit_ne_newline (c.toNat % 16) (by omega)
    simp [Ne.symm ha, Ne.symm hb]
  | case9 _ _ h => simpa [eq_comm] using h
  | _ => decide

theorem newline_not_mem_quote (s : String) : '\n' ∉ (quote s).toList := by
  rw [quote_toList]
  intro hmem
  simp only [List.mem_cons, List.mem_append, List.mem_flatMap] at hmem
  rcases hmem with h | ⟨c, _, hc⟩ | h | h
  · exact absurd h (by decide)
  · exact newline_not_mem_escapeChar c hc
  · exact absurd h (by decide)
  · exact absurd h (by decide)

/-- **A plain document's compact form is one line.** -/
theorem newline_not_mem_compact {depth : Nat} {v : Value} (hv : Plain depth v) :
    '\n' ∉ v.compact.toList := by
  induction hv with
  | string s => exact newline_not_mem_quote s
  | nat _ =>
    rename_i n
    simp only [Value.compact, Number.render, Nat.toString_eq_repr, Nat.toList_repr]
    intro hmem
    exact absurd (Nat.isDigit_of_mem_toDigits (by decide) (by decide) hmem) (by decide)
  | @object d entries _ ih =>
    have hpair : ∀ kv ∈ entries, '\n' ∉ pairChars kv := by
      intro kv hkv hmem
      simp only [pairChars, List.mem_append, List.mem_cons] at hmem
      rcases hmem with h | h | h
      · exact newline_not_mem_quote kv.1 h
      · exact absurd h (by decide)
      · exact ih kv hkv h
    have hbody : (Value.compact (.object entries)).toList =
        '{' :: ((Value.compactEntries entries).toList ++ ['}']) := by
      simp [Value.compact]
    rw [hbody]
    intro hmem
    simp only [List.mem_cons, List.mem_append] at hmem
    rcases hmem with h | h | h
    · exact absurd h (by decide)
    · cases entries with
      | nil => simp [Value.compactEntries] at h
      | cons e es =>
        rw [compactEntries_cons, List.mem_append, List.mem_flatMap] at h
        rcases h with h | ⟨kv, hkv, h⟩
        · exact hpair e (List.mem_cons_self ..) h
        · rcases List.mem_cons.1 h with h | h
          · exact absurd h (by decide)
          · exact hpair kv (List.mem_cons_of_mem _ hkv) h
    · exact absurd h (by decide)

end Launcher.Json
