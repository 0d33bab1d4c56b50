import Launcher.Proofs.Json.Written

/-!
# A numeral's reading ends where the numeral ends

The number reader looks one character past a numeral, and only to see that the numeral does not
go on. So a numeral that reads as a number when it is all of the input reads as the same number
with any text after it that cannot continue a numeral (`Stops`), that text left unread:

* `readNumber_append` — the law, proved for each stage of the reader in turn (the whole part,
  digits past 64 bits, the fraction, the exponent);
* `readNumber_toDigits_whole`, `readNumber_neg_toDigits` — a decimal numeral below `2^64` ends in
  the whole-number state, so a negative one down to `-2^63` reads back as that negative number;
* `ReadsBack` — the reader takes all of the numeral written for a double back as that double;
  `ReadsBack.readValue` then reads it back inside any document.
-/

namespace Launcher.Json

theorem scaledOrFault_append {negative : Bool} {significand : Nat} {exponent : Int}
    {cs r : List Char} {n : Number} (tail : List Char)
    (h : scaledOrFault negative significand exponent cs = .ok (n, r)) :
    scaledOrFault negative significand exponent (cs ++ tail) = .ok (n, r ++ tail) := by
  unfold scaledOrFault at h ⊢
  split at h
  · rename_i x hx
    cases h
    simp
  · cases h

/-- How a whole numeral ends when nothing after it continues it: a significand past 64 bits is
scaled, else the number is whole, or a double when it is negative beyond `-2^63`. -/
def wholeEnd (negative : Bool) (significand : Nat) (exponent : Int) (long : Bool)
    (rest : List Char) : Step Number :=
  if long then scaledOrFault negative significand exponent rest
  else if !negative then .ok (.nat significand, rest)
  else if significand ≠ 0 ∧ significand ≤ Nat.pow 2 63 then .ok (.neg (-(significand : Int)), rest)
  else .ok (.real (Binary64.ofNat significand).neg, rest)

theorem wholeEnd_append {negative : Bool} {significand : Nat} {exponent : Int} {long : Bool}
    {cs r : List Char} {n : Number} (tail : List Char)
    (h : wholeEnd negative significand exponent long cs = .ok (n, r)) :
    wholeEnd negative significand exponent long (cs ++ tail) = .ok (n, r ++ tail) := by
  unfold wholeEnd at h ⊢
  by_cases hl : long = true
  · rw [if_pos hl] at h ⊢
    exact scaledOrFault_append tail h
  · rw [if_neg hl] at h ⊢
    by_cases hn : (!negative) = true
    · rw [if_pos hn] at h ⊢
      cases h
      rfl
    · rw [if_neg hn] at h ⊢
      by_cases hm : significand ≠ 0 ∧ significand ≤ Nat.pow 2 63
      · rw [if_pos hm] at h ⊢
        cases h
        rfl
      · rw [if_neg hm] at h ⊢
        cases h
        rfl

section Stop

variable {tail : List Char} (hs : Stops tail)
include hs

theorem Stops.digitValue : ∀ c ∈ tail.head?, digitValue c = none := fun c hc => (hs c hc).1

theorem skipDigits_append_stop (cs : List Char) : skipDigits (cs ++ tail) = skipDigits cs ++ tail := by
  induction cs with
  | nil =>
    rcases tail with _ | ⟨c, r⟩
    · rfl
    · simp [skipDigits, (hs c rfl).1]
  | cons c cs ih =>
    simp only [List.cons_append, skipDigits]
    split <;> simp [ih]

/-- At the end of the input a stage finishes as it does at a character that stops the numeral. -/
theorem readExponentDigits_append {negative : Bool} {significand : Nat} {start : Int}
    {positive : Bool} :
    ∀ {exp : Nat} {cs r : List Char} {n : Number},
      readExponentDigits negative significand start positive exp cs = .ok (n, r) →
      readExponentDigits negative significand start positive exp (cs ++ tail) = .ok (n, r ++ tail)
  | exp, [], r, n, h => by
    simp only [readExponentDigits, readExponentDigits.finish] at h
    have hfin := scaledOrFault_append tail h
    rcases tail with _ | ⟨c, more⟩
    · simpa [readExponentDigits, readExponentDigits.finish] using hfin
    · simpa [readExponentDigits, readExponentDigits.finish, (hs c rfl).1] using hfin
  | exp, c :: cs, r, n, h => by
    simp only [readExponentDigits, readExponentDigits.finish] at h
    simp only [List.cons_append, readExponentDigits, readExponentDigits.finish]
    rcases hd : digitValue c with _ | d
    · simp only [hd] at h ⊢
      exact scaledOrFault_append tail h
    · simp only [hd] at h ⊢
      by_cases ho : overflows exp d i32Max.toNat = true
      · simp only [ho, if_true] at h ⊢
        by_cases hz : significand ≠ 0 ∧ positive = true
        · simp [hz] at h
        · simp only [hz, if_false, Except.ok.injEq, Prod.mk.injEq] at h ⊢
          obtain ⟨rfl, rfl⟩ := h
          exact ⟨rfl, skipDigits_append_stop hs cs⟩
      · simp only [ho, Bool.false_eq_true, if_false] at h ⊢
        exact readExponentDigits_append h

/-- The first digit of an exponent, after its sign, is part of the numeral. -/
theorem readExponent_append {negative : Bool} {significand : Nat} {start : Int} {cs r : List Char}
    {n : Number} (h : readExponent negative significand start cs = .ok (n, r)) :
    readExponent negative significand start (cs ++ tail) = .ok (n, r ++ tail) := by
  rcases cs with _ | ⟨e, _ | ⟨c, more⟩⟩
  · simp [readExponent] at h
  · simp [readExponent] at h
  · by_cases hp : c = '+'
    · subst hp
      rcases more with _ | ⟨d, more⟩
      · simp [readExponent] at h
      · simp only [readExponent, List.drop_one, List.tail_cons, List.cons_append] at h ⊢
        rcases hd : digitValue d with _ | dv
        · simp [hd] at h
        · simp only [hd] at h ⊢
          exact readExponentDigits_append hs h
    · by_cases hm : c = '-'
      · subst hm
        rcases more with _ | ⟨d, more⟩
        · simp [readExponent] at h
        · simp only [readExponent, List.drop_one, List.tail_cons, List.cons_append] at h ⊢
          rcases hd : digitValue d with _ | dv
          · simp [hd] at h
          · simp only [hd] at h ⊢
            exact readExponentDigits_append hs h
      · simp only [List.cons_append]
        simp [readExponent, hp, hm] at h ⊢
        rcases hd : digitValue c with _ | dv
        · simp [hd] at h
        · simp only [hd] at h ⊢
          exact readExponentDigits_append hs h

theorem afterFraction_append {negative : Bool} {significand : Nat} {exponent : Int}
    {cs r : List Char} {n : Number} (h : afterFraction negative significand exponent cs = .ok (n, r)) :
    afterFraction negative significand exponent (cs ++ tail) = .ok (n, r ++ tail) := by
  rcases cs with _ | ⟨c, more⟩
  · have hfin := scaledOrFault_append tail (by simpa [afterFraction] using h)
    rcases tail with _ | ⟨t, tmore⟩
    · simpa using h
    · obtain ⟨-, -, he, hE⟩ := hs t rfl
      simpa [afterFraction, he, hE] using hfin
  · by_cases he : c = 'e' ∨ c = 'E'
    · have hexp : readExponent negative significand exponent (c :: more) = .ok (n, r) := by
        rcases he with rfl | rfl <;> simpa [afterFraction] using h
      have hnext := readExponent_append hs hexp
      rw [List.cons_append] at hnext ⊢
      rcases he with rfl | rfl <;> simpa [afterFraction] using hnext
    · simp only [not_or] at he
      have hnext := scaledOrFault_append tail (by simpa [afterFraction, he.1, he.2] using h)
      rw [List.cons_append] at hnext ⊢
      simpa [afterFraction, he.1, he.2] using hnext

theorem readFraction_append {negative : Bool} :
    ∀ {significand : Nat} {exponent : Int} {count : Nat} {cs r : List Char} {n : Number},
      readFraction negative significand exponent count cs = .ok (n, r) →
      readFraction negative significand exponent count (cs ++ tail) = .ok (n, r ++ tail)
  | significand, exponent, count, [], r, n, h => by
    simp only [readFraction, readFraction.finishFraction] at h
    by_cases hcount : count = 0
    · simp [hcount] at h
    · rw [if_neg hcount] at h
      have hfin := afterFraction_append hs h
      rw [List.nil_append] at hfin ⊢
      rcases tail with _ | ⟨t, tmore⟩
      · simp only [readFraction, readFraction.finishFraction, if_neg hcount]
        exact hfin
      · simp only [readFraction, (hs t rfl).1, readFraction.finishFraction, if_neg hcount]
        exact hfin
  | significand, exponent, count, c :: cs, r, n, h => by
    rw [List.cons_append]
    simp only [readFraction] at h ⊢
    rcases hd : digitValue c with _ | d
    · simp only [hd, readFraction.finishFraction] at h ⊢
      by_cases hcount : count = 0
      · simp [hcount] at h
      · rw [if_neg hcount] at h ⊢
        have hnext := afterFraction_append hs h
        rwa [List.cons_append] at hnext
    · simp only [hd] at h ⊢
      by_cases ho : overflows significand d u64Max = true
      · rw [if_pos ho] at h ⊢
        have hnext := afterFraction_append hs h
        rwa [← List.cons_append, skipDigits_append_stop hs]
      · rw [if_neg ho] at h ⊢
        exact readFraction_append h

theorem afterWhole_append {negative : Bool} {significand : Nat} {exponent : Int} {long : Bool}
    {cs r : List Char} {n : Number} (h : afterWhole negative significand exponent long cs = .ok (n, r)) :
    afterWhole negative significand exponent long (cs ++ tail) = .ok (n, r ++ tail) := by
  rcases cs with _ | ⟨c, more⟩
  · have hend := wholeEnd_append tail (by simpa [afterWhole, wholeEnd] using h)
    rw [List.nil_append]
    rcases tail with _ | ⟨t, tmore⟩
    · simpa using h
    · obtain ⟨-, hdot, he, hE⟩ := hs t rfl
      simpa [afterWhole, wholeEnd, hdot, he, hE] using hend
  · rw [List.cons_append]
    by_cases hd : c = '.'
    · subst hd
      have hnext := readFraction_append hs (by simpa [afterWhole] using h)
      simpa [afterWhole] using hnext
    · by_cases he : c = 'e' ∨ c = 'E'
      · have hexp : readExponent negative significand exponent (c :: more) = .ok (n, r) := by
          rcases he with rfl | rfl <;> simpa [afterWhole] using h
        have hnext := readExponent_append hs hexp
        rw [List.cons_append] at hnext
        rcases he with rfl | rfl <;> simpa [afterWhole] using hnext
      · simp only [not_or] at he
        have hnext := wholeEnd_append tail (by simpa [afterWhole, wholeEnd, hd, he.1, he.2] using h)
        rw [List.cons_append] at hnext
        simpa [afterWhole, wholeEnd, hd, he.1, he.2] using hnext

theorem readLong_append {negative : Bool} {significand : Nat} :
    ∀ {exponent : Int} {cs r : List Char} {n : Number},
      readLong negative significand exponent cs = .ok (n, r) →
      readLong negative significand exponent (cs ++ tail) = .ok (n, r ++ tail)
  | exponent, [], r, n, h => by
    have hfin := afterWhole_append hs (by simpa [readLong] using h)
    rw [List.nil_append] at hfin ⊢
    rcases tail with _ | ⟨t, tmore⟩
    · simpa using h
    · simpa [readLong, (hs t rfl).1] using hfin
  | exponent, c :: cs, r, n, h => by
    rw [List.cons_append]
    simp only [readLong] at h ⊢
    by_cases hd : (digitValue c).isSome = true
    · rw [if_pos hd] at h ⊢
      exact readLong_append h
    · rw [if_neg hd] at h ⊢
      have hnext := afterWhole_append hs h
      rwa [List.cons_append] at hnext

theorem readWhole_append {negative : Bool} :
    ∀ {significand : Nat} {cs r : List Char} {n : Number},
      readWhole negative significand cs = .ok (n, r) →
      readWhole negative significand (cs ++ tail) = .ok (n, r ++ tail)
  | significand, [], r, n, h => by
    have hfin := afterWhole_append hs (by simpa [readWhole] using h)
    rw [List.nil_append] at hfin ⊢
    rcases tail with _ | ⟨t, tmore⟩
    · simpa using h
    · simpa [readWhole, (hs t rfl).1] using hfin
  | significand, c :: cs, r, n, h => by
    rw [List.cons_append]
    simp only [readWhole] at h ⊢
    rcases hd : digitValue c with _ | d
    · simp only [hd] at h ⊢
      have hnext := afterWhole_append hs h
      rwa [List.cons_append] at hnext
    · simp only [hd] at h ⊢
      by_cases ho : overflows significand d u64Max = true
      · rw [if_pos ho] at h ⊢
        have hnext := readLong_append hs h
        rwa [List.cons_append] at hnext
      · rw [if_neg ho] at h ⊢
        exact readWhole_append h

/-- **A numeral's reading ends where the numeral ends.** -/
theorem readNumber_append {negative : Bool} {cs r : List Char} {n : Number}
    (h : readNumber negative cs = .ok (n, r)) : readNumber negative (cs ++ tail) = .ok (n, r ++ tail) := by
  rcases cs with _ | ⟨c, more⟩
  · simp [readNumber] at h
  · rw [List.cons_append]
    by_cases hc : c = '0'
    · subst hc
      rcases more with _ | ⟨d, more⟩
      · have hfin := afterWhole_append hs (by simpa [readNumber] using h)
        rw [List.nil_append] at hfin ⊢
        rcases tail with _ | ⟨t, tmore⟩
        · simpa using h
        · simpa [readNumber, (hs t rfl).1] using hfin
      · rw [List.cons_append]
        simp only [readNumber, if_true] at h ⊢
        by_cases hd : (digitValue d).isSome = true
        · rw [if_pos hd] at h
          cases h
        · rw [if_neg hd] at h ⊢
          have hnext := afterWhole_append hs h
          rwa [List.cons_append] at hnext
    · simp only [readNumber, hc, if_false] at h ⊢
      rcases hd : digitValue c with _ | d
      · simp [hd] at h
      · simp only [hd] at h ⊢
        exact readWhole_append hs h

end Stop

/-! ## Whole numbers -/

/-- A decimal numeral below `2^64`, then something that is not a digit, leaves the reader in the
whole-number state with that number. -/
theorem readNumber_toDigits_whole (negative : Bool) {m : Nat} (hm : m ≤ u64Max) {rest : List Char}
    (hstop : ∀ c ∈ rest.head?, digitValue c = none) :
    readNumber negative (Nat.toDigits 10 m ++ rest) = afterWhole negative m 0 false rest := by
  by_cases h0 : m = 0
  · subst h0
    rw [Nat.toDigits_zero]
    rcases rest with _ | ⟨c, rest⟩
    · rfl
    · simp [readNumber, hstop c rfl]
  · obtain ⟨c, ds, hds, hc⟩ := toDigits_head_ne_zero (Nat.pos_of_ne_zero h0)
    have hdig : ∀ x ∈ Nat.toDigits 10 m, x.isDigit = true :=
      fun x hx => Nat.isDigit_of_mem_toDigits (by omega) (by omega) hx
    have hval : digitsValue (c.toNat - 48) ds = m := by
      rw [← digitsValue_toDigits m, hds]
      simp [digitsValue]
    rw [hds, List.cons_append]
    simp only [readNumber, hc, if_false,
      digitValue_of_isDigit (hdig c (by rw [hds]; exact List.mem_cons_self ..))]
    rw [readWhole_digits negative ds (fun x hx => hdig x (by rw [hds]; exact List.mem_cons_of_mem _ hx))
      _ (by rw [hval]; exact hm) rest hstop, hval]

/-- The written form of a negative whole number: a minus sign, then its magnitude's digits. -/
theorem render_neg_toList {n : Int} (h : n < 0) :
    (Number.render (.neg n)).toList = '-' :: Nat.toDigits 10 n.natAbs := by
  obtain ⟨m, rfl⟩ : ∃ m : Nat, n = Int.negSucc m := ⟨n.natAbs - 1, by omega⟩
  simp [Number.render, toString, Int.repr, Nat.toList_repr]

/-- **A negative whole number down to `-2^63` reads back from its numeral.** -/
theorem readNumber_neg_toDigits {m : Nat} (h0 : 0 < m) (hm : m ≤ Nat.pow 2 63) {rest : List Char}
    (hs : Stops rest) : readNumber true (Nat.toDigits 10 m ++ rest) = .ok (.neg (-(m : Int)), rest) := by
  have hmax : m ≤ u64Max := by
    have : u64Max = 2 ^ 64 - 1 := rfl
    have : Nat.pow 2 63 = 2 ^ 63 := rfl
    omega
  have hneg : m ≠ 0 ∧ m ≤ Nat.pow 2 63 := ⟨by omega, hm⟩
  rw [readNumber_toDigits_whole true hmax hs.digitValue]
  rcases rest with _ | ⟨c, rest⟩
  · simp [afterWhole, hneg]
  · obtain ⟨-, hdot, he, hE⟩ := hs c rfl
    simp [afterWhole, hdot, he, hE, hneg]

/-! ## Doubles -/

/-- Blanks before a document are skipped the same way whatever follows it. -/
theorem skipBlank_append_of_cons {cs u rest : List Char} {c : Char} (h : skipBlank cs = c :: u) :
    skipBlank (cs ++ rest) = c :: (u ++ rest) := by
  induction cs with
  | nil => simp [skipBlank] at h
  | cons b cs ih =>
    by_cases hb : IsBlank b
    · rw [skipBlank_blank hb] at h
      rw [List.cons_append, skipBlank_blank hb]
      exact ih h
    · rw [skipBlank_cons_of_not_blank hb] at h
      obtain ⟨rfl, rfl⟩ := List.cons.inj h
      rw [List.cons_append, skipBlank_cons_of_not_blank hb]

/-- The reader takes the whole numeral written for a double back as that double. (It is read at
no depth: a numeral holds no nesting.) The printer writes the shortest digits that round to the
double, and this says that reading them rounds back to it. -/
def ReadsBack (x : Binary64) : Prop :=
  readValue 0 (Number.render (.real x)).toList = .ok (.number (.real x), [])

/-- The numeral written for a double that reads back: after blanks, a minus sign and the digits
the reader takes as the negative double, or digits it takes as the double. -/
theorem ReadsBack.numeral {x : Binary64} (h : ReadsBack x) :
    ∃ c u, skipBlank (Number.render (.real x)).toList = c :: u ∧
      ((c = '-' ∧ readNumber true u = .ok (.real x, [])) ∨
        (c ≠ '-' ∧ (digitValue c).isSome = true ∧ readNumber false (c :: u) = .ok (.real x, []))) := by
  unfold ReadsBack at h
  rw [Json.readValue] at h
  cases hsk : skipBlank (Number.render (.real x)).toList with
  | nil =>
    rw [hsk] at h
    cases h
  | cons c u =>
    rw [hsk] at h
    refine ⟨c, u, rfl, ?_⟩
    by_cases hn : c = 'n'
    · subst hn
      cases hr : readIdent ['u', 'l', 'l'] u <;> simp [hr, Except.map] at h
    by_cases ht : c = 't'
    · subst ht
      cases hr : readIdent ['r', 'u', 'e'] u <;> simp [hr, Except.map] at h
    by_cases hf : c = 'f'
    · subst hf
      cases hr : readIdent ['a', 'l', 's', 'e'] u <;> simp [hr, Except.map] at h
    by_cases hm : c = '-'
    · subst hm
      simp only [hn, ht, hf, if_true, if_false] at h
      refine .inl ⟨rfl, ?_⟩
      cases hr : readNumber true u with
      | error f => simp [hr, Except.map] at h
      | ok p =>
        simp only [hr, Except.map, Except.ok.injEq, Prod.mk.injEq, Value.number.injEq] at h
        rw [← h.1, ← h.2]
    by_cases hd : (digitValue c).isSome = true
    · simp only [hn, ht, hf, hm, hd, if_true, if_false] at h
      refine .inr ⟨hm, hd, ?_⟩
      cases hr : readNumber false (c :: u) with
      | error f => simp [hr, Except.map] at h
      | ok p =>
        simp only [hr, Except.map, Except.ok.injEq, Prod.mk.injEq, Value.number.injEq] at h
        rw [← h.1, ← h.2]
    · simp only [hn, ht, hf, hm, hd, if_false, Bool.false_eq_true] at h
      split_ifs at h
      cases hr : readString u <;> simp [hr, Except.map] at h

/-- **A double that reads back does so inside any document**, whatever stops its numeral. -/
theorem ReadsBack.readValue {x : Binary64} (h : ReadsBack x) (depth : Nat) {rest : List Char}
    (hs : Stops rest) :
    readValue depth ((Number.render (.real x)).toList ++ rest) = .ok (.number (.real x), rest) := by
  obtain ⟨c, u, hsk, hnum⟩ := h.numeral
  rw [Json.readValue, skipBlank_append_of_cons hsk]
  rcases hnum with ⟨rfl, hnum⟩ | ⟨hm, hd, hnum⟩
  · simp [readNumber_append hs hnum, Except.map]
  · have hdig : c ≠ 'n' ∧ c ≠ 't' ∧ c ≠ 'f' := by
      refine ⟨?_, ?_, ?_⟩ <;> rintro rfl <;> simp [digitValue] at hd
    simp only [hdig.1, hdig.2.1, hdig.2.2, hm, hd, if_true, if_false]
    rw [← List.cons_append, readNumber_append hs hnum]
    rfl

end Launcher.Json
