import Mathlib.Logic.Basic
import Mathlib.Tactic.SplitIfs
import Launcher.Json.Read

/-!
# Reading laws of the JSON reader

Two laws of `readValue` that every caller of the reader relies on without saying so:

* **progress** — a successful read takes at least one character (`readValue_progress`), so the
  fuel that `readValue` hands to the list readers (one more than the input left) is never
  short: more fuel gives the same answer (`list_fuel_succ`);
* **a trailing blank changes nothing** — reading a text followed by one more JSON blank gives
  the same document with the blank left unread, and fails where the text fails
  (`readValue_extend`); so a whole text parses exactly when it does with a blank after it
  (`Value.parse_append_blank`).

Both are proved per depth: the laws of `readItems` and `readEntries` at a depth follow from the
law of `readValue` at that depth by induction on the fuel, and the law of `readValue` at
`d + 2` from those of the list readers at `d + 1`.
-/

namespace Launcher.Json

/-- The JSON blanks: space, line feed, tab and carriage return. -/
def IsBlank (b : Char) : Prop := b = ' ' ∨ b = '\n' ∨ b = '\t' ∨ b = '\r'

/-! ## Blanks -/

section Blank

variable {b : Char}

theorem skipBlank_blank (hb : IsBlank b) (cs : List Char) :
    skipBlank (b :: cs) = skipBlank cs := by
  rcases hb with rfl | rfl | rfl | rfl <;> rfl

/-- Blanks are skipped: the input after them is the input, unless it starts with a blank. -/
theorem skipBlank_cons_of_not_blank {c : Char} (hc : ¬ IsBlank c) (cs : List Char) :
    skipBlank (c :: cs) = c :: cs := by
  unfold IsBlank at hc
  rw [skipBlank]
  all_goals simp_all

/-- A blank after the input is skipped with the blanks before the first other character, or
stays after it. -/
theorem skipBlank_append_blank (hb : IsBlank b) (cs : List Char) :
    skipBlank (cs ++ [b]) = if skipBlank cs = [] then [] else skipBlank cs ++ [b] := by
  induction cs with
  | nil => simp [skipBlank_blank hb, skipBlank]
  | cons c cs ih =>
    by_cases hc : IsBlank c
    · rw [List.cons_append, skipBlank_blank hc, skipBlank_blank hc, ih]
    · rw [List.cons_append, skipBlank_cons_of_not_blank hc, skipBlank_cons_of_not_blank hc]
      simp

theorem skipBlank_length_le (cs : List Char) : (skipBlank cs).length ≤ cs.length := by
  induction cs with
  | nil => simp [skipBlank]
  | cons c cs ih =>
    by_cases hc : IsBlank c
    · rw [skipBlank_blank hc]
      simp only [List.length_cons]
      omega
    · exact Nat.le_of_eq (congrArg List.length (skipBlank_cons_of_not_blank hc cs))

theorem IsBlank.digitValue (hb : IsBlank b) : digitValue b = none := by
  rcases hb with rfl | rfl | rfl | rfl <;> rfl

theorem IsBlank.hexValue (hb : IsBlank b) : hexValue b = none := by
  rcases hb with rfl | rfl | rfl | rfl <;> rfl

theorem IsBlank.utf8Size (hb : IsBlank b) : b.utf8Size = 1 := by
  rcases hb with rfl | rfl | rfl | rfl <;> rfl

end Blank

/-! ## The relation between a reading and the reading with a blank after it -/

/-- How reading `cs ++ [b]` answers, against reading `cs`: the same result with `b` left
unread, or a failure (not necessarily the same one) where reading `cs` fails. -/
inductive Extends {ε α : Type} (b : Char) : Except ε (α × List Char) → Except ε (α × List Char) → Prop
  | ok (a : α) (r : List Char) : Extends b (.ok (a, r)) (.ok (a, r ++ [b]))
  | error (f g : ε) : Extends b (.error f) (.error g)

namespace Extends

variable {ε α β : Type} {b : Char}

/-- Relabelling the result keeps the relation. -/
theorem map {x y : Except ε (α × List Char)} (h : Extends b x y) (g : α → β) :
    Extends b (x.map fun p => (g p.1, p.2)) (y.map fun p => (g p.1, p.2)) := by
  cases h with
  | ok a r => exact .ok (g a) r
  | error f f' => exact .error f f'

/-- A reading that goes on from where the first one stopped keeps the relation, when it keeps
it itself. -/
theorem bind {γ : Type} {x y : Except ε (α × List Char)} (h : Extends b x y)
    (k : α → List Char → Except ε (γ × List Char))
    (hk : ∀ a r, Extends b (k a r) (k a (r ++ [b]))) :
    Extends b (x.bind fun p => k p.1 p.2) (y.bind fun p => k p.1 p.2) := by
  cases h with
  | ok a r => exact hk a r
  | error f f' => exact .error f f'

/-- A reading that branches keeps the relation when both of its branches keep it. Readings that
branch on the first character are taken apart by this, one branch at a time, rather than by
splitting: a split decides the equations between the characters of the other branches. -/
theorem ite {p : Prop} [Decidable p] {x x' y y' : Except ε (α × List Char)}
    (hx : Extends b x x') (hy : Extends b y y') :
    Extends b (if p then x else y) (if p then x' else y') := by
  split
  · exact hx
  · exact hy

/-- The two ways a pair of readings is related. -/
theorem iff {x y : Except ε (α × List Char)} : Extends b x y ↔
    (∃ a r, x = .ok (a, r) ∧ y = .ok (a, r ++ [b])) ∨ (∃ f g, x = .error f ∧ y = .error g) := by
  constructor
  · intro h
    cases h with
    | ok a r => exact .inl ⟨a, r, rfl, rfl⟩
    | error f g => exact .inr ⟨f, g, rfl, rfl⟩
  · rintro (⟨a, r, rfl, rfl⟩ | ⟨f, g, rfl, rfl⟩)
    · exact .ok a r
    · exact .error f g

theorem error_left {x : Except ε (α × List Char)} {f : ε} (h : Extends b (.error f) x) :
    ∃ g, x = .error g := by
  cases h with
  | error _ g => exact ⟨g, rfl⟩

end Extends

theorem scaledOrFault_extend {b : Char} (negative : Bool) (significand : Nat) (exponent : Int)
    (cs : List Char) :
    Extends b (scaledOrFault negative significand exponent cs)
      (scaledOrFault negative significand exponent (cs ++ [b])) := by
  unfold scaledOrFault
  split
  · exact .ok _ _
  · exact .error _ _

section Numbers

variable {b : Char} (hb : IsBlank b)
include hb

theorem skipDigits_append_blank (cs : List Char) :
    skipDigits (cs ++ [b]) = skipDigits cs ++ [b] := by
  induction cs with
  | nil => simp [skipDigits, hb.digitValue]
  | cons c cs ih =>
    simp only [List.cons_append, skipDigits]
    split <;> simp [ih]

theorem readExponentDigits_extend (negative : Bool) (significand : Nat) (start : Int)
    (positive : Bool) (exp : Nat) (cs : List Char) :
    Extends b (readExponentDigits negative significand start positive exp cs)
      (readExponentDigits negative significand start positive exp (cs ++ [b])) := by
  induction cs generalizing exp with
  | nil =>
    simp only [List.nil_append, readExponentDigits, hb.digitValue]
    exact scaledOrFault_extend _ _ _ []
  | cons c cs ih =>
    simp only [List.cons_append, readExponentDigits]
    split
    · split
      · split
        · exact .error _ _
        · rw [skipDigits_append_blank hb]
          exact .ok _ _
      · exact ih _
    · exact scaledOrFault_extend _ _ _ (c :: cs)

theorem IsBlank.ne_plus : b ≠ '+' := by rcases hb with rfl | rfl | rfl | rfl <;> decide

theorem IsBlank.ne_minus : b ≠ '-' := by rcases hb with rfl | rfl | rfl | rfl <;> decide

theorem IsBlank.ne_e : b ≠ 'e' := by rcases hb with rfl | rfl | rfl | rfl <;> decide

theorem IsBlank.ne_E : b ≠ 'E' := by rcases hb with rfl | rfl | rfl | rfl <;> decide

theorem IsBlank.ne_dot : b ≠ '.' := by rcases hb with rfl | rfl | rfl | rfl <;> decide

theorem IsBlank.ne_bracket : b ≠ ']' := by rcases hb with rfl | rfl | rfl | rfl <;> decide

theorem IsBlank.ne_brace : b ≠ '}' := by rcases hb with rfl | rfl | rfl | rfl <;> decide

theorem readExponent_extend (negative : Bool) (significand : Nat) (start : Int)
    (cs : List Char) :
    Extends b (readExponent negative significand start cs)
      (readExponent negative significand start (cs ++ [b])) := by
  rcases cs with _ | ⟨e, _ | ⟨c, r⟩⟩
  · simp [readExponent]
    exact .error _ _
  · simp [readExponent, hb.ne_plus, hb.ne_minus, hb.digitValue]
    exact .error _ _
  · by_cases hp : c = '+'
    · subst hp
      rcases r with _ | ⟨d, r⟩
      · simp [readExponent, hb.digitValue]
        exact .error _ _
      · simp [readExponent]
        split
        · exact readExponentDigits_extend hb _ _ _ _ _ r
        · exact .error _ _
    · by_cases hm : c = '-'
      · subst hm
        rcases r with _ | ⟨d, r⟩
        · simp [readExponent, hb.digitValue]
          exact .error _ _
        · simp [readExponent]
          split
          · exact readExponentDigits_extend hb _ _ _ _ _ r
          · exact .error _ _
      · simp [readExponent, hp, hm]
        split
        · exact readExponentDigits_extend hb _ _ _ _ _ r
        · exact .error _ _

theorem afterFraction_extend (negative : Bool) (significand : Nat) (exponent : Int)
    (cs : List Char) :
    Extends b (afterFraction negative significand exponent cs)
      (afterFraction negative significand exponent (cs ++ [b])) := by
  rcases cs with _ | ⟨c, r⟩
  · simp [afterFraction, hb.ne_e, hb.ne_E]
    exact scaledOrFault_extend _ _ _ []
  · by_cases he : c = 'e' ∨ c = 'E'
    · rcases he with rfl | rfl
      · simpa [afterFraction] using readExponent_extend hb negative significand exponent ('e' :: r)
      · simpa [afterFraction] using readExponent_extend hb negative significand exponent ('E' :: r)
    · simp only [not_or] at he
      simpa [afterFraction, he.1, he.2] using scaledOrFault_extend negative significand exponent (c :: r)

theorem readFraction_extend (negative : Bool) (significand : Nat) (exponent : Int)
    (count : Nat) (cs : List Char) :
    Extends b (readFraction negative significand exponent count cs)
      (readFraction negative significand exponent count (cs ++ [b])) := by
  induction cs generalizing significand exponent count with
  | nil =>
    simp only [List.nil_append, readFraction, hb.digitValue, readFraction.finishFraction]
    split
    · exact .error _ _
    · exact afterFraction_extend hb _ _ _ []
  | cons c cs ih =>
    simp only [List.cons_append, readFraction]
    split
    · split
      · rw [← List.cons_append, skipDigits_append_blank hb]
        exact afterFraction_extend hb _ _ _ _
      · exact ih _ _ _
    · simp only [readFraction.finishFraction]
      split
      · exact .error _ _
      · exact afterFraction_extend hb _ _ _ (c :: cs)

/-- The end of a numeral without fraction or exponent: what is left is not read. -/
theorem afterWhole_extend (negative : Bool) (significand : Nat) (exponent : Int) (long : Bool)
    (cs : List Char) :
    Extends b (afterWhole negative significand exponent long cs)
      (afterWhole negative significand exponent long (cs ++ [b])) := by
  have whole : ∀ rest : List Char, Extends b
      (if long then scaledOrFault negative significand exponent rest
        else if !negative then .ok (.nat significand, rest)
        else if significand ≠ 0 ∧ significand ≤ Nat.pow 2 63 then
          .ok (.neg (-(significand : Int)), rest)
        else .ok (.real (Binary64.ofNat significand).neg, rest))
      (if long then scaledOrFault negative significand exponent (rest ++ [b])
        else if !negative then .ok (.nat significand, rest ++ [b])
        else if significand ≠ 0 ∧ significand ≤ Nat.pow 2 63 then
          .ok (.neg (-(significand : Int)), rest ++ [b])
        else .ok (.real (Binary64.ofNat significand).neg, rest ++ [b])) := by
    intro rest
    split
    · exact scaledOrFault_extend _ _ _ rest
    · split
      · exact .ok _ _
      · split
        · exact .ok _ _
        · exact .ok _ _
  rcases cs with _ | ⟨c, r⟩
  · simpa [afterWhole, hb.ne_dot, hb.ne_e, hb.ne_E] using whole []
  · by_cases hd : c = '.'
    · subst hd
      simpa [afterWhole] using readFraction_extend hb negative significand exponent 0 r
    · by_cases he : c = 'e' ∨ c = 'E'
      · rcases he with rfl | rfl
        · simpa [afterWhole] using readExponent_extend hb negative significand exponent ('e' :: r)
        · simpa [afterWhole] using readExponent_extend hb negative significand exponent ('E' :: r)
      · simp only [not_or] at he
        simpa [afterWhole, hd, he.1, he.2] using whole (c :: r)

theorem readLong_extend (negative : Bool) (significand : Nat) (exponent : Int)
    (cs : List Char) :
    Extends b (readLong negative significand exponent cs)
      (readLong negative significand exponent (cs ++ [b])) := by
  induction cs generalizing exponent with
  | nil =>
    simpa [readLong, hb.digitValue] using afterWhole_extend hb negative significand exponent true []
  | cons c cs ih =>
    simp only [List.cons_append, readLong]
    split
    · exact ih _
    · exact afterWhole_extend hb _ _ _ _ (c :: cs)

theorem readWhole_extend (negative : Bool) (significand : Nat) (cs : List Char) :
    Extends b (readWhole negative significand cs) (readWhole negative significand (cs ++ [b])) := by
  induction cs generalizing significand with
  | nil =>
    simpa [readWhole, hb.digitValue] using afterWhole_extend hb negative significand 0 false []
  | cons c cs ih =>
    simp only [List.cons_append, readWhole]
    split
    · split
      · exact readLong_extend hb _ _ _ (c :: cs)
      · exact ih _
    · exact afterWhole_extend hb _ _ _ _ (c :: cs)

theorem readNumber_extend (negative : Bool) (cs : List Char) :
    Extends b (readNumber negative cs) (readNumber negative (cs ++ [b])) := by
  have h0 : b ≠ '0' := by rcases hb with rfl | rfl | rfl | rfl <;> decide
  rcases cs with _ | ⟨c, r⟩
  · simp [readNumber, h0, hb.digitValue]
    exact .error _ _
  · by_cases hc : c = '0'
    · subst hc
      rcases r with _ | ⟨d, r⟩
      · simpa [readNumber, hb.digitValue] using afterWhole_extend hb negative 0 0 false []
      · simp only [readNumber, if_true, List.cons_append]
        split
        · exact .error _ _
        · exact afterWhole_extend hb _ _ _ _ (d :: r)
    · simp only [readNumber, hc, if_false, List.cons_append]
      split
      · exact readWhole_extend hb _ _ r
      · exact .error _ _

end Numbers

/-- A literal's letters are compared one by one; the blank is none of them. -/
theorem readIdent_extend {b : Char} (v : Value) (es cs : List Char) (hes : b ∉ es) :
    Extends b ((readIdent es cs).map fun r => (v, r))
      ((readIdent es (cs ++ [b])).map fun r => (v, r)) := by
  induction es generalizing cs with
  | nil => exact .ok v cs
  | cons e es ih =>
    have hbe : b ≠ e := fun h => hes (h ▸ List.mem_cons_self ..)
    rcases cs with _ | ⟨c, r⟩
    · simp [readIdent, hbe]
      exact .error _ _
    · simp only [List.cons_append, readIdent]
      split
      · exact ih r (fun h => hes (List.mem_cons_of_mem _ h))
      · exact .error _ _

/-- Fewer than four characters never make a hex escape. -/
theorem readHex4_short : ∀ {cs : List Char}, cs.length < 4 → ∃ f, readHex4 cs = .error f
  | [], _ | [_], _ | [_, _], _ | [_, _, _], _ => by
    simp only [readHex4]
    split <;> exact ⟨_, rfl⟩

theorem exists_cons4 {cs : List Char} (h : 4 ≤ cs.length) :
    ∃ x y z w r, cs = x :: y :: z :: w :: r := by
  rcases cs with _ | ⟨x, _ | ⟨y, _ | ⟨z, _ | ⟨w, r⟩⟩⟩⟩
  · simp at h
  · simp at h
  · simp at h
  · simp at h
  · exact ⟨x, y, z, w, r, rfl⟩

section Strings

variable {b : Char} (hb : IsBlank b)
include hb

theorem readHex4_extend (cs : List Char) : Extends b (readHex4 cs) (readHex4 (cs ++ [b])) := by
  by_cases hlong : 4 ≤ cs.length
  · obtain ⟨x, y, z, w, r, rfl⟩ := exists_cons4 hlong
    have htake : (x :: y :: z :: w :: (r ++ [b])).take 4 = (x :: y :: z :: w :: r).take 4 := rfl
    simp only [List.cons_append]
    unfold readHex4
    rw [htake]
    by_cases hbytes : List.foldl (fun n c => n + c.utf8Size) 0 ((x :: y :: z :: w :: r).take 4) < 4
    · rw [if_pos hbytes, if_pos hbytes]
      exact .error _ _
    · rw [if_neg hbytes, if_neg hbytes]
      simp only []
      split
      · exact .ok _ _
      · exact .error _ _
  · obtain ⟨f, hf⟩ := readHex4_short (Nat.lt_of_not_le hlong)
    rw [hf]
    by_cases h3 : cs.length = 3
    · obtain ⟨x, y, z, rfl⟩ : ∃ x y z, cs = [x, y, z] := by
        rcases cs with _ | ⟨x, _ | ⟨y, _ | ⟨z, _ | ⟨w, r⟩⟩⟩⟩
        · simp at h3
        · simp at h3
        · simp at h3
        · exact ⟨x, y, z, rfl⟩
        · simp at h3
      simp only [List.cons_append, List.nil_append]
      unfold readHex4
      simp only [hb.hexValue]
      split
      · exact .error _ _
      · split
        · rename_i hw
          exact absurd hw (by simp)
        · exact .error _ _
    · obtain ⟨g, hg⟩ := @readHex4_short (cs ++ [b]) (by simp; omega)
      rw [hg]
      exact .error _ _

theorem IsBlank.ne_backslash : b ≠ '\\' := by rcases hb with rfl | rfl | rfl | rfl <;> decide

theorem IsBlank.ne_quote : b ≠ '"' := by rcases hb with rfl | rfl | rfl | rfl <;> decide

theorem readUnicode_extend (cs : List Char) :
    Extends b (readUnicode cs) (readUnicode (cs ++ [b])) := by
  have hbu : b ≠ 'u' := by rcases hb with rfl | rfl | rfl | rfl <;> decide
  obtain ⟨n, r, hx, hy⟩ | ⟨f, g, hx, hy⟩ := Extends.iff.1 (readHex4_extend hb cs)
  · simp only [readUnicode, hx, hy, bind, Except.bind]
    split
    · exact .error _ _
    · split
      · exact .ok _ _
      · rcases r with _ | ⟨c, r⟩
        · simp [hb.ne_backslash, throw, throwThe, MonadExceptOf.throw]
          exact .error _ _
        · by_cases hc : c = '\\'
          · subst hc
            rcases r with _ | ⟨d, r⟩
            · simp only [List.cons_append, List.nil_append]
              exact .error _ _
            · by_cases hd : d = 'u'
              · subst hd
                obtain ⟨m, r', hx', hy'⟩ | ⟨f', g', hx', hy'⟩ := Extends.iff.1 (readHex4_extend hb r)
                · simp only [List.cons_append, hx', hy']
                  split
                  · exact .error _ _
                  · exact .ok _ _
                · simp only [List.cons_append, hx', hy']
                  exact .error _ _
              · simp [throw, throwThe, MonadExceptOf.throw]
                exact .error _ _
          · simp [throw, throwThe, MonadExceptOf.throw]
            exact .error _ _
  · simp only [readUnicode, hx, hy, bind, Except.bind]
    exact .error _ _

theorem readEscape_extend (cs : List Char) :
    Extends b (readEscape cs) (readEscape (cs ++ [b])) := by
  rcases cs with _ | ⟨c, r⟩
  · rcases hb with rfl | rfl | rfl | rfl
    all_goals
      simp [readEscape]
      exact .error _ _
  · simp only [List.cons_append, readEscape]
    refine .ite (.ok _ _) <| .ite (.ok _ _) <| .ite (.ok _ _) <| .ite (.ok _ _) <| .ite (.ok _ _) <|
      .ite (.ok _ _) <| .ite (.ok _ _) <| .ite (.ok _ _) <| .ite (readUnicode_extend hb r) (.error _ _)

/-- Reading a string's characters: with the same fuel, a blank after the input is read only
where the closing quote is missing, which fails either way. -/
theorem readStringChars_extend (fuel : Nat) (acc cs : List Char) :
    Extends b (readStringChars fuel acc cs) (readStringChars fuel acc (cs ++ [b])) := by
  induction fuel generalizing acc cs with
  | zero => exact .error _ _
  | succ fuel ih =>
    rcases cs with _ | ⟨c, r⟩
    · have hnil : ∀ n acc', ∃ f, readStringChars n acc' [] = .error f := by
        intro n acc'
        cases n <;> exact ⟨_, rfl⟩
      simp only [List.nil_append, readStringChars, hb.ne_quote, hb.ne_backslash, if_false]
      split
      · exact .error _ _
      · obtain ⟨f, hf⟩ := hnil fuel (b :: acc)
        rw [hf]
        exact .error _ _
    · simp only [List.cons_append, readStringChars]
      split
      · exact .ok _ _
      split
      · obtain ⟨e, r', hx, hy⟩ | ⟨f, g, hx, hy⟩ := Extends.iff.1 (readEscape_extend hb r)
        · rw [hx, hy]
          exact ih _ _
        · rw [hx, hy]
          exact .error _ _
      split
      · exact .error _ _
      · exact ih _ _

end Strings

/-! ## Progress: what a reading leaves is part of what it was given -/

section Progress

theorem skipDigits_length_le (cs : List Char) : (skipDigits cs).length ≤ cs.length := by
  induction cs with
  | nil => exact Nat.le_refl _
  | cons c cs ih =>
    simp only [skipDigits]
    split
    · simp only [List.length_cons]
      omega
    · exact Nat.le_refl _

variable {negative : Bool} {significand : Nat} {x : Number} {r : List Char}

theorem scaledOrFault_rest {exponent : Int} {cs : List Char}
    (h : scaledOrFault negative significand exponent cs = .ok (x, r)) : r = cs := by
  unfold scaledOrFault at h
  split at h
  · cases h
    rfl
  · cases h

theorem readExponentDigits_rest {start : Int} {positive : Bool} {exp : Nat} {cs : List Char}
    (h : readExponentDigits negative significand start positive exp cs = .ok (x, r)) :
    r.length ≤ cs.length := by
  induction cs generalizing exp with
  | nil =>
    simp only [readExponentDigits, readExponentDigits.finish] at h
    exact Nat.le_of_eq (congrArg List.length (scaledOrFault_rest h))
  | cons c cs ih =>
    simp only [readExponentDigits, readExponentDigits.finish] at h
    split at h
    · split at h
      · split at h
        · cases h
        · cases h
          have := skipDigits_length_le cs
          simp only [List.length_cons]
          omega
      · have := ih h
        simp only [List.length_cons]
        omega
    · exact Nat.le_of_eq (congrArg List.length (scaledOrFault_rest h))

theorem readExponent_rest {start : Int} {cs : List Char}
    (h : readExponent negative significand start cs = .ok (x, r)) : r.length ≤ cs.length := by
  rcases cs with _ | ⟨e, _ | ⟨c, cs⟩⟩
  · simp [readExponent] at h
  · simp [readExponent] at h
  · by_cases hp : c = '+'
    · subst hp
      rcases cs with _ | ⟨d, cs⟩
      · simp [readExponent] at h
      · simp only [readExponent, List.drop_succ_cons, List.drop_zero] at h
        split at h
        · have := readExponentDigits_rest h
          simp only [List.length_cons]
          omega
        · cases h
    · by_cases hm : c = '-'
      · subst hm
        rcases cs with _ | ⟨d, cs⟩
        · simp [readExponent] at h
        · simp only [readExponent, List.drop_succ_cons, List.drop_zero] at h
          split at h
          · have := readExponentDigits_rest h
            simp only [List.length_cons]
            omega
          · cases h
      · simp [readExponent, hp, hm] at h
        split at h
        · have := readExponentDigits_rest h
          simp only [List.length_cons] at this ⊢
          omega
        · cases h

theorem afterFraction_rest {exponent : Int} {cs : List Char}
    (h : afterFraction negative significand exponent cs = .ok (x, r)) : r.length ≤ cs.length := by
  unfold afterFraction at h
  split at h
  · exact readExponent_rest h
  · exact readExponent_rest h
  · exact Nat.le_of_eq (congrArg List.length (scaledOrFault_rest h))

theorem readFraction_rest {exponent : Int} {count : Nat} {cs : List Char}
    (h : readFraction negative significand exponent count cs = .ok (x, r)) :
    r.length ≤ cs.length := by
  induction cs generalizing significand exponent count with
  | nil =>
    simp only [readFraction, readFraction.finishFraction] at h
    split at h
    · cases h
    · exact afterFraction_rest h
  | cons c cs ih =>
    simp only [readFraction, readFraction.finishFraction] at h
    split at h
    · split at h
      · have := afterFraction_rest h
        have := skipDigits_length_le (c :: cs)
        omega
      · have := ih h
        simp only [List.length_cons]
        omega
    · split at h
      · cases h
      · exact afterFraction_rest h

theorem afterWhole_rest {exponent : Int} {long : Bool} {cs : List Char}
    (h : afterWhole negative significand exponent long cs = .ok (x, r)) :
    r.length ≤ cs.length := by
  unfold afterWhole at h
  split at h
  · have := readFraction_rest h
    simp only [List.length_cons]
    omega
  · exact readExponent_rest h
  · exact readExponent_rest h
  · split at h
    · exact Nat.le_of_eq (congrArg List.length (scaledOrFault_rest h))
    · split at h
      · cases h
        exact Nat.le_refl _
      · split at h <;> (cases h; exact Nat.le_refl _)

theorem readLong_rest {exponent : Int} {cs : List Char}
    (h : readLong negative significand exponent cs = .ok (x, r)) : r.length ≤ cs.length := by
  induction cs generalizing exponent with
  | nil => exact afterWhole_rest (by simpa [readLong] using h)
  | cons c cs ih =>
    simp only [readLong] at h
    split at h
    · have := ih h
      simp only [List.length_cons]
      omega
    · exact afterWhole_rest h

theorem readWhole_rest {cs : List Char} (h : readWhole negative significand cs = .ok (x, r)) :
    r.length ≤ cs.length := by
  induction cs generalizing significand with
  | nil => exact afterWhole_rest (by simpa [readWhole] using h)
  | cons c cs ih =>
    simp only [readWhole] at h
    split at h
    · split at h
      · exact readLong_rest h
      · have := ih h
        simp only [List.length_cons]
        omega
    · exact afterWhole_rest h

/-- A numeral takes at least its first character. -/
theorem readNumber_progress {cs : List Char} (h : readNumber negative cs = .ok (x, r)) :
    r.length < cs.length := by
  rcases cs with _ | ⟨c, cs⟩
  · simp [readNumber] at h
  · simp only [List.length_cons]
    by_cases hc : c = '0'
    · subst hc
      rcases cs with _ | ⟨d, cs⟩
      · simp only [readNumber, if_true] at h
        have := afterWhole_rest h
        simp only [List.length_nil] at this ⊢
        omega
      · simp only [readNumber, if_true] at h
        split at h
        · cases h
        · have := afterWhole_rest h
          simp only [List.length_cons] at this ⊢
          omega
    · simp only [readNumber, hc, if_false] at h
      split at h
      · have := readWhole_rest h
        omega
      · cases h

/-- A hex escape takes four characters. -/
theorem readHex4_ok {cs r : List Char} {n : Nat} (h : readHex4 cs = .ok (n, r)) :
    ∃ x y z w, cs = x :: y :: z :: w :: r := by
  by_cases hlong : 4 ≤ cs.length
  · obtain ⟨x, y, z, w, rest, rfl⟩ := exists_cons4 hlong
    unfold readHex4 at h
    by_cases hbytes : List.foldl (fun n c => n + c.utf8Size) 0 ((x :: y :: z :: w :: rest).take 4) < 4
    · rw [if_pos hbytes] at h
      cases h
    · rw [if_neg hbytes] at h
      simp only [] at h
      split at h
      · cases h
        exact ⟨x, y, z, w, rfl⟩
      · cases h
  · obtain ⟨f, hf⟩ := readHex4_short (Nat.lt_of_not_le hlong)
    rw [hf] at h
    cases h

theorem readUnicode_rest {cs r : List Char} {c : Char} (h : readUnicode cs = .ok (c, r)) :
    r.length ≤ cs.length := by
  cases hx : readHex4 cs with
  | error f => simp [readUnicode, hx, bind, Except.bind] at h
  | ok p =>
    obtain ⟨n, r₀⟩ := p
    obtain ⟨x, y, z, w, rfl⟩ := readHex4_ok hx
    simp only [readUnicode, hx, bind, Except.bind] at h
    split at h
    · cases h
    split at h
    · simp only [pure, Except.pure, Except.ok.injEq, Prod.mk.injEq] at h
      obtain ⟨-, rfl⟩ := h
      simp only [List.length_cons]
      omega
    rcases r₀ with _ | ⟨e, r₀⟩
    · cases h
    by_cases he : e = '\\'
    · subst he
      rcases r₀ with _ | ⟨u, r₀⟩
      · simp [throw, throwThe, MonadExceptOf.throw] at h
      by_cases hu : u = 'u'
      · subst hu
        cases hy : readHex4 r₀ with
        | error f => simp [hy] at h
        | ok q =>
          obtain ⟨m, r₁⟩ := q
          obtain ⟨x', y', z', w', rfl⟩ := readHex4_ok hy
          simp only [hy] at h
          split at h
          · simp [throw, throwThe, MonadExceptOf.throw] at h
          · simp only [pure, Except.pure, Except.ok.injEq, Prod.mk.injEq] at h
            obtain ⟨-, rfl⟩ := h
            simp only [List.length_cons]
            omega
      · simp [throw, throwThe, MonadExceptOf.throw] at h
    · simp [throw, throwThe, MonadExceptOf.throw] at h

theorem readEscape_rest {cs r : List Char} {e : Char} (h : readEscape cs = .ok (e, r)) :
    r.length ≤ cs.length := by
  rcases cs with _ | ⟨c, cs⟩
  · cases h
  · simp only [readEscape] at h
    simp only [List.length_cons]
    repeat (rcases ite_eq_iff.1 h with ⟨-, h⟩ | ⟨-, h⟩; · cases h; omega)
    rcases ite_eq_iff.1 h with ⟨-, h⟩ | ⟨-, h⟩
    · have := readUnicode_rest h
      omega
    · cases h

/-- A string takes at least its closing quote. -/
theorem readStringChars_progress {fuel : Nat} {acc cs r : List Char} {s : String}
    (h : readStringChars fuel acc cs = .ok (s, r)) : r.length < cs.length := by
  induction fuel generalizing acc cs with
  | zero => cases h
  | succ fuel ih =>
    rcases cs with _ | ⟨c, cs⟩
    · cases h
    · simp only [readStringChars] at h
      simp only [List.length_cons]
      split at h
      · cases h
        omega
      split at h
      · split at h
        · rename_i e r' he
          have h1 := readEscape_rest he
          have h2 := ih h
          omega
        · cases h
      split at h
      · cases h
      · have := ih h
        omega

/-- More fuel than characters left: a string's reading does not depend on the fuel. -/
theorem readStringChars_fuel_succ {fuel : Nat} {acc cs : List Char} (h : cs.length < fuel) :
    readStringChars (fuel + 1) acc cs = readStringChars fuel acc cs := by
  induction fuel generalizing acc cs with
  | zero => omega
  | succ fuel ih =>
    rcases cs with _ | ⟨c, cs⟩
    · rfl
    · simp only [List.length_cons] at h
      simp only [readStringChars]
      split
      · rfl
      split
      · split
        · rename_i e r' he
          have := readEscape_rest he
          exact ih (by omega)
        · rfl
      split
      · rfl
      · exact ih (by omega)

end Progress

/-! ## One round of the list readers

`readItems` and `readEntries` decide, from the first character after the blanks, between the
end of the list, a comma and the next element; the element itself is read as `itemStep` and
`entryStep` read it. -/

theorem readItems_succ (depth fuel : Nat) (first : Bool) (acc : List Value) (cs : List Char) :
    readItems depth (fuel + 1) first acc cs =
      match skipBlank cs with
      | [] => .error (Fault.eofInList.before [])
      | c :: rest =>
        if c = ']' then .ok (.array acc.reverse, rest)
        else if c = ',' then
          if first then .error (Fault.expectedValue.before (',' :: rest))
          else itemStep depth fuel acc (skipBlank rest)
        else if first then itemStep depth fuel acc (c :: rest)
        else .error (Fault.expectedCommaOrBracket.before (c :: rest)) := by
  rw [readItems]
  cases hs : skipBlank cs with
  | nil => simp
  | cons c rest =>
    by_cases h1 : c = ']'
    · subst h1
      simp
    · by_cases h2 : c = ','
      · subst h2
        cases first
        · simp only [h1, if_false, if_true, Bool.false_eq_true]
          cases hr : skipBlank rest with
          | nil => rfl
          | cons d r =>
            by_cases hd : d = ']'
            · subst hd
              simp [itemStep]
            · simp only [ExceptT.stM_eq, ↓Char.isValue, List.cons.injEq, Char.reduceEq, false_and,
                imp_self, implies_true, hd, itemStep, ↓reduceIte]
        · simp
      · cases first
        · simp [h1, h2]
        · simp only [ExceptT.stM_eq, ↓reduceIte, ↓Char.isValue, List.cons.injEq, h1, false_and,
            imp_self, implies_true, h2, itemStep]

theorem readEntries_succ (depth fuel : Nat) (first : Bool) (acc : List (String × Value))
    (cs : List Char) :
    readEntries depth (fuel + 1) first acc cs =
      match skipBlank cs with
      | [] => .error (Fault.eofInObject.before [])
      | c :: rest =>
        if c = '}' then .ok (.object acc.reverse, rest)
        else if c = ',' then
          if first then .error (Fault.keyNotString.before (',' :: rest))
          else entryStep depth fuel acc (skipBlank rest)
        else if first then entryStep depth fuel acc (c :: rest)
        else .error (Fault.expectedCommaOrBrace.before (c :: rest)) := by
  rw [readEntries]
  cases hs : skipBlank cs with
  | nil => simp
  | cons c rest =>
    by_cases h1 : c = '}'
    · subst h1
      simp
    · by_cases h2 : c = ','
      · subst h2
        cases first
        · simp only [h1, if_false, if_true, Bool.false_eq_true]
          cases hr : skipBlank rest with
          | nil => rfl
          | cons d r =>
            by_cases hd : d = '}'
            · subst hd
              simp [entryStep]
            · by_cases hq : d = '"'
              · subst hq
                simp only [ExceptT.stM_eq, ↓Char.isValue, List.cons.injEq, Char.reduceEq, false_and,
                  imp_self, implies_true, entryStep, ↓reduceIte]
              · simp [entryStep, hd, hq]
        · simp
      · cases first
        · simp [h1, h2]
        · by_cases hq : c = '"'
          · subst hq
            simp only [ExceptT.stM_eq, ↓Char.isValue, ↓reduceIte, List.cons.injEq, h1, false_and,
              imp_self, implies_true, h2, entryStep]
          · simp [h1, h2, hq, entryStep]

/-! ## Progress of the document readers -/

theorem map_eq_ok_iff {ε α β : Type} {x : Except ε α} {g : α → β} {b : β} :
    x.map g = .ok b ↔ ∃ a, x = .ok a ∧ g a = b := by
  cases x with
  | error e => simp [Except.map]
  | ok a => simp [Except.map]

theorem readIdent_rest {es cs r : List Char} (h : readIdent es cs = .ok r) :
    r.length ≤ cs.length := by
  induction es generalizing cs with
  | nil =>
    cases h
    exact Nat.le_refl _
  | cons e es ih =>
    rcases cs with _ | ⟨c, cs⟩
    · cases h
    · simp only [readIdent] at h
      split at h
      · have := ih h
        simp only [List.length_cons]
        omega
      · cases h

theorem readString_progress {cs r : List Char} {s : String} (h : readString cs = .ok (s, r)) :
    r.length < cs.length :=
  readStringChars_progress h

/-- The list readers make progress at a depth where documents do. -/
theorem list_progress_of_value {depth : Nat}
    (hv : ∀ cs v r, readValue depth cs = .ok (v, r) → r.length < cs.length) (fuel : Nat) :
    (∀ first acc cs v r, readItems depth fuel first acc cs = .ok (v, r) →
      r.length < cs.length) ∧
    (∀ first acc cs v r, readEntries depth fuel first acc cs = .ok (v, r) →
      r.length < cs.length) := by
  induction fuel with
  | zero =>
    refine ⟨fun first acc cs v r h => ?_, fun first acc cs v r h => ?_⟩
    · simp [readItems] at h
    · simp [readEntries] at h
  | succ fuel ih =>
    obtain ⟨ihI, ihE⟩ := ih
    have item : ∀ acc cs' v r, itemStep depth fuel acc cs' = .ok (v, r) →
        r.length < cs'.length := by
      intro acc cs' v r h
      rcases cs' with _ | ⟨c, rest⟩
      · cases h
      · simp only [itemStep] at h
        split at h
        · cases h
        · split at h
          · cases h
          · rename_i v' r' hv'
            have h1 := hv _ _ _ hv'
            have h2 := ihI _ _ _ _ _ h
            omega
    have entry : ∀ acc cs' v r, entryStep depth fuel acc cs' = .ok (v, r) →
        r.length < cs'.length := by
      intro acc cs' v r h
      rcases cs' with _ | ⟨c, rest⟩
      · cases h
      · simp only [entryStep] at h
        split at h
        · cases h
        split at h
        · split at h
          · cases h
          · rename_i key r₁ hkey
            have h1 := readString_progress hkey
            split at h
            · rename_i r₂ hcolon
              split at h
              · cases h
              · rename_i v' r₃ hv'
                have h2 := hv _ _ _ hv'
                have h3 := ihE _ _ _ _ _ h
                have h4 := skipBlank_length_le r₁
                rw [hcolon] at h4
                simp only [List.length_cons] at h4 ⊢
                omega
            · cases h
            · cases h
        · cases h
    refine ⟨fun first acc cs v r h => ?_, fun first acc cs v r h => ?_⟩
    · rw [readItems_succ] at h
      have hs := skipBlank_length_le cs
      split at h
      · cases h
      · rename_i c rest hcs
        rw [hcs] at hs
        simp only [List.length_cons] at hs
        split_ifs at h
        · cases h
          omega
        · have := item _ _ _ _ h
          have := skipBlank_length_le rest
          omega
        · have := item _ _ _ _ h
          simp only [List.length_cons] at this
          omega
    · rw [readEntries_succ] at h
      have hs := skipBlank_length_le cs
      split at h
      · cases h
      · rename_i c rest hcs
        rw [hcs] at hs
        simp only [List.length_cons] at hs
        split_ifs at h
        · cases h
          omega
        · have := entry _ _ _ _ h
          have := skipBlank_length_le rest
          omega
        · have := entry _ _ _ _ h
          simp only [List.length_cons] at this
          omega

/-- **Progress**: a document that is read takes at least one character. -/
theorem readValue_progress (depth : Nat) :
    ∀ cs v r, readValue depth cs = .ok (v, r) → r.length < cs.length := by
  induction depth using Nat.strongRecOn with
  | _ depth ih =>
    intro cs v r h
    rw [readValue] at h
    have hs := skipBlank_length_le cs
    split at h
    · cases h
    · rename_i c rest hcs
      rw [hcs] at hs
      simp only [List.length_cons] at hs
      have literal : ∀ (es : List Char) (w : Value),
          (readIdent es rest).map (fun r => (w, r)) = .ok (v, r) → r.length < cs.length := by
        intro es w hl
        obtain ⟨r', hr', he⟩ := map_eq_ok_iff.1 hl
        simp only [Prod.mk.injEq] at he
        obtain ⟨-, rfl⟩ := he
        have := readIdent_rest hr'
        omega
      rcases ite_eq_iff.1 h with ⟨-, h⟩ | ⟨-, h⟩
      · exact literal _ _ h
      rcases ite_eq_iff.1 h with ⟨-, h⟩ | ⟨-, h⟩
      · exact literal _ _ h
      rcases ite_eq_iff.1 h with ⟨-, h⟩ | ⟨-, h⟩
      · exact literal _ _ h
      rcases ite_eq_iff.1 h with ⟨-, h⟩ | ⟨-, h⟩
      · obtain ⟨⟨n, r'⟩, hr', he⟩ := map_eq_ok_iff.1 h
        simp only [Prod.mk.injEq] at he
        obtain ⟨-, rfl⟩ := he
        have := readNumber_progress hr'
        omega
      rcases ite_eq_iff.1 h with ⟨-, h⟩ | ⟨-, h⟩
      · obtain ⟨⟨n, r'⟩, hr', he⟩ := map_eq_ok_iff.1 h
        simp only [Prod.mk.injEq] at he
        obtain ⟨-, rfl⟩ := he
        have := readNumber_progress hr'
        simp only [List.length_cons] at this
        omega
      rcases ite_eq_iff.1 h with ⟨-, h⟩ | ⟨-, h⟩
      · obtain ⟨⟨t, r'⟩, hr', he⟩ := map_eq_ok_iff.1 h
        simp only [Prod.mk.injEq] at he
        obtain ⟨-, rfl⟩ := he
        have := readString_progress hr'
        omega
      rcases ite_eq_iff.1 h with ⟨-, h⟩ | ⟨-, h⟩
      · rcases depth with _ | _ | d
        · cases h
        · cases h
        · have := (list_progress_of_value (ih (d + 1) (by omega)) _).1 _ _ _ _ _ h
          omega
      rcases ite_eq_iff.1 h with ⟨-, h⟩ | ⟨-, h⟩
      · rcases depth with _ | _ | d
        · cases h
        · cases h
        · have := (list_progress_of_value (ih (d + 1) (by omega)) _).2 _ _ _ _ _ h
          omega
      · cases h

/-! ## Fuel that is never short -/

/-- With more fuel than characters left, one more unit of fuel changes nothing. -/
theorem list_fuel_succ (depth : Nat) (fuel : Nat) :
    (∀ first acc cs, cs.length < fuel →
      readItems depth (fuel + 1) first acc cs = readItems depth fuel first acc cs) ∧
    (∀ first acc cs, cs.length < fuel →
      readEntries depth (fuel + 1) first acc cs = readEntries depth fuel first acc cs) := by
  have hv := readValue_progress depth
  induction fuel with
  | zero => exact ⟨fun _ _ _ h => absurd h (Nat.not_lt_zero _),
      fun _ _ _ h => absurd h (Nat.not_lt_zero _)⟩
  | succ fuel ih =>
    obtain ⟨ihI, ihE⟩ := ih
    have item : ∀ acc cs', cs'.length ≤ fuel →
        itemStep depth (fuel + 1) acc cs' = itemStep depth fuel acc cs' := by
      intro acc cs' hlen
      rcases cs' with _ | ⟨c, rest⟩
      · rfl
      · simp only [itemStep]
        split
        · rfl
        · cases hr : readValue depth (c :: rest) with
          | error f => rfl
          | ok p =>
            obtain ⟨v, r⟩ := p
            have := hv _ _ _ hr
            exact ihI _ _ _ (by omega)
    have entry : ∀ acc cs', cs'.length ≤ fuel →
        entryStep depth (fuel + 1) acc cs' = entryStep depth fuel acc cs' := by
      intro acc cs' hlen
      rcases cs' with _ | ⟨c, rest⟩
      · rfl
      · simp only [entryStep]
        split
        · rfl
        split
        · cases hk : readString rest with
          | error f => rfl
          | ok p =>
            obtain ⟨key, r₁⟩ := p
            have h1 := readString_progress hk
            simp only
            cases hc : skipBlank r₁ with
            | nil => rfl
            | cons d r₂ =>
              by_cases hd : d = ':'
              · subst hd
                have h2 := skipBlank_length_le r₁
                rw [hc] at h2
                simp only [List.length_cons] at h2 hlen
                cases hr : readValue depth r₂ with
                | error f => simp only [hr]
                | ok q =>
                  obtain ⟨v, r₃⟩ := q
                  have h3 := hv _ _ _ hr
                  simp only [hr]
                  exact ihE _ _ _ (by omega)
              · simp [hd]
        · rfl
    refine ⟨fun first acc cs hlen => ?_, fun first acc cs hlen => ?_⟩
    · have hs := skipBlank_length_le cs
      rw [readItems_succ, readItems_succ]
      cases hcs : skipBlank cs with
      | nil => rfl
      | cons c rest =>
        rw [hcs] at hs
        simp only [List.length_cons] at hs
        simp only
        split_ifs
        · rfl
        · rfl
        · exact item _ _ (by have := skipBlank_length_le rest; omega)
        · exact item _ _ (by simp only [List.length_cons]; omega)
        · rfl
    · have hs := skipBlank_length_le cs
      rw [readEntries_succ, readEntries_succ]
      cases hcs : skipBlank cs with
      | nil => rfl
      | cons c rest =>
        rw [hcs] at hs
        simp only [List.length_cons] at hs
        simp only
        split_ifs
        · rfl
        · rfl
        · exact entry _ _ (by have := skipBlank_length_le rest; omega)
        · exact entry _ _ (by simp only [List.length_cons]; omega)
        · rfl

/-! ## A blank after a document -/

section Extend

variable {b : Char} (hb : IsBlank b)
include hb

theorem readString_extend (cs : List Char) :
    Extends b (readString cs) (readString (cs ++ [b])) := by
  have h := readStringChars_extend hb (cs.length + 2) [] cs
  rw [readStringChars_fuel_succ (by omega)] at h
  unfold readString
  rw [List.length_append, List.length_singleton]
  exact h

/-- The list readers keep the relation at a depth where documents do. -/
theorem list_extend_of_value {depth : Nat}
    (hv : ∀ cs, Extends b (readValue depth cs) (readValue depth (cs ++ [b]))) (fuel : Nat) :
    (∀ first acc cs, Extends b (readItems depth fuel first acc cs)
      (readItems depth fuel first acc (cs ++ [b]))) ∧
    (∀ first acc cs, Extends b (readEntries depth fuel first acc cs)
      (readEntries depth fuel first acc (cs ++ [b]))) := by
  induction fuel with
  | zero =>
    refine ⟨fun _ _ _ => ?_, fun _ _ _ => ?_⟩
    · rw [readItems, readItems]
      exact .error _ _
    · rw [readEntries, readEntries]
      exact .error _ _
  | succ fuel ih =>
    obtain ⟨ihI, ihE⟩ := ih
    have hnil : ∃ f, readValue depth [b] = .error f := by
      have h := hv []
      rw [readValue] at h
      exact Extends.error_left h
    have item : ∀ acc cs', Extends b (itemStep depth fuel acc cs')
        (itemStep depth fuel acc (cs' ++ [b])) := by
      intro acc cs'
      rcases cs' with _ | ⟨c, rest⟩
      · obtain ⟨f, hf⟩ := hnil
        simp only [List.nil_append, itemStep, hb.ne_bracket, if_false, hf]
        exact .error _ _
      · simp only [List.cons_append, itemStep]
        split
        · exact .error _ _
        · rw [← List.cons_append]
          obtain ⟨v, r, hx, hy⟩ | ⟨f, g, hx, hy⟩ := Extends.iff.1 (hv (c :: rest))
          · rw [hx, hy]
            exact ihI _ _ r
          · rw [hx, hy]
            exact .error _ _
    have entry : ∀ acc cs', Extends b (entryStep depth fuel acc cs')
        (entryStep depth fuel acc (cs' ++ [b])) := by
      intro acc cs'
      rcases cs' with _ | ⟨c, rest⟩
      · simp only [List.nil_append, entryStep, hb.ne_brace, hb.ne_quote, if_false]
        exact .error _ _
      · simp only [List.cons_append, entryStep]
        split
        · exact .error _ _
        split
        · obtain ⟨key, r₁, hx, hy⟩ | ⟨f, g, hx, hy⟩ := Extends.iff.1 (readString_extend hb rest)
          · rw [hx, hy]
            simp only
            rw [skipBlank_append_blank hb]
            cases hc : skipBlank r₁ with
            | nil => exact .error _ _
            | cons d r₂ =>
              simp only [reduceCtorEq, if_false, List.cons_append]
              by_cases hd : d = ':'
              · subst hd
                obtain ⟨v, r₃, hx', hy'⟩ | ⟨f', g', hx', hy'⟩ := Extends.iff.1 (hv r₂)
                · simp only [hx', hy']
                  exact ihE _ _ r₃
                · simp only [hx', hy']
                  exact .error _ _
              · simp [hd]
                exact .error _ _
          · rw [hx, hy]
            exact .error _ _
        · exact .error _ _
    refine ⟨fun first acc cs => ?_, fun first acc cs => ?_⟩
    · rw [readItems_succ, readItems_succ, skipBlank_append_blank hb]
      cases hcs : skipBlank cs with
      | nil => exact .error _ _
      | cons c rest =>
        simp only [reduceCtorEq, if_false, List.cons_append]
        split_ifs
        · exact .ok _ _
        · exact .error _ _
        · rw [skipBlank_append_blank hb]
          split
          · rename_i hr
            rw [hr]
            exact .error _ _
          · exact item _ _
        · exact item _ (c :: rest)
        · exact .error _ _
    · rw [readEntries_succ, readEntries_succ, skipBlank_append_blank hb]
      cases hcs : skipBlank cs with
      | nil => exact .error _ _
      | cons c rest =>
        simp only [reduceCtorEq, if_false, List.cons_append]
        split_ifs
        · exact .ok _ _
        · exact .error _ _
        · rw [skipBlank_append_blank hb]
          split
          · rename_i hr
            rw [hr]
            exact .error _ _
          · exact entry _ _
        · exact entry _ (c :: rest)
        · exact .error _ _

/-- **A trailing blank changes nothing**: reading a document followed by one more blank gives the
same document with the blank unread, and fails where the reading without it fails. -/
theorem readValue_extend (depth : Nat) :
    ∀ cs, Extends b (readValue depth cs) (readValue depth (cs ++ [b])) := by
  induction depth using Nat.strongRecOn with
  | _ depth ih =>
    intro cs
    rw [readValue, readValue, skipBlank_append_blank hb]
    cases hcs : skipBlank cs with
    | nil => exact .error _ _
    | cons c rest =>
      simp only [reduceCtorEq, if_false, List.cons_append]
      have letters : ∀ es : List Char, (∀ e ∈ es, 'a' ≤ e) → b ∉ es := by
        intro es hes hmem
        have := hes b hmem
        rcases hb with rfl | rfl | rfl | rfl <;> exact absurd this (by decide)
      refine .ite ?_ <| .ite ?_ <| .ite ?_ <| .ite ?_ <| .ite ?_ <| .ite ?_ <| .ite ?_ <| .ite ?_ ?_
      · exact readIdent_extend _ _ rest (letters _ (by simp))
      · exact readIdent_extend _ _ rest (letters _ (by simp))
      · exact readIdent_extend _ _ rest (letters _ (by simp))
      · exact (readNumber_extend hb true rest).map Value.number
      · exact (readNumber_extend hb false (c :: rest)).map Value.number
      · exact (readString_extend hb rest).map Value.string
      · split
        · exact .error _ _
        · exact .error _ _
        · rename_i d
          have h := (list_extend_of_value hb (ih (d + 1) (by omega)) (rest.length + 2)).1 true [] rest
          rw [(list_fuel_succ (d + 1) (rest.length + 1)).1 true [] rest (by omega)] at h
          rw [List.length_append, List.length_singleton]
          exact h
      · split
        · exact .error _ _
        · exact .error _ _
        · rename_i d
          have h := (list_extend_of_value hb (ih (d + 1) (by omega)) (rest.length + 2)).2 true [] rest
          rw [(list_fuel_succ (d + 1) (rest.length + 1)).2 true [] rest (by omega)] at h
          rw [List.length_append, List.length_singleton]
          exact h
      · exact .error _ _

end Extend

/-- **A whole text parses exactly when it does with one more blank after it.** -/
theorem Value.parse_append_blank {b : Char} (hb : IsBlank b) (text : String) (v : Value) :
    Value.parse (text ++ String.singleton b) = .ok v ↔ Value.parse text = .ok v := by
  have hlist : (text ++ String.singleton b).toList = text.toList ++ [b] := by
    rw [String.toList_append, String.toList_singleton]
  obtain ⟨w, r, hx, hy⟩ | ⟨f, g, hx, hy⟩ := Extends.iff.1 (readValue_extend hb depthLimit text.toList)
  · simp only [Value.parse, hlist, hx, hy, bind, Except.bind, skipBlank_append_blank hb]
    cases hr : skipBlank r with
    | nil => rfl
    | cons d r' => simp [throw, throwThe, MonadExceptOf.throw]
  · simp [Value.parse, hx, hy, bind, Except.bind]

end Launcher.Json
