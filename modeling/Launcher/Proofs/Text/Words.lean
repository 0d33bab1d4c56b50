import Mathlib.Data.List.Basic
import Mathlib.Data.List.TakeWhile
import Launcher.Text.Blank

/-!
# Trimming and the words of a text

Trimming and the word scan read a text the same way: as blanks and the blank-free runs between
them. This module pins trimming down by what it leaves, and relates the words of a text to its
trimmed form and to the cut in front of its first blank:

* `Text.head_words` — the first word of a text is the piece of the trimmed text before its first
  blank, and there is none exactly when the text is blank;
* `Text.Trimmed` — a character list with no blank at either end;
* `Text.trim_of_split` — leading blanks, a trimmed middle and trailing blanks trim to the middle,
  and every text is made so from its trim (`Text.exists_split_trim`, `Text.trimmed_trim`);
* `Text.wordsOf_split`, `Text.words_trim` — blanks at either end add no word, so a text and its
  trim have the same words;
* `Text.wordsOf_word_append`, `Text.wordsOf_breakAtBlank` — a blank-free run followed by nothing
  or by a blank is the first word, and the words of the rest follow it.
-/

namespace Launcher.Text

/-! ## The first word of a text -/

/-- A run already begun is the first word: it goes on up to the next blank. -/
theorem head_wordsFrom_of_ne_nil (current : List Char) (hc : current ≠ []) :
    ∀ cs : List Char,
      (wordsFrom current cs).head? = some (current.reverse ++ cs.takeWhile (fun c => !isBlank c))
  | [] => by
    cases current with
    | nil => exact absurd rfl hc
    | cons x xs => simp [wordsFrom]
  | c :: rest => by
    cases hb : isBlank c with
    | true =>
      cases current with
      | nil => exact absurd rfl hc
      | cons x xs => simp [wordsFrom_cons_blank _ _ _ hb, hb]
    | false =>
      rw [wordsFrom_cons_word _ _ _ hb, head_wordsFrom_of_ne_nil (c :: current) (by simp) rest]
      simp [hb]

/-- The first word of a scan from scratch: nothing if only blanks are left, else the run that
starts after the leading blanks. -/
theorem head_wordsOf : ∀ cs : List Char,
    (wordsOf cs).head? =
      if cs.dropWhile isBlank = [] then none
      else some ((cs.dropWhile isBlank).takeWhile (fun c => !isBlank c))
  | [] => rfl
  | c :: rest => by
    cases hb : isBlank c with
    | true =>
      have h := head_wordsOf rest
      simp only [wordsOf] at h ⊢
      rw [wordsFrom_cons_blank _ _ _ hb, List.dropWhile_cons_of_pos (by simpa using hb)]
      simpa using h
    | false =>
      simp only [wordsOf]
      rw [wordsFrom_cons_word _ _ _ hb, head_wordsFrom_of_ne_nil [c] (by simp) rest,
        List.dropWhile_cons_of_neg (by simpa using hb)]
      simp [hb]

/-- Blanks at the end of a text do not change the piece in front of its first blank. -/
theorem takeWhile_dropWhile_reverse (cs : List Char) :
    ((cs.reverse.dropWhile isBlank).reverse).takeWhile (fun c => !isBlank c) =
      cs.takeWhile (fun c => !isBlank c) := by
  obtain ⟨tail, hsplit, htail⟩ : ∃ tail : List Char,
      cs = (cs.reverse.dropWhile isBlank).reverse ++ tail ∧ ∀ c ∈ tail, isBlank c = true := by
    refine ⟨(cs.reverse.takeWhile isBlank).reverse, ?_, ?_⟩
    · rw [← List.reverse_append, List.takeWhile_append_dropWhile, List.reverse_reverse]
    · intro c hc
      exact List.mem_takeWhile_imp (List.mem_reverse.1 hc)
  conv => rhs; rw [hsplit]
  rw [List.takeWhile_append]
  split
  · rename_i hall
    have hfront := List.takeWhile_eq_self_iff.1 (List.IsPrefix.eq_of_length
      (List.takeWhile_prefix _) hall)
    rw [List.takeWhile_eq_self_iff.2 hfront]
    cases tail with
    | nil => simp
    | cons b bs => simp [htail b (by simp)]
  · rfl

/-- The characters of a trimmed text: the leading blanks dropped, then the trailing ones. -/
theorem toList_trim (s : String) :
    (trim s).toList = ((s.toList.dropWhile isBlank).reverse.dropWhile isBlank).reverse := by
  simp [trim, trimEnd, trimStart, dropBlanks]

/-- A text is blank exactly when nothing is left once its leading blanks are dropped. -/
theorem trim_eq_empty_iff (s : String) : trim s = "" ↔ s.toList.dropWhile isBlank = [] := by
  rw [← String.toList_eq_nil_iff, toList_trim]
  constructor
  · intro h
    cases hd : s.toList.dropWhile isBlank with
    | nil => rfl
    | cons c rest =>
      have hc : isBlank c = false := by
        have := List.head_dropWhile_not isBlank (l := s.toList) (by simp [hd])
        simpa [hd] using this
      rw [hd] at h
      have hmem : c ∈ (c :: rest).reverse := by simp
      have := List.dropWhile_eq_nil_iff.1 (List.reverse_eq_nil_iff.1 h) c hmem
      rw [hc] at this
      cases this
  · intro h
    simp [h]

/-- The piece in front of the first blank of a trimmed text starts after the leading blanks;
trailing blanks play no part. -/
theorem breakAtBlank_trim (s : String) :
    (breakAtBlank (trim s).toList).1 =
      (s.toList.dropWhile isBlank).takeWhile (fun c => !isBlank c) := by
  simp only [breakAtBlank, toList_trim, takeWhile_dropWhile_reverse]

/-- The piece in front of the first blank of a trimmed text is empty only for a blank text. -/
theorem breakAtBlank_trim_eq_nil_iff (s : String) :
    (breakAtBlank (trim s).toList).1 = [] ↔ trim s = "" := by
  rw [breakAtBlank_trim, trim_eq_empty_iff]
  cases hd : s.toList.dropWhile isBlank with
  | nil => simp
  | cons c rest =>
    have hc : isBlank c = false := by
      have := List.head_dropWhile_not isBlank (l := s.toList) (by simp [hd])
      simpa [hd] using this
    simp [hc]

/-- **The first word of a text.** It is the piece of the trimmed text in front of its first
blank, and there is none exactly when the text is blank. -/
theorem head_words (s : String) :
    (words s).head? =
      if trim s = "" then none else some (String.ofList (breakAtBlank (trim s).toList).1) := by
  simp only [words, List.head?_map, head_wordsOf, trim_eq_empty_iff, breakAtBlank_trim]
  split <;> rfl


/-! ## Trimming -/

/-- A character list with no blank at either end. -/
def Trimmed (cs : List Char) : Prop :=
  (∀ c ∈ cs.head?, isBlank c = false) ∧ ∀ c ∈ cs.getLast?, isBlank c = false

/-- The first character a scan stops at fails the scan's test. -/
theorem head?_dropWhile_of_mem {p : Char → Bool} {cs : List Char} {c : Char}
    (h : c ∈ (cs.dropWhile p).head?) : p c = false := by
  have := List.head?_dropWhile_not p cs
  rw [Option.mem_def.1 h] at this
  exact this

/-- Dropping leading blanks from a list that starts with none leaves it whole. -/
theorem dropWhile_blank_of_head {cs : List Char} (h : ∀ c ∈ cs.head?, isBlank c = false) :
    cs.dropWhile isBlank = cs := by
  cases cs with
  | nil => rfl
  | cons c rest => exact List.dropWhile_cons_of_neg (by simp [h c rfl])

/-- **Trimming reads off a split.** Leading blanks, a trimmed middle and trailing blanks trim to
the middle. -/
theorem trim_of_split {l m t : List Char} (hl : ∀ c ∈ l, isBlank c = true) (hm : Trimmed m)
    (ht : ∀ c ∈ t, isBlank c = true) : (trim (String.ofList (l ++ m ++ t))).toList = m := by
  rw [toList_trim, String.toList_ofList, List.append_assoc, List.dropWhile_append_of_pos hl]
  cases m with
  | nil => rw [List.nil_append, List.dropWhile_eq_nil_iff.2 ht]; rfl
  | cons c m =>
    have hhead : ∀ x ∈ ((c :: m) ++ t).head?, isBlank x = false := by simpa using hm.1
    have hlast : ∀ x ∈ (c :: m).reverse.head?, isBlank x = false := by
      rw [List.head?_reverse]
      exact hm.2
    rw [dropWhile_blank_of_head hhead, List.reverse_append,
      List.dropWhile_append_of_pos (fun x hx => ht x (List.mem_reverse.1 hx)),
      dropWhile_blank_of_head hlast, List.reverse_reverse]

/-- A front that starts with no blank and a back that ends with none make a trimmed list. -/
theorem trimmed_append {a b : List Char} (ha : a ≠ []) (hb : b ≠ [])
    (hhead : ∀ c ∈ a.head?, isBlank c = false) (hlast : ∀ c ∈ b.getLast?, isBlank c = false) :
    Trimmed (a ++ b) := by
  refine ⟨?_, ?_⟩
  · rw [List.head?_append_of_ne_nil _ ha]
    exact hhead
  · rw [List.getLast?_append_of_ne_nil _ hb]
    exact hlast

/-- Every text is its trim with blanks on either side. -/
theorem exists_split_trim (s : String) :
    ∃ l t : List Char, (∀ c ∈ l, isBlank c = true) ∧ (∀ c ∈ t, isBlank c = true) ∧
      s.toList = l ++ (trim s).toList ++ t := by
  refine ⟨s.toList.takeWhile isBlank,
    ((s.toList.dropWhile isBlank).reverse.takeWhile isBlank).reverse,
    fun c hc => List.mem_takeWhile_imp hc,
    fun c hc => List.mem_takeWhile_imp (List.mem_reverse.1 hc), ?_⟩
  rw [toList_trim, List.append_assoc, ← List.reverse_append, List.takeWhile_append_dropWhile,
    List.reverse_reverse, List.takeWhile_append_dropWhile]

/-- A trimmed text has no blank at either end. -/
theorem trimmed_trim (s : String) : Trimmed (trim s).toList := by
  rw [toList_trim]
  constructor
  · intro c hc
    rw [List.head?_reverse] at hc
    have h : c ∈ (s.toList.dropWhile isBlank).reverse.getLast? := by
      rw [← List.takeWhile_append_dropWhile (p := isBlank)
        (l := (s.toList.dropWhile isBlank).reverse), List.getLast?_append, Option.mem_def.1 hc]
      rfl
    rw [List.getLast?_reverse] at h
    exact head?_dropWhile_of_mem h
  · intro c hc
    rw [List.getLast?_reverse] at hc
    exact head?_dropWhile_of_mem hc

/-! ## Words around blanks -/

/-- Blanks alone end the run read so far and add no word of their own. -/
theorem wordsFrom_blanks (current : List Char) {t : List Char} (ht : ∀ c ∈ t, isBlank c = true) :
    wordsFrom current t = wordsFrom current [] := by
  induction t generalizing current with
  | nil => rfl
  | cons b t ih =>
    rw [wordsFrom_cons_blank _ _ _ (ht b (by simp)), ih [] (fun c hc => ht c (by simp [hc]))]
    cases current <;> simp [wordsFrom]

/-- Trailing blanks add no word. -/
theorem wordsFrom_append_blanks (current cs : List Char) {t : List Char}
    (ht : ∀ c ∈ t, isBlank c = true) : wordsFrom current (cs ++ t) = wordsFrom current cs := by
  induction cs generalizing current with
  | nil => exact wordsFrom_blanks current ht
  | cons c cs ih =>
    cases hc : isBlank c with
    | true => rw [List.cons_append, wordsFrom_cons_blank _ _ _ hc, wordsFrom_cons_blank _ _ _ hc, ih]
    | false => rw [List.cons_append, wordsFrom_cons_word _ _ _ hc, wordsFrom_cons_word _ _ _ hc, ih]

/-- Leading blanks add no word. -/
theorem wordsFrom_blanks_append {l : List Char} (hl : ∀ c ∈ l, isBlank c = true)
    (cs : List Char) : wordsFrom [] (l ++ cs) = wordsFrom [] cs := by
  induction l with
  | nil => rfl
  | cons b l ih =>
    rw [List.cons_append, wordsFrom_cons_blank _ _ _ (hl b (by simp)),
      ih (fun c hc => hl c (by simp [hc]))]
    simp

/-- A text's words are those of its middle, whatever blanks stand around it. -/
theorem wordsOf_split {l t : List Char} (hl : ∀ c ∈ l, isBlank c = true) (m : List Char)
    (ht : ∀ c ∈ t, isBlank c = true) : wordsOf (l ++ m ++ t) = wordsOf m := by
  rw [wordsOf, List.append_assoc, wordsFrom_blanks_append hl, wordsFrom_append_blanks _ _ ht]
  rfl

/-- **A text and its trim have the same words.** -/
theorem words_trim (s : String) : words (trim s) = words s := by
  obtain ⟨l, t, hl, ht, hs⟩ := exists_split_trim s
  simp only [words]
  rw [hs, wordsOf_split hl _ ht]

/-- A run read so far takes in the blank-free characters that follow it. -/
theorem wordsFrom_append_word (current : List Char) {w : List Char}
    (hw : ∀ c ∈ w, isBlank c = false) (rest : List Char) :
    wordsFrom current (w ++ rest) = wordsFrom (w.reverse ++ current) rest := by
  induction w generalizing current with
  | nil => rfl
  | cons c w ih =>
    rw [List.cons_append, wordsFrom_cons_word _ _ _ (hw c (by simp)),
      ih _ (fun x hx => hw x (by simp [hx]))]
    simp

/-- **The first word.** A blank-free run followed by nothing or by a blank is the first word,
and the words of the rest follow it. -/
theorem wordsOf_word_append {w : List Char} (hw : ∀ c ∈ w, isBlank c = false) (hne : w ≠ [])
    {rest : List Char} (hrest : ∀ c ∈ rest.head?, isBlank c = true) :
    wordsOf (w ++ rest) = w :: wordsOf rest := by
  have hrev : w.reverse.isEmpty = false := by simpa using hne
  rw [wordsOf, wordsFrom_append_word [] hw, List.append_nil]
  cases rest with
  | nil => simp [wordsFrom, hrev, wordsOf]
  | cons b rest =>
    rw [wordsOf, wordsFrom_cons_blank _ _ _ (hrest b rfl), wordsFrom_cons_blank _ _ _ (hrest b rfl)]
    simp [hrev]

/-- The piece in front of the first blank holds no blank. -/
theorem breakAtBlank_fst_not_blank (cs : List Char) :
    ∀ c ∈ (breakAtBlank cs).1, isBlank c = false :=
  fun _ hc => by simpa using List.mem_takeWhile_imp hc

/-- What follows the piece starts at a blank, if anything follows. -/
theorem breakAtBlank_snd_head (cs : List Char) :
    ∀ c ∈ (breakAtBlank cs).2.head?, isBlank c = true :=
  fun _ hc => by simpa using head?_dropWhile_of_mem hc

/-- A list that starts with no blank has an empty piece in front of its first blank only when it
is empty. -/
theorem breakAtBlank_fst_eq_nil {cs : List Char} (h : ∀ c ∈ cs.head?, isBlank c = false) :
    (breakAtBlank cs).1 = [] ↔ cs = [] := by
  cases cs with
  | nil => simp [breakAtBlank]
  | cons c rest => simp [breakAtBlank, h c rfl]

/-- A text cut in front of its first blank: the piece in front, when not empty, is the first
word, and the words of the rest follow. -/
theorem wordsOf_breakAtBlank {cs : List Char} (h : (breakAtBlank cs).1 ≠ []) :
    wordsOf cs = (breakAtBlank cs).1 :: wordsOf (breakAtBlank cs).2 := by
  conv_lhs => rw [← breakAtBlank_append cs]
  exact wordsOf_word_append (breakAtBlank_fst_not_blank cs) h (breakAtBlank_snd_head cs)

/-- A blank-free run followed by nothing or by a blank is cut off whole. -/
theorem breakAtBlank_word_append {w rest : List Char} (hw : ∀ c ∈ w, isBlank c = false)
    (hrest : ∀ c ∈ rest.head?, isBlank c = true) : breakAtBlank (w ++ rest) = (w, rest) := by
  have hw' : ∀ c ∈ w, (!isBlank c) = true := fun c hc => by simp [hw c hc]
  simp only [breakAtBlank, List.takeWhile_append_of_pos hw', List.dropWhile_append_of_pos hw']
  cases rest with
  | nil => simp
  | cons b rest => simp [hrest b rfl]

/-- The first word of a text holds no blank. -/
theorem not_isBlank_of_head_words {s k : String} (h : (words s).head? = some k) :
    ∀ c ∈ k.toList, isBlank c = false := by
  obtain ⟨w, hw, rfl⟩ := List.mem_map.1 (List.mem_of_mem_head? h)
  rw [String.toList_ofList]
  exact not_isBlank_of_mem_wordsOf hw

end Launcher.Text
