import Mathlib.Data.String.Basic
import Launcher.History.Store

/-!
# Lines of a journal text

The journal is read line by line with `textLines`, which cuts the text at each line break the way
`str::lines` does. Its definition goes through `String.splitOn`; here it is described on
character lists, where appending text can be followed line by line:

* `splitOn_singleton` — splitting at a one-byte separator is `List.splitOn` on the characters;
* `textLines_eq` — the lines are the pieces between breaks, each *terminated* piece without one
  final carriage return (`withoutCR`), and the last piece kept as it is when no break follows it;
* `textLines_append_newline`, `textLines_append_break` — ending a text with a break terminates its
  last piece, and the lines of `s ++ "\n" ++ t` are those of `s ++ "\n"` followed by those of `t`;
* `textLines_of_no_break`, `textLines_line_break` — a text without breaks is one line, and so is
  such a text followed by a break.
-/

namespace Launcher

open String

/-- A line as it reads once a break follows it: one final carriage return is dropped. -/
def withoutCR (l : String) : String := if l.endsWith "\r" then (l.dropEnd 1).toString else l

/-! ## Splitting at a one-byte separator -/

/-- The position facts about a one-character separator of one byte. -/
private theorem singleton_positions (c : Char) (hc : c.utf8Size = 1) :
    (0 : Pos.Raw).get (String.singleton c) = c ∧
      (0 : Pos.Raw).next (String.singleton c) = ⟨1⟩ ∧
      (⟨1⟩ : Pos.Raw).atEnd (String.singleton c) = true := by
  rw [String.singleton_eq_ofList]
  refine ⟨String.get_of_valid [] [c], ?_, ?_⟩
  · simpa [hc] using String.next_of_valid [] c []
  · simp only [Pos.Raw.atEnd, String.utf8ByteSize_ofList]
    simp [hc]

/-- With a one-byte separator the position-based splitter takes the same steps as splitting at
the characters equal to it: a match never spans more than the character under the cursor. -/
theorem splitOnAux_singleton (s : String) (c : Char) (hc : c.utf8Size = 1) (b i : Pos.Raw)
    (r : List String) :
    s.splitOnAux (String.singleton c) b i 0 r = s.splitAux (· == c) b i r := by
  obtain ⟨h0, h1, hend1⟩ := singleton_positions c hc
  induction h : s.rawEndPos.1 - i.1 using Nat.strong_induction_on generalizing b i r with
  | _ n ih =>
    rw [String.splitOnAux, String.splitAux]
    by_cases hend : i.atEnd s
    · simp [hend]
    · simp only [hend]
      have hlt := Nat.sub_lt_sub_left (Nat.gt_of_not_le (mt decide_eq_true hend))
        (Pos.Raw.lt_next s i)
      subst h
      by_cases hic : i.get s = c
      · simp only [h0, hic, beq_self_eq_true, if_true, h1, hend1]
        have hu : (i.next s).unoffsetBy ⟨1⟩ = i := by
          simp [Pos.Raw.next, Pos.Raw.unoffsetBy, hic, hc]
        rw [hu]
        exact ih _ hlt _ _ _ rfl
      · simp only [h0, hic, beq_iff_eq, if_false]
        have hu : i.unoffsetBy 0 = i := by simp [Pos.Raw.unoffsetBy]
        rw [hu]
        exact ih _ hlt _ _ _ rfl

/-- **Splitting at one byte is splitting the characters.** -/
theorem splitOn_singleton (s : String) (c : Char) (hc : c.utf8Size = 1) :
    s.splitOn (String.singleton c) = (s.toList.splitOn c).map String.ofList := by
  have hne : (String.singleton c == "") = false := by
    simp [← String.toList_inj]
  simp only [String.splitOn, hne, Bool.false_eq_true, if_false]
  rw [splitOnAux_singleton s c hc, ← String.splitToList, String.splitToList_of_valid,
    List.splitOn_eq_splitOnP]

/-- The pieces of a text between its line breaks. -/
theorem splitOn_newline (s : String) :
    s.splitOn "\n" = (s.toList.splitOn '\n').map String.ofList :=
  splitOn_singleton s '\n' rfl

/-- Whether a text ends in a given character, on its characters. -/
theorem endsWith_singleton_iff (s : String) (c : Char) :
    s.endsWith (String.singleton c) = true ↔ s.toList.getLast? = some c := by
  rw [String.endsWith_eq_endsWith_toSlice, String.Slice.endsWith_string_iff,
    ← List.singleton_suffix_iff_getLast?_eq_some]
  simp

theorem endsWith_newline_iff (s : String) :
    s.endsWith "\n" = true ↔ s.toList.getLast? = some '\n' :=
  endsWith_singleton_iff s '\n'

/-! ## The lines of a text -/

/-- Numbering the lines only serves to tell the last one from the others. -/
private theorem zipIdx_map_last (L : List String) (b : Bool) (f : String → String) (k n : Nat)
    (hn : k + L.length = n) :
    ((L.zipIdx k).map fun (l, i) => if (i + 1 < n || b) && l.endsWith "\r" then f l else l) =
      if b then L.map (fun l => if l.endsWith "\r" then f l else l)
      else (L.dropLast.map fun l => if l.endsWith "\r" then f l else l) ++ L.getLast?.toList := by
  induction L generalizing k with
  | nil => cases b <;> simp
  | cons a L ih =>
    rw [List.zipIdx_cons, List.map_cons, ih (k + 1) (by simp at hn; omega)]
    cases L with
    | nil =>
      subst hn
      cases b <;> simp
    | cons a' L' =>
      have hlt : k + 1 < n := by simp at hn; omega
      cases b <;> simp [hlt]

/-- **The lines of a text.** Every piece followed by a break loses one final carriage return;
the piece after the last break is a line of its own unless it is empty after a final break. -/
theorem textLines_eq (s : String) :
    textLines s =
      if s.endsWith "\n" then (s.splitOn "\n").dropLast.map withoutCR
      else ((s.splitOn "\n").dropLast.map withoutCR) ++ (s.splitOn "\n").getLast?.toList := by
  unfold textLines
  by_cases hb : s.endsWith "\n" = true
  · simp only [hb, if_true]
    rw [zipIdx_map_last _ true (fun l => (l.dropEnd 1).toString) 0 _ (by simp)]
    rfl
  · simp only [Bool.not_eq_true] at hb
    simp only [hb, Bool.false_eq_true, if_false]
    rw [zipIdx_map_last _ false (fun l => (l.dropEnd 1).toString) 0 _ (by simp)]
    rfl

/-! ## Lines of appended texts -/

/-- A final break adds one empty piece. -/
theorem splitOn_append_newline (s : String) :
    (s ++ "\n").splitOn "\n" = s.splitOn "\n" ++ [""] := by
  rw [splitOn_newline, splitOn_newline, String.toList_append,
    show ("\n" : String).toList = '\n' :: [] from rfl, List.splitOn_append_cons_self,
    List.splitOn_nil, List.map_append]
  rfl

/-- The pieces of `s ++ "\n" ++ t` are those of `s` followed by those of `t`. -/
theorem splitOn_append_break (s t : String) :
    (s ++ "\n" ++ t).splitOn "\n" = s.splitOn "\n" ++ t.splitOn "\n" := by
  simp only [splitOn_newline, String.toList_append, List.append_assoc]
  rw [show ("\n" : String).toList = ['\n'] from rfl, List.singleton_append,
    List.splitOn_append_cons_self, List.map_append]

/-- The pieces of a text are never an empty list. -/
theorem splitOn_newline_ne_nil (s : String) : s.splitOn "\n" ≠ [] := by
  rw [splitOn_newline, ne_eq, List.map_eq_nil_iff]
  exact List.splitOn_ne_nil _ _

/-- Whether `s ++ "\n" ++ t` ends in a break is decided by a non-empty `t`. -/
theorem endsWith_append_break (s t : String) (ht : t ≠ "") :
    (s ++ "\n" ++ t).endsWith "\n" = t.endsWith "\n" := by
  have ht' : t.toList ≠ [] := fun h => ht (String.toList_inj.mp (h.trans String.toList_empty.symm))
  rw [Bool.eq_iff_iff, endsWith_newline_iff, endsWith_newline_iff, String.toList_append,
    List.getLast?_append_of_ne_nil _ ht']

/-- A text that ends in a break is some text followed by that break. -/
theorem eq_append_newline_of_endsWith {s : String} (h : s.endsWith "\n" = true) :
    ∃ s₀, s = s₀ ++ "\n" := by
  obtain ⟨ys, hys⟩ := List.getLast?_eq_some_iff.mp ((endsWith_newline_iff s).mp h)
  refine ⟨String.ofList ys, ?_⟩
  rw [← String.toList_inj, hys, String.toList_append, String.toList_ofList]
  rfl

/-- **A final break terminates the last piece**: every piece becomes a terminated line. -/
theorem textLines_append_newline (s : String) :
    textLines (s ++ "\n") = (s.splitOn "\n").map withoutCR := by
  have hend : (s ++ "\n").endsWith "\n" = true := by
    rw [endsWith_newline_iff, String.toList_append]
    exact List.getLast?_concat
  rw [textLines_eq, if_pos hend, splitOn_append_newline, List.dropLast_concat]

/-- **Lines of a text after a break.** A non-empty `t` after a break adds exactly its own
lines. -/
theorem textLines_append_break (s t : String) (ht : t ≠ "") :
    textLines (s ++ "\n" ++ t) = textLines (s ++ "\n") ++ textLines t := by
  have hT := splitOn_newline_ne_nil t
  rw [textLines_eq (s ++ "\n" ++ t), endsWith_append_break s t ht, splitOn_append_break,
    textLines_append_newline, textLines_eq t]
  split
  · rw [List.dropLast_append_of_ne_nil hT, List.map_append]
  · rw [List.dropLast_append_of_ne_nil hT, List.getLast?_append_of_ne_nil _ hT, List.map_append,
      List.append_assoc]

/-- A text without breaks is one piece. -/
theorem splitOn_newline_of_no_break {l : String} (h : '\n' ∉ l.toList) :
    l.splitOn "\n" = [l] := by
  rw [splitOn_newline, List.splitOn_eq_singleton h]
  simp

/-- A text without breaks is one line. -/
theorem textLines_of_no_break {l : String} (h : '\n' ∉ l.toList) : textLines l = [l] := by
  have hend : l.endsWith "\n" = false := by
    rw [← Bool.not_eq_true, endsWith_newline_iff]
    exact fun hl => h (List.mem_of_getLast? hl)
  rw [textLines_eq, hend, splitOn_newline_of_no_break h]
  rfl

/-- The empty text is one empty line. -/
theorem textLines_empty : textLines "" = [""] :=
  textLines_of_no_break (by simp)

/-- A text without breaks, followed by one, is one terminated line. -/
theorem textLines_line_break {l : String} (h : '\n' ∉ l.toList) :
    textLines (l ++ "\n") = [withoutCR l] := by
  rw [textLines_append_newline, splitOn_newline_of_no_break h]
  rfl

/-- **Breaking a torn text** terminates its last line, which then loses one final carriage
return; the lines before it stay. -/
theorem textLines_append_newline_of_torn {s : String} (h : s.endsWith "\n" = false) :
    ∃ pre last, textLines s = pre ++ [last] ∧ textLines (s ++ "\n") = pre ++ [withoutCR last] := by
  have hP := splitOn_newline_ne_nil s
  refine ⟨(s.splitOn "\n").dropLast.map withoutCR, (s.splitOn "\n").getLast hP, ?_, ?_⟩
  · rw [textLines_eq, h, List.getLast?_eq_some_getLast hP]
    rfl
  · rw [textLines_append_newline]
    conv_lhs => rw [← List.dropLast_append_getLast hP]
    rw [List.map_append]
    rfl

/-- Texts written one per line are not empty. -/
theorem join_lines_ne_empty (l : String) (rest : List String) :
    String.join ((l :: rest).map (· ++ "\n")) ≠ "" := by
  rw [List.map_cons, String.join_cons, ne_eq, ← String.toList_inj, String.toList_append,
    String.toList_append]
  simp

/-- The lines of texts written one per line: each loses only a final carriage return. -/
theorem textLines_join_lines (ls : List String) (hne : ls ≠ [])
    (h : ∀ l ∈ ls, '\n' ∉ l.toList) :
    textLines (String.join (ls.map (· ++ "\n"))) = ls.map withoutCR := by
  induction ls with
  | nil => exact absurd rfl hne
  | cons l rest ih =>
    have hl := h l (List.mem_cons_self ..)
    cases rest with
    | nil =>
      simp only [List.map_cons, List.map_nil, String.join_cons, String.join_nil,
        String.append_empty]
      exact textLines_line_break hl
    | cons l' rest' =>
      rw [List.map_cons, String.join_cons, textLines_append_break _ _ (join_lines_ne_empty _ _),
        textLines_line_break hl, ih (List.cons_ne_nil _ _) (fun x hx => h x (List.mem_cons_of_mem _ hx))]
      rfl

/-- Texts written one per line end in a break. -/
theorem endsWith_join_lines (ls : List String) (hne : ls ≠ []) :
    (String.join (ls.map (· ++ "\n"))).endsWith "\n" = true := by
  induction ls with
  | nil => exact absurd rfl hne
  | cons l rest ih =>
    cases rest with
    | nil => simp [endsWith_newline_iff]
    | cons l' rest' =>
      rw [List.map_cons, String.join_cons, endsWith_append_break _ _ (join_lines_ne_empty _ _),
        ih (List.cons_ne_nil _ _)]

end Launcher
