import Launcher.Json.Stream
import Launcher.Proofs.Json.Canonical
import Launcher.Proofs.Json.Legible

/-!
# Indented documents read back through their shapes

The configuration file is written with two-space indentation and read in one pass by the
shape-directed reader `readShaped`. A document that is `Shaped` like its shape — records with
exactly their fields in declared order, lists, and scalars of the right kind and range — reads
back from its indented text:

* `prettyEntries_cons`, `prettyItems_cons` — an indented object or array is a sequence of pairs
  or items, each on its own line, separated by commas;
* `Shaped.head` — the text of such a document starts with a character that neither closes a
  list nor separates its elements;
* `readShaped_text` … `readShaped_real` — a scalar reads back by its shape, whatever stops it;
* `readFields_pretty`, `readList_pretty` — the pairs of a record and the items of a list read
  back one by one, each pair a known field not read before;
* `Shaped.readsIndented` — the whole document reads back, with fuel above its length, leaving
  what follows it unread (`ReadsIndented`);
* `Shape.readText_pretty` — a whole indented text reads back through its shape.
-/

namespace Launcher.Json

/-- Documents as the check of a shape returns them, as far as a configuration file holds them:
strings, booleans, whole numbers that fit their width, doubles that read back, lists of such
documents, and records holding exactly their fields in declared order. -/
inductive Shaped : Nat → Shape → Value → Prop
  | text {depth : Nat} (e s : String) : Shaped depth (.text e) (.string s)
  | flag {depth : Nat} (b : Bool) : Shaped depth .flag (.bool b)
  | nat {depth : Nat} {w : Width} {n : Nat} (h : w.fits n = true) :
      Shaped depth (.whole w) (.number (.nat n))
  | neg {depth : Nat} {w : Width} {n : Int} (h : w.fits n = true) (hneg : n < 0) :
      Shaped depth (.whole w) (.number (.neg n))
  | real {depth : Nat} {x : Binary64} (h : ReadsBack x) : Shaped depth .real (.number (.real x))
  | list {depth : Nat} {item : Shape} {items : List Value}
      (h : ∀ v ∈ items, Shaped (depth + 1) item v) : Shaped (depth + 2) (.list item) (.array items)
  | record {depth : Nat} {e : String} {fields : List (String × Shape × Option Value)}
      {entries : List (String × Value)} (hkeys : fields.map (·.1) = entries.map (·.1))
      (hnd : (entries.map Prod.fst).Nodup)
      (h : ∀ p ∈ entries, ∀ fld, fields.find? (·.1 == p.1) = some fld → Shaped (depth + 1) fld.2.1 p.2) :
      Shaped (depth + 2) (.record e fields none) (.object entries)

/-- A whole number that fits its width, written as a document, is shaped like it. -/
theorem Shaped.ofInt {depth : Nat} {w : Width} {i : Int} (h : w.fits i = true) :
    Shaped depth (.whole w) (.ofInt i) := by
  unfold Value.ofInt
  split
  · rename_i hi
    exact .nat (by rwa [Int.toNat_of_nonneg hi])
  · exact .neg h (by omega)

/-- In a record whose pairs have distinct keys, the field found for a pair's key is the one
beside it. -/
theorem find?_of_forall₂ {R : String × Shape × Option Value → String × Value → Prop}
    {fields : List (String × Shape × Option Value)} {entries : List (String × Value)}
    (h : List.Forall₂ (fun fld p => fld.1 = p.1 ∧ R fld p) fields entries)
    (hnd : (entries.map Prod.fst).Nodup) {p : String × Value} (hp : p ∈ entries)
    {fld : String × Shape × Option Value} (hfind : fields.find? (·.1 == p.1) = some fld) :
    R fld p := by
  induction h with
  | nil => cases hp
  | @cons f0 p0 fs ps hhead _ ih =>
    rw [List.map_cons, List.nodup_cons] at hnd
    by_cases hk : f0.1 = p.1
    · rw [List.find?_cons_of_pos (by simp [hk]), Option.some.injEq] at hfind
      subst hfind
      have hp0 : p = p0 := by
        rcases List.mem_cons.1 hp with rfl | hps
        · rfl
        · have hmem : p.1 ∈ ps.map Prod.fst := List.mem_map_of_mem hps
          rw [← hk, hhead.1] at hmem
          exact absurd hmem hnd.1
      exact hp0 ▸ hhead.2
    · have hne : p ≠ p0 := by
        rintro rfl
        exact hk hhead.1
      rw [List.find?_cons_of_neg (by simp [hk])] at hfind
      exact ih hnd.2 ((List.mem_cons.1 hp).resolve_left hne) hfind

/-- A record's document is shaped like it when its pairs hold its fields in declared order, each
value shaped like its field, the keys distinct. -/
theorem Shaped.record_of_forall₂ {depth : Nat} {e : String}
    {fields : List (String × Shape × Option Value)} {entries : List (String × Value)}
    (hnd : (entries.map Prod.fst).Nodup)
    (h : List.Forall₂ (fun fld p => fld.1 = p.1 ∧ Shaped (depth + 1) fld.2.1 p.2) fields entries) :
    Shaped (depth + 2) (.record e fields none) (.object entries) := by
  refine .record ?_ hnd fun p hp fld hfind => find?_of_forall₂ h hnd hp hfind
  clear hnd
  induction h with
  | nil => rfl
  | cons hhead _ ih => simp [hhead.1, ih]

/-! ## The indented text -/

theorem indent_toList (depth : Nat) : (Value.indent depth).toList = List.replicate (2 * depth) ' ' := by
  simp [Value.indent]

/-- Blanks of indentation are skipped. -/
theorem skipBlank_replicate (k : Nat) (cs : List Char) :
    skipBlank (List.replicate k ' ' ++ cs) = skipBlank cs := by
  induction k with
  | zero => rfl
  | succ k ih =>
    rw [List.replicate_succ, List.cons_append, skipBlank_blank (by unfold IsBlank; decide), ih]

/-- A line break and indentation are skipped. -/
theorem skipBlank_newline_indent (depth : Nat) (cs : List Char) :
    skipBlank ('\n' :: ((Value.indent depth).toList ++ cs)) = skipBlank cs := by
  rw [skipBlank_blank (by unfold IsBlank; decide), indent_toList, skipBlank_replicate]

/-- The text of a pair on its own line: a line break, the indentation, the key, a colon and a
blank, the value. -/
def prettyPair (depth : Nat) (kv : String × Value) : List Char :=
  '\n' :: ((Value.indent depth).toList ++ (quote kv.1).toList ++ ':' :: ' ' :: (kv.2.pretty depth).toList)

/-- The text of an item on its own line. -/
def prettyItem (depth : Nat) (v : Value) : List Char :=
  '\n' :: ((Value.indent depth).toList ++ (v.pretty depth).toList)

theorem prettyEntries_cons (depth : Nat) (kv : String × Value) (es : List (String × Value)) :
    (Value.prettyEntries depth (kv :: es)).toList =
      prettyPair depth kv ++ es.flatMap (fun e => ',' :: prettyPair depth e) := by
  induction es generalizing kv with
  | nil => simp [Value.prettyEntries, prettyPair]
  | cons e es ih =>
    rw [Value.prettyEntries, String.toList_append, String.toList_append, ih e]
    · simp [prettyPair]
    · exact List.cons_ne_nil _ _

theorem prettyItems_cons (depth : Nat) (v : Value) (vs : List Value) :
    (Value.prettyItems depth (v :: vs)).toList =
      prettyItem depth v ++ vs.flatMap (fun w => ',' :: prettyItem depth w) := by
  induction vs generalizing v with
  | nil => simp [Value.prettyItems, prettyItem]
  | cons w vs ih =>
    rw [Value.prettyItems, String.toList_append, String.toList_append, ih w]
    · simp [prettyItem]
    · exact List.cons_ne_nil _ _

theorem pretty_string (depth : Nat) (s : String) : Value.pretty depth (.string s) = quote s := by
  simp [Value.pretty, Value.compact]

theorem pretty_number (depth : Nat) (n : Number) : Value.pretty depth (.number n) = n.render := by
  simp [Value.pretty, Value.compact]

theorem pretty_bool (depth : Nat) (b : Bool) :
    Value.pretty depth (.bool b) = if b then "true" else "false" := by
  simp [Value.pretty, Value.compact]

theorem render_nat_toList (n : Nat) : (Number.render (.nat n)).toList = Nat.toDigits 10 n := by
  simp only [Number.render, Nat.toString_eq_repr, Nat.toList_repr]

/-- An object with pairs: a brace, the pairs, a line break and indentation, a brace. -/
theorem pretty_object (depth : Nat) (kv : String × Value) (es : List (String × Value)) :
    (Value.pretty depth (.object (kv :: es))).toList =
      '{' :: ((Value.prettyEntries (depth + 1) (kv :: es)).toList ++
        '\n' :: ((Value.indent depth).toList ++ ['}'])) := by
  simp [Value.pretty]

/-- An array with items: a bracket, the items, a line break and indentation, a bracket. -/
theorem pretty_array (depth : Nat) (v : Value) (vs : List Value) :
    (Value.pretty depth (.array (v :: vs))).toList =
      '[' :: ((Value.prettyItems (depth + 1) (v :: vs)).toList ++
        '\n' :: ((Value.indent depth).toList ++ [']'])) := by
  simp [Value.pretty]

/-! ## Reading -/

/-- The reader skips blanks before a document itself. -/
theorem readShaped_blank {fuel depth : Nat} {s : Shape} {b : Char} (hb : IsBlank b) (cs : List Char) :
    readShaped (fuel + 1) depth s (b :: cs) = readShaped (fuel + 1) depth s cs := by
  unfold readShaped
  rw [skipBlank_blank hb]

/-- The same, for all the blanks at once. -/
theorem readShaped_skipBlank {fuel depth : Nat} {s : Shape} (cs : List Char) :
    readShaped (fuel + 1) depth s (skipBlank cs) = readShaped (fuel + 1) depth s cs := by
  unfold readShaped
  rw [skipBlank_skipBlank]

/-- A document reads back by a shape from its indented text: at any indentation, whatever stops
it, with any fuel above the text's length, leaving what follows unread. -/
def ReadsIndented (depth : Nat) (s : Shape) (v : Value) : Prop :=
  ∀ ind rest, Stops rest → ∀ fuel, (v.pretty ind).toList.length < fuel →
    readShaped fuel depth s ((v.pretty ind).toList ++ rest) = .ok (v, rest)

/-- Fuel above a length is never zero, so reading with one more than any fuel suffices. -/
theorem ReadsIndented.of_succ {depth : Nat} {s : Shape} {v : Value}
    (h : ∀ ind rest, Stops rest → ∀ f, (v.pretty ind).toList.length < f + 1 →
      readShaped (f + 1) depth s ((v.pretty ind).toList ++ rest) = .ok (v, rest)) :
    ReadsIndented depth s v := by
  intro ind rest hs fuel hf
  obtain ⟨f, rfl⟩ : ∃ f, fuel = f + 1 := ⟨fuel - 1, by omega⟩
  exact h ind rest hs f hf

/-- A numeral starts with a digit. -/
theorem toDigits_head (n : Nat) : ∃ c ds, Nat.toDigits 10 n = c :: ds ∧ c.isDigit = true := by
  by_cases h0 : n = 0
  · exact ⟨'0', [], by rw [h0, Nat.toDigits_zero], rfl⟩
  · obtain ⟨c, ds, hds, -⟩ := toDigits_head_ne_zero (Nat.pos_of_ne_zero h0)
    have hmem : c ∈ Nat.toDigits 10 n := by
      rw [hds]
      exact List.mem_cons_self ..
    exact ⟨c, ds, hds, Nat.isDigit_of_mem_toDigits (by decide) (by decide) hmem⟩

/-- Text that starts with a character other than a blank starts with it after blanks too. -/
theorem skipBlank_of_cons {cs u : List Char} {c : Char} (h : cs = c :: u) (hc : ¬ IsBlank c)
    (rest : List Char) : skipBlank (cs ++ rest) = c :: (u ++ rest) := by
  rw [h, List.cons_append, skipBlank_cons_of_not_blank hc]

/-- The text of a document `Shaped` like its shape starts, after blanks, with a character that
neither closes a list nor separates its elements. -/
theorem Shaped.head {depth : Nat} {s : Shape} {v : Value} (hv : Shaped depth s v) (ind : Nat)
    (rest : List Char) : ∃ c u, skipBlank ((v.pretty ind).toList ++ rest) = c :: u ∧ c ≠ ']' ∧ c ≠ ',' := by
  cases hv with
  | text e s =>
    rw [pretty_string]
    exact ⟨'"', _, skipBlank_of_cons (quote_toList s) (by unfold IsBlank; decide) rest, by decide, by decide⟩
  | flag b =>
    cases b
    · exact ⟨'f', _, by rw [pretty_bool]; rfl, by decide, by decide⟩
    · exact ⟨'t', _, by rw [pretty_bool]; rfl, by decide, by decide⟩
  | nat h =>
    rename_i n
    obtain ⟨c, ds, hds, hdig⟩ := toDigits_head n
    have hblank : ¬ IsBlank c := by
      unfold IsBlank
      rintro (rfl | rfl | rfl | rfl) <;> simp at hdig
    rw [pretty_number, render_nat_toList]
    refine ⟨c, _, skipBlank_of_cons hds hblank rest, ?_, ?_⟩ <;> rintro rfl <;> simp at hdig
  | neg h hneg =>
    rw [pretty_number]
    exact ⟨'-', _, skipBlank_of_cons (render_neg_toList hneg) (by unfold IsBlank; decide) rest, by decide, by decide⟩
  | real h =>
    obtain ⟨c, u, hsk, hnum⟩ := h.numeral
    refine ⟨c, u ++ rest, by rw [pretty_number]; exact skipBlank_append_of_cons hsk, ?_⟩
    rcases hnum with ⟨rfl, -⟩ | ⟨-, hd, -⟩
    · exact ⟨by decide, by decide⟩
    · constructor <;> rintro rfl <;> simp [digitValue] at hd
  | list h =>
    rename_i items
    cases items with
    | nil => exact ⟨'[', _, skipBlank_of_cons (show (Value.pretty ind (.array [])).toList = ['[', ']'] by simp [Value.pretty])
      (by unfold IsBlank; decide) rest, by decide, by decide⟩
    | cons v vs => exact ⟨'[', _, skipBlank_of_cons (pretty_array ind v vs) (by unfold IsBlank; decide) rest, by decide, by decide⟩
  | record hkeys hnd h =>
    rename_i entries
    cases entries with
    | nil => exact ⟨'{', _, skipBlank_of_cons (show (Value.pretty ind (.object [])).toList = ['{', '}'] by simp [Value.pretty])
      (by unfold IsBlank; decide) rest, by decide, by decide⟩
    | cons kv es => exact ⟨'{', _, skipBlank_of_cons (pretty_object ind kv es) (by unfold IsBlank; decide) rest, by decide, by decide⟩

/-! ## Pairs -/

/-- A pair on its own line starts, after the line break and the indentation, with its key. -/
theorem skipBlank_prettyPair (depth : Nat) (kv : String × Value) (more : List Char) :
    skipBlank (prettyPair depth kv ++ more) =
      '"' :: (kv.1.toList.flatMap escapeChar ++ '"' :: ':' :: ' ' :: ((kv.2.pretty depth).toList ++ more)) := by
  simp only [prettyPair, List.cons_append, List.append_assoc, skipBlank_newline_indent, quote_toList]
  exact skipBlank_cons_of_not_blank (by unfold IsBlank; decide) _

section Pair

variable {F depth ind : Nat} {fields : List (String × Shape × Option Value)}
  {found : List (String × Value)} {e : String × Value} {fld : String × Shape × Option Value}
  {more : List Char}

/-- The first pair of a record, a known field not yet read, is read by its field's shape. -/
theorem readFields_pair_first (hfind : fields.find? (·.1 == e.1) = some fld)
    (hfresh : found.find? (·.1 == e.1) = none)
    (hread : readShaped (F + 1) depth fld.2.1 ((e.2.pretty ind).toList ++ more) = .ok (e.2, more)) :
    readFields (F + 2) depth fields true found (prettyPair ind e ++ more) =
      readFields (F + 1) depth fields false (e :: found) more := by
  have hkey := readString_quote e.1 (':' :: ' ' :: ((e.2.pretty ind).toList ++ more))
  rw [readFields, skipBlank_prettyPair]
  simp [hkey, hfind, hfresh, skipBlank_cons_of_not_blank (show ¬ IsBlank ':' by unfold IsBlank; decide),
    readShaped_blank (show IsBlank ' ' by unfold IsBlank; decide), hread]

/-- A later pair, after its comma, is read the same way. -/
theorem readFields_pair_next (hfind : fields.find? (·.1 == e.1) = some fld)
    (hfresh : found.find? (·.1 == e.1) = none)
    (hread : readShaped (F + 1) depth fld.2.1 ((e.2.pretty ind).toList ++ more) = .ok (e.2, more)) :
    readFields (F + 2) depth fields false found (',' :: (prettyPair ind e ++ more)) =
      readFields (F + 1) depth fields false (e :: found) more := by
  have hkey := readString_quote e.1 (':' :: ' ' :: ((e.2.pretty ind).toList ++ more))
  rw [readFields, skipBlank_cons_of_not_blank (show ¬ IsBlank ',' by unfold IsBlank; decide)]
  simp [skipBlank_prettyPair, hkey, hfind, hfresh,
    skipBlank_cons_of_not_blank (show ¬ IsBlank ':' by unfold IsBlank; decide),
    readShaped_blank (show IsBlank ' ' by unfold IsBlank; decide), hread]

/-- The closing brace of a record, on its own line, ends its pairs. -/
theorem readFields_close (k : Nat) (rest : List Char) :
    readFields (F + 1) depth fields false found ('\n' :: ((Value.indent k).toList ++ '}' :: rest)) =
      .ok (found, rest) := by
  rw [readFields, skipBlank_newline_indent, skipBlank_cons_of_not_blank (by unfold IsBlank; decide)]
  rfl

end Pair

theorem stops_newline (rest : List Char) : Stops ('\n' :: rest) := by
  intro x hx
  cases hx
  decide

/-- The text after a pair or an item that is not the last: a comma, or the line of the closing
bracket. -/
theorem stops_tail {α : Type} (f : α → List Char) (xs : List α) (tail : List Char) :
    Stops (xs.flatMap (fun x => ',' :: f x) ++ '\n' :: tail) := by
  cases xs with
  | nil => exact stops_newline tail
  | cons x xs => exact stops_cons (.inl rfl) _

/-- **The pairs of a record after its first one**, each after a comma, read back when each is a
known field read back by its shape, no key repeating one read before. -/
theorem readFields_pretty {depth ind : Nat} {fields : List (String × Shape × Option Value)}
    {es : List (String × Value)}
    (hes : ∀ e ∈ es, ∃ fld, fields.find? (·.1 == e.1) = some fld ∧ ReadsIndented depth fld.2.1 e.2)
    {found : List (String × Value)} (hnd : ((es ++ found).map Prod.fst).Nodup)
    (fuel : Nat) (hf : (es.flatMap (fun e => ',' :: prettyPair ind e)).length < fuel)
    (k : Nat) (rest : List Char) :
    readFields fuel depth fields false found
        (es.flatMap (fun e => ',' :: prettyPair ind e) ++ '\n' :: ((Value.indent k).toList ++ '}' :: rest)) =
      .ok (es.reverse ++ found, rest) := by
  induction es generalizing found fuel with
  | nil =>
    obtain ⟨F, rfl⟩ : ∃ F, fuel = F + 1 := ⟨fuel - 1, by simp at hf; omega⟩
    exact readFields_close k rest
  | cons e es ih =>
    obtain ⟨fld, hfind, hread⟩ := hes e (List.mem_cons_self ..)
    simp only [List.flatMap_cons, List.length_append, List.length_cons] at hf
    have hpair : (e.2.pretty ind).toList.length < (prettyPair ind e).length := by
      simp only [prettyPair, List.length_cons, List.length_append]
      omega
    obtain ⟨F, rfl⟩ : ∃ F, fuel = F + 2 := ⟨fuel - 2, by omega⟩
    have hnd' : ((es ++ e :: found).map Prod.fst).Nodup := by
      have hperm : List.Perm (((e :: es) ++ found).map Prod.fst) ((es ++ e :: found).map Prod.fst) :=
        List.Perm.map _ List.perm_middle.symm
      exact hperm.nodup_iff.1 hnd
    have hfresh : found.find? (·.1 == e.1) = none := by
      rw [List.find?_eq_none]
      intro x hx hxe
      simp only [List.cons_append, List.map_cons, List.nodup_cons, List.map_append, List.mem_append,
        List.mem_map] at hnd
      exact hnd.1 (.inr ⟨x, hx, by simpa using hxe⟩)
    simp only [List.flatMap_cons, List.cons_append, List.append_assoc]
    rw [readFields_pair_next hfind hfresh (hread ind _ (stops_tail _ es _) (F + 1) (by omega)),
      ih (fun x hx => hes x (List.mem_cons_of_mem _ hx)) hnd' (F + 1) (by omega)]
    simp

/-! ## Items -/

/-- An item on its own line starts, after the line break and the indentation, with its text. -/
theorem skipBlank_prettyItem (depth : Nat) (v : Value) (more : List Char) :
    skipBlank (prettyItem depth v ++ more) = skipBlank ((v.pretty depth).toList ++ more) := by
  simp only [prettyItem, List.cons_append, List.append_assoc, skipBlank_newline_indent]

section Item

variable {F depth ind : Nat} {item : Shape} {acc : List Value} {v : Value} {more : List Char}

/-- The first item of a list is read by the item shape. -/
theorem readList_item_first (hv : Shaped depth item v)
    (hread : readShaped (F + 1) depth item ((v.pretty ind).toList ++ more) = .ok (v, more)) :
    readList (F + 2) depth item true acc (prettyItem ind v ++ more) =
      readList (F + 1) depth item false (v :: acc) more := by
  obtain ⟨c, u, hsk, hc1, hc2⟩ := hv.head ind more
  have hread' : readShaped (F + 1) depth item (c :: u) = .ok (v, more) := by
    rw [← hsk, readShaped_skipBlank, hread]
  rw [readList, skipBlank_prettyItem, hsk]
  simp [hread']

/-- A later item, after its comma, is read the same way. -/
theorem readList_item_next (hv : Shaped depth item v)
    (hread : readShaped (F + 1) depth item ((v.pretty ind).toList ++ more) = .ok (v, more)) :
    readList (F + 2) depth item false acc (',' :: (prettyItem ind v ++ more)) =
      readList (F + 1) depth item false (v :: acc) more := by
  obtain ⟨c, u, hsk, hc1, -⟩ := hv.head ind more
  have hread' : readShaped (F + 1) depth item (c :: u) = .ok (v, more) := by
    rw [← hsk, readShaped_skipBlank, hread]
  rw [readList, skipBlank_cons_of_not_blank (show ¬ IsBlank ',' by unfold IsBlank; decide)]
  simp [skipBlank_prettyItem, hsk, hc1, hread']

/-- The closing bracket of a list, on its own line, ends its items. -/
theorem readList_close (k : Nat) (rest : List Char) :
    readList (F + 1) depth item false acc ('\n' :: ((Value.indent k).toList ++ ']' :: rest)) =
      .ok (.array acc.reverse, rest) := by
  rw [readList, skipBlank_newline_indent, skipBlank_cons_of_not_blank (by unfold IsBlank; decide)]
  rfl

end Item

/-- **The items of a list after its first one**, each after a comma, read back when each is
read back by the item shape. -/
theorem readList_pretty {depth ind : Nat} {item : Shape} {vs : List Value}
    (hvs : ∀ v ∈ vs, Shaped depth item v ∧ ReadsIndented depth item v)
    (fuel : Nat) (hf : (vs.flatMap (fun v => ',' :: prettyItem ind v)).length < fuel)
    (acc : List Value) (k : Nat) (rest : List Char) :
    readList fuel depth item false acc
        (vs.flatMap (fun v => ',' :: prettyItem ind v) ++ '\n' :: ((Value.indent k).toList ++ ']' :: rest)) =
      .ok (.array (acc.reverse ++ vs), rest) := by
  induction vs generalizing acc fuel with
  | nil =>
    obtain ⟨F, rfl⟩ : ∃ F, fuel = F + 1 := ⟨fuel - 1, by simp at hf; omega⟩
    simpa using readList_close k rest
  | cons v vs ih =>
    obtain ⟨hv, hread⟩ := hvs v (List.mem_cons_self ..)
    simp only [List.flatMap_cons, List.length_append, List.length_cons] at hf
    have hitem : (v.pretty ind).toList.length < (prettyItem ind v).length := by
      simp only [prettyItem, List.length_cons, List.length_append]
      omega
    obtain ⟨F, rfl⟩ : ∃ F, fuel = F + 2 := ⟨fuel - 2, by omega⟩
    simp only [List.flatMap_cons, List.cons_append, List.append_assoc]
    rw [readList_item_next hv (hread ind _ (stops_tail _ vs _) (F + 1) (by omega)),
      ih (fun x hx => hvs x (List.mem_cons_of_mem _ hx)) (F + 1) (by omega)]
    simp

/-! ## Scalars -/

theorem Width.le_u64Max_of_fits {w : Width} {n : Nat} (h : w.fits n = true) : n ≤ u64Max := by
  have hmax : u64Max = 2 ^ 64 - 1 := rfl
  cases w <;> simp [Width.fits] at h <;> omega

theorem Width.le_of_fits_neg {w : Width} {n : Int} (h : w.fits n = true) (hneg : n < 0) :
    -((Nat.pow 2 63 : Nat) : Int) ≤ n := by
  cases w <;> simp only [Width.fits, Bool.and_eq_true, decide_eq_true_eq] at h <;> omega

section Scalar

variable {fuel depth ind : Nat} {rest : List Char}

theorem readShaped_text (e s : String) :
    readShaped (fuel + 1) depth (.text e) (((Value.string s).pretty ind).toList ++ rest) =
      .ok (.string s, rest) := by
  rw [pretty_string, quote_toList, List.cons_append]
  simp only [readShaped]
  rw [skipBlank_cons_of_not_blank (by unfold IsBlank; decide)]
  simp [readScalar, readString_quote]

theorem readShaped_flag (b : Bool) :
    readShaped (fuel + 1) depth .flag (((Value.bool b).pretty ind).toList ++ rest) =
      .ok (.bool b, rest) := by
  rw [pretty_bool]
  simp only [readShaped]
  cases b <;> simp [skipBlank_cons_of_not_blank (show ¬ IsBlank 't' by unfold IsBlank; decide),
    skipBlank_cons_of_not_blank (show ¬ IsBlank 'f' by unfold IsBlank; decide), readScalar,
    readIdent, Except.map]

theorem readShaped_nat {w : Width} {n : Nat} (h : w.fits n = true) (hs : Stops rest) :
    readShaped (fuel + 1) depth (.whole w) (((Value.number (.nat n)).pretty ind).toList ++ rest) =
      .ok (.number (.nat n), rest) := by
  have hnum := readNumber_toDigits (Width.le_u64Max_of_fits h) hs
  obtain ⟨c, ds, hds, hdig⟩ := toDigits_head n
  have hblank : ¬ IsBlank c := by
    unfold IsBlank
    rintro (rfl | rfl | rfl | rfl) <;> simp at hdig
  have hminus : c ≠ '-' := by
    rintro rfl
    simp at hdig
  rw [hds, List.cons_append] at hnum
  rw [pretty_number, render_nat_toList, hds, List.cons_append]
  simp only [readShaped]
  rw [skipBlank_cons_of_not_blank hblank]
  simp [readScalar, hminus, digitValue_of_isDigit hdig, hnum, decodeWhole, h]

theorem readShaped_neg {w : Width} {n : Int} (h : w.fits n = true) (hneg : n < 0) (hs : Stops rest) :
    readShaped (fuel + 1) depth (.whole w) (((Value.number (.neg n)).pretty ind).toList ++ rest) =
      .ok (.number (.neg n), rest) := by
  have hlow := Width.le_of_fits_neg h hneg
  have hnum := readNumber_neg_toDigits (m := n.natAbs) (by omega) (by omega) hs
  have hval : -((n.natAbs : Nat) : Int) = n := by omega
  rw [hval] at hnum
  rw [pretty_number, render_neg_toList hneg, List.cons_append]
  simp only [readShaped]
  rw [skipBlank_cons_of_not_blank (by unfold IsBlank; decide)]
  simp [readScalar, hnum, decodeWhole, h]

theorem readShaped_real {x : Binary64} (h : ReadsBack x) (hs : Stops rest) :
    readShaped (fuel + 1) depth .real (((Value.number (.real x)).pretty ind).toList ++ rest) =
      .ok (.number (.real x), rest) := by
  obtain ⟨c, u, hsk, hnum⟩ := h.numeral
  rw [pretty_number]
  simp only [readShaped]
  rw [skipBlank_append_of_cons hsk]
  rcases hnum with ⟨rfl, hnum⟩ | ⟨hm, hd, hnum⟩
  · simp [readScalar, readNumber_append hs hnum, decodeReal]
  · have hnum' : readNumber false (c :: (u ++ rest)) = .ok (.real x, rest) := readNumber_append hs hnum
    simp [readScalar, hm, hd, hnum', decodeReal]

end Scalar

/-! ## Documents -/

/-- Every pair of a record holding exactly its fields names a field. -/
theorem find?_of_keys {fields : List (String × Shape × Option Value)} {entries : List (String × Value)}
    (hkeys : fields.map (·.1) = entries.map (·.1)) {e : String × Value} (he : e ∈ entries) :
    ∃ fld, fields.find? (·.1 == e.1) = some fld := by
  cases hfd : fields.find? (·.1 == e.1) with
  | some fld => exact ⟨fld, rfl⟩
  | none =>
    have hmem : e.1 ∈ fields.map (·.1) := hkeys ▸ List.mem_map_of_mem he
    obtain ⟨fld, hfld, hfe⟩ := List.mem_map.1 hmem
    rw [List.find?_eq_none] at hfd
    exact absurd (by simp [hfe]) (hfd fld hfld)

/-- The pairs of a record read back reversed fill its fields in declared order. -/
theorem fillFields_reverse {fields : List (String × Shape × Option Value)}
    {entries : List (String × Value)} (hkeys : fields.map (·.1) = entries.map (·.1))
    (hnd : (entries.map Prod.fst).Nodup) : fillFields fields entries.reverse = .ok entries := by
  refine fillFields_canonical _ fields entries hkeys (fun x hx => find?_key ?_ ?_)
  · rw [List.map_reverse, List.nodup_reverse]
    exact hnd
  · rw [List.mem_reverse]
    exact hx

section Open

variable {fuel depth : Nat} {cs rest : List Char}

/-- A list opened where its depth allows is read item by item one level deeper. -/
theorem readShaped_list_open (item : Shape) :
    readShaped (fuel + 1) (depth + 2) (.list item) ('[' :: cs) = readList fuel (depth + 1) item true [] cs := by
  simp only [readShaped]
  rw [skipBlank_cons_of_not_blank (by unfold IsBlank; decide)]
  simp

/-- A record's object opened where its depth allows is read pair by pair one level deeper, its
fields then filled from the pairs read. -/
theorem readShaped_record_open {e : String} {fields : List (String × Shape × Option Value)}
    {flat : Option Shape} {found values : List (String × Value)}
    (hread : readFields fuel (depth + 1) fields true [] cs = .ok (found, rest))
    (hfill : fillFields fields found = .ok values) :
    readShaped (fuel + 1) (depth + 2) (.record e fields flat) ('{' :: cs) = .ok (.object values, rest) := by
  simp only [readShaped]
  rw [skipBlank_cons_of_not_blank (by unfold IsBlank; decide)]
  simp [hread, hfill]

end Open

/-- **A list reads back** when each item, shaped like the item shape, reads back one level
deeper. -/
theorem readShaped_array_pretty {d : Nat} {item : Shape} {items : List Value}
    (h : ∀ v ∈ items, Shaped (d + 1) item v) (ih : ∀ v ∈ items, ReadsIndented (d + 1) item v) :
    ReadsIndented (d + 2) (.list item) (.array items) := by
  refine .of_succ fun ind rest _ f hf => ?_
  cases items with
  | nil =>
    have hnil : (Value.pretty ind (.array [])).toList = ['[', ']'] := by simp [Value.pretty]
    rw [hnil] at hf ⊢
    obtain ⟨F, rfl⟩ : ∃ F, f = F + 1 := ⟨f - 1, by simp at hf; omega⟩
    simp only [List.cons_append, List.nil_append]
    rw [readShaped_list_open, readList, skipBlank_cons_of_not_blank (by unfold IsBlank; decide)]
    rfl
  | cons v vs =>
    rw [pretty_array, prettyItems_cons] at hf ⊢
    simp only [List.length_cons, List.length_append] at hf
    have hitem : (v.pretty (ind + 1)).toList.length < (prettyItem (ind + 1) v).length := by
      simp only [prettyItem, List.length_cons, List.length_append]
      omega
    obtain ⟨F, rfl⟩ : ∃ F, f = F + 2 := ⟨f - 2, by omega⟩
    simp only [List.cons_append, List.append_assoc]
    rw [readShaped_list_open, readList_item_first (h v (List.mem_cons_self ..))
        (ih v (List.mem_cons_self ..) (ind + 1) _ (stops_tail _ vs _) (F + 1) (by omega)),
      readList_pretty (fun w hw => ⟨h w (List.mem_cons_of_mem _ hw), ih w (List.mem_cons_of_mem _ hw)⟩)
        (F + 1) (by omega)]
    rfl

/-- **A record reads back** when it holds exactly its fields in declared order, keys distinct,
and each pair's value reads back by its field's shape one level deeper. -/
theorem readShaped_object_pretty {d : Nat} {e : String} {fields : List (String × Shape × Option Value)}
    {entries : List (String × Value)} (hkeys : fields.map (·.1) = entries.map (·.1))
    (hnd : (entries.map Prod.fst).Nodup)
    (ih : ∀ p ∈ entries, ∀ fld, fields.find? (·.1 == p.1) = some fld → ReadsIndented (d + 1) fld.2.1 p.2) :
    ReadsIndented (d + 2) (.record e fields none) (.object entries) := by
  refine .of_succ fun ind rest _ f hf => ?_
  cases entries with
  | nil =>
    have hnil : (Value.pretty ind (.object [])).toList = ['{', '}'] := by simp [Value.pretty]
    have hfields : fields = [] := List.map_eq_nil_iff.1 hkeys
    subst hfields
    rw [hnil] at hf ⊢
    obtain ⟨F, rfl⟩ : ∃ F, f = F + 1 := ⟨f - 1, by simp at hf; omega⟩
    simp only [List.cons_append, List.nil_append]
    refine readShaped_record_open ?_ (show fillFields [] [] = .ok [] from rfl)
    rw [readFields, skipBlank_cons_of_not_blank (by unfold IsBlank; decide)]
    rfl
  | cons kv es =>
    rw [pretty_object, prettyEntries_cons] at hf ⊢
    simp only [List.length_cons, List.length_append] at hf
    have hpair : (kv.2.pretty (ind + 1)).toList.length < (prettyPair (ind + 1) kv).length := by
      simp only [prettyPair, List.length_cons, List.length_append]
      omega
    obtain ⟨F, rfl⟩ : ∃ F, f = F + 2 := ⟨f - 2, by omega⟩
    obtain ⟨fld, hfind⟩ := find?_of_keys hkeys (List.mem_cons_self ..)
    have hnd' : ((es ++ [kv]).map Prod.fst).Nodup := by
      have hperm : List.Perm ((kv :: es).map Prod.fst) ((es ++ [kv]).map Prod.fst) :=
        List.Perm.map _ (List.perm_append_singleton _ _).symm
      exact hperm.nodup_iff.1 hnd
    have hfill := fillFields_reverse hkeys hnd
    rw [List.reverse_cons] at hfill
    simp only [List.cons_append, List.append_assoc]
    refine readShaped_record_open ?_ hfill
    rw [readFields_pair_first hfind rfl
        (ih kv (List.mem_cons_self ..) fld hfind (ind + 1) _ (stops_tail _ es _) (F + 1) (by omega))]
    refine readFields_pretty (fun x hx => ?_) hnd' (F + 1) (by omega) ind rest
    obtain ⟨g, hg⟩ := find?_of_keys hkeys (List.mem_cons_of_mem _ hx)
    exact ⟨g, hg, ih x (List.mem_cons_of_mem _ hx) g hg⟩

/-- **A document `Shaped` like its shape reads back from its indented text**, by induction on
how it is shaped: scalars by their readers, lists and records from their elements. -/
theorem Shaped.readsIndented {depth : Nat} {s : Shape} {v : Value} (hv : Shaped depth s v) :
    ReadsIndented depth s v := by
  induction hv with
  | text e s => exact .of_succ fun _ _ _ _ _ => readShaped_text e s
  | flag b => exact .of_succ fun _ _ _ _ _ => readShaped_flag b
  | nat h => exact .of_succ fun _ _ hs _ _ => readShaped_nat h hs
  | neg h hneg => exact .of_succ fun _ _ hs _ _ => readShaped_neg h hneg hs
  | real h => exact .of_succ fun _ _ hs _ _ => readShaped_real h hs
  | list h ih => exact readShaped_array_pretty h ih
  | record hkeys hnd _ ih => exact readShaped_object_pretty hkeys hnd ih

/-- **A whole text written with indentation reads back through its shape**, when its document is
shaped like it within the nesting limit: the reader's fuel is always above the text's length. -/
theorem Shape.readText_pretty {s : Shape} {v : Value} (hv : Shaped depthLimit s v) :
    s.readText (v.pretty 0) = .ok v := by
  have hs : Stops [] := fun c hc => by cases hc
  have hfuel : (v.pretty 0).toList.length < ((v.pretty 0).toList.length + 2) * (s.depth + 2) :=
    calc (v.pretty 0).toList.length < (v.pretty 0).toList.length + 2 := by omega
      _ ≤ ((v.pretty 0).toList.length + 2) * (s.depth + 2) := Nat.le_mul_of_pos_right _ (by omega)
  have hread := hv.readsIndented 0 [] hs _ hfuel
  rw [List.append_nil] at hread
  simp only [Shape.readText, hread]
  rfl

end Launcher.Json
