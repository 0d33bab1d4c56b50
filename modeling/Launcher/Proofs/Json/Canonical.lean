import Mathlib.Data.List.Nodup
import Launcher.Json.Shape

/-!
# Documents that are already canonical

`Shape.decode` returns a checked document in canonical form: a record's fields in declared order,
defaults filled in. A document that is already in that form, and whose values each check to
themselves, checks to itself:

* `find?_key` — in pairs with distinct keys, looking a pair's key up finds that pair;
* `decodeRecord_canonical` — an object holding exactly a record's fields, in declared order,
  each value checking to itself;
* `decodeWith_tagged_canonical` — a tagged object whose tag comes first, naming a variant whose
  content checks the other pairs to themselves.
-/

namespace Launcher.Json

/-- In pairs with distinct keys, looking a pair's key up finds that pair. -/
theorem find?_key {α : Type} {l : List (String × α)} (hnd : (l.map Prod.fst).Nodup)
    {e : String × α} (he : e ∈ l) : l.find? (·.1 == e.1) = some e := by
  induction l with
  | nil => cases he
  | cons x xs ih =>
    simp only [List.map_cons, List.nodup_cons, List.mem_map] at hnd
    rcases List.mem_cons.1 he with rfl | hxs
    · simp
    · have hne : x.1 ≠ e.1 := fun h => hnd.1 ⟨e, hxs, h.symm⟩
      simp [hne, ih hnd.2 hxs]

variable {fuel : Nat} {buffered : Bool} {fields : List (String × Shape × Option Value)}

/-- Each pair is a known field, seen for the first time, whose value checks to itself. -/
theorem collectFields_canonical (post found : List (String × Value))
    (hnd : ((post ++ found).map Prod.fst).Nodup)
    (hvals : ∀ e ∈ post, ∃ fld, fields.find? (·.1 == e.1) = some fld ∧
      decodeWith fuel buffered fld.2.1 e.2 = .ok e.2) :
    collectFields fuel buffered fields post found [] = .ok (post.reverse ++ found, []) := by
  induction post generalizing found with
  | nil => simp [collectFields]
  | cons e post ih =>
    obtain ⟨k, v⟩ := e
    obtain ⟨⟨k', s, d⟩, hfind, hdec⟩ := hvals (k, v) (List.mem_cons_self ..)
    have hfresh : found.find? (·.1 == k) = none := by
      rw [List.find?_eq_none]
      intro x hx hkey
      simp only [List.cons_append, List.map_cons, List.nodup_cons, List.map_append,
        List.mem_append, List.mem_map] at hnd
      exact hnd.1 (.inr ⟨x, hx, by simpa using hkey⟩)
    have hnd' : ((post ++ (k, v) :: found).map Prod.fst).Nodup :=
      ((List.perm_middle).map Prod.fst).nodup_iff.2 hnd
    simp only at hfind hdec
    simp only [collectFields, hfind, hfresh, Option.isSome_none, Bool.false_eq_true, if_false,
      hdec]
    rw [ih ((k, v) :: found) hnd' (fun x hx => hvals x (List.mem_cons_of_mem _ hx))]
    simp

/-- Every field is found among the pairs and takes its value from them. -/
theorem fillFields_canonical (found : List (String × Value)) :
    ∀ (fields : List (String × Shape × Option Value)) (entries : List (String × Value)),
      fields.map (·.1) = entries.map (·.1) → (∀ e ∈ entries, found.find? (·.1 == e.1) = some e) →
      fillFields fields found = .ok entries
  | [], [], _, _ => rfl
  | [], _ :: _, h, _ => absurd h (by simp)
  | _ :: _, [], h, _ => absurd h (by simp)
  | (name, s, d) :: flds, (k, v) :: es, hkeys, hfound => by
    simp only [List.map_cons, List.cons.injEq] at hkeys
    obtain ⟨rfl, hkeys⟩ := hkeys
    have he : found.find? (·.1 == name) = some (name, v) := hfound (name, v) (List.mem_cons_self ..)
    have hrest := fillFields_canonical found flds es hkeys
      (fun x hx => hfound x (List.mem_cons_of_mem _ hx))
    simp only [fillFields, he, hrest, bind, Except.bind, pure, Except.pure]

/-- **A record's canonical document checks to itself**: an object holding exactly the record's
fields in declared order, with distinct keys, each value checking to itself. -/
theorem decodeRecord_canonical (entries : List (String × Value))
    (hkeys : fields.map (·.1) = entries.map (·.1)) (hnd : (entries.map Prod.fst).Nodup)
    (hvals : ∀ e ∈ entries, ∃ fld, fields.find? (·.1 == e.1) = some fld ∧
      decodeWith fuel buffered fld.2.1 e.2 = .ok e.2) :
    decodeRecord fuel buffered fields none entries = .ok (.object entries) := by
  have hcollect := collectFields_canonical entries [] (by simpa using hnd) hvals
  have hrev : (entries.reverse.map Prod.fst).Nodup := by
    rw [List.map_reverse]
    exact List.nodup_reverse.2 hnd
  have hfill := fillFields_canonical (entries.reverse ++ []) fields entries hkeys
    (fun e he => by rw [List.append_nil]; exact find?_key hrev (List.mem_reverse.2 he))
  simp only [decodeRecord, hcollect, hfill, bind, Except.bind, pure, Except.pure]

theorem decodeWith_text (e s : String) :
    decodeWith (fuel + 1) buffered (.text e) (.string s) = .ok (.string s) := by
  rw [decodeWith]

theorem decodeWith_whole {w : Width} {n : Nat} (h : w.fits n = true) :
    decodeWith (fuel + 1) buffered (.whole w) (.number (.nat n)) = .ok (.number (.nat n)) := by
  rw [decodeWith]
  simp [decodeWhole, h]

theorem decodeWith_record (e : String) (entries : List (String × Value)) :
    decodeWith (fuel + 1) buffered (.record e fields none) (.object entries) =
      decodeRecord fuel buffered fields none entries := by
  rw [decodeWith]

/-- Pairs without the tag are passed over, in order. -/
theorem splitTag_absent (tag : String) (found : Option Value) :
    ∀ (rest acc : List (String × Value)), (∀ e ∈ rest, e.1 ≠ tag) →
      splitTag tag rest found acc = .ok (found, acc.reverse ++ rest)
  | [], acc, _ => by simp [splitTag]
  | (k, v) :: rest, acc, h => by
    have hk : (k == tag) = false := by
      simpa using h (k, v) (List.mem_cons_self ..)
    simp only [splitTag, hk, Bool.false_eq_true, if_false]
    rw [splitTag_absent tag found rest ((k, v) :: acc)
      (fun e he => h e (List.mem_cons_of_mem _ he))]
    simp

/-- **A tagged document with its tag first checks to itself** when the tag names a variant whose
content checks the other pairs to themselves. -/
theorem decodeWith_tagged_canonical {name tag vname : String}
    {variants : List (String × Option Shape)} {s : Shape} {rest : List (String × Value)}
    (hrest : ∀ e ∈ rest, e.1 ≠ tag) (hvar : variants.find? (·.1 == vname) = some (vname, some s))
    (hcontent : decodeWith fuel true s (.object rest) = .ok (.object rest)) :
    decodeWith (fuel + 1) buffered (.tagged name tag variants)
      (.object ((tag, .string vname) :: rest)) = .ok (.object ((tag, .string vname) :: rest)) := by
  have hsplit : splitTag tag ((tag, .string vname) :: rest) none [] =
      .ok (some (.string vname), rest) := by
    simp only [splitTag, beq_self_eq_true, if_true]
    rw [splitTag_absent tag _ rest [] hrest]
    simp
  rw [decodeWith]
  simp only [hsplit, decodeTag, hvar, hcontent]

end Launcher.Json
