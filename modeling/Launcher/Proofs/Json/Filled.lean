import Launcher.Proofs.Json.Canonical

/-!
# Documents with fields left out

The encoders leave out optional fields that are unset, and hand a record's trailing pairs, or a
variant's content, on to another shape. Checking such a document fills each missing field with
its default and returns the canonical document, where each value is what its own shape made of
it:

* `Checks` — a pair whose key names a field, whose shape makes the canonical value of it;
* `decodeRecord_filled` — an object whose pairs have distinct known keys checks to the record's
  fields in declared order, each present one as checked and each absent one at its default;
* `decodeRecord_flat` — the same for a record whose trailing pairs, under keys it does not know,
  go to its flat part;
* `decodeWith_tagged_object`, `decodeWith_tagged_bare` — a tagged object with its tag first
  checks to the tag followed by what the variant's content made of the other pairs, or to the
  tag alone for a variant without content;
* `decodeWith_list` and the scalar lemmas — a list of items, and each scalar of the right kind,
  checks to what its shape makes of it.
-/

namespace Launcher.Json

variable {fuel : Nat} {buffered : Bool} {fields : List (String × Shape × Option Value)}

/-! ## Scalars and lists -/

theorem decodeWith_flag (b : Bool) :
    decodeWith (fuel + 1) buffered .flag (.bool b) = .ok (.bool b) := by
  rw [decodeWith]

theorem decodeWith_any (v : Value) : decodeWith (fuel + 1) buffered .any v = .ok v := by
  rw [decodeWith]

theorem decodeWith_real (x : Binary64) :
    decodeWith (fuel + 1) buffered .real (.number (.real x)) = .ok (.number (.real x)) := by
  rw [decodeWith]
  rfl

/-- A whole number as `Value.ofInt` writes it checks to itself when it fits the width. -/
theorem decodeWith_ofInt {w : Width} {i : Int} (h : w.fits i = true) :
    decodeWith (fuel + 1) buffered (.whole w) (Value.ofInt i) = .ok (Value.ofInt i) := by
  rw [decodeWith]
  unfold Value.ofInt
  split
  · rename_i hi
    have hcast : ((i.toNat : Nat) : Int) = i := Int.toNat_of_nonneg hi
    simp [decodeWhole, hcast, h]
  · simp [decodeWhole, h]

theorem decodeWith_maybe_string (e s : String) :
    decodeWith (fuel + 2) buffered (.maybe (.text e)) (.string s) = .ok (.string s) := by
  rw [decodeWith]
  · exact decodeWith_text e s
  · intro h
    cases h

/-- Items that each check to their counterpart check to the list of those. -/
theorem decodeItems_forall₂ {item : Shape} {items cs : List Value}
    (h : List.Forall₂ (fun v c => decodeWith fuel buffered item v = .ok c) items cs) :
    decodeItems fuel buffered item items = .ok cs := by
  induction h with
  | nil => rw [decodeItems]
  | cons hhead _ ih => simp only [decodeItems, hhead, ih, bind, Except.bind, pure, Except.pure]

theorem decodeWith_list {item : Shape} {items cs : List Value}
    (h : List.Forall₂ (fun v c => decodeWith fuel buffered item v = .ok c) items cs) :
    decodeWith (fuel + 1) buffered (.list item) (.array items) = .ok (.array cs) := by
  rw [decodeWith]
  simp [decodeItems_forall₂ h, Except.map]

/-- Items written from values each of which checks to its counterpart. -/
theorem decodeWith_list_map {α : Type} {item : Shape} {xs : List α} {f g : α → Value}
    (h : ∀ x ∈ xs, decodeWith fuel buffered item (f x) = .ok (g x)) :
    decodeWith (fuel + 1) buffered (.list item) (.array (xs.map f)) = .ok (.array (xs.map g)) := by
  refine decodeWith_list ?_
  rw [List.forall₂_map_left_iff, List.forall₂_map_right_iff]
  exact List.forall₂_same.2 h

/-! ## Records -/

/-- A pair of an object against a record's fields: its key names a field, whose shape makes the
canonical pair's value of the pair's value. -/
def Checks (fuel : Nat) (buffered : Bool) (fields : List (String × Shape × Option Value))
    (e c : String × Value) : Prop :=
  e.1 = c.1 ∧ ∃ fld, fields.find? (·.1 == e.1) = some fld ∧ decodeWith fuel buffered fld.2.1 e.2 = .ok c.2

theorem keys_of_checks {own checked : List (String × Value)}
    (h : List.Forall₂ (Checks fuel buffered fields) own checked) :
    checked.map Prod.fst = own.map Prod.fst := by
  induction h with
  | nil => rfl
  | cons hc _ ih => simp [ih, hc.1]

theorem decodeWith_object_record (e : String) (flat : Option Shape) (entries : List (String × Value)) :
    decodeWith (fuel + 1) buffered (.record e fields flat) (.object entries) =
      decodeRecord fuel buffered fields flat entries := by
  rw [decodeWith]

/-- Pairs under keys that name no field are passed over and kept, in order. -/
theorem collectFields_unknown (found : List (String × Value)) :
    ∀ (others acc : List (String × Value)), (∀ e ∈ others, fields.find? (·.1 == e.1) = none) →
      collectFields fuel buffered fields others found acc = .ok (found, acc.reverse ++ others)
  | [], acc, _ => by simp [collectFields]
  | (k, v) :: rest, acc, h => by
    have hk : fields.find? (·.1 == k) = none := h (k, v) (List.mem_cons_self ..)
    rw [collectFields, hk]
    simp only
    rw [collectFields_unknown found rest ((k, v) :: acc)
      (fun e he => h e (List.mem_cons_of_mem _ he))]
    simp

/-- Known pairs, each seen for the first time, are checked and stored; the unknown pairs after
them are set aside. -/
theorem collectFields_checks (others : List (String × Value))
    (hothers : ∀ e ∈ others, fields.find? (·.1 == e.1) = none) :
    ∀ (own checked found : List (String × Value)), ((own ++ found).map Prod.fst).Nodup →
      List.Forall₂ (Checks fuel buffered fields) own checked →
      collectFields fuel buffered fields (own ++ others) found [] =
        .ok (checked.reverse ++ found, others)
  | [], [], found, _, _ => by simpa using collectFields_unknown found others [] hothers
  | (k, v) :: own, (k', w) :: checked, found, hnd, .cons ⟨hkey, fld, hfind, hdec⟩ hrest => by
    simp only at hkey hfind hdec
    subst hkey
    have hfresh : found.find? (·.1 == k) = none := by
      rw [List.find?_eq_none]
      intro x hx hk
      simp only [List.cons_append, List.map_cons, List.nodup_cons, List.map_append,
        List.mem_append, List.mem_map] at hnd
      exact hnd.1 (.inr ⟨x, hx, by simpa using hk⟩)
    have hnd' : ((own ++ (k, w) :: found).map Prod.fst).Nodup := by
      have hperm : (own ++ (k, w) :: found).Perm ((k, w) :: (own ++ found)) := List.perm_middle
      exact (hperm.map Prod.fst).nodup_iff.2 (by simpa using hnd)
    obtain ⟨name, s, d⟩ := fld
    simp only [List.cons_append, collectFields, hfind, hfresh, Option.isSome_none,
      Bool.false_eq_true, if_false, hdec]
    rw [collectFields_checks others hothers own checked ((k, w) :: found) hnd' hrest]
    simp

/-- Each field takes the stored pair under its key, or its default when no pair has the key. -/
theorem fillFields_filled (found : List (String × Value)) :
    ∀ (fields : List (String × Shape × Option Value)) (full : List (String × Value)),
      List.Forall₂ (fun fld e => fld.1 = e.1 ∧ (found.find? (·.1 == e.1) = some e ∨
        found.find? (·.1 == e.1) = none ∧ fld.2.2 = some e.2)) fields full →
      fillFields fields found = .ok full := by
  intro fields full h
  induction h with
  | nil => rfl
  | @cons fld e flds es hhead _ hnext =>
    obtain ⟨name, s, d⟩ := fld
    obtain ⟨k, v⟩ := e
    obtain ⟨hk, hv⟩ := hhead
    simp only at hk
    subst hk
    rcases hv with hfound | ⟨hnone, hd⟩
    · simp only [fillFields, hfound, hnext, bind, Except.bind, pure, Except.pure]
    · simp only at hd
      subst hd
      simp only [fillFields, hnone, hnext, bind, Except.bind, pure, Except.pure]

/-- What a record's fields are filled with: the checked pair under the field's key, or the
field's default when no pair has the key. -/
def Filled (checked : List (String × Value)) (fld : String × Shape × Option Value)
    (e : String × Value) : Prop :=
  fld.1 = e.1 ∧ (e ∈ checked ∨ e.1 ∉ checked.map Prod.fst ∧ fld.2.2 = some e.2)

/-- The two stages of a record's check on its own pairs followed by unknown ones. -/
theorem collect_fill {own others checked full : List (String × Value)}
    (hnd : (own.map Prod.fst).Nodup) (hchecks : List.Forall₂ (Checks fuel buffered fields) own checked)
    (hothers : ∀ e ∈ others, fields.find? (·.1 == e.1) = none)
    (hfull : List.Forall₂ (Filled checked) fields full) :
    collectFields fuel buffered fields (own ++ others) [] [] = .ok (checked.reverse, others) ∧
      fillFields fields checked.reverse = .ok full := by
  refine ⟨by simpa using collectFields_checks others hothers own checked [] (by simpa using hnd) hchecks, ?_⟩
  have hkeys : (checked.reverse.map Prod.fst).Nodup := by
    rw [List.map_reverse, keys_of_checks hchecks]
    exact List.nodup_reverse.2 hnd
  apply fillFields_filled
  refine hfull.imp fun fld e ⟨hk, he⟩ => ⟨hk, ?_⟩
  rcases he with hmem | ⟨hnot, hd⟩
  · exact .inl (find?_key hkeys (List.mem_reverse.2 hmem))
  · refine .inr ⟨?_, hd⟩
    rw [List.find?_eq_none]
    intro x hx hkx
    have hx1 : x.1 = e.1 := by simpa using hkx
    exact hnot (hx1 ▸ List.mem_map_of_mem (List.mem_reverse.1 hx))

/-- **An object with distinct known keys checks to the record's canonical document**: every field
in declared order, holding its pair's checked value when present and its default otherwise. -/
theorem decodeRecord_filled {entries checked full : List (String × Value)}
    (hnd : (entries.map Prod.fst).Nodup)
    (hchecks : List.Forall₂ (Checks fuel buffered fields) entries checked)
    (hfull : List.Forall₂ (Filled checked) fields full) :
    decodeRecord fuel buffered fields none entries = .ok (.object full) := by
  have hnone : ∀ e ∈ ([] : List (String × Value)), fields.find? (·.1 == e.1) = none :=
    fun e he => by cases he
  obtain ⟨hcollect, hfill⟩ := collect_fill hnd hchecks hnone hfull
  rw [List.append_nil] at hcollect
  simp only [decodeRecord, hcollect, hfill, bind, Except.bind, pure, Except.pure]

/-- **A record with a flat part**: its own pairs come first and check as in `decodeRecord_filled`,
and the pairs after them, under keys it does not know, are what the flat part checks. -/
theorem decodeRecord_flat {own others checked full more : List (String × Value)} {s : Shape}
    (hnd : (own.map Prod.fst).Nodup)
    (hchecks : List.Forall₂ (Checks fuel buffered fields) own checked)
    (hothers : ∀ e ∈ others, fields.find? (·.1 == e.1) = none)
    (hfull : List.Forall₂ (Filled checked) fields full)
    (hflat : decodeWith fuel true s (.object others) = .ok (.object more)) :
    decodeRecord fuel buffered fields (some s) (own ++ others) = .ok (.object (full ++ more)) := by
  obtain ⟨hcollect, hfill⟩ := collect_fill hnd hchecks hothers hfull
  simp only [decodeRecord, hcollect, hfill, hflat, bind, Except.bind, pure, Except.pure]

/-! ## Tagged unions -/

/-- **A tagged object with its tag first checks to the tag and its content's object**, when the
tag names a variant whose content makes that object of the other pairs. -/
theorem decodeWith_tagged_object {name tag vname : String}
    {variants : List (String × Option Shape)} {s : Shape} {rest fs : List (String × Value)}
    (hrest : ∀ e ∈ rest, e.1 ≠ tag) (hvar : variants.find? (·.1 == vname) = some (vname, some s))
    (hcontent : decodeWith fuel true s (.object rest) = .ok (.object fs)) :
    decodeWith (fuel + 1) buffered (.tagged name tag variants)
      (.object ((tag, .string vname) :: rest)) = .ok (.object ((tag, .string vname) :: fs)) := by
  have hsplit : splitTag tag ((tag, .string vname) :: rest) none [] =
      .ok (some (.string vname), rest) := by
    simp only [splitTag, beq_self_eq_true, if_true]
    rw [splitTag_absent tag _ rest [] hrest]
    simp
  rw [decodeWith]
  simp only [hsplit, decodeTag, hvar, hcontent]

/-- A tag alone, naming a variant without content, checks to itself. -/
theorem decodeWith_tagged_bare {name tag vname : String} {variants : List (String × Option Shape)}
    (hvar : variants.find? (·.1 == vname) = some (vname, none)) :
    decodeWith (fuel + 1) buffered (.tagged name tag variants) (.object [(tag, .string vname)]) =
      .ok (.object [(tag, .string vname)]) := by
  have hsplit : splitTag tag [(tag, .string vname)] none [] = .ok (some (.string vname), []) := by
    simp [splitTag]
  rw [decodeWith]
  simp only [hsplit, decodeTag, hvar]

end Launcher.Json
