import Launcher.Json.Shape

/-!
# What a checked document holds

The check of a record returns an object whose pairs are the record's fields, each holding what
the field's shape made of some document or the field's default. This is what lets a reader of
checked documents rely on the bounds the shapes enforce:

* `FieldValue` — that property of one pair;
* `collectFields_found`, `fillFields_values`, `decodePositional_values` — each stage of a
  record's check keeps it, for objects read by key and for arrays read by position;
* `decodeWith_record_values` — a record's check gives an object of field values;
* `decodeWith_whole_fits` — a whole number that passed its check fits its width;
* `decodeWith_tagged_content` — a tagged document's check gives the tag, then the pairs that
  the named variant's content made of the rest.
-/

namespace Launcher.Json

variable {fuel : Nat} {buffered : Bool}

theorem bind_eq_ok {ε α β : Type} {x : Except ε α} {f : α → Except ε β} {b : β}
    (h : x >>= f = .ok b) : ∃ a, x = .ok a ∧ f a = .ok b := by
  cases x with
  | error e => cases h
  | ok a => exact ⟨a, rfl, h⟩

/-- A pair of a checked record: one of the record's fields, holding what the field's shape made
of some document, or the field's default. -/
def FieldValue (fuel : Nat) (buffered : Bool) (fields : List (String × Shape × Option Value))
    (p : String × Value) : Prop :=
  ∃ fld ∈ fields, fld.1 = p.1 ∧
    ((∃ x, decodeWith fuel buffered fld.2.1 x = .ok p.2) ∨ fld.2.2 = some p.2)

/-- The field a key finds is a field under that key. -/
theorem find?_field {fields : List (String × Shape × Option Value)} {k : String}
    {fld : String × Shape × Option Value} (h : fields.find? (·.1 == k) = some fld) :
    fld ∈ fields ∧ fld.1 = k := by
  refine ⟨List.mem_of_find?_eq_some h, ?_⟩
  simpa using List.find?_some h

/-- Walking the pairs of an object only ever stores what a field's shape made of a value. -/
theorem collectFields_found {fields : List (String × Shape × Option Value)} :
    ∀ (entries found others : List (String × Value)) {found' others' : List (String × Value)},
      collectFields fuel buffered fields entries found others = .ok (found', others') →
      (∀ p ∈ found, FieldValue fuel buffered fields p) →
      ∀ p ∈ found', FieldValue fuel buffered fields p
  | [], found, others, _, _, h, hf => by
    simp only [collectFields, Except.ok.injEq, Prod.mk.injEq] at h
    rw [← h.1]
    exact hf
  | (k, v) :: rest, found, others, _, _, h, hf => by
    rw [collectFields] at h
    split at h
    · rename_i name s dflt hfind
      split at h
      · cases h
      · split at h
        · rename_i w hw
          obtain ⟨hmem, hname⟩ := find?_field hfind
          refine collectFields_found rest _ others h ?_
          intro p hp
          rcases List.mem_cons.1 hp with rfl | hp
          · exact ⟨_, hmem, hname, .inl ⟨v, hw⟩⟩
          · exact hf p hp
        · cases h
    · exact collectFields_found rest found _ h hf

/-- The first field filled in holds the stored value under its name or, when none is stored,
its default. -/
theorem fillFields_cons {name : String} {s : Shape} {dflt : Option Value}
    {rest : List (String × Shape × Option Value)} {found vals : List (String × Value)}
    (h : fillFields ((name, s, dflt) :: rest) found = .ok vals) :
    ∃ v vs, vals = (name, v) :: vs ∧ fillFields rest found = .ok vs ∧
      ((∃ k, found.find? (·.1 == name) = some (k, v)) ∨
        (found.find? (·.1 == name) = none ∧ dflt = some v)) := by
  cases hfind : found.find? (·.1 == name) with
  | some kw =>
    obtain ⟨k, w⟩ := kw
    rw [fillFields.eq_2 _ _ _ _ _ _ _ hfind] at h
    obtain ⟨v, hv, h⟩ := bind_eq_ok h
    cases hv
    obtain ⟨vs, hvs, h⟩ := bind_eq_ok h
    cases h
    exact ⟨w, vs, rfl, hvs, .inl ⟨k, rfl⟩⟩
  | none =>
    cases dflt with
    | some d =>
      rw [fillFields.eq_3 _ _ _ _ _ hfind] at h
      obtain ⟨v, hv, h⟩ := bind_eq_ok h
      cases hv
      obtain ⟨vs, hvs, h⟩ := bind_eq_ok h
      cases h
      exact ⟨d, vs, rfl, hvs, .inr ⟨rfl, rfl⟩⟩
    | none =>
      rw [fillFields.eq_4 _ _ _ _ hfind] at h
      cases h

/-- Every field filled in holds a stored value or its default. -/
theorem fillFields_values {all : List (String × Shape × Option Value)}
    (found : List (String × Value)) (hf : ∀ p ∈ found, FieldValue fuel buffered all p) :
    ∀ (fields : List (String × Shape × Option Value)) {vals : List (String × Value)},
      (∀ fld ∈ fields, fld ∈ all) → fillFields fields found = .ok vals →
      ∀ p ∈ vals, FieldValue fuel buffered all p
  | [], _, _, h => by
    rw [fillFields] at h
    cases h
    simp
  | (name, s, dflt) :: rest, _, hsub, h => by
    obtain ⟨v, vs, rfl, hvs, hv⟩ := fillFields_cons h
    have hrest := fillFields_values found hf rest (fun fld hfld => hsub fld (by simp [hfld])) hvs
    intro p hp
    rcases List.mem_cons.1 hp with rfl | hp
    · rcases hv with ⟨k, hfind⟩ | ⟨_, rfl⟩
      · obtain ⟨fld, hfld, hkey, hval⟩ := hf _ (List.mem_of_find?_eq_some hfind)
        have hk : k = name := by simpa using List.find?_some hfind
        exact ⟨fld, hfld, hkey.trans hk, hval⟩
      · exact ⟨(name, s, some v), hsub _ (by simp), rfl, .inr rfl⟩
    · exact hrest p hp

/-- Reading a record by position stores, field by field, what the field's shape made of the
element at its position, or its default. -/
theorem decodePositional_values {all : List (String × Shape × Option Value)} {e : String}
    {n : Nat} :
    ∀ (fields : List (String × Shape × Option Value)) (used : Nat) (items : List Value)
      (acc : List (String × Value)) {c : Value},
      (∀ fld ∈ fields, fld ∈ all) → (∀ p ∈ acc, FieldValue fuel buffered all p) →
      decodePositional fuel buffered e fields n used items acc = .ok c →
      ∃ vals, c = .object vals ∧ ∀ p ∈ vals, FieldValue fuel buffered all p
  | [], _, [], acc, _, _, hacc, h => by
    rw [decodePositional] at h
    cases h
    exact ⟨_, rfl, fun p hp => hacc p (List.mem_reverse.1 hp)⟩
  | [], _, _ :: _, _, _, _, _, h => by
    rw [decodePositional.eq_2 _ _ _ _ _ _ _ (List.cons_ne_nil _ _)] at h
    cases h
  | (name, s, dflt) :: rest, used, items, acc, _, hsub, hacc, h => by
    have hrest : ∀ fld ∈ rest, fld ∈ all := fun fld hfld => hsub fld (by simp [hfld])
    have hfld : (name, s, dflt) ∈ all := hsub _ (by simp)
    cases items with
    | cons v more =>
      rw [decodePositional.eq_3] at h
      split at h
      · rename_i w hw
        refine decodePositional_values rest _ more _ hrest ?_ h
        intro p hp
        rcases List.mem_cons.1 hp with rfl | hp
        · exact ⟨_, hfld, rfl, .inl ⟨v, hw⟩⟩
        · exact hacc p hp
      · cases h
    | nil =>
      cases dflt with
      | some d =>
        rw [decodePositional.eq_4] at h
        refine decodePositional_values rest _ [] _ hrest ?_ h
        intro p hp
        rcases List.mem_cons.1 hp with rfl | hp
        · exact ⟨_, hfld, rfl, .inr rfl⟩
        · exact hacc p hp
      | none =>
        rw [decodePositional.eq_5] at h
        cases h

/-- A record without a flattened part checks to an object of field values. -/
theorem decodeRecord_values {fields : List (String × Shape × Option Value)}
    {entries : List (String × Value)} {c : Value}
    (h : decodeRecord fuel buffered fields none entries = .ok c) :
    ∃ vals, c = .object vals ∧ ∀ p ∈ vals, FieldValue fuel buffered fields p := by
  unfold decodeRecord at h
  obtain ⟨⟨found, others⟩, hcollect, h⟩ := bind_eq_ok h
  obtain ⟨vals, hfill, h⟩ := bind_eq_ok h
  cases h
  have hfound := collectFields_found entries [] [] hcollect (by simp)
  exact ⟨vals, rfl, fillFields_values found hfound fields (fun _ h => h) hfill⟩

/-- **A record's check gives an object of field values**, whether the document was an object
or an array. -/
theorem decodeWith_record_values {e : String} {fields : List (String × Shape × Option Value)}
    {v c : Value} (h : decodeWith (fuel + 1) buffered (.record e fields none) v = .ok c) :
    ∃ vals, c = .object vals ∧ ∀ p ∈ vals, FieldValue fuel buffered fields p := by
  cases v with
  | object entries =>
    rw [decodeWith] at h
    exact decodeRecord_values h
  | array items =>
    rw [decodeWith.eq_15] at h
    exact decodePositional_values fields 0 _ [] (fun _ h => h) (by simp) h
  | _ => simp [decodeWith] at h

/-- A whole number that passed its check fits its width. -/
theorem decodeWith_whole_fits {w : Width} {x : Value} {n : Nat}
    (h : decodeWith fuel buffered (.whole w) x = .ok (.number (.nat n))) : w.fits n = true := by
  cases fuel with
  | zero =>
    rw [decodeWith] at h
    cases h
  | succ fuel =>
    rw [decodeWith] at h
    unfold decodeWhole at h
    split at h
    · split at h
      · cases h
        assumption
      · cases h
    · split at h
      · cases h
      · cases h
    · cases h

/-- A tag names one of the variants. -/
theorem decodeTag_mem {variants : List (String × Option Shape)} {t : Value} {vname : String}
    {content : Option Shape} (h : decodeTag buffered variants t = .ok (vname, content)) :
    (vname, content) ∈ variants := by
  unfold decodeTag at h
  split at h
  · split at h
    · rename_i hfind
      cases h
      exact List.mem_of_find?_eq_some hfind
    · cases h
  · split at h
    · split at h
      · rename_i hget
        cases h
        exact List.mem_of_getElem? hget
      · cases h
    · cases h
  · cases h

/-- **A tagged document checks to its tag followed by its content's pairs**, when every variant's
content checks only to objects. -/
theorem decodeWith_tagged_content {name tag : String} {variants : List (String × Option Shape)}
    {v c : Value}
    (hobj : ∀ vname s, (vname, some s) ∈ variants →
      ∀ x r, decodeWith fuel true s x = .ok r → ∃ fs, r = .object fs)
    (h : decodeWith (fuel + 1) buffered (.tagged name tag variants) v = .ok c) :
    ∃ vname content fs, (vname, content) ∈ variants ∧ c = .object ((tag, .string vname) :: fs) ∧
      (content = none → fs = []) ∧
      ∀ s, content = some s → ∃ x, decodeWith fuel true s x = .ok (.object fs) := by
  cases v with
  | object entries =>
    rw [decodeWith.eq_17] at h
    split at h
    · cases h
    · cases h
    · rename_i t rest _
      split at h
      · cases h
      · rename_i vname content htag
        have hmem := decodeTag_mem htag
        split at h
        · cases h
          exact ⟨vname, none, [], hmem, rfl, fun _ => rfl, by simp⟩
        · rename_i s
          split at h
          · rename_i fs hfs
            cases h
            exact ⟨vname, some s, fs, hmem, rfl, by simp,
              fun s' hs => ⟨_, Option.some.inj hs ▸ hfs⟩⟩
          · rename_i other hother hfs
            obtain ⟨fs, rfl⟩ := hobj vname s hmem _ _ hfs
            exact absurd rfl (hother fs)
          · cases h
  | array items =>
    cases items with
    | nil =>
      rw [decodeWith.eq_18] at h
      cases h
    | cons t rest =>
      rw [decodeWith.eq_19] at h
      split at h
      · cases h
      · rename_i vname content htag
        have hmem := decodeTag_mem htag
        split at h
        · split at h
          · cases h
            exact ⟨vname, none, [], hmem, rfl, fun _ => rfl, by simp⟩
          · cases h
        · rename_i s
          split at h
          · rename_i fs hfs
            cases h
            exact ⟨vname, some s, fs, hmem, rfl, by simp,
              fun s' hs => ⟨_, Option.some.inj hs ▸ hfs⟩⟩
          · rename_i other hother hfs
            obtain ⟨fs, rfl⟩ := hobj vname s hmem _ _ hfs
            exact absurd rfl (hother fs)
          · cases h
  | _ => simp [decodeWith] at h

end Launcher.Json
