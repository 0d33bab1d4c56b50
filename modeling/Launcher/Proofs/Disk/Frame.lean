import Mathlib.Tactic.SplitIfs
import Launcher.Disk

/-!
# What the disk operations leave in place

The journal keeps its text while the program makes directories and writes files beside it,
because the walk along a path only ever stands in directories that hang from the root by
directories:

* `Disk.Rooted` — every prefix of a component list names a directory; the walk from the root
  or from the scratch directory only stands in rooted directories (`walk_rooted`,
  `place_rooted`);
* `Disk.Keeps` — every rooted directory of one disk is a directory of the other; a walk that
  succeeds on the first succeeds the same way on the second (`walk_keeps`, `place_keeps`).
  Writing a file, or removing a subtree, where no directory stood keeps the rooted directories
  (`keeps_put`, `keeps_remove`);
* `Disk.Extends` — every entry of one disk is an entry of the other, and the device holds the
  same fault, as making directories does (`makeDirs_extends`);
* a path naming a file goes on naming it when the rooted directories stay and the entry holds
  a file (`resolve_file_of_keeps`): appending to it (`append_of_resolve`), and creating a file
  and renaming it over it (`rename_created`), leave the path naming the new text; an append
  that runs into the device's fault leaves it naming the old text and the part written before
  the cut (`append_cut_of_resolve`).
-/

namespace Launcher.Disk

variable {d d' d'' : Disk}

/-- Searching a filtered list finds what the whole list gives, when every entry the search
could match passes the filter. -/
theorem find?_filter_of_imp {α : Type} {p q : α → Bool} (l : List α)
    (h : ∀ a ∈ l, q a = true → p a = true) : (l.filter p).find? q = l.find? q := by
  induction l with
  | nil => rfl
  | cons a l ih =>
    have ih' := ih (fun b hb => h b (List.mem_cons_of_mem _ hb))
    by_cases hq : q a = true
    · simp [h a (List.mem_cons_self ..) hq, hq]
    · by_cases hp : p a = true <;> simp [hp, hq, ih']

/-! ## Entries after a write or a removal -/

theorem node?_put_self (d : Disk) {parts : List String} (hp : parts ≠ []) (n : Node) :
    (d.put parts n).node? parts = some n := by
  have hnone : (d.entries.filter (·.1 != parts)).find? (·.1 == parts) = none := by
    rw [List.find?_eq_none]
    intro e he
    simp only [List.mem_filter, bne_iff_ne, ne_eq] at he
    simpa using he.2
  simp [node?, put, hp, List.find?_append, hnone]

theorem node?_put_of_ne {q parts : List String} (h : q ≠ parts) (n : Node) :
    (d.put parts n).node? q = d.node? q := by
  have hkeep : (d.entries.filter (·.1 != parts)).find? (·.1 == q) = d.entries.find? (·.1 == q) :=
    find?_filter_of_imp _ (fun e _ he => by
      simp only [beq_iff_eq] at he
      simp [he, h])
  have hne : (parts == q) = false := by simpa using Ne.symm h
  simp [node?, put, List.find?_append, hkeep, hne]

theorem node?_remove_outside {q parts : List String} (h : ¬ parts <+: q) :
    (d.remove parts).node? q = d.node? q := by
  have hkeep : (d.entries.filter fun e => !(parts.isPrefixOf e.1)).find? (·.1 == q) =
      d.entries.find? (·.1 == q) :=
    find?_filter_of_imp _ (fun e _ he => by
      simp only [beq_iff_eq] at he
      have hnp : parts.isPrefixOf q = false :=
        Bool.eq_false_iff.2 (fun hp => h (List.isPrefixOf_iff_prefix.1 hp))
      simp [he, hnp])
  simp [node?, remove, hkeep]

theorem node?_remove_inside {q parts : List String} (h : parts <+: q) (hq : q ≠ []) :
    (d.remove parts).node? q = none := by
  have hnone : (d.entries.filter fun e => !(parts.isPrefixOf e.1)).find? (·.1 == q) = none := by
    rw [List.find?_eq_none]
    intro e he heq
    simp only [beq_iff_eq] at heq
    have hpre : parts.isPrefixOf q = true := List.isPrefixOf_iff_prefix.2 h
    simp [List.mem_filter, heq, hpre] at he
  simp [node?, remove, hq, hnone]

/-- Removing a subtree puts no directory where there was none. -/
theorem node?_remove_ne_dir {q parts : List String} (hq : q ≠ []) (h : d.node? q ≠ some .dir) :
    (d.remove parts).node? q ≠ some .dir := by
  by_cases hp : parts <+: q
  · rw [node?_remove_inside hp hq]
    simp
  · rwa [node?_remove_outside hp]

/-! ## Rooted directories -/

/-- Every prefix of `q` names a directory (the empty prefix, the root, always does). -/
def Rooted (d : Disk) (q : List String) : Prop := ∀ r, r <+: q → d.node? r = some .dir

theorem Rooted.nil : Rooted d [] := fun r hr => by
  rw [List.prefix_nil.1 hr]
  rfl

theorem Rooted.mono {q r : List String} (h : Rooted d q) (hr : r <+: q) : Rooted d r :=
  fun r' hr' => h r' (hr'.trans hr)

theorem Rooted.dropLast {q : List String} (h : Rooted d q) : Rooted d q.dropLast :=
  h.mono (List.dropLast_prefix q)

theorem Rooted.concat {cur : List String} {c : String} (h : Rooted d cur)
    (hc : d.node? (cur ++ [c]) = some .dir) : Rooted d (cur ++ [c]) := by
  intro r hr
  rcases List.prefix_concat_iff.1 hr with rfl | hr
  · exact hc
  · exact h r hr

theorem Rooted.node? {q : List String} (h : Rooted d q) : d.node? q = some .dir :=
  h q (List.prefix_refl q)

/-- The walk only stands in rooted directories. -/
theorem walk_rooted {slash : Bool} :
    ∀ {cur : List String} (pieces : List String) {pl : Place}, Rooted d cur →
      d.walk slash cur pieces = .ok pl → Rooted d pl.dir
  | _, [], _, h, hw => by
    cases hw
    exact h
  | _, [_], _, h, hw => by
    rw [walk] at hw
    split at hw
    · cases hw
      exact h
    · split at hw
      · cases hw
        exact h.dropLast
      · split at hw
        · cases hw
        · cases hw
          exact h
  | _, _ :: c' :: rest, _, h, hw => by
    rw [walk.eq_3 d _ _ _ _ (List.cons_ne_nil _ _)] at hw
    split at hw
    · exact walk_rooted (c' :: rest) h hw
    · split at hw
      · exact walk_rooted (c' :: rest) h.dropLast hw
      · split at hw
        · cases hw
        · split at hw
          · exact walk_rooted (c' :: rest) (h.concat ‹_›) hw
          · cases hw
          · cases hw

/-- A walk starts at the root or, for a relative path, in the scratch directory. -/
theorem start_fst (p : Path) : p.start.1 = if p.hasRoot then [] else [Path.scratch] := by
  unfold Path.start
  split
  · rfl
  · split
    · split <;> rfl
    · rfl

theorem rooted_start (hs : d.node? [Path.scratch] = some .dir) (p : Path) :
    Rooted d p.start.1 := by
  rw [start_fst]
  split
  · exact Rooted.nil
  · exact Rooted.nil.concat hs

theorem place_rooted (hs : d.node? [Path.scratch] = some .dir) {p : Path} {pl : Place}
    (h : d.place p = .ok pl) : Rooted d pl.dir := by
  unfold place at h
  split at h
  · cases h
  · exact walk_rooted _ (rooted_start hs p) h

/-! ## Keeping the rooted directories -/

/-- Every rooted directory of `d` is a directory of `d'`. -/
def Keeps (d d' : Disk) : Prop := ∀ q, Rooted d q → d'.node? q = some .dir

theorem Keeps.rooted (hk : Keeps d d') {q : List String} (hq : Rooted d q) : Rooted d' q :=
  fun r hr => hk r (hq.mono hr)

theorem Keeps.refl : Keeps d d := fun _ hq => hq.node?

theorem Keeps.trans (h₁ : Keeps d d') (h₂ : Keeps d' d'') : Keeps d d'' :=
  fun q hq => h₂ q (h₁.rooted hq)

theorem Keeps.scratch (hk : Keeps d d') (hs : d.node? [Path.scratch] = some .dir) :
    d'.node? [Path.scratch] = some .dir :=
  hk _ (Rooted.nil.concat hs)

/-- Writing where no directory stood keeps the rooted directories. -/
theorem keeps_put {parts : List String} (h : d.node? parts ≠ some .dir) (n : Node) :
    Keeps d (d.put parts n) := by
  intro q hq
  have hne : q ≠ parts := fun heq => h (heq ▸ hq.node?)
  rw [node?_put_of_ne hne]
  exact hq.node?

/-- Removing a subtree whose top is no directory keeps the rooted directories: none of them
lies below it. -/
theorem keeps_remove {parts : List String} (h : d.node? parts ≠ some .dir) :
    Keeps d (d.remove parts) := by
  intro q hq
  have hnp : ¬ parts <+: q := fun hp => h (hq parts hp)
  rw [node?_remove_outside hnp]
  exact hq.node?

/-- A walk through rooted directories finds them again on a disk that keeps them. -/
theorem walk_keeps (hk : Keeps d d') {slash : Bool} :
    ∀ {cur : List String} (pieces : List String) {pl : Place}, Rooted d cur →
      d.walk slash cur pieces = .ok pl → d'.walk slash cur pieces = .ok pl
  | _, [], _, _, hw => hw
  | _, [_], _, _, hw => by
    rw [walk] at hw ⊢
    exact hw
  | _, c :: c' :: rest, _, h, hw => by
    rw [walk.eq_3 d _ _ _ _ (List.cons_ne_nil _ _)] at hw
    rw [walk.eq_3 d' _ _ _ _ (List.cons_ne_nil _ _)]
    by_cases hdot : (c == ".") = true
    · rw [if_pos hdot] at hw ⊢
      exact walk_keeps hk (c' :: rest) h hw
    rw [if_neg hdot] at hw ⊢
    by_cases hup : (c == "..") = true
    · rw [if_pos hup] at hw ⊢
      exact walk_keeps hk (c' :: rest) h.dropLast hw
    rw [if_neg hup] at hw ⊢
    by_cases hlong : Path.tooLong c = true
    · rw [if_pos hlong] at hw
      cases hw
    rw [if_neg hlong] at hw ⊢
    split at hw
    · rename_i hdir
      rw [hk _ (h.concat hdir)]
      exact walk_keeps hk (c' :: rest) (h.concat hdir) hw
    · cases hw
    · cases hw

theorem place_keeps (hs : d.node? [Path.scratch] = some .dir) (hk : Keeps d d') {p : Path}
    {pl : Place} (h : d.place p = .ok pl) : d'.place p = .ok pl := by
  unfold place at h ⊢
  split at h
  · cases h
  · rw [if_neg ‹_›]
    exact walk_keeps hk _ (rooted_start hs p) h

/-! ## Extending a disk -/

/-- Every entry of `d` is an entry of `d'`, and the device holds the same fault. -/
structure Extends (d d' : Disk) : Prop where
  entry : ∀ q n, d.node? q = some n → d'.node? q = some n
  cutAfter : d'.cutAfter = d.cutAfter

theorem Extends.refl : Extends d d := ⟨fun _ _ h => h, rfl⟩

theorem Extends.trans (h₁ : Extends d d') (h₂ : Extends d' d'') : Extends d d'' :=
  ⟨fun q n h => h₂.entry q n (h₁.entry q n h), h₂.cutAfter.trans h₁.cutAfter⟩

theorem Extends.keeps (h : Extends d d') : Keeps d d' := fun q hq => h.entry q .dir hq.node?

theorem extends_put_new {parts : List String} (h : d.node? parts = none) (n : Node) :
    Extends d (d.put parts n) := by
  refine ⟨fun q m hq => ?_, rfl⟩
  have hne : q ≠ parts := by
    rintro rfl
    rw [h] at hq
    cases hq
  rw [node?_put_of_ne hne]
  exact hq

theorem makeDir_extends {p : Path} (h : d.makeDir p = .ok d') : Extends d d' := by
  unfold makeDir at h
  split at h
  · cases h
  · cases h
  · split at h
    · cases h
    · cases h
      exact extends_put_new ‹_› _

theorem makeDirs_go_extends :
    ∀ (fuel : Nat) (d : Disk) (p : Path), Extends d (makeDirs.go fuel d p).1
  | 0, _, _ => Extends.refl
  | fuel + 1, d, p => by
    rw [makeDirs.go]
    split
    · exact Extends.refl
    · split
      · exact makeDir_extends ‹_›
      · split
        · exact Extends.refl
        · split
          · exact Extends.refl
          · rename_i up _
            have ih := makeDirs_go_extends fuel d up
            split
            · rename_i heq
              rw [heq] at ih
              exact ih
            · rename_i heq
              rw [heq] at ih
              split
              · exact ih.trans (makeDir_extends ‹_›)
              · exact ih

/-- Making directories adds entries and changes none. -/
theorem makeDirs_extends (p : Path) : Extends d (d.makeDirs p).1 :=
  makeDirs_go_extends _ d p

/-! ## A path naming a file -/

theorem resolve_eq_file {p : Path} {parts : List String} {t : String} :
    d.resolve p = .ok (parts, .file t) ↔
      ∃ dir n, d.place p = .ok ⟨dir, some n, false⟩ ∧ parts = dir ++ [n] ∧
        d.node? parts = some (.file t) := by
  constructor
  · intro h
    unfold resolve at h
    split at h
    · cases h
    · cases h
    · rename_i dir n slash hpl
      split at h
      · rename_i t' hn
        cases slash
        · cases h
          exact ⟨dir, n, hpl, rfl, hn⟩
        · cases h
      · cases h
      · cases h
  · rintro ⟨dir, n, hpl, rfl, hn⟩
    simp [resolve, hpl, hn]

/-- A path that named a file names the entry's new file on a disk that keeps the rooted
directories. -/
theorem resolve_file_of_keeps (hs : d.node? [Path.scratch] = some .dir) (hk : Keeps d d')
    {p : Path} {parts : List String} {t u : String} (h : d.resolve p = .ok (parts, .file t))
    (hn : d'.node? parts = some (.file u)) : d'.resolve p = .ok (parts, .file u) := by
  obtain ⟨dir, n, hpl, rfl, _⟩ := resolve_eq_file.1 h
  exact resolve_eq_file.2 ⟨dir, n, place_keeps hs hk hpl, rfl, hn⟩

theorem resolve_extends (hs : d.node? [Path.scratch] = some .dir) (he : Extends d d') {p : Path}
    {parts : List String} {t : String} (h : d.resolve p = .ok (parts, .file t)) :
    d'.resolve p = .ok (parts, .file t) := by
  obtain ⟨_, _, _, _, hn⟩ := resolve_eq_file.1 h
  exact resolve_file_of_keeps hs he.keeps h (he.entry _ _ hn)

theorem parts_ne_nil {p : Path} {parts : List String} {t : String}
    (h : d.resolve p = .ok (parts, .file t)) : parts ≠ [] := by
  obtain ⟨dir, n, _, rfl, _⟩ := resolve_eq_file.1 h
  simp

/-- A path reads as a text exactly when it names a file holding it. -/
theorem read_eq_ok {p : Path} {t : String} :
    d.read p = .ok t ↔ ∃ parts, d.resolve p = .ok (parts, .file t) := by
  unfold read stat
  cases hr : d.resolve p with
  | error e => simp [Except.map]
  | ok entry =>
    obtain ⟨parts, n⟩ := entry
    cases n with
    | dir => simp [Except.map]
    | file u =>
      simp only [Except.map, Except.ok.injEq, Prod.mk.injEq, Node.file.injEq]
      exact ⟨fun h => ⟨parts, rfl, h⟩, fun ⟨_, _, h⟩ => h⟩

theorem exists?_of_resolve {p : Path} {entry : List String × Node} (h : d.resolve p = .ok entry) :
    d.exists? p = true := by
  simp [exists?, stat, h, Except.map, Except.toOption]

theorem openForWrite_of_resolve {p : Path} {parts : List String} {t : String}
    (h : d.resolve p = .ok (parts, .file t)) : d.openForWrite p = .ok (parts, some t) := by
  obtain ⟨dir, n, hpl, rfl, hn⟩ := resolve_eq_file.1 h
  simp [openForWrite, hpl, hn]

/-- Appending to a file a path names, on a device with no fault ahead, writes the whole text to
the file's entry. -/
theorem append_of_resolve (hc : d.cutAfter = none) {p : Path} {parts : List String} {t : String}
    (h : d.resolve p = .ok (parts, .file t)) (text : String) :
    d.append p text = (d.put parts (.file (t ++ text)), none) := by
  simp [append, openForWrite_of_resolve h, hc]

/-- An append to a file a path names that goes past the fault ahead writes the text up to the
cut, spends the fault and fails. -/
theorem append_cut_of_resolve {n : Nat} (hc : d.cutAfter = some n) {p : Path}
    {parts : List String} {t text : String} (h : d.resolve p = .ok (parts, .file t))
    (hn : n < text.length) :
    d.append p text = ({ d.put parts (.file (t ++ String.ofList (text.toList.take n))) with
      cutAfter := none }, some .inputOutput) := by
  simp [append, openForWrite_of_resolve h, hc, Nat.not_le.2 hn]

/-- A path names the text just written to its file. -/
theorem resolve_put_file (hs : d.node? [Path.scratch] = some .dir) {p : Path}
    {parts : List String} {t : String} (h : d.resolve p = .ok (parts, .file t)) (u : String) :
    (d.put parts (.file u)).resolve p = .ok (parts, .file u) := by
  obtain ⟨_, _, _, _, hn⟩ := resolve_eq_file.1 h
  have hnd : d.node? parts ≠ some .dir := by simp [hn]
  exact resolve_file_of_keeps hs (keeps_put hnd _) h (node?_put_self d (parts_ne_nil h) _)

/-- Opening for writing reaches a file, or nothing, written without a trailing slash. -/
theorem openForWrite_inv {p : Path} {parts : List String} {old : Option String}
    (h : d.openForWrite p = .ok (parts, old)) :
    ∃ dir n, d.place p = .ok ⟨dir, some n, false⟩ ∧ parts = dir ++ [n] ∧
      d.node? parts ≠ some .dir := by
  unfold openForWrite at h
  split at h
  · cases h
  · cases h
  · rename_i dir n slash hpl
    split at h
    · cases h
    · rename_i t hn
      cases slash
      · cases h
        exact ⟨dir, n, hpl, rfl, by simp [hn]⟩
      · cases h
    · rename_i hn
      cases slash
      · cases h
        exact ⟨dir, n, hpl, rfl, by simp [hn]⟩
      · cases h

/-- Creating a file writes a file entry where no directory stood, and the path then names it. -/
theorem create_inv (hs : d.node? [Path.scratch] = some .dir) {p : Path} {text : String}
    (h : d.create p text = .ok d') :
    ∃ parts, d.node? parts ≠ some .dir ∧ d' = d.put parts (.file text) ∧
      d'.resolve p = .ok (parts, .file text) := by
  unfold create at h
  split at h
  · rename_i parts _ hopen
    cases h
    obtain ⟨dir, n, hpl, rfl, hnd⟩ := openForWrite_inv hopen
    exact ⟨dir ++ [n], hnd, rfl, resolve_eq_file.2
      ⟨dir, n, place_keeps hs (keeps_put hnd _) hpl, rfl, node?_put_self d (by simp) _⟩⟩
  · cases h

/-- Renaming onto a file that a path names replaces that file's entry. -/
theorem rename_onto_file {src dst : Path} {from_ parts : List String} {n : Node} {t : String}
    (hsrc : d.resolve src = .ok (from_, n)) (hdst : d.resolve dst = .ok (parts, .file t)) :
    d.rename src dst = .ok ((d.remove from_).put parts n) := by
  obtain ⟨dir, m, hpl, rfl, hn⟩ := resolve_eq_file.1 hdst
  simp [rename, hsrc, hpl, hn]

/-- **Replacing a file through a fresh one.** Creating a file with `text` and renaming it over
the file a path names succeeds, keeps the rooted directories, and leaves the path naming a
file with `text`, also when the new file's entry is the old one's. -/
theorem rename_created (hs : d.node? [Path.scratch] = some .dir) {path tmp : Path}
    {parts : List String} {t text : String} {d₁ : Disk}
    (hr : d.resolve path = .ok (parts, .file t)) (hc : d.create tmp text = .ok d₁) :
    ∃ d₂, d₁.rename tmp path = .ok d₂ ∧ Keeps d d₂ ∧ d₂.resolve path = .ok (parts, .file text) ∧
      d₂.cutAfter = d.cutAfter := by
  obtain ⟨tparts, hnd, rfl, htmp⟩ := create_inv hs hc
  have hk₁ : Keeps d (d.put tparts (.file text)) := keeps_put hnd _
  have hfile₁ : ∃ u, (d.put tparts (.file text)).node? parts = some (.file u) := by
    by_cases heq : parts = tparts
    · subst heq
      exact ⟨text, node?_put_self d (parts_ne_nil hr) _⟩
    · obtain ⟨_, _, _, _, hn⟩ := resolve_eq_file.1 hr
      exact ⟨t, by rw [node?_put_of_ne heq, hn]⟩
  obtain ⟨u, hu⟩ := hfile₁
  have hr₁ := resolve_file_of_keeps hs hk₁ hr hu
  have htnd : (d.put tparts (.file text)).node? tparts ≠ some .dir := by
    simp [node?_put_self d (parts_ne_nil htmp)]
  have hpnd : ((d.put tparts (.file text)).remove tparts).node? parts ≠ some .dir :=
    node?_remove_ne_dir (parts_ne_nil hr) (by simp [hu])
  have hk : Keeps d (((d.put tparts (.file text)).remove tparts).put parts (.file text)) :=
    hk₁.trans ((keeps_remove htnd).trans (keeps_put hpnd _))
  exact ⟨_, rename_onto_file htmp hr₁, hk,
    resolve_file_of_keeps hs hk hr (node?_put_self _ (parts_ne_nil hr) _), rfl⟩

end Launcher.Disk
