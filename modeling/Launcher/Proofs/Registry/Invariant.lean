import Mathlib.Data.List.Nodup
import Mathlib.Data.String.Basic
import Launcher.Proofs.Json.Checked
import Launcher.Proofs.Query.Routing

/-!
# The registry's representation invariant

A registry changes only through its interface: installing a plugin, the four setters, applying
settings and the four lifecycle moves. Whatever sequence of such calls led to a registry from an
empty one, no two of its plugins share an id, and the rest of the engine leans on that: a lookup
by id finds *the* entry, and changing the entry of an id changes one entry. Beside it, refused
calls change nothing, lifecycle calls make exactly the moves of the lifecycle's table, and the
snapshot lists the enabled, ready entries by their position:

* `Registry.Call`, `Registry.after`, `Registry.Reachable` — the calls, the registry a call leaves
  (the same one when the call is refused), and the registries calls lead to;
* `Registry.nodup_call` — no call makes two plugins share an id: installing checks, the setters
  and moves keep every id in place, and applying settings only reorders;
* `Registry.Legal`, `Registry.canMove_iff_legal` — the lifecycle's moves between states;
* `Registry.moveTo_eq_ok` — a move that succeeds changes the state of the one entry of its id;
* `Registry.modify_eq_modifyFirst` — under distinct ids, changing every entry of an id is
  changing the first one, as a search that stops at its first match does;
* `Registry.mem_plugins_snapshot`, `Registry.orders_snapshot`, `Registry.keywords_sorted` — the
  snapshot's plugins by position, in order, and its keywords sorted without repeats;
* `Registry.Consistent`, `Registry.Reachable.consistent` — all of it, for every registry that
  calls lead to.
-/

namespace Launcher.Registry

open Json (bind_eq_ok)

/-- The ids of the installed plugins, in configuration order. -/
def ids (r : Registry) : List String := r.entries.map (·.metadata.id)

/-! ## Calls -/

/-- A call on the registry's interface that may change it. -/
inductive Call where
  | register (m : PluginMetadata)
  | setEnabled (id : String) (enabled : Bool)
  | setGlobal (id : String) (global : Bool)
  | setActionKeyword (id keyword : String)
  | setWeightBoost (id : String) (boost : Int)
  | applySettings (settings : List PluginSettings)
  | beginInitialize (id : String)
  | markReady (id : String)
  | markFailed (id error : String)
  | reset (id : String)

/-- Make a call. -/
def call (r : Registry) : Call → Except Error Registry
  | .register m => r.register m
  | .setEnabled id b => r.setEnabled id b
  | .setGlobal id b => r.setGlobal id b
  | .setActionKeyword id k => r.setActionKeyword id k
  | .setWeightBoost id b => r.setWeightBoost id b
  | .applySettings settings => .ok (r.applySettings settings)
  | .beginInitialize id => r.beginInitialize id
  | .markReady id => r.markReady id
  | .markFailed id e => r.markFailed id e
  | .reset id => r.reset id

/-- The registry a call leaves: the changed one, or the same one when the call is refused. -/
def after (r : Registry) (c : Call) : Registry :=
  match r.call c with
  | .ok r' => r'
  | .error _ => r

/-- The lifecycle move a call asks for: the plugin, and the state it should enter. -/
def Call.move? : Call → Option (String × PluginState)
  | .beginInitialize id => some (id, .initializing)
  | .markReady id => some (id, .ready)
  | .markFailed id e => some (id, .failed e)
  | .reset id => some (id, .unloaded)
  | _ => none

/-- The registries that calls lead to from an empty one. -/
inductive Reachable : Registry → Prop
  | empty : Reachable {}
  | call {r : Registry} (c : Call) : Reachable r → Reachable (r.after c)

/-! ## Ids -/

section Ids

variable {r r' : Registry} {id : String}

/-- Mapping entries through a step that keeps ids keeps the ids in place. -/
theorem ids_mapM {g : Entry → Except Error Entry}
    (hg : ∀ e e', g e = .ok e' → e'.metadata.id = e.metadata.id) :
    ∀ {l l' : List Entry}, l.mapM g = .ok l' → l'.map (·.metadata.id) = l.map (·.metadata.id)
  | [], l', h => by
    rw [List.mapM_nil] at h
    cases h
    rfl
  | e :: rest, l', h => by
    rw [List.mapM_cons] at h
    obtain ⟨e', he', h⟩ := bind_eq_ok h
    obtain ⟨rest', hrest, h⟩ := bind_eq_ok h
    cases h
    rw [List.map_cons, List.map_cons, hg e e' he', ids_mapM hg hrest]

/-- Changing the entry of an id with a step that keeps ids keeps the ids. -/
theorem ids_modify {f : Entry → Except Error Entry}
    (hf : ∀ e e', f e = .ok e' → e'.metadata.id = e.metadata.id) (h : r.modify id f = .ok r') :
    r'.ids = r.ids := by
  unfold modify at h
  split at h
  · obtain ⟨l, hl, h⟩ := bind_eq_ok h
    cases h
    refine ids_mapM (fun e e' he => ?_) hl
    split at he
    · exact hf e e' he
    · cases he
      rfl
  · cases h

/-- A setter keeps the ids, as long as it leaves the id alone. -/
theorem ids_updateMetadata {g : PluginMetadata → PluginMetadata} (hg : ∀ m, (g m).id = m.id)
    (h : r.updateMetadata id g = .ok r') : r'.ids = r.ids :=
  ids_modify (fun e _ he => (Except.ok.inj he) ▸ hg e.metadata) h

/-- A lifecycle move keeps the ids. -/
theorem ids_moveTo {s : PluginState} (h : r.moveTo id s = .ok r') : r'.ids = r.ids := by
  refine ids_modify (fun e e' he => ?_) h
  split at he
  · cases he
    rfl
  · cases he

/-- Settings leave an entry's id alone. -/
theorem id_configure (settings : List PluginSettings) (e : Entry) :
    (Entry.configure settings e).metadata.id = e.metadata.id := by
  induction settings generalizing e with
  | nil => rfl
  | cons s ss ih =>
    simp only [Entry.configure, List.foldl_cons] at ih ⊢
    rw [ih]
    split
    · simp only [overridden]
    · rfl

/-- Applying settings only reorders the ids: the sort is a permutation. -/
theorem ids_applySettings (settings : List PluginSettings) :
    (r.applySettings settings).ids.Perm r.ids := by
  simp only [applySettings, ids]
  refine ((List.mergeSort_perm _ _).map _).trans ?_
  rw [List.map_map]
  exact .of_eq (List.map_congr_left fun e _ => id_configure settings e)

/-- Installing a plugin adds its id at the end, and only when no plugin has it yet. -/
theorem ids_register {m : PluginMetadata} (h : r.register m = .ok r') :
    r'.ids = r.ids ++ [m.id] ∧ m.id ∉ r.ids := by
  unfold register at h
  split at h
  · cases h
  · rename_i hfresh
    cases h
    refine ⟨by simp [ids], fun hmem => hfresh ?_⟩
    obtain ⟨e, he, heq⟩ := List.mem_map.1 hmem
    exact List.any_eq_true.2 ⟨e, he, by simp [heq]⟩

/-- **No call makes two plugins share an id.** -/
theorem nodup_call {c : Call} (hn : r.ids.Nodup) (h : r.call c = .ok r') : r'.ids.Nodup := by
  cases c with
  | register m =>
    obtain ⟨heq, hfresh⟩ := ids_register h
    rw [heq, List.nodup_append]
    refine ⟨hn, List.nodup_singleton _, fun a ha b hb hab => hfresh ?_⟩
    rw [List.mem_singleton] at hb
    rwa [← hb, ← hab]
  | applySettings settings =>
    cases h
    exact (ids_applySettings settings).nodup_iff.2 hn
  | setEnabled _ _ =>
    rw [call, setEnabled] at h
    rwa [ids_updateMetadata (by intro; rfl) h]
  | setGlobal _ _ =>
    rw [call, setGlobal] at h
    rwa [ids_updateMetadata (by intro; rfl) h]
  | setActionKeyword _ _ =>
    rw [call, setActionKeyword] at h
    rwa [ids_updateMetadata (by intro; rfl) h]
  | setWeightBoost _ _ =>
    rw [call, setWeightBoost] at h
    rwa [ids_updateMetadata (by intro; rfl) h]
  | beginInitialize _ => rwa [ids_moveTo h]
  | markReady _ => rwa [ids_moveTo h]
  | markFailed _ _ => rwa [ids_moveTo h]
  | reset _ => rwa [ids_moveTo h]

/-- Every registry that calls lead to has distinct ids. -/
theorem Reachable.ids_nodup (h : r.Reachable) : r.ids.Nodup := by
  induction h with
  | empty => exact List.nodup_nil
  | call c _ ih =>
    unfold after
    split
    · next r' hc => exact nodup_call ih hc
    · exact ih

end Ids

/-! ## Lifecycle moves -/

/-- The moves of the lifecycle, state to state: start-up begins, succeeds or fails, a ready
plugin fails, and a ready or failed one is reset before a reload. -/
inductive Legal : PluginState → PluginState → Prop
  | begin : Legal .unloaded .initializing
  | ready : Legal .initializing .ready
  | failInitializing (error : String) : Legal .initializing (.failed error)
  | failReady (error : String) : Legal .ready (.failed error)
  | resetReady : Legal .ready .unloaded
  | resetFailed (error : String) : Legal (.failed error) .unloaded

/-- The table of stages allows exactly the lifecycle's moves. -/
theorem canMove_iff_legal {s t : PluginState} : s.stage.canMove t.stage = true ↔ Legal s t := by
  constructor
  · intro h
    cases s <;> cases t <;> simp only [PluginState.stage, Stage.canMove, Bool.false_eq_true] at h
    all_goals constructor
  · intro h
    cases h <;> rfl

section Moves

variable {r r' : Registry} {id : String}

/-- With no entry of an id, changing the entry of that id maps every entry to itself. -/
theorem mapM_of_absent {f : Entry → Except Error Entry} :
    ∀ {l : List Entry}, (∀ e ∈ l, e.metadata.id ≠ id) →
      l.mapM (fun e => if e.metadata.id == id then f e else pure e) = .ok l
  | [], _ => rfl
  | e :: rest, h => by
    have he : (e.metadata.id == id) = false := beq_eq_false_iff_ne.2 (h e (by simp))
    rw [List.mapM_cons, he, if_neg Bool.false_ne_true,
      mapM_of_absent fun e' he' => h e' (List.mem_cons_of_mem e he')]
    rfl

/-- Under distinct ids, changing the entry of an id that is there changes that one entry. -/
theorem mapM_at {f : Entry → Except Error Entry} :
    ∀ {l l' : List Entry}, (l.map (·.metadata.id)).Nodup → l.any (·.metadata.id == id) = true →
      l.mapM (fun e => if e.metadata.id == id then f e else pure e) = .ok l' →
      ∃ i e e', l[i]? = some e ∧ e.metadata.id = id ∧ f e = .ok e' ∧ l' = l.set i e'
  | [], _, _, hany, _ => by cases hany
  | e :: rest, l', hn, hany, h => by
    rw [List.map_cons, List.nodup_cons] at hn
    rw [List.mapM_cons] at h
    obtain ⟨e₁, he₁, h⟩ := bind_eq_ok h
    obtain ⟨rest', hrest, h⟩ := bind_eq_ok h
    cases h
    by_cases hid : e.metadata.id = id
    · rw [if_pos (beq_iff_eq.2 hid)] at he₁
      have hother : ∀ e' ∈ rest, e'.metadata.id ≠ id := fun e' he' heq =>
        hn.1 (hid ▸ heq ▸ List.mem_map_of_mem he')
      rw [mapM_of_absent hother] at hrest
      cases hrest
      exact ⟨0, e, e₁, rfl, hid, he₁, rfl⟩
    · rw [if_neg (by simpa using hid)] at he₁
      cases he₁
      have hany' : rest.any (·.metadata.id == id) = true := by
        simpa [hid] using hany
      obtain ⟨i, e', e'', hi, hid', hf, rfl⟩ := mapM_at hn.2 hany' hrest
      exact ⟨i + 1, e', e'', hi, hid', hf, rfl⟩

/-- Under distinct ids, a change of the entry of an id that succeeds changes that one entry. -/
theorem modify_eq_ok {f : Entry → Except Error Entry} (hn : r.ids.Nodup)
    (h : r.modify id f = .ok r') :
    ∃ i e e', r.entries[i]? = some e ∧ e.metadata.id = id ∧ f e = .ok e' ∧
      r'.entries = r.entries.set i e' := by
  unfold modify at h
  split at h
  · rename_i hany
    obtain ⟨l, hl, h⟩ := bind_eq_ok h
    cases h
    exact mapM_at hn hany hl
  · cases h

/-- Change the first entry of an id, or report that no entry has it: a search that stops at its
first match, where `modify` changes every entry of the id. -/
def modifyFirst (id : String) (f : Entry → Except Error Entry) :
    List Entry → Except Error (List Entry)
  | [] => .error (.unknownPlugin id)
  | e :: rest =>
    if e.metadata.id == id then (· :: rest) <$> f e
    else (e :: ·) <$> modifyFirst id f rest

theorem modifyFirst_of_absent {f : Entry → Except Error Entry} :
    ∀ {l : List Entry}, (∀ e ∈ l, e.metadata.id ≠ id) →
      modifyFirst id f l = .error (.unknownPlugin id)
  | [], _ => rfl
  | e :: rest, h => by
    have he : (e.metadata.id == id) = false := beq_eq_false_iff_ne.2 (h e (by simp))
    rw [modifyFirst, he, if_neg Bool.false_ne_true,
      modifyFirst_of_absent fun e' he' => h e' (List.mem_cons_of_mem e he')]
    rfl

theorem mapM_eq_modifyFirst {f : Entry → Except Error Entry} :
    ∀ {l : List Entry}, (l.map (·.metadata.id)).Nodup → l.any (·.metadata.id == id) = true →
      l.mapM (fun e => if e.metadata.id == id then f e else pure e) = modifyFirst id f l
  | [], _, hany => by cases hany
  | e :: rest, hn, hany => by
    rw [List.map_cons, List.nodup_cons] at hn
    rw [List.mapM_cons, modifyFirst]
    by_cases hid : e.metadata.id = id
    · have hother : ∀ e' ∈ rest, e'.metadata.id ≠ id := fun e' he' heq =>
        hn.1 (hid ▸ heq ▸ List.mem_map_of_mem he')
      rw [if_pos (beq_iff_eq.2 hid), if_pos (beq_iff_eq.2 hid), mapM_of_absent hother]
      cases f e <;> rfl
    · have hany' : rest.any (·.metadata.id == id) = true := by
        simpa [hid] using hany
      rw [if_neg (by simpa using hid), if_neg (by simpa using hid),
        ← mapM_eq_modifyFirst hn.2 hany']
      cases rest.mapM (fun e => if e.metadata.id == id then f e else pure e) <;> rfl

/-- **Under distinct ids, changing every entry of an id is changing its first entry**, so
`modify` and a search that stops at the first match answer alike, errors included. -/
theorem modify_eq_modifyFirst (hn : r.ids.Nodup) (f : Entry → Except Error Entry) :
    r.modify id f = (fun entries => { entries }) <$> modifyFirst id f r.entries := by
  unfold modify
  split
  · rename_i hany
    rw [← mapM_eq_modifyFirst hn hany]
    cases r.entries.mapM (fun e => if e.metadata.id == id then f e else pure e) <;> rfl
  · rename_i hany
    have habsent : ∀ e ∈ r.entries, e.metadata.id ≠ id := fun e he heq =>
      hany (List.any_eq_true.2 ⟨e, he, beq_iff_eq.2 heq⟩)
    rw [modifyFirst_of_absent habsent]
    rfl

/-- **A lifecycle move that succeeds** changes the state of the one entry of its id, by a move
of the lifecycle, and nothing else. -/
theorem moveTo_eq_ok {s : PluginState} (hn : r.ids.Nodup) (h : r.moveTo id s = .ok r') :
    ∃ i e, r.entries[i]? = some e ∧ e.metadata.id = id ∧ Legal e.state s ∧
      r'.entries = r.entries.set i { e with state := s } := by
  obtain ⟨i, e, e', hi, hid, hf, heq⟩ := modify_eq_ok hn h
  split at hf
  · rename_i hmove
    cases hf
    exact ⟨i, e, hi, hid, canMove_iff_legal.1 hmove, heq⟩
  · cases hf

/-- The lifecycle calls are moves. -/
theorem call_of_move? {c : Call} {s : PluginState} (h : c.move? = some (id, s)) :
    r.call c = r.moveTo id s := by
  cases c <;> simp only [Call.move?, Option.some.injEq, Prod.mk.injEq, reduceCtorEq] at h <;>
    obtain ⟨rfl, rfl⟩ := h <;> rfl

end Moves

/-! ## The snapshot -/

/-- **The snapshot's plugins** are the enabled, ready entries, each under its position among all
entries. -/
theorem mem_plugins_snapshot (r : Registry) (l : Listed) :
    l ∈ r.snapshot.plugins ↔ ∃ e, r.entries[l.order]? = some e ∧ e.metadata.disabled = false ∧
      e.state.isReady = true ∧ l.metadata = e.metadata := by
  rw [plugins_snapshot, List.mem_filterMap]
  constructor
  · rintro ⟨⟨e, i⟩, hmem, hl⟩
    rw [List.mem_zipIdx_iff_getElem?] at hmem
    cases hd : e.metadata.disabled <;> cases hr : e.state.isReady <;> simp [hd, hr] at hl
    subst hl
    exact ⟨e, hmem, hd, hr, rfl⟩
  · rintro ⟨e, he, hd, hr, hm⟩
    refine ⟨(e, l.order), List.mem_zipIdx_iff_getElem?.2 he, ?_⟩
    simp only [hd, hr, Bool.not_false, Bool.and_self, if_true]
    rw [← hm]

/-- The snapshot keeps configuration order: positions strictly increase. -/
theorem orders_snapshot (r : Registry) : (r.snapshot.plugins.map (·.order)).Pairwise (· < ·) := by
  rw [List.pairwise_map, plugins_snapshot]
  have hz : r.entries.zipIdx.Pairwise (fun a b => a.2 < b.2) := by
    rw [← List.pairwise_map (R := (· < ·)), List.zipIdx_map_snd]
    exact List.pairwise_lt_range' 1
  refine hz.filterMap _ fun ⟨e, i⟩ ⟨e', j⟩ hij l hl l' hl' => ?_
  have hpos : ∀ {e : Entry} {i : Nat} {l : Listed},
      (if !e.metadata.disabled && e.state.isReady then some (⟨e.metadata, i⟩ : Listed) else none) =
        some l → l.order = i := by
    intro e i l h
    split at h
    · cases h
      rfl
    · cases h
  rw [hpos hl, hpos hl']
  exact hij

/-- Inserting a keyword keeps the keywords sorted without repeats. -/
theorem pairwise_insertKeyword (k : String) :
    ∀ {ks : List String}, ks.Pairwise (· < ·) → (insertKeyword k ks).Pairwise (· < ·)
  | [], _ => List.pairwise_singleton _ _
  | x :: xs, h => by
    unfold insertKeyword
    split
    · rename_i hkx
      exact .cons (fun y hy => (List.mem_cons.1 hy).elim (· ▸ hkx)
        fun hy => lt_trans hkx (List.rel_of_pairwise_cons h hy)) h
    · split
      · exact h
      · rename_i hkx hne
        have hxk : x < k := lt_of_le_of_ne (not_lt.1 hkx) fun hxk => hne (by simp [hxk])
        rw [List.pairwise_cons] at h ⊢
        refine ⟨fun y hy => ?_, pairwise_insertKeyword k h.2⟩
        rcases (mem_insertKeyword k y xs).1 hy with rfl | hy
        · exact hxk
        · exact h.1 y hy

/-- Gathering keywords entry by entry keeps them sorted when each entry's step does. -/
theorem pairwise_foldl_of_step {f : List String → Entry → List String}
    (hf : ∀ ks e, ks.Pairwise (· < ·) → (f ks e).Pairwise (· < ·)) :
    ∀ (es : List Entry) {ks : List String}, ks.Pairwise (· < ·) → (es.foldl f ks).Pairwise (· < ·)
  | [], _, h => h
  | e :: es, _, h => pairwise_foldl_of_step hf es (hf _ e h)

/-- The snapshot's keywords are sorted, each once. -/
theorem keywords_sorted (r : Registry) : r.snapshot.keywords.Pairwise (· < ·) := by
  simp only [snapshot]
  refine pairwise_foldl_of_step (fun ks e h => ?_) _ List.Pairwise.nil
  split
  · exact h
  · split
    · exact pairwise_insertKeyword _ h
    · exact h

/-! ## The invariant -/

/-- What holds of every registry that calls lead to. -/
structure Consistent (r : Registry) : Prop where
  /-- no two plugins share an id -/
  ids_nodup : r.ids.Nodup
  /-- a refused call leaves the registry as it was -/
  refused : ∀ c e, r.call c = .error e → r.after c = r
  /-- a lifecycle call that succeeds makes a move of the lifecycle on the one entry of its id,
  and changes nothing else -/
  moves : ∀ c id s r', c.move? = some (id, s) → r.call c = .ok r' →
    ∃ i e, r.entries[i]? = some e ∧ e.metadata.id = id ∧ Legal e.state s ∧
      r'.entries = r.entries.set i { e with state := s }
  /-- the snapshot lists the enabled, ready entries, each under its position -/
  plugins : ∀ l, l ∈ r.snapshot.plugins ↔ ∃ e, r.entries[l.order]? = some e ∧
    e.metadata.disabled = false ∧ e.state.isReady = true ∧ l.metadata = e.metadata
  /-- in configuration order -/
  orders : (r.snapshot.plugins.map (·.order)).Pairwise (· < ·)
  /-- its keywords are the scoped keywords of the enabled plugins, whatever their state -/
  keywords : ∀ k, k ∈ r.snapshot.keywords ↔
    ∃ e ∈ r.entries, e.metadata.disabled = false ∧ e.metadata.scopedKeyword = some k
  /-- sorted, each once -/
  keywords_sorted : r.snapshot.keywords.Pairwise (· < ·)

/-- **The registry's representation invariant.** Every registry that calls lead to from an
empty one has distinct ids, refuses calls without a trace, moves plugins only along the
lifecycle, and shows its enabled, ready plugins in a snapshot by position and in order, with the
keywords of every enabled plugin sorted once each. -/
theorem Reachable.consistent {r : Registry} (h : r.Reachable) : r.Consistent where
  ids_nodup := h.ids_nodup
  refused c e he := by rw [after, he]
  moves c id s r' hc h' := moveTo_eq_ok h.ids_nodup (call_of_move? hc ▸ h')
  plugins := mem_plugins_snapshot r
  orders := orders_snapshot r
  keywords := mem_keywords_snapshot r
  keywords_sorted := keywords_sorted r

/-- A plugin installed, started and made ready. -/
theorem files_ready_consistent :
    let r := ((({} : Registry).after (.register (.new "files"))).after
      (.beginInitialize "files")).after (.markReady "files")
    r.Reachable ∧ r.Consistent :=
  have h := Reachable.call _ (Reachable.call _ (Reachable.call _ Reachable.empty))
  ⟨h, Reachable.consistent h⟩

end Launcher.Registry
