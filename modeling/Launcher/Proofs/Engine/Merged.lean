import Launcher.Proofs.Engine.Jobs
import Launcher.Proofs.Engine.Session

/-!
# Every list delivered is a complete merge

A list reaches the caller, the update channel or the delivered slot only at the end of a dispatch,
and only while its generation is current. `World.Collecting.merges` says what the dispatch holds
then: one contribution from every target of its snapshot, merged in the snapshot's order. What is
left is that every dispatch is on track whenever it is polled, whatever the engine did in between:

* `World.OnTrack` — a dispatch record before it begins (nothing arrived, its generation issued)
  or under way (`World.Collecting`);
* `World.Complete` — the engine's invariant: distinct task and registry ids, ended calls holding
  their plugins' answers, every dispatch on track, and the caller's dispatch reading the caller's
  text;
* `World.Adds` — what a step adds to the lists: each list delivered or announced anew is a complete
  merge (`World.Merges`) over a given snapshot, with a given history's bonuses;
* `World.complete_pollExecute` — one poll of a dispatch keeps the invariant and brings its record
  back begun (`World.Resumed`), with the snapshot it ranks with (`World.snapshotOf`); the lists it
  adds, and the outcome it gives, are complete merges over that snapshot;
* `World.complete_runTask`, `World.complete_pollRun` — a task's run and a poll of the caller's
  query resume a dispatch in the same way (`World.Resumes`); `World.complete_command` — every
  command keeps the invariant.
-/

namespace Launcher.Engine

namespace World

variable {w w' : World} {s : Option Owner} {o : Owner} {e : Execute}

/-! ## Dispatches on track -/

/-- A dispatch record on track for its owner: before it begins, nothing arrived and its generation
was issued; once begun, it keeps the invariant of a dispatch under way. -/
def OnTrack (w : World) (o : Owner) (e : Execute) : Prop :=
  (e.started = false → e.arrived = [] ∧ e.generation ≤ w.generations.current) ∧
    (e.started = true → Collecting w o e)

theorem OnTrack.of_aside_live (h : w.OnTrack o e) (ha : Aside s w w')
    (hl : w'.liveOf o = w.liveOf o) : w'.OnTrack o e :=
  ⟨fun hs => ⟨(h.1 hs).1, Nat.le_trans (h.1 hs).2 ha.current⟩,
    fun hs => (h.2 hs).of_aside_live ha hl⟩

theorem OnTrack.of_aside (h : w.OnTrack o e) (ha : Aside s w w') (ho : s ≠ some o) :
    w'.OnTrack o e :=
  h.of_aside_live ha (ha.live o ho)

/-- A dispatch's invariant reads neither the delivered list nor the outbox. -/
theorem Collecting.withLists (h : Collecting w o e) (d : Option Delivered)
    (ob : List EngineUpdate) : Collecting { w with delivered := d, outbox := ob } o e :=
  ⟨h.query, h.distinct, h.issued, h.length, h.aimed, h.pooled, h.waits, h.arrived⟩

theorem OnTrack.withLists (h : w.OnTrack o e) (d : Option Delivered) (ob : List EngineUpdate) :
    ({ w with delivered := d, outbox := ob } : World).OnTrack o e :=
  ⟨h.1, fun hs => (h.2 hs).withLists d ob⟩

section Merges

variable {snap : Snapshot} {boost : ResultIdentity → Int} {q : Query} {r : Ranking}
  {ws : List PluginWarning}

/-- A complete merge reads of the engine only its options, its plugins and its list length. -/
theorem Merges.congr (h : w.Merges snap boost q r ws) (ho : w'.options = w.options)
    (hp : w'.plugins = w.plugins) (hmx : w'.maxResults = w.maxResults) :
    w'.Merges snap boost q r ws := by
  obtain ⟨cs, hq, hn, hfor, hr, hws⟩ := h
  refine ⟨cs, hq, by rwa [ho], ?_, by rwa [hmx], hws⟩
  rw [ho]
  refine hfor.imp fun {t a} hc => ?_
  rw [Contributes, plugin_of_plugins hp, timedOut_of_options ho]
  exact hc

theorem Merges.of_aside (h : w.Merges snap boost q r ws) (ha : Aside s w w') :
    w'.Merges snap boost q r ws :=
  h.congr ha.options ha.plugins ha.maxResults

theorem Merges.of_notify (h : w.Merges snap boost q r ws) (u : EngineUpdate) :
    (w.notify u).Merges snap boost q r ws := by
  unfold notify
  split
  · exact h.congr rfl rfl rfl
  · exact h

theorem Merges.of_deliver (h : w.Merges snap boost q r ws) (d : Delivered) (u : EngineUpdate) :
    ({ w with delivered := some d }.notify u).Merges snap boost q r ws := by
  have h' : ({ w with delivered := some d } : World).Merges snap boost q r ws := h.congr rfl rfl rfl
  exact h'.of_notify u

end Merges

/-- A step aside every dispatch leaves a caller's job that held no dispatch holding none. -/
theorem search?_of_aside_idle (ha : Aside none w w') (hm : w.main.search? = none) :
    w'.main.search? = none := by
  cases hs : w'.main.search? with
  | none => rfl
  | some e =>
    have hd₀ := ha.held .main e (Option.some_ne_none _).symm hs
    rw [show w.dispatchOf .main = w.main.search? from rfl, hm] at hd₀
    cases hd₀

/-! ## The invariant -/

/-- **An engine whose dispatches, but that of `s`, are on track.** Its task ids and registry ids
are distinct, its ended calls hold their plugins' answers, and the caller's query dispatch reads
the caller's text. -/
structure Complete (s : Option Owner) (w : World) : Prop where
  ids : TaskIds w
  registry : w.registry.ids.Nodup
  answers : Answers w
  onTrack : ∀ o e, s ≠ some o → w.dispatchOf o = some e → w.OnTrack o e
  raw : ∀ raw e, w.main = .run raw (some e) → e.raw = raw

namespace Complete

theorem mono (h : Complete none w) (s : Option Owner) : Complete s w :=
  { h with onTrack := fun o e _ he => h.onTrack o e (Option.some_ne_none o).symm he }

/-- A step aside every dispatch but that of `s` keeps the engine complete, when the caller's
query dispatch after it still reads the caller's text. -/
theorem of_aside_raw (h : Complete s w) (ha : Aside s w w')
    (hraw : ∀ raw e, w'.main = .run raw (some e) → e.raw = raw) : Complete s w' where
  ids := ha.ids h.ids
  registry := ha.registry h.registry
  answers := ha.answers h.answers
  onTrack o e ho he := (h.onTrack o e ho (ha.held o e ho he)).of_aside ha ho
  raw := hraw

theorem of_aside (h : Complete s w) (ha : Aside s w w') (hm : w'.main = w.main) : Complete s w' :=
  h.of_aside_raw ha fun raw e he => h.raw raw e (hm ▸ he)

/-- A step aside every dispatch, from a caller's job that holds none, keeps the engine complete. -/
theorem of_aside_idle (h : Complete s w) (ha : Aside none w w') (hm : w.main.search? = none) :
    Complete s w' :=
  h.of_aside_raw (ha.mono s) fun raw e he => by
    have hs := search?_of_aside_idle ha hm
    rw [he] at hs
    cases hs

/-- Once the dispatch of `o` is on track, or gone, every dispatch is. -/
theorem close (h : Complete (some o) w) (ho : ∀ e, w.dispatchOf o = some e → w.OnTrack o e) :
    Complete none w :=
  { h with
    onTrack := fun o' e _ he => by
      by_cases hoo : o' = o
      · subst hoo
        exact ho e he
      · exact h.onTrack o' e (fun h' => hoo (Option.some.inj h').symm) he }

/-- The invariant reads neither the delivered list nor the outbox. -/
theorem withLists (h : Complete s w) (d : Option Delivered) (ob : List EngineUpdate) :
    Complete s { w with delivered := d, outbox := ob } where
  ids := ⟨h.ids.nodup, h.ids.lt⟩
  registry := h.registry
  answers := h.answers
  onTrack o e ho he := (h.onTrack o e ho he).withLists d ob
  raw := h.raw

theorem deliver (h : Complete s w) (d : Delivered) (u : EngineUpdate) :
    Complete s ({ w with delivered := some d }.notify u) := by
  unfold notify
  split
  · exact h.withLists _ _
  · exact h.withLists (some d) w.outbox

end Complete

/-! ## The lists a step adds -/

/-- What a step adds to the lists: a list delivered after it that was not before, and each list
announced after it that was not before, is a complete merge over the snapshot `snap` gives its
generation, with the bonuses the history `hs` gives its query text. -/
structure Adds (w w' : World) (snap : Nat → Snapshot) (hs : HistoryStore) : Prop where
  delivered : ∀ d, w'.delivered = some d → w.delivered ≠ some d →
    ∃ r ws, w'.Merges (snap d.generation) (hs.boost d.query.rawText) d.query r ws ∧ d.full = r.full
  announced : ∀ g q es ws, EngineUpdate.results g q es ws ∈ w'.outbox →
    EngineUpdate.results g q es ws ∉ w.outbox →
      ∃ r, w'.Merges (snap g) (hs.boost q.rawText) q r ws ∧ es = r.entries

namespace Adds

variable {w'' : World} {snap : Nat → Snapshot} {hs : HistoryStore}

/-- A step aside every dispatch adds no list. -/
theorem of_aside (ha : Aside s w w') : Adds w w' snap hs where
  delivered d hd hne := by
    rw [ha.delivered] at hd
    exact absurd hd hne
  announced g q es ws hu hn := by
    rcases ha.sent _ hu with hu' | hr
    · exact absurd hu' hn
    · cases hr

theorem trans_aside (h : Adds w w' snap hs) (ha : Aside s w' w'') : Adds w w'' snap hs where
  delivered d hd hne := by
    rw [ha.delivered] at hd
    obtain ⟨r, ws, hm, hf⟩ := h.delivered d hd hne
    exact ⟨r, ws, hm.of_aside ha, hf⟩
  announced g q es ws hu hn := by
    rcases ha.sent _ hu with hu' | hr
    · obtain ⟨r, hm, hes⟩ := h.announced g q es ws hu' hn
      exact ⟨r, hm.of_aside ha, hes⟩
    · cases hr

theorem aside_trans (ha : Aside s w w') (h : Adds w' w'' snap hs) : Adds w w'' snap hs where
  delivered d hd hne := h.delivered d hd (by rwa [ha.delivered])
  announced g q es ws hu hn := h.announced g q es ws hu fun hu' => by
    rcases ha.sent _ hu' with hu'' | hr
    · exact hn hu''
    · cases hr

/-- Delivering a complete merge, and announcing its cut, adds just that list. -/
theorem deliver {g : Nat} {q : Query} {r : Ranking} {ws : List PluginWarning}
    (hm : w.Merges (snap g) (hs.boost q.rawText) q r ws) :
    Adds w ({ w with delivered := some ⟨g, q, r.full⟩ }.notify (.results g q r.entries ws)) snap hs where
  delivered d hd _ := by
    have hv := visible_notify { w with delivered := some ⟨g, q, r.full⟩ } (.results g q r.entries ws)
    have hdel : ({ w with delivered := some ⟨g, q, r.full⟩ }.notify
        (.results g q r.entries ws)).delivered = some ⟨g, q, r.full⟩ := congrArg Visible.delivered hv
    rw [hdel, Option.some.injEq] at hd
    subst hd
    exact ⟨r, ws, hm.of_deliver _ _, rfl⟩
  announced g' q' es ws' hu hn := by
    have hv := visible_notify { w with delivered := some ⟨g, q, r.full⟩ } (.results g q r.entries ws)
    have hout : ({ w with delivered := some ⟨g, q, r.full⟩ }.notify
        (.results g q r.entries ws)).outbox =
        if w.listening then w.outbox ++ [.results g q r.entries ws] else w.outbox :=
      congrArg Visible.outbox hv
    rw [hout] at hu
    split at hu
    · rcases List.mem_append.1 hu with hu' | hu'
      · exact absurd hu' hn
      · cases List.mem_singleton.1 hu'
        exact ⟨r, hm.of_deliver _ _, rfl⟩
    · exact absurd hu hn

end Adds

/-! ## One poll of a dispatch -/

/-- The snapshot a dispatch record ranks with: the one it took when it began, or, before it
begins, the registry's, which it takes then. -/
def snapshotOf (w : World) (e : Execute) : Snapshot :=
  if e.started then e.snapshot else w.registry.snapshot

/-- **The end of a dispatch** whose children all finished keeps the engine complete but for the
dispatch itself; the list it adds, and the outcome it gives, are complete merges over the
dispatch's snapshot, with the history's bonuses for its text. -/
theorem complete_finish (h : Complete (some o) w) (hc : Collecting w o e)
    (hall : ∀ c ∈ e.children, c.target? = none) :
    Complete (some o) (w.finish o e).1 ∧
      (∀ snap : Nat → Snapshot, snap e.generation = e.snapshot →
        Adds w (w.finish o e).1 snap w.history) ∧
      ∀ out, (w.finish o e).2 = some out → out.generation = e.generation ∧ out.query = e.query ∧
        ∃ r, (w.finish o e).1.Merges e.snapshot (w.history.boost e.query.rawText) out.query r
          out.warnings ∧ out.entries = r.entries := by
  have ha := aside_dropPool w o
  have h₁ := h.of_aside ha rfl
  unfold finish
  dsimp only
  split
  · exact ⟨h₁, fun _ _ => .of_aside ha, fun out hout => by cases hout⟩
  · next hcur =>
    have hcur' : w.generations.isCurrent e.generation = true := by simpa using hcur
    have hm := (hc.merges hall hcur' (w.history.boost e.query.rawText)).of_aside ha
    refine ⟨h₁.deliver _ _, fun snap hsnap => Adds.aside_trans ha (Adds.deliver (by rw [hsnap]; exact hm)),
      fun out hout => ?_⟩
    cases hout
    exact ⟨rfl, rfl, _, hm.of_deliver _ _, rfl⟩

/-- The end of a dispatch leaves every dispatch record where it was. -/
theorem dispatchOf_finish (w : World) (o o' : Owner) (e : Execute) :
    (w.finish o e).1.dispatchOf o' = w.dispatchOf o' := by
  unfold finish notify
  dsimp only
  split
  · rfl
  · split <;> rfl

/-- One poll of the dispatch `e` of `o`, from `w` to `w'`, giving back the record `e'`: the record
comes back begun, of its generation and text, with the snapshot `e` ranks with; the dispatch of
every other owner after it was there before; and the lists it adds are complete merges over that
snapshot, with the history's bonuses. -/
structure Resumed (w : World) (o : Owner) (e : Execute) (w' : World) (e' : Execute) : Prop where
  started : e'.started = true
  generation : e'.generation = e.generation
  raw : e'.raw = e.raw
  snapshot : e'.snapshot = w.snapshotOf e
  held : ∀ o' x, o' ≠ o → w'.dispatchOf o' = some x → w.dispatchOf o' = some x
  adds : ∀ snap : Nat → Snapshot, snap e.generation = w.snapshotOf e → Adds w w' snap w.history

/-- **One poll of a dispatch** on track keeps the engine complete but for the dispatch, whose
record comes back begun, with the snapshot it ranks with. If it is still pending, the poll was
aside every other dispatch and it is on track again; if it ended with an outcome, that outcome is
a complete merge over that snapshot, for a query read from the dispatch's text. -/
theorem complete_pollExecute (h : Complete (some o) w) (he : w.OnTrack o e) :
    Complete (some o) (w.pollExecute o e).1 ∧ (w.pollExecute o e).1.main = w.main ∧
      Resumed w o e (w.pollExecute o e).1 (w.pollExecute o e).2.1 ∧
      ((w.pollExecute o e).2.2 = none → Aside (some o) w (w.pollExecute o e).1 ∧
        (w.pollExecute o e).1.OnTrack o (w.pollExecute o e).2.1) ∧
      ∀ out, (w.pollExecute o e).2.2 = some (some out) → out.query.rawText = e.raw ∧
        out.generation = e.generation ∧ ∃ r, (w.pollExecute o e).1.Merges (w.snapshotOf e)
          (w.history.boost e.raw) out.query r out.warnings ∧ out.entries = r.entries := by
  obtain ⟨w₀, e₀, ha₀, hc₀, hraw₀, hst₀, hm₀, hsnap₀, hg₀, hh₀, hs⟩ : ∃ w₀ e₀,
      Aside (some o) w w₀ ∧ Collecting w₀ o e₀ ∧ e₀.raw = e.raw ∧ e₀.started = true ∧
      w₀.main = w.main ∧ e₀.snapshot = w.snapshotOf e ∧ e₀.generation = e.generation ∧
      w₀.history = w.history ∧ (if e.started then (w, e) else w.startExecute o e) = (w₀, e₀) := by
    cases hst : e.started
    · obtain ⟨harr, hgen⟩ := he.1 hst
      obtain ⟨ha, hc⟩ := collecting_startExecute h.registry hgen harr
      exact ⟨_, _, ha, hc, rfl, rfl, rfl, by simp [snapshotOf, hst, startExecute], rfl, rfl, rfl⟩
    · exact ⟨w, e, .refl w, he.2 hst, rfl, hst, rfl, by simp [snapshotOf, hst], rfl, rfl, rfl⟩
  obtain ⟨ha₁, hc₁, ⟨cs, arr, he₁⟩, hdone⟩ := collecting_collect (e₀.children.length + 1) e₀ w₀
    hc₀ (ha₀.ids h.ids) (ha₀.answers h.answers) rfl
  have hv₁ := visible_collect o (e₀.children.length + 1) e₀ w₀
  generalize hr : w₀.collect o (e₀.children.length + 1) e₀ = r at ha₁ hc₁ he₁ hdone hv₁
  obtain ⟨w₁, e₁, done⟩ := r
  dsimp only at ha₁ hc₁ he₁ hdone hv₁
  have hm₁ : w₁.main = w.main := (congrArg Visible.main hv₁).trans hm₀
  have hh₁ : w₁.history = w.history := (congrArg Visible.history hv₁).trans hh₀
  have ha : Aside (some o) w w₁ := ha₀.trans ha₁
  have h₁ : Complete (some o) w₁ := h.of_aside ha hm₁
  have hres : ∀ w' : World, (∀ o' x, o' ≠ o → w'.dispatchOf o' = some x → w₁.dispatchOf o' = some x) →
      (∀ snap : Nat → Snapshot, snap e.generation = w.snapshotOf e → Adds w w' snap w.history) →
      Resumed w o e w' e₁ := fun w' hheld hadds =>
    ⟨by rw [he₁]; exact hst₀, by rw [he₁]; exact hg₀, by rw [he₁]; exact hraw₀,
      by rw [he₁]; exact hsnap₀,
      fun o' x ho hx => ha.held o' x (fun h => ho (Option.some.inj h).symm) (hheld o' x ho hx), hadds⟩
  unfold pollExecute
  rw [hs]
  dsimp only
  rw [hr]
  dsimp only
  cases done
  · simp only [Bool.false_eq_true, ↓reduceIte]
    refine ⟨h₁, hm₁, hres w₁ (fun _ _ _ hx => hx) fun _ _ => .of_aside ha,
      fun _ => ⟨ha, fun hs => ?_, fun _ => hc₁⟩, fun out hout => by cases hout⟩
    rw [(hres w₁ (fun _ _ _ hx => hx) fun _ _ => .of_aside ha).started] at hs
    cases hs
  · simp only [↓reduceIte]
    obtain ⟨hf, hadds, hout⟩ := complete_finish h₁ hc₁ (hdone rfl)
    have hsnap₁ : e₁.snapshot = w.snapshotOf e := by rw [he₁]; exact hsnap₀
    have hq₁ : e₁.query.rawText = e.raw := by rw [hc₁.query, rawText_parse, he₁, hraw₀]
    refine ⟨hf, (finish_main o e₁).trans hm₁,
      hres _ (fun o' x _ hx => by rwa [dispatchOf_finish] at hx) fun snap hsnap => ?_,
      (fun hn => by cases hn), fun out hout' => ?_⟩
    · have hg₁ : e₁.generation = e.generation := by rw [he₁]; exact hg₀
      exact hh₁ ▸ Adds.aside_trans ha (hadds snap (by rw [hg₁, hsnap, hsnap₁]))
    · obtain ⟨hg, hq, r, hmr, hes⟩ := hout out (Option.some.inj hout')
      refine ⟨by rw [hq, hq₁], by rw [hg, he₁, hg₀], r, ?_, hes⟩
      rw [← hsnap₁, ← hh₁, ← hq₁]
      exact hmr

/-! ## Tasks -/

theorem taskFrame_pollExecute (w : World) (o : Owner) (e : Execute) :
    TaskFrame w (w.pollExecute o e).1 := by
  obtain ⟨w₁, e₁, done, -, ht, -, hpoll⟩ := pollExecute_cases w o e
  rw [hpoll]
  cases done
  · exact ht
  · exact ht.trans (taskFrame_finish w₁ o e₁)

/-- With distinct ids, a dispatch listed under a task id is found under that id. -/
theorem task?_of_mem_searches (h : TaskIds w) {id g : Nat} (hmem : (id, g) ∈ w.searches) :
    ∃ x, w.task? id = some x ∧ x.body.generation? = some g := by
  obtain ⟨x, hx, he⟩ := List.mem_filterMap.1 hmem
  obtain ⟨g₀, -, hpair⟩ := Option.map_eq_some_iff.1 he
  have hid : x.id = id := (Prod.mk.inj hpair).1
  obtain ⟨y, hy⟩ : ∃ y, w.task? id = some y :=
    Option.isSome_iff_exists.1 (List.find?_isSome.2 ⟨x, hx, by simp [hid]⟩)
  obtain ⟨hy₁, hy₂⟩ := mem_of_task? hy
  exact ⟨y, hy, h.generation?_of_mem hmem y hy₁ hy₂⟩

theorem dispatchOf_removeTask (w : World) (id : Nat) :
    (w.removeTask id).dispatchOf (.task id) = none := by
  rw [dispatchOf, task?_removeTask, if_pos rfl]
  rfl

/-- A step that polls the dispatch `e` of `o`: every other owner's dispatch after it was there
before it; `o`'s, if it still holds one, is `e` begun, with the snapshot `e` ranks with; and the
lists it adds are complete merges over that snapshot, with the history's bonuses. -/
structure Resumes (w w' : World) (o : Owner) (e : Execute) : Prop where
  held : ∀ o' x, o' ≠ o → w'.dispatchOf o' = some x → w.dispatchOf o' = some x
  record : ∀ x, w'.dispatchOf o = some x →
    x.started = true ∧ x.generation = e.generation ∧ x.snapshot = w.snapshotOf e
  adds : ∀ snap : Nat → Snapshot, snap e.generation = w.snapshotOf e → Adds w w' snap w.history

/-- A poll that resumes a dispatch, between steps aside every dispatch that keep the registry and
the history before it, and aside every dispatch but the polled one's after it. -/
theorem Resumed.resumes {w₁ w₂ w' : World} {e₂ : Execute} (ha₁ : Aside none w w₁)
    (hreg : w₁.registry = w.registry) (hh : w₁.history = w.history) (hr : Resumed w₁ o e w₂ e₂)
    (ha₂ : Aside (some o) w₂ w') (hd : ∀ x, w'.dispatchOf o = some x → x = e₂) :
    Resumes w w' o e := by
  have hsnap : w₁.snapshotOf e = w.snapshotOf e := by simp only [snapshotOf, hreg]
  refine ⟨fun o' x ho hx => ha₁.held o' x (Option.some_ne_none o').symm
    (hr.held o' x ho (ha₂.held o' x (fun h => ho (Option.some.inj h).symm) hx)),
    fun x hx => ?_, fun snap hs => ?_⟩
  · cases hd x hx
    exact ⟨hr.started, hr.generation, hr.snapshot.trans hsnap⟩
  · exact hh ▸ (Adds.aside_trans ha₁ ((hr.adds snap (hs.trans hsnap.symm)).trans_aside ha₂))

/-- **A task's run keeps the engine complete**: a search is polled with every other dispatch left
alone, then goes back to its task or goes with it; a plugin call's poll is aside every dispatch,
and what it ends with is its plugin's answer. So a search's run resumes its dispatch, and any
other run is aside every dispatch. -/
theorem complete_runTask (h : Complete none w) (id : Nat) :
    Complete none (w.runTask id) ∧
      ((∃ e, w.dispatchOf (.task id) = some e ∧ Resumes w (w.runTask id) (.task id) e) ∨
        Aside none w (w.runTask id)) := by
  unfold runTask
  split
  · exact ⟨h, .inr (.refl w)⟩
  · next t ht =>
    dsimp only
    have hab : Aside none w { w with budget := pollBudget } := .of_view rfl rfl (.of_eq rfl rfl)
    have htb : ({ w with budget := pollBudget } : World).task? id = some t := ht
    have ha₁ := hab.trans (aside_updateTask_of_task? (hab.ids h.ids) htb
      (fun t => { t with state := .running false }) ⟨rfl, rfl, rfl⟩ fun h => h)
    have ht₁ : (({ w with budget := pollBudget } : World).updateTask id
        fun t => { t with state := .running false }).task? id =
        some { t with state := .running false } :=
      task?_updateTask_self htb _ fun _ => rfl
    have hreg₁ : (({ w with budget := pollBudget } : World).updateTask id
        fun t => { t with state := .running false }).registry = w.registry := rfl
    have hh₁ : (({ w with budget := pollBudget } : World).updateTask id
        fun t => { t with state := .running false }).history = w.history := rfl
    have hm₁ : (({ w with budget := pollBudget } : World).updateTask id
        fun t => { t with state := .running false }).main = w.main := rfl
    have h₁ := h.of_aside ha₁ rfl
    generalize (({ w with budget := pollBudget } : World).updateTask id
      fun t => { t with state := .running false }) = w₁ at ha₁ ht₁ hreg₁ hh₁ hm₁ h₁ ⊢
    split
    · next e hb =>
      have hd : w₁.dispatchOf (.task id) = some e := by
        rw [dispatchOf, ht₁, Option.bind_some]
        show t.body.search? = some e
        rw [hb]
        rfl
      have hon := h₁.onTrack (.task id) e (Option.some_ne_none _).symm hd
      have hmem : (id, e.generation) ∈ w₁.searches :=
        mem_searches_of_task? ht₁ (show t.body.generation? = _ by rw [hb]; rfl)
      obtain ⟨hc, -, hres, hpend, -⟩ := complete_pollExecute (h₁.mono _) hon
      have htf := taskFrame_pollExecute w₁ (.task id) e
      have hd₀ := ha₁.held (.task id) e (Option.some_ne_none _).symm hd
      rcases hp : w₁.pollExecute (.task id) e with ⟨w₂, e₂, _ | r⟩
      all_goals
        rw [hp] at hc hres hpend htf
        dsimp only at hc hres hpend htf ⊢
      · obtain ⟨-, hon₂⟩ := hpend rfl
        have hmem₂ : (id, e.generation) ∈ w₂.searches := (htf.keep h₁.ids).2 ▸ hmem
        obtain ⟨x₀, hx₀, hg₀⟩ := task?_of_mem_searches hc.ids hmem₂
        have hs₀ : x₀.body.search?.isSome := by
          cases hb₀ : x₀.body with
          | search _ => rfl
          | call _ => rw [hb₀] at hg₀; cases hg₀
        have ha₃ := aside_updateTask_search hc.ids hx₀ hs₀ e₂
        have hd₃ : (w₂.updateTask id fun x => { x with body := .search e₂ }).dispatchOf (.task id) =
            some e₂ := by
          rw [dispatchOf, task?_updateTask_self hx₀ (fun x => { x with body := .search e₂ })
            fun _ => rfl, Option.bind_some]
          rfl
        have h₃ := (hc.of_aside ha₃ rfl).close fun e' he' => by
          rw [hd₃] at he'
          cases he'
          exact hon₂.of_aside_live ha₃ rfl
        have ha₄ := aside_afterPoll (w := w₂.updateTask id fun x => { x with body := .search e₂ }) id
        refine ⟨h₃.of_aside ha₄ (congrArg Visible.main (visible_afterPoll _ id)),
          .inl ⟨e, hd₀, hres.resumes ha₁ hreg₁ hh₁ (ha₃.trans (ha₄.mono _)) fun x hx => ?_⟩⟩
        have hx₃ := ha₄.held (.task id) x (Option.some_ne_none _).symm hx
        rw [hd₃] at hx₃
        exact (Option.some.inj hx₃).symm
      · have ha₃ := aside_removeTask (w := w₂) id
        refine ⟨(hc.of_aside (ha₃.mono _) rfl).close fun e' he' => ?_,
          .inl ⟨e, hd₀, hres.resumes ha₁ hreg₁ hh₁ (ha₃.mono _) fun x hx => ?_⟩⟩
        · rw [dispatchOf_removeTask] at he'
          cases he'
        · rw [dispatchOf_removeTask] at hx
          cases hx
    · next c hb =>
      have hans₁ : w₁.Answered (.call c) := by
        have := h₁.answers _ (mem_of_task? ht₁).1
        rwa [show ({ t with state := .running false } : Task).body = .call c from hb] at this
      obtain ⟨hpl, hq, -, hans⟩ := answered_pollCall id c hans₁
      have ha₂ := aside_pollCall w₁ id c
      have hv₂ := dispatchView_pollCall w₁ id c
      have hm₂ := congrArg Visible.main (visible_pollCall w₁ id c)
      rcases hp : w₁.pollCall id c with ⟨w₂, c₂, _ | _⟩
      all_goals
        rw [hp] at hpl hq hans ha₂ hv₂ hm₂
        dsimp only at hpl hq hans ha₂ hv₂ hm₂ ⊢
      all_goals
        have ha₁₂ := ha₁.trans ha₂
        have h₂ : Complete none w₂ := h.of_aside ha₁₂ (hm₂.trans hm₁)
        obtain ⟨x₀, hx₀, hb₀⟩ : ∃ x₀, w₂.task? id = some x₀ ∧ x₀.body = .call c := by
          simp only [dispatchView, Prod.mk.injEq] at hv₂
          obtain ⟨x₀, hx₀, hxb⟩ := task?_of_bodies hv₂.2.1 ht₁
          exact ⟨x₀, hx₀, hxb.trans hb⟩
        have hupd : ∀ f : Task → Task, (∀ x, (f x).id = x.id ∧ (f x).body = .call c₂) →
            Aside none w (w₂.updateTask id f) := fun f hf =>
          ha₁₂.trans (aside_updateTask_of_task? h₂.ids hx₀ f
            ⟨(hf x₀).1, by rw [(hf x₀).2, hb₀]; simp [TaskBody.call?, hpl, hq],
              by rw [(hf x₀).2, hb₀]; rfl⟩
            fun _ => (hf x₀).2 ▸ hans.of_plugins ha₂.plugins)
      · have ha₃ := (hupd (fun t => { t with body := .call c₂ }) fun _ => ⟨rfl, rfl⟩).trans
          (aside_afterPoll _ id)
        exact ⟨h.of_aside ha₃ ((congrArg Visible.main (visible_afterPoll _ id)).trans (hm₂.trans hm₁)),
          .inr ha₃⟩
      · split
        · have ha₃ := ha₁₂.trans (aside_removeTask id)
          exact ⟨h.of_aside ha₃ (hm₂.trans hm₁), .inr ha₃⟩
        · have ha₃ := hupd (fun t => { t with body := .call c₂, state := .complete })
            fun _ => ⟨rfl, rfl⟩
          exact ⟨h.of_aside ha₃ (hm₂.trans hm₁), .inr ha₃⟩

theorem complete_runTasks (h : Complete none w) (n : Nat) : Complete none (w.runTasks n).1 := by
  induction n generalizing w with
  | zero => exact h
  | succ n ih =>
    rw [runTasks]
    have h₀ := h.of_aside (aside_nextTask w) (congrArg Visible.main (visible_nextTask w))
    rcases hq : w.nextTask with ⟨_ | id, w₁⟩
    all_goals
      rw [hq] at h₀
      dsimp only
    · exact h₀
    · exact ih (complete_runTask h₀ id).1

/-! ## The caller's jobs -/

/-- Issuing a generation leaves the registry alone. -/
theorem registry_beginQuery (w : World) : w.beginQuery.2.registry = w.registry := by
  unfold beginQuery
  exact congrArg (·.2.2.2.2.2) (dispatchView_foldl_wake _ _ _)

/-- **A poll of the caller's query** keeps the engine complete and resumes its dispatch: the one
the caller holds, or a new one under a new generation. An outcome it hands back is a complete
merge over the snapshot that dispatch ranks with, for a query read from the caller's text. -/
theorem complete_pollRun {raw : String} {x : Option Execute} (h : Complete none w)
    (hm : w.main = .run raw x) :
    Complete none (w.pollRun raw x).1 ∧ ∃ e₀ : Execute,
      (x = some e₀ ∨ x = none ∧ e₀.started = false ∧ e₀.generation = w.generations.current + 1) ∧
      Resumes w (w.pollRun raw x).1 .main e₀ ∧
      ∀ out, (w.pollRun raw x).2 = some (.outcome (some out)) → out.query.rawText = raw ∧
        out.generation = e₀.generation ∧ ∃ r, (w.pollRun raw x).1.Merges (w.snapshotOf e₀)
          (w.history.boost raw) out.query r out.warnings ∧ out.entries = r.entries := by
  obtain ⟨w₁, e₁, h₁, hon, hraw, hrun, ha₁, hreg₁, hh₁, hx⟩ : ∃ w₁ e₁, Complete (some .main) w₁ ∧
      w₁.OnTrack .main e₁ ∧ e₁.raw = raw ∧ w.pollRun raw x = w₁.pollRun raw (some e₁) ∧
      Aside none w w₁ ∧ w₁.registry = w.registry ∧ w₁.history = w.history ∧
      (x = some e₁ ∨ x = none ∧ e₁.started = false ∧
        e₁.generation = w.generations.current + 1) := by
    cases x with
    | some e =>
      exact ⟨w, e, h.mono _, h.onTrack .main e (Option.some_ne_none _).symm
        (by rw [dispatchOf, hm]; rfl), h.raw raw e hm, rfl, .refl w, rfl, rfl, .inl rfl⟩
    | none =>
      have hv := visible_beginQuery w
      refine ⟨w.beginQuery.2, { generation := w.beginQuery.1, raw := raw },
        (h.mono _).of_aside ((aside_beginQuery w).mono _) (congrArg Visible.main hv),
        ⟨fun _ => ⟨rfl, ?_⟩, fun hs => (by cases hs)⟩, rfl, rfl, aside_beginQuery w,
        registry_beginQuery w, congrArg Visible.history hv, .inr ⟨rfl, rfl, rfl⟩⟩
      have hg : w.beginQuery.2.generations = w.generations.next.2 := congrArg Visible.generations hv
      show w.beginQuery.1 ≤ w.beginQuery.2.generations.current
      rw [hg]
      exact Nat.le_refl _
  have hsnap : w₁.snapshotOf e₁ = w.snapshotOf e₁ := by simp only [snapshotOf, hreg₁]
  rw [hrun]
  obtain ⟨hc, -, hres, hpend, hout⟩ := complete_pollExecute h₁ hon
  unfold pollRun
  dsimp only
  rcases hp : w₁.pollExecute .main e₁ with ⟨w₂, e₂, _ | r⟩
  all_goals
    rw [hp] at hc hres hpend hout
    dsimp only at hc hres hpend hout ⊢
  · obtain ⟨-, hon₂⟩ := hpend rfl
    have ha₃ := aside_main w₂ (.run raw (some e₂))
    refine ⟨(hc.of_aside_raw ha₃ fun raw' e' he' => ?_).close fun e' he' => ?_, e₁, hx,
      hres.resumes ha₁ hreg₁ hh₁ ha₃ fun x hx' => ?_, fun out hout' => by cases hout'⟩
    · cases he'
      exact hres.raw.trans hraw
    · cases he'
      exact hon₂.of_aside_live ha₃ rfl
    · cases hx'
      rfl
  · have ha₃ := aside_setMain w₂ (m := .idle) rfl
    refine ⟨((hc.of_aside_raw (ha₃.mono _) fun raw' e' he' => by cases he').close
      fun e' he' => by cases he'), e₁, hx,
      hres.resumes ha₁ hreg₁ hh₁ (ha₃.mono _) (fun x hx' => by cases hx'), fun out hout' => ?_⟩
    cases hout'
    obtain ⟨hq, hg, r, hmr, hes⟩ := hout out rfl
    refine ⟨hq.trans hraw, hg, r, ?_, hes⟩
    rw [← hsnap, ← hh₁, ← hraw]
    exact hmr.of_aside ha₃

/-- Starting every plugin leaves the caller a job that holds no dispatch. -/
theorem search?_pollStartAll_some (w : World) (ups : List BringUp) :
    (w.pollStartAll (some ups)).1.main.search? = none := by
  unfold pollStartAll
  dsimp only
  by_cases hc : ups.length ≤ startUpsPolledInTurn
  · simp only [hc, ↓reduceIte]
    split <;> rfl
  · simp only [hc, ↓reduceIte]
    split <;> rfl

theorem search?_pollStartAll (w : World) (ups : Option (List BringUp)) :
    (w.pollStartAll ups).1.main.search? = none := by
  cases ups with
  | some ups => exact search?_pollStartAll_some w ups
  | none =>
    let fresh := (w.registry.idsInState .unloaded).map (BringUp.fresh · false)
    by_cases hc : fresh.length ≤ startUpsPolledInTurn
    · have hs : w.pollStartAll none = w.pollStartAll (some fresh) := by
        simp only [pollStartAll, fresh, hc, ↓reduceIte]
      rw [hs]
      exact search?_pollStartAll_some w fresh
    · let w₁ : World := { w with pools := w.pools.filter (fun (p : Pool) => p.owner != .main) ++
        [⟨.main, List.range fresh.length, List.range fresh.length⟩] }
      have hs : w.pollStartAll none = w₁.pollStartAll (some fresh) := by
        simp only [pollStartAll, fresh, w₁, hc, ↓reduceIte]
      rw [hs]
      exact search?_pollStartAll_some w₁ fresh

/-- **A poll of the caller's job** keeps the engine complete. Unless the job is a query, the poll
is aside every dispatch but the caller's, and leaves the caller none. -/
theorem complete_pollMain (h : Complete none w) :
    Complete none w.pollMain.1 ∧ ((∃ raw x, w.main = .run raw x) ∨
      Aside (some .main) w w.pollMain.1 ∧ w.pollMain.1.main.search? = none) := by
  unfold pollMain
  split
  · next hm => exact ⟨h, .inr ⟨.refl w, by rw [hm]; rfl⟩⟩
  · next raw x hm => exact ⟨(complete_pollRun h hm).1, .inl ⟨raw, x, hm⟩⟩
  · next ms d t hm =>
    have ha := aside_pollSleep w ms d t
    exact ⟨h.of_aside_idle ha (by rw [hm]; rfl),
      .inr ⟨ha.mono _, search?_of_aside_idle ha (by rw [hm]; rfl)⟩⟩
  · next g p i st hm =>
    have ha := aside_pollSelect w g p i st
    exact ⟨h.of_aside_idle ha (by rw [hm]; rfl),
      .inr ⟨ha.mono _, search?_of_aside_idle ha (by rw [hm]; rfl)⟩⟩
  · next ups hm =>
    have hs := search?_pollStartAll w ups
    have h₁ : Complete (some .main) (w.pollStartAll ups).1 :=
      (h.mono _).of_aside_raw (aside_pollStartAll w ups) fun raw e he => by
        rw [he] at hs
        cases hs
    refine ⟨h₁.close fun e he => ?_, .inr ⟨aside_pollStartAll w ups, hs⟩⟩
    rw [show (w.pollStartAll ups).1.dispatchOf .main = (w.pollStartAll ups).1.main.search? from rfl,
      hs] at he
    cases he
  · next id up hm =>
    have ha := aside_pollReload w id up
    exact ⟨h.of_aside_idle ha (by rw [hm]; rfl),
      .inr ⟨ha.mono _, search?_of_aside_idle ha (by rw [hm]; rfl)⟩⟩

/-! ## The thread's loop -/

/-- The start of a round: the caller's job is polled if it was woken. -/
theorem complete_roundPoll {first : Bool} {p : World × Option Finished} (h : Complete none w)
    (hp : (if w.mainWoken then
        { w with mainWoken := false, budget := if first then w.budget else pollBudget }.pollMain
      else (w, none)) = p) : Complete none p.1 := by
  subst hp
  split
  · have h₁ : Complete none
        { w with mainWoken := false, budget := if first then w.budget else pollBudget } :=
      h.of_aside (.of_view rfl rfl (.of_eq rfl rfl)) rfl
    exact (complete_pollMain h₁).1
  · exact h

theorem complete_of_runTasks {n : Nat} {w₂ : World} {dry : Bool} (h : Complete none w)
    (hrun : w.runTasks n = (w₂, dry)) : Complete none w₂ := by
  have h₂ := complete_runTasks h n
  rwa [hrun] at h₂

/-- **The loop keeps the engine complete**, round after round. -/
theorem complete_loop (w : World) (first : Bool) (fuel : Nat) :
    Complete none w → Complete none (w.loop first fuel).1 := by
  fun_induction loop w first fuel with
  | case1 w first =>
    exact fun h => h.of_aside_raw (aside_setMain w (m := .idle) rfl) fun raw e he => (by cases he)
  | case2 w first n w₁ f hpoll => exact fun h => complete_roundPoll h hpoll
  | case3 w first n w₁ w₂ hrun hstuck hpoll =>
    intro h
    exact (complete_of_runTasks (complete_roundPoll h hpoll) hrun).of_aside_raw
      (aside_setMain w₂ (m := .idle) rfl) fun raw e he => (by cases he)
  | case4 w first n w₁ w₂ hrun hstuck hdef hpoll ih =>
    intro h
    exact ih ((complete_of_runTasks (complete_roundPoll h hpoll) hrun).of_aside (aside_park w₂)
      (congrArg Visible.main (visible_park w₂)))
  | case5 w first n w₁ w₂ hrun hstuck hdef hpoll ih =>
    intro h
    exact ih ((complete_of_runTasks (complete_roundPoll h hpoll) hrun).of_aside
      (aside_parkYield w₂) (congrArg Visible.main (visible_parkYield w₂)))
  | case6 w first n w₁ w₂ hrun hpoll ih =>
    intro h
    exact ih ((complete_of_runTasks (complete_roundPoll h hpoll) hrun).of_aside
      (aside_parkYield w₂) (congrArg Visible.main (visible_parkYield w₂)))

/-- **A job run for the caller** keeps the engine complete. -/
theorem complete_blockOn (h : Complete none w) {job : MainJob} (hj : job.search? = none)
    (fuel : Nat) : Complete none (w.blockOn job fuel).1 := by
  have h₁ : Complete none { w with main := job, mainWoken := true, inside := true } :=
    h.of_aside_raw (.of_tasks rfl rfl (Nat.le_refl _) rfl rfl rfl id
      (fun e he => by rw [hj] at he; cases he) (Nat.le_refl _) (fun _ h => .inl h) rfl)
      fun raw e he => by
        have hs : job.search? = some e := by
          rw [show job = .run raw (some e) from he]
          rfl
        rw [hj] at hs
        cases hs
  exact (complete_loop _ true fuel h₁).of_aside (.of_view rfl rfl (.of_eq rfl rfl)) rfl

theorem complete_wait (h : Complete none w) {job : MainJob} (hj : job.search? = none) :
    Complete none (w.wait job).2 :=
  complete_blockOn h hj roundLimit

/-! ## Commands -/

/-- **A submitted query** keeps the engine complete: its generation is issued, and its dispatch
is a new task, not yet begun. -/
theorem complete_submit (h : Complete none w) (raw : String) : Complete none (w.submit raw).2 := by
  have h₁ := h.of_aside (aside_beginQuery w) (congrArg Visible.main (visible_beginQuery w))
  have hg : w.beginQuery.2.generations = w.generations.next.2 :=
    congrArg Visible.generations (visible_beginQuery w)
  have hle : w.beginQuery.1 ≤ w.beginQuery.2.generations.current := by
    rw [hg]
    exact Nat.le_refl _
  unfold submit
  rcases hb : w.beginQuery with ⟨g, w₁⟩
  rw [hb] at h₁ hle
  dsimp only at hle ⊢
  have h₂ : Complete none { w₁ with inside := true } :=
    h₁.of_aside (.of_view rfl rfl (.of_eq rfl rfl)) rfl
  have ha₃ := aside_spawn_search { w₁ with inside := true } { generation := g, raw := raw }
  have hvis := visible_spawn { w₁ with inside := true } (.search { generation := g, raw := raw })
  have h₃ := ((h₂.mono _).of_aside ha₃ (congrArg Visible.main hvis)).close fun e he => ?_
  · exact h₃.of_aside (.of_view rfl rfl (.of_eq rfl rfl)) rfl
  rw [dispatchOf, task?_spawn_self _ h₂.ids, Option.bind_some] at he
  cases he
  exact ⟨fun _ => ⟨rfl, le_of_le_of_eq hle
    (congrArg (fun v : Visible => v.generations.current) hvis).symm⟩, fun hs => (by cases hs)⟩

/-- A registry command keeps the registry's ids distinct. -/
theorem nodup_run {r : Registry} (hn : r.ids.Nodup) (c : RegistryCommand) :
    (RegistryCommand.run r c).2.ids.Nodup := by
  have hchange : ∀ c' : Registry.Call, (RegistryCommand.run.change r (r.call c')).2.ids.Nodup := by
    intro c'
    unfold RegistryCommand.run.change
    split
    · next r' hc => exact Registry.nodup_call hn hc
    · exact hn
  cases c with
  | register m =>
    simp only [RegistryCommand.run]
    split
    · exact hn
    · next m' _ =>
      split
      · next r' hc => exact Registry.nodup_call hn (show r.call (.register m') = .ok r' from hc)
      · exact hn
  | beginInitialize id => exact hchange (.beginInitialize id)
  | markReady id => exact hchange (.markReady id)
  | markFailed id e => exact hchange (.markFailed id e)
  | reset id => exact hchange (.reset id)
  | setEnabled id b => exact hchange (.setEnabled id b)
  | setGlobal id b => exact hchange (.setGlobal id b)
  | setActionKeyword id k => exact hchange (.setActionKeyword id k)
  | setWeightBoost id b => exact hchange (.setWeightBoost id b)
  | applySettings v =>
    simp only [RegistryCommand.run]
    split
    · exact (Registry.ids_applySettings _).nodup_iff.2 hn
    · exact hn
  | idsInState v =>
    simp only [RegistryCommand.run]
    split <;> exact hn
  | _ => exact hn

/-- **Every command keeps the engine complete.** -/
theorem complete_command (h : Complete none w) (c : EngineCommand) :
    Complete none (w.command c).2 := by
  cases c with
  | run raw => exact (complete_wait h rfl : Complete none (w.wait (.run raw none)).2)
  | submit raw => exact complete_submit h raw
  | sleep ms => exact (complete_wait h rfl : Complete none (w.wait (.sleep ms none none)).2)
  | updates =>
    show Complete none { w with outbox := [] }
    exact h.withLists w.delivered []
  | showMore g =>
    simp only [command]
    split
    · split <;> exact h
    · exact h
  | select g p i => exact (complete_wait h rfl : Complete none (w.wait (.select g p i .start)).2)
  | history => exact h
  | forget q =>
    simp only [command]
    split <;> exact h.of_aside (aside_history _ _ _) rfl
  | initializeAll => exact (complete_wait h rfl : Complete none (w.wait (.startAll none)).2)
  | reload id => exact (complete_wait h rfl : Complete none (w.wait (.reload id none)).2)
  | calls id =>
    simp only [command]
    split
    · split <;> exact h
    · exact h
  | closeUpdates => exact h.of_aside (aside_drain w false) rfl
  | registry c =>
    exact h.of_aside (.of_tasks rfl rfl (Nat.le_refl _) rfl rfl rfl (fun hn => nodup_run hn c)
      (fun _ h => h) (Nat.le_refl _) (fun _ h => .inl h) rfl) rfl

/-- A configured engine, whose registry's ids are distinct, is complete: nothing is under way. -/
theorem complete_configured (registry : Registry) (plugins : List (String × ScriptedPlugin))
    (c : Config) (history : HistoryStore) (disk : Disk) (hreg : registry.ids.Nodup) :
    Complete none (configured registry plugins c history disk) where
  ids := ⟨List.nodup_nil, fun _ h => nomatch h⟩
  registry := (Registry.ids_applySettings c.plugins).nodup_iff.2 hreg
  answers := fun _ h => nomatch h
  onTrack o e _ he := by
    cases o with
    | main => cases he
    | task id => cases he
  raw _ _ h := nomatch h

end World

end Launcher.Engine
