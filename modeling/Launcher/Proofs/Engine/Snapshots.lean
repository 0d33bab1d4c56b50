import Launcher.Proofs.Engine.Received

/-!
# Each list is a merge over the snapshot its dispatch took

A dispatch takes the registry's snapshot when it begins, and ranks with that snapshot to its
end, however the registry changes meanwhile. Over every step of every run, each list the engine
delivers or announces, and each outcome it hands the caller, is a complete merge over the snapshot
of its own generation's dispatch, with the history's bonuses for its text:

* `World.begun?`, `World.snapshotFor` — the begun dispatch of a generation, and the snapshot that
  generation ranks with: the begun dispatch's, or, while none has begun, the registry's, which a
  dispatch takes when it begins;
* `World.snapshotFor_dispatchOf`, `World.snapshotFor_fresh` — a dispatch the engine holds ranks
  with its own snapshot, and a generation not issued yet with the registry's;
* `World.SnapshotsKept` — what a step does to the snapshots: a dispatch begun after it ranks with
  the snapshot its generation ranked with before it;
* `World.Paced.lists_step` — every step adds only complete merges over those snapshots, and keeps
  them; `World.Paced.outcome_pollRun` — the outcome of the caller's query is one;
* `World.delivered_outcomes_are_complete_merges` — all of it over every run of a configured
  engine.
-/

namespace Launcher.Engine

namespace World

variable {w w' : World} {o : Owner} {e : Execute} {g : Nat}

/-! ## The snapshot of a generation -/

/-- The owners of the engine's dispatches: the caller, then each task. -/
def owners (w : World) : List Owner := .main :: w.tasks.map (.task ·.id)

/-- The dispatch of generation `g` that has begun, if any. -/
def begun? (w : World) (g : Nat) : Option Execute :=
  (w.owners.filterMap w.dispatchOf).find? fun e => e.started && e.generation == g

/-- The snapshot the dispatch of generation `g` ranks with: the one a begun dispatch of `g` took,
or, while none has begun, the registry's, which a dispatch takes when it begins. -/
def snapshotFor (w : World) (g : Nat) : Snapshot :=
  ((w.begun? g).map (·.snapshot)).getD w.registry.snapshot

theorem mem_owners (he : w.dispatchOf o = some e) : o ∈ w.owners := by
  cases o with
  | main => exact List.mem_cons_self
  | task t =>
    obtain ⟨x, hx, -⟩ := Option.bind_eq_some_iff.1 he
    obtain ⟨hmem, hid⟩ := mem_of_task? hx
    exact List.mem_cons_of_mem _ (List.mem_map.2 ⟨x, hmem, by rw [hid]⟩)

theorem dispatchOf_of_begun? (h : w.begun? g = some e) :
    ∃ o, w.dispatchOf o = some e ∧ e.started = true ∧ e.generation = g := by
  obtain ⟨o, -, ho⟩ := List.mem_filterMap.1 (List.mem_of_find?_eq_some h)
  have hp := List.find?_some h
  simp only [Bool.and_eq_true, beq_iff_eq] at hp
  exact ⟨o, ho, hp⟩

theorem not_started_of_begun? (h : w.begun? e.generation = none) (he : w.dispatchOf o = some e) :
    e.started = false := by
  have hn := List.find?_eq_none.1 h e (List.mem_filterMap.2 ⟨o, mem_owners he, he⟩)
  simpa using hn

/-- **A dispatch the engine holds ranks with its own snapshot**: the one it took, once begun, and
the registry's before. Dispatches of distinct generations make the begun one of a generation
unique. -/
theorem snapshotFor_dispatchOf (hd : w.Distinct) (he : w.dispatchOf o = some e) :
    w.snapshotFor e.generation = w.snapshotOf e := by
  unfold snapshotFor
  cases hb : w.begun? e.generation with
  | some x =>
    obtain ⟨o', hx, hs, hg⟩ := dispatchOf_of_begun? hb
    obtain rfl := hd o' o x e hx he hg
    rw [hx, Option.some.injEq] at he
    subst he
    simp [snapshotOf, hs]
  | none => simp [snapshotOf, not_started_of_begun? hb he]

/-- A generation not issued yet has no dispatch, so it ranks with the registry's snapshot. -/
theorem snapshotFor_fresh (h : Complete none w) (hg : w.generations.current < g) :
    w.snapshotFor g = w.registry.snapshot := by
  unfold snapshotFor
  cases hb : w.begun? g with
  | some x =>
    obtain ⟨o, hx, -, rfl⟩ := dispatchOf_of_begun? hb
    exact absurd (h.issued hx) (Nat.not_le.2 hg)
  | none => rfl

/-- The dispatch of the caller's query ranks with the snapshot of its generation: the one the
caller holds, or a new one of the next generation. -/
theorem snapshotFor_run {raw : String} {x : Option Execute} (h : Complete none w) (hd : w.Distinct)
    (hm : w.main = .run raw x)
    (he : x = some e ∨ x = none ∧ e.started = false ∧ e.generation = w.generations.current + 1) :
    w.snapshotFor e.generation = w.snapshotOf e := by
  rcases he with rfl | ⟨-, hs, hg⟩
  · exact snapshotFor_dispatchOf hd (o := .main) (by rw [dispatchOf, hm]; rfl)
  · rw [snapshotFor_fresh h (by rw [hg]; exact Nat.lt_succ_self _), snapshotOf, hs]
    rfl

/-! ## What a step does to the snapshots -/

/-- What a step does to the snapshots: a dispatch begun after it ranks with the snapshot its
generation ranked with before it, so one begun before keeps its own, and one begun in the step took
the registry's. -/
def SnapshotsKept (w w' : World) : Prop :=
  ∀ o e, w'.dispatchOf o = some e → e.started = true → e.snapshot = w.snapshotFor e.generation

namespace SnapshotsKept

/-- A step after which each begun dispatch was there before keeps the snapshots. -/
theorem of_held (hd : w.Distinct)
    (hh : ∀ o e, w'.dispatchOf o = some e → e.started = true → w.dispatchOf o = some e) :
    SnapshotsKept w w' := fun o e he hs => by
  rw [snapshotFor_dispatchOf hd (hh o e he hs), snapshotOf, hs]
  rfl

theorem of_aside (hd : w.Distinct) (ha : Aside none w w') : SnapshotsKept w w' :=
  .of_held hd fun o e he _ => ha.held o e (Option.some_ne_none o).symm he

/-- A step aside every task's dispatch that leaves the caller none. -/
theorem of_idle (hd : w.Distinct) (ha : Aside (some .main) w w') (hm : w'.main.search? = none) :
    SnapshotsKept w w' := .of_held hd fun o e he _ => by
  cases o with
  | main =>
    rw [show w'.dispatchOf .main = w'.main.search? from rfl, hm] at he
    cases he
  | task t => exact ha.held _ e (by simp) he

end SnapshotsKept

/-- A poll that resumes a dispatch of the snapshot of its generation keeps the snapshots. -/
theorem Resumes.kept (hd : w.Distinct) (hr : Resumes w w' o e)
    (hsnap : w.snapshotFor e.generation = w.snapshotOf e) : SnapshotsKept w w' := fun o' x hx hs => by
  by_cases ho : o' = o
  · subst ho
    obtain ⟨-, hg, hx'⟩ := hr.record x hx
    rw [hg, hsnap, hx']
  · rw [snapshotFor_dispatchOf hd (hr.held o' x ho hx), snapshotOf, hs]
    rfl

/-- A step that changes neither the delivered list nor the lists announced adds none. -/
theorem Adds.of_sent {snap : Nat → Snapshot} {hs : HistoryStore}
    (hdel : w'.delivered = w.delivered) (hsent : ∀ u ∈ w'.outbox, u ∈ w.outbox ∨ u.results? = none) :
    Adds w w' snap hs where
  delivered d hd hne := absurd (hdel ▸ hd) hne
  announced g q es ws hu hn := by
    rcases hsent _ hu with hu' | hr
    · exact absurd hu' hn
    · cases hr

/-! ## Every step -/

theorem pollMain_run {raw : String} {x : Option Execute} (hm : w.main = .run raw x) :
    w.pollMain = w.pollRun raw x := by
  unfold pollMain
  rw [hm]

theorem lists_of_aside (hd : w.Distinct) (ha : Aside none w w') :
    Adds w w' w.snapshotFor w.history ∧ SnapshotsKept w w' :=
  ⟨.of_aside ha, .of_aside hd ha⟩

/-- A command that leaves the tasks, the main job and the delivered lists alone, and sends
nothing new, keeps every started dispatch and adds no list. -/
theorem frame_of_same {w w' : World} (ht : w'.tasks = w.tasks) (hm : w'.main = w.main)
    (hdel : w'.delivered = w.delivered) (hout : ∀ u ∈ w'.outbox, u ∈ w.outbox) :
    (∀ o e, w'.dispatchOf o = some e → e.started = true → w.dispatchOf o = some e) ∧
      w'.delivered = w.delivered ∧ ∀ u ∈ w'.outbox, u ∈ w.outbox ∨ u.results? = none := by
  refine ⟨fun o e he _ => ?_, hdel, fun u hu => .inl (hout u hu)⟩
  cases o with
  | main => rwa [dispatchOf, hm] at he
  | task t => rwa [dispatchOf, task?, ht] at he

/-- A submitted query begins a generation and spawns its search, not yet started: every
started dispatch is one of before, nothing is delivered, and nothing sent is a list. -/
theorem submit_frame (w : World) (raw : String) :
    (∀ o e, (w.command (.submit raw)).2.dispatchOf o = some e → e.started = true →
      w.dispatchOf o = some e) ∧
      (w.command (.submit raw)).2.delivered = w.delivered ∧
      ∀ u ∈ (w.command (.submit raw)).2.outbox, u ∈ w.outbox ∨ u.results? = none := by
  simp only [command]
  unfold submit
  rcases hb : w.beginQuery with ⟨g, w₁⟩
  dsimp only
  have ha₀ := aside_beginQuery w
  rw [hb] at ha₀
  have ha₁ : Aside none w { w₁ with inside := true } := ha₀.trans (.of_view rfl rfl (.of_eq rfl rfl))
  have hv := visible_spawn (w := { w₁ with inside := true }) (.search { generation := g, raw := raw })
  have hout : ({ w₁ with inside := true }.spawn (.search { generation := g, raw := raw })).2.outbox =
      w₁.outbox := congrArg Visible.outbox hv
  refine ⟨fun o e he hs => ?_, (congrArg Visible.delivered hv).trans ha₁.delivered,
    fun u hu => ?_⟩
  · rcases dispatchOf_spawn_cases he with he₁ | ⟨-, hb₁⟩
    · exact ha₁.held o e (Option.some_ne_none o).symm he₁
    · cases hb₁
      cases hs
  · have hu₁ : u ∈ ({ w₁ with inside := true }.spawn (.search { generation := g, raw := raw })).2.outbox :=
      hu
    rw [hout] at hu₁
    exact ha₁.sent u hu₁

/-- A command answered at once begins no dispatch and adds no list: a dispatch begun after it was
there before it, and it delivers and announces nothing new. -/
theorem answer_frame (w : World) {c : EngineCommand} (hc : c.job? = none) :
    (∀ o e, (w.command c).2.dispatchOf o = some e → e.started = true → w.dispatchOf o = some e) ∧
      (w.command c).2.delivered = w.delivered ∧
      ∀ u ∈ (w.command c).2.outbox, u ∈ w.outbox ∨ u.results? = none := by
  cases c with
  | submit raw => exact submit_frame w raw
  | updates => exact frame_of_same rfl rfl rfl fun u hu => by cases hu
  | showMore g =>
    simp only [command]
    split
    · split <;> exact frame_of_same rfl rfl rfl fun u hu => hu
    · exact frame_of_same rfl rfl rfl fun u hu => hu
  | history => exact frame_of_same rfl rfl rfl fun u hu => hu
  | forget q =>
    simp only [command]
    split <;> exact frame_of_same rfl rfl rfl fun u hu => hu
  | calls id =>
    simp only [command]
    split
    · split <;> exact frame_of_same rfl rfl rfl fun u hu => hu
    · exact frame_of_same rfl rfl rfl fun u hu => hu
  | closeUpdates => exact frame_of_same rfl rfl rfl fun u hu => by cases hu
  | registry c => exact frame_of_same rfl rfl rfl fun u hu => hu
  | run | sleep | select | initializeAll | reload => cases hc

/-- **Every step adds only complete merges over the snapshots of their generations**, with the
history's bonuses, and keeps those snapshots. -/
theorem Paced.lists_step (h : Paced w) (hs : Step w w') :
    Adds w w' w.snapshotFor w.history ∧ SnapshotsKept w w' := by
  cases hs with
  | @hand c job hc =>
    exact lists_of_aside h.distinct (.of_tasks rfl rfl (Nat.le_refl _) rfl rfl rfl id
      (fun e he => by rw [EngineCommand.search?_job hc] at he; cases he) (Nat.le_refl _)
      (fun _ h => .inl h) rfl)
  | pollMain b =>
    have ha₀ : Aside none w { w with mainWoken := false, budget := b } :=
      .of_view rfl rfl (.of_eq rfl rfl)
    have hc₀ : Complete none { w with mainWoken := false, budget := b } := h.complete.of_aside ha₀ rfl
    rcases (complete_pollMain hc₀).2 with ⟨raw, x, hm⟩ | ⟨ha, hm⟩
    · obtain ⟨-, e₀, he₀, hres, -⟩ := complete_pollRun hc₀ hm
      have hsnap := snapshotFor_run h.complete h.distinct hm he₀
      have hk : SnapshotsKept { w with mainWoken := false, budget := b }
          ({ w with mainWoken := false, budget := b }.pollRun raw x).1 := hres.kept h.distinct hsnap
      rw [pollMain_run hm]
      exact ⟨Adds.aside_trans ha₀ (hres.adds _ hsnap), hk⟩
    · exact ⟨Adds.of_aside ((ha₀.mono _).trans ha), .of_idle h.distinct ((ha₀.mono _).trans ha) hm⟩
  | nextTask => exact lists_of_aside h.distinct (aside_nextTask w)
  | runTask id =>
    rcases (complete_runTask h.complete id).2 with ⟨e, hd, hres⟩ | ha
    · have hsnap := snapshotFor_dispatchOf h.distinct hd
      exact ⟨hres.adds _ hsnap, hres.kept h.distinct hsnap⟩
    · exact lists_of_aside h.distinct ha
  | park => exact lists_of_aside h.distinct (aside_park w)
  | parkYield => exact lists_of_aside h.distinct (aside_parkYield w)
  | drop => exact lists_of_aside h.distinct (aside_setMain w rfl)
  | leave => exact lists_of_aside h.distinct (.of_view rfl rfl (.of_eq rfl rfl))
  | answer hc =>
    obtain ⟨hheld, hdel, hsent⟩ := answer_frame w hc
    exact ⟨.of_sent hdel hsent, .of_held h.distinct hheld⟩

/-- **The outcome of the caller's query** is of the generation its dispatch is of, reads the
caller's text, and is a complete merge over the snapshot of that generation, with the history's
bonuses for the text. -/
theorem outcome_pollRun (h : Complete none w) (hd : w.Distinct) {raw : String}
    {x : Option Execute} (hm : w.main = .run raw x) {out : QueryOutcome}
    (ho : (w.pollRun raw x).2 = some (.outcome (some out))) :
    out.query.rawText = raw ∧
      out.generation = (x.map (·.generation)).getD (w.generations.current + 1) ∧
      ∃ r, (w.pollRun raw x).1.Merges (w.snapshotFor out.generation) (w.history.boost raw)
        out.query r out.warnings ∧ out.entries = r.entries := by
  obtain ⟨-, e₀, he₀, -, hout⟩ := complete_pollRun h hm
  obtain ⟨hq, hg, r, hmr, hes⟩ := hout out ho
  refine ⟨hq, ?_, r, ?_, hes⟩
  · rcases he₀ with rfl | ⟨rfl, -, hg₀⟩
    · exact hg
    · rw [hg, hg₀]
      rfl
  · rw [hg, snapshotFor_run h hd hm he₀]
    exact hmr

/-! ## Over every run -/

/-- **Every list is a complete merge over the snapshot its dispatch took.** Over any run of an
engine configured with a registry of distinct ids, at every state:
* the outcome a poll of the caller's query hands back is of the generation the query dispatches
  (the one it holds, or the next), reads the caller's text, and is a complete merge
  (`World.Merges`: one contribution from every target, merged in the snapshot's order, whatever
  order they arrived in) over the snapshot of that generation, with the history's bonuses for the
  text;
* every step delivers and announces only such merges over the snapshots of their generations;
* every dispatch begun after a step ranks with the snapshot its generation ranked with before it:
  one begun before keeps the snapshot it took, whatever the registry does meanwhile, and one begun
  in the step took the registry's. -/
theorem delivered_outcomes_are_complete_merges (registry : Registry)
    (plugins : List (String × ScriptedPlugin)) (cfg : Config) (history : HistoryStore)
    (disk : Disk) (hreg : registry.ids.Nodup) :
    ∀ w, Reachable (configured registry plugins cfg history disk) w →
      (∀ raw x b out, w.main = .run raw x →
        ({ w with mainWoken := false, budget := b }.pollMain).2 = some (.outcome (some out)) →
        out.query.rawText = raw ∧
          out.generation = (x.map (·.generation)).getD (w.generations.current + 1) ∧
          ∃ r, ({ w with mainWoken := false, budget := b }.pollMain).1.Merges
            (w.snapshotFor out.generation) (w.history.boost raw) out.query r out.warnings ∧
            out.entries = r.entries) ∧
      ∀ w', Step w w' → Adds w w' w.snapshotFor w.history ∧ SnapshotsKept w w' := by
  intro w hr
  have h := Reachable.paced (paced_configured registry plugins cfg history disk hreg) hr
  refine ⟨fun raw x b out hm ho => ?_, fun w' hs => h.lists_step hs⟩
  have hc₀ : Complete none { w with mainWoken := false, budget := b } :=
    h.complete.of_aside (.of_view rfl rfl (.of_eq rfl rfl)) rfl
  have hpoll := pollMain_run (w := { w with mainWoken := false, budget := b }) hm
  rw [hpoll] at ho ⊢
  exact outcome_pollRun hc₀ h.distinct hm ho

/-- A registry of one plugin: over every run, each list is a merge over its dispatch's
snapshot. -/
theorem one_plugin_lists_merge_over_their_snapshots :
    let registry : Registry := ⟨[⟨{ id := "files" }, .ready⟩]⟩
    let w₀ := configured registry [] {} (HistoryStore.inMemory {}) Disk.fresh
    registry.ids.Nodup ∧ ∀ w, Reachable w₀ w →
      (∀ raw x b out, w.main = .run raw x →
        ({ w with mainWoken := false, budget := b }.pollMain).2 = some (.outcome (some out)) →
        out.query.rawText = raw ∧
          out.generation = (x.map (·.generation)).getD (w.generations.current + 1) ∧
          ∃ r, ({ w with mainWoken := false, budget := b }.pollMain).1.Merges
            (w.snapshotFor out.generation) (w.history.boost raw) out.query r out.warnings ∧
            out.entries = r.entries) ∧
      ∀ w', Step w w' → Adds w w' w.snapshotFor w.history ∧ SnapshotsKept w w' := by
  intro registry w₀
  have hn : registry.ids.Nodup := List.nodup_singleton _
  exact ⟨hn, delivered_outcomes_are_complete_merges registry [] {} (HistoryStore.inMemory {})
    Disk.fresh hn⟩

end World

end Launcher.Engine
