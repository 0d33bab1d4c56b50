import Launcher.Proofs.Engine.Order

/-!
# Commands keep the order of lists

Every command of an engine session (a query run or submitted, a sleep, a selection, bringing
plugins up, taking the updates) keeps `World.Orderly` and moves the engine `World.Forward`:

* `World.keeps_pollMain`, `World.keeps_loop` — a poll of the caller's job, and the rounds of the
  caller's thread;
* `World.keeps_command` — every command;
* `World.orderly_configured` — a configured engine is orderly.
-/

namespace Launcher.Engine

namespace World

variable {w w' : World} {ds : List Nat}

/-! ## The caller's job -/

/-- The caller's job is not read by the invariant over an explicit list of dispatches. -/
theorem Holds.withMain (h : Holds ds w) (m : MainJob) : Holds ds { w with main := m } :=
  h.of_ledger ⟨h.ids.nodup, h.ids.lt⟩ rfl rfl (.refl _) rfl

/-- After a calm step, the caller's job is set to one with no dispatch of its own. -/
theorem keeps_setMain {m : MainJob} (hc : Calm w w') (hm : m.generation? = none) :
    Keeps w { w' with main := m } :=
  .of_calm (hc.trans ⟨.of_eq rfl rfl, rfl, rfl, rfl, rfl⟩) (.inr hm)

/-- **The caller's query.** Its dispatch begins under a new generation unless it has one, and is
polled with every other dispatch left alone; once it ends, the caller holds none. -/
theorem keeps_pollRun {raw : String} {e : Option Execute} (hm : w.main = .run raw e) :
    Keeps w (w.pollRun raw e).1 := by
  intro h
  obtain ⟨w₁, e₁, hrun, h₁, hf₁, hs₁⟩ : ∃ (w₁ : World) (e₁ : Execute),
      w.pollRun raw e = w₁.pollRun raw (some e₁) ∧
      Holds (e₁.generation :: w.searches.map (·.2)) w₁ ∧ Forward w w₁ ∧
      w₁.searches = w.searches := by
    cases e with
    | some e =>
      have hd : w.dispatches = e.generation :: w.searches.map (·.2) := by
        simp [dispatches, hm, MainJob.generation?]
      exact ⟨w, e, rfl, hd ▸ h, .refl w, rfl⟩
    | none =>
      have hd : w.dispatches = w.searches.map (·.2) := by simp [dispatches, hm, MainJob.generation?]
      obtain ⟨h₁, hf₁⟩ := (hd ▸ h : Holds (w.searches.map (·.2)) w).beginQuery
      exact ⟨w.beginQuery.2, { generation := w.beginQuery.1, raw := raw }, rfl, h₁, hf₁,
        ((taskFrame_beginQuery w).keep h.ids).2⟩
  rw [hrun, pollRun]
  obtain ⟨hgen, -, hsearch, hholds, hfw⟩ := h₁.pollExecute .main
  rcases hp : w₁.pollExecute .main e₁ with ⟨w₂, e₂, _ | o⟩
  all_goals
    rw [hp] at hgen hsearch hholds hfw
    dsimp only at hgen hsearch hfw ⊢
    simp only [Option.isSome_none, Option.isSome_some, Bool.false_eq_true, if_true,
      if_false] at hholds
    refine ⟨?_, hf₁.trans (hfw.trans (.of_ledger (Nat.le_refl _) rfl (.refl _) rfl))⟩
    unfold Orderly
  · have hd : { w₂ with main := .run raw (some e₂) }.dispatches =
        e₁.generation :: w.searches.map (·.2) := by
      show (MainJob.run raw (some e₂)).generation?.toList ++ w₂.searches.map (·.2) = _
      rw [hsearch, hs₁]
      simp [MainJob.generation?, hgen]
    rw [hd]
    exact hholds.withMain _
  · have hd : { w₂ with main := .idle }.dispatches = w.searches.map (·.2) := by
      show MainJob.idle.generation?.toList ++ w₂.searches.map (·.2) = _
      rw [hsearch, hs₁]
      rfl
    rw [hd]
    exact hholds.withMain _

theorem keeps_pollSleep (ms : Nat) (deadline timer : Option Nat) :
    Keeps w (w.pollSleep ms deadline timer).1 := by
  unfold pollSleep
  dsimp only
  have h₁ := Calm.of_visible (visible_pollDelay w ⟨.main, none⟩ (deadline.getD (w.sleepEnd ms)) timer)
    (taskFrame_pollDelay w ⟨.main, none⟩ (deadline.getD (w.sleepEnd ms)) timer)
  rcases hd : w.pollDelay ⟨.main, none⟩ (deadline.getD (w.sleepEnd ms)) timer with
    ⟨_ | _, timer', w₁⟩
  all_goals rw [hd] at h₁
  · exact keeps_setMain h₁ rfl
  · exact keeps_setMain (h₁.trans (.of_visible (visible_dropTimer? w₁ timer')
      (taskFrame_dropTimer? w₁ timer'))) rfl

theorem keeps_pollSelect_holding (g : Nat) (p : String) (i : ResultItem) :
    Keeps w (w.pollSelect g p i .holding).1 := by
  rw [pollSelect]
  have h₁ := Calm.of_visible (visible_deliverSelection w p i ⟨.main, none⟩)
    (taskFrame_deliverSelection w p i ⟨.main, none⟩)
  rcases hd : w.deliverSelection p i ⟨.main, none⟩ with ⟨_ | _, w₁⟩
  all_goals
    rw [hd] at h₁
    exact keeps_setMain h₁ rfl

theorem keeps_pollSelect (g : Nat) (p : String) (i : ResultItem) (stage : SelectStage) :
    Keeps w (w.pollSelect g p i stage).1 := by
  cases stage with
  | start =>
    rw [pollSelect]
    split
    · exact keeps_setMain (.refl w) rfl
    · have h₁ := calm_rememberSelection (w := w) g p i
      have hm₁ := main_rememberSelection (w := w) g p i
      rcases hr : w.rememberSelection g p i with ⟨w₁, _ | err⟩
      all_goals
        rw [hr] at h₁ hm₁
        dsimp only at h₁ hm₁ ⊢
      · have h₂ := Calm.of_visible (visible_tryAcquire w₁ p) (taskFrame_tryAcquire w₁ p)
        have hm₂ : (w₁.tryAcquire p).2.main = w₁.main := congrArg Visible.main (visible_tryAcquire w₁ p)
        rcases hq : w₁.tryAcquire p with ⟨_ | _, w₂⟩
        all_goals
          rw [hq] at h₂ hm₂
          dsimp only at h₂ hm₂ ⊢
        · exact keeps_setMain ((h₁.trans h₂).trans (.of_visible (visible_enqueueWaiter w₂ p _)
            (taskFrame_enqueueWaiter w₂ p _))) rfl
        · exact (Keeps.of_calm (h₁.trans h₂) (.inl (by rw [hm₂, hm₁]))).trans
            (keeps_pollSelect_holding g p i)
      · exact keeps_setMain h₁ rfl
  | queued x =>
    rw [pollSelect]
    split
    · exact (Keeps.of_visible (visible_settleWaiter w x) (taskFrame_settleWaiter w x)).trans
        (keeps_pollSelect_holding g p i)
    · exact .refl w
  | holding => exact keeps_pollSelect_holding g p i

/-- Polling bring-ups already listed: in turn, or from the caller's pool. -/
theorem keeps_pollStartAll_some (ups : List BringUp) : Keeps w (w.pollStartAll (some ups)).1 := by
  unfold pollStartAll
  dsimp only
  by_cases hc : ups.length ≤ startUpsPolledInTurn
  · simp only [hc, ↓reduceIte]
    split
    · exact .of_calm ((calm_pollBringUps ups).trans ⟨.of_eq rfl rfl, rfl, rfl, rfl, rfl⟩) (.inr rfl)
    · exact keeps_setMain (calm_pollBringUps ups) rfl
  · simp only [hc, ↓reduceIte]
    split
    · exact .of_calm ((calm_collectBringUps _ ups).trans ⟨.of_eq rfl rfl, rfl, rfl, rfl, rfl⟩)
        (.inr rfl)
    · exact keeps_setMain (calm_collectBringUps _ ups) rfl

theorem keeps_pollStartAll (ups : Option (List BringUp)) : Keeps w (w.pollStartAll ups).1 := by
  cases ups with
  | some ups => exact keeps_pollStartAll_some ups
  | none =>
    let fresh := (w.registry.idsInState .unloaded).map (BringUp.fresh · false)
    by_cases hc : fresh.length ≤ startUpsPolledInTurn
    · have hs : w.pollStartAll none = w.pollStartAll (some fresh) := by
        simp only [pollStartAll, fresh, hc, ↓reduceIte]
      rw [hs]
      exact keeps_pollStartAll_some fresh
    · let w₁ : World := { w with pools := w.pools.filter (fun (p : Pool) => p.owner != .main) ++
        [⟨.main, List.range fresh.length, List.range fresh.length⟩] }
      have hs : w.pollStartAll none = w₁.pollStartAll (some fresh) := by
        simp only [pollStartAll, fresh, w₁, hc, ↓reduceIte]
      rw [hs]
      exact (Keeps.of_visible rfl (.of_eq rfl rfl) : Keeps w w₁).trans (keeps_pollStartAll_some fresh)

theorem keeps_pollReload_some (id : String) (b : BringUp) :
    Keeps w (w.pollReload id (some b)).1 := by
  rw [pollReload]
  have h₁ := calm_pollBringUp (w := w) ⟨.main, none⟩ b
  rcases hp : w.pollBringUp ⟨.main, none⟩ b with ⟨w₁, _ | _ | _ | ⟨_, _ | _⟩⟩
  all_goals
    rw [hp] at h₁
    exact keeps_setMain h₁ rfl

theorem keeps_pollReload (id : String) (b : Option BringUp) : Keeps w (w.pollReload id b).1 := by
  cases b with
  | some b => exact keeps_pollReload_some id b
  | none =>
    rw [pollReload]
    split
    · exact keeps_setMain (.refl w) rfl
    · rename_i r _
      have h₁ : Calm w ({ w with registry := r }.notify (.stateChanged id .unloaded)) :=
        (Calm.of_visible rfl (.of_eq rfl rfl) : Calm w { w with registry := r }).trans
          (calm_notify_stateChanged _ _)
      have hm₁ : ({ w with registry := r }.notify (.stateChanged id .unloaded)).main = w.main :=
        congrArg Visible.main (visible_notify _ _)
      exact (Keeps.of_calm h₁ (.inl (by rw [hm₁]))).trans (keeps_pollReload_some id _)

/-- **A poll of the caller's job keeps the order.** -/
theorem keeps_pollMain : Keeps w w.pollMain.1 := by
  unfold pollMain
  split
  next => exact .refl w
  next raw e hm => exact keeps_pollRun hm
  next ms d t _ => exact keeps_pollSleep ms d t
  next g p i stage _ => exact keeps_pollSelect g p i stage
  next ups _ => exact keeps_pollStartAll ups
  next id up _ => exact keeps_pollReload id up

/-! ## The thread's loop, and commands -/

/-- The start of a round: the caller's job is polled if it was woken. -/
theorem keeps_roundPoll {first : Bool} {p : World × Option Finished}
    (h : (if w.mainWoken then
        { w with mainWoken := false, budget := if first then w.budget else pollBudget }.pollMain
      else (w, none)) = p) : Keeps w p.1 := by
  subst h
  split
  · refine Keeps.trans ?_ keeps_pollMain
    exact .of_visible rfl (.of_eq rfl rfl)
  · exact .refl w

theorem keeps_runTasks (n : Nat) : Keeps w (w.runTasks n).1 := by
  induction n generalizing w with
  | zero => exact .refl w
  | succ n ih =>
    rw [runTasks]
    have h₀ : Keeps w w.nextTask.2 := .of_visible (visible_nextTask w) (taskFrame_nextTask w)
    rcases hq : w.nextTask with ⟨_ | id, w₁⟩
    all_goals rw [hq] at h₀
    · exact h₀
    · exact (h₀.trans (keeps_runTask id)).trans ih

theorem keeps_of_runTasks {n : Nat} {dry : Bool} (h : w.runTasks n = (w', dry)) : Keeps w w' := by
  have hrun := keeps_runTasks (w := w) n
  rwa [h] at hrun

/-- **The loop keeps the order**, round after round, whatever the caller's job. -/
theorem keeps_loop (first : Bool) (fuel : Nat) : Keeps w (w.loop first fuel).1 := by
  fun_induction loop w first fuel with
  | case1 w first => exact keeps_setMain (.refl w) rfl
  | case2 w first n w₁ f hpoll => exact keeps_roundPoll hpoll
  | case3 w first n w₁ w₂ hrun hstuck hpoll =>
    exact ((keeps_roundPoll hpoll).trans (keeps_of_runTasks hrun)).trans (keeps_setMain (.refl w₂) rfl)
  | case4 w first n w₁ w₂ hrun hstuck hdef hpoll ih =>
    exact (((keeps_roundPoll hpoll).trans (keeps_of_runTasks hrun)).trans
      (.of_visible (visible_park w₂) (taskFrame_park w₂))).trans ih
  | case5 w first n w₁ w₂ hrun hstuck hdef hpoll ih =>
    exact (((keeps_roundPoll hpoll).trans (keeps_of_runTasks hrun)).trans
      (.of_visible (visible_parkYield w₂) (taskFrame_parkYield w₂))).trans ih
  | case6 w first n w₁ w₂ hrun hpoll ih =>
    exact (((keeps_roundPoll hpoll).trans (keeps_of_runTasks hrun)).trans
      (.of_visible (visible_parkYield w₂) (taskFrame_parkYield w₂))).trans ih

/-- A job of the caller, which holds no dispatch when it is handed over, keeps the order. -/
theorem keeps_wait {job : MainJob} (hj : job.generation? = none) : Keeps w (w.wait job).2 := by
  have h₁ : Keeps w { w with main := job, mainWoken := true, inside := true } :=
    .of_calm ⟨.of_eq rfl rfl, rfl, rfl, rfl, rfl⟩ (.inr hj)
  have h₂ : Keeps w ({ w with main := job, mainWoken := true, inside := true }.loop true roundLimit).1 :=
    h₁.trans (keeps_loop true roundLimit)
  exact h₂.trans (.of_visible rfl (.of_eq rfl rfl))

/-- **A submitted query.** A new generation is issued and its dispatch spawned as a task. -/
theorem keeps_submit (raw : String) : Keeps w (w.submit raw).2 := by
  intro h
  obtain ⟨h₁, hf₁⟩ := h.beginQuery
  have hs₁ : w.beginQuery.2.searches = w.searches := ((taskFrame_beginQuery w).keep h.ids).2
  have hm₁ : w.beginQuery.2.main = w.main := congrArg Visible.main (visible_beginQuery w)
  unfold submit
  rcases hb : w.beginQuery with ⟨g, w₁⟩
  rw [hb] at h₁ hf₁ hs₁ hm₁
  dsimp only at h₁ hf₁ hs₁ hm₁ ⊢
  obtain ⟨ht, -⟩ := tasks_spawn (w := { w₁ with inside := true }) (.search { generation := g, raw := raw })
  have hv := visible_spawn { w₁ with inside := true } (.search { generation := g, raw := raw })
  have hids := taskIds_spawn (w := { w₁ with inside := true }) (.search { generation := g, raw := raw })
    ⟨h₁.ids.nodup, h₁.ids.lt⟩
  generalize ({ w₁ with inside := true }.spawn (.search { generation := g, raw := raw })).2 = w₂
    at ht hv hids ⊢
  have hs₂ : w₂.searches = w₁.searches ++ [(w₁.nextId, g)] := by
    unfold searches
    rw [ht]
    simp [TaskBody.generation?]
  have ha : w₂.announced.Sublist w₁.announced := by
    rw [show w₂.announced = w₁.announced from
      congrArg (List.filterMap EngineUpdate.results?) (congrArg Visible.outbox hv)]
  have hd : { w₂ with inside := false }.dispatches = w.dispatches ++ [g] := by
    show w₂.main.generation?.toList ++ w₂.searches.map (·.2) = _
    rw [hs₂, show w₂.main = w₁.main from congrArg Visible.main hv, hm₁, hs₁]
    simp [dispatches]
  have h₂ : Holds (g :: w.dispatches) { w₂ with inside := false } :=
    h₁.of_ledger ⟨hids.nodup, hids.lt⟩ (congrArg Visible.generations hv)
      (congrArg Visible.delivered hv) ha (congrArg Visible.maxResults hv)
  refine ⟨?_, hf₁.trans (.of_ledger (Nat.le_of_eq (congrArg (·.generations.current) hv).symm)
    (congrArg Visible.delivered hv) ha (congrArg Visible.maxResults hv))⟩
  unfold Orderly
  rw [hd]
  exact h₂.subperm (List.perm_append_singleton g _).subperm

/-- Taking every update off the channel, or closing it, empties the outbox. -/
theorem keeps_drain (l : Bool) : Keeps w { w with listening := l, outbox := [] } := fun h =>
  ⟨h.of_ledger ⟨h.ids.nodup, h.ids.lt⟩ rfl rfl (List.nil_sublist _) rfl,
    .of_ledger (Nat.le_refl _) rfl (List.nil_sublist _) rfl⟩

/-- **Every command keeps the order.** -/
theorem keeps_command (c : EngineCommand) : Keeps w (w.command c).2 := by
  cases c with
  | run raw => exact (keeps_wait rfl : Keeps w (w.wait (.run raw none)).2)
  | submit raw => exact keeps_submit raw
  | sleep ms => exact (keeps_wait rfl : Keeps w (w.wait (.sleep ms none none)).2)
  | updates => exact keeps_drain w.listening
  | showMore g =>
    simp only [command]
    split
    · split <;> exact .refl w
    · exact .refl w
  | select g p i => exact (keeps_wait rfl : Keeps w (w.wait (.select g p i .start)).2)
  | history => exact .refl w
  | forget q =>
    simp only [command]
    split <;> exact .of_calm ⟨.of_eq rfl rfl, rfl, rfl, rfl, rfl⟩ (.inl rfl)
  | initializeAll => exact (keeps_wait rfl : Keeps w (w.wait (.startAll none)).2)
  | reload id => exact (keeps_wait rfl : Keeps w (w.wait (.reload id none)).2)
  | calls id =>
    simp only [command]
    split
    · split <;> exact .refl w
    · exact .refl w
  | closeUpdates => exact keeps_drain false
  | registry c => exact .of_visible rfl (.of_eq rfl rfl)

/-! ## Sessions -/

/-- A configured engine has no dispatch, no list delivered and none announced. -/
theorem orderly_configured (registry : Registry) (plugins : List (String × ScriptedPlugin))
    (c : Config) (history : HistoryStore) (disk : Disk) :
    Orderly (configured registry plugins c history disk) where
  ids := ⟨List.nodup_nil, fun _ h => nomatch h⟩
  nodup := List.nodup_nil
  issued := fun _ h => nomatch h
  delivered_le := Nat.zero_le _
  fresh := fun h => nomatch h
  sorted := List.Pairwise.nil
  announced_le := fun _ h => nomatch h
  tracked := fun _ h => nomatch h
  ranked := fun _ h => nomatch h

/-- The engine after the commands of a session, one after the other. -/
theorem commands_snd (cs : List EngineCommand) :
    (w.commands cs).2 = cs.foldl (fun w c => (w.command c).2) w :=
  (List.foldl_hom Prod.fst fun _ _ => rfl).symm

end World

end Launcher.Engine
