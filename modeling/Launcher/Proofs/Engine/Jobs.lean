import Launcher.Proofs.Engine.Collect

/-!
# The engine's other work leaves the dispatches alone

A dispatch under way reads of the engine only what `World.Aside` keeps. Besides the thread's
bookkeeping, which keeps it by `World.Aside.of_view`, the engine issues generations, runs plugin
calls, runs the caller's jobs that are not queries (sleeping, selecting, bringing plugins up) and
answers the caller's commands. Each of these is aside every dispatch, or every dispatch but one:

* `World.Aside.of_tasks` — a step that keeps the tasks and the pools, and moves nothing else a
  dispatch reads the wrong way, is aside every dispatch;
* `World.aside_beginQuery` — issuing a generation;
* `World.pollCall_cases` — a plugin call's poll leaves it as it was, asleep, or ended with its
  plugin's answer to its query;
* `World.aside_pollSleep`, `World.aside_pollSelect`, `World.aside_pollBringUp`,
  `World.aside_pollReload` — the caller's other jobs; `World.aside_pollStartAll` — starting every
  plugin uses the caller's pool, so it is aside every dispatch but the caller's;
* `World.aside_spawn_search`, `World.aside_updateTask_search` — a new search, and a search whose
  record is replaced, are aside every other dispatch.
-/

namespace Launcher.Engine

namespace World

variable {w w' : World} {o : Option Owner}

/-! ## Steps that keep the tasks -/

/-- **A step that keeps the tasks and the pools** is aside every dispatch when it hands out ids
only forward, keeps the options, the plugins, the length of lists and the registry's distinct ids,
gives the caller's job no dispatch it did not hold, moves no generation back, announces no list
and delivers none. -/
theorem Aside.of_tasks (ht : w'.tasks = w.tasks) (hp : w'.pools = w.pools)
    (hn : w.nextId ≤ w'.nextId) (ho : w'.options = w.options) (hpl : w'.plugins = w.plugins)
    (hmx : w'.maxResults = w.maxResults) (hr : w.registry.ids.Nodup → w'.registry.ids.Nodup)
    (hm : ∀ e, w'.main.search? = some e → w.main.search? = some e)
    (hg : w.generations.current ≤ w'.generations.current)
    (hout : ∀ u ∈ w'.outbox, u ∈ w.outbox ∨ u.results? = none)
    (hd : w'.delivered = w.delivered) : Aside none w w' := by
  have htask : ∀ t, w'.task? t = w.task? t := fun t => by rw [task?, task?, ht]
  refine ⟨hn, fun h => ⟨by rw [ht]; exact h.nodup, fun t hmem => ?_⟩, hg, ho, hpl, hmx, hr,
    fun t x' hx _ => ⟨x', by rwa [htask] at hx, rfl⟩, fun h x hx => ?_, fun o' e _ he => ?_,
    fun o' _ => by rw [liveOf, liveOf, pool?, pool?, hp], hout, hd⟩
  · rw [ht] at hmem
    exact Nat.lt_of_lt_of_le (h.lt t hmem) hn
  · rw [ht] at hx
    exact (h x hx).of_plugins hpl
  · cases o' with
    | main => exact hm e he
    | task id => rwa [dispatchOf, htask] at he

/-- Changing the history and its file is aside every dispatch. -/
theorem aside_history (w : World) (h : HistoryStore) (d : Disk) :
    Aside none w { w with history := h, disk := d } :=
  .of_tasks rfl rfl (Nat.le_refl _) rfl rfl rfl id (fun _ h => h) (Nat.le_refl _)
    (fun _ h => .inl h) rfl

/-- So is changing the registry without changing its ids. -/
theorem aside_registry (w : World) {r : Registry} (hr : r.ids = w.registry.ids) :
    Aside none w { w with registry := r } :=
  .of_tasks rfl rfl (Nat.le_refl _) rfl rfl rfl (fun h => hr ▸ h) (fun _ h => h)
    (Nat.le_refl _) (fun _ h => .inl h) rfl

/-- So is giving the caller a job that holds no dispatch. -/
theorem aside_setMain (w : World) {m : MainJob} (hm : m.search? = none) :
    Aside none w { w with main := m } :=
  .of_tasks rfl rfl (Nat.le_refl _) rfl rfl rfl id (fun e h => by rw [hm] at h; cases h)
    (Nat.le_refl _) (fun _ h => .inl h) rfl

/-- So is announcing a plugin's state. -/
theorem aside_notify_stateChanged (w : World) (id : String) (s : PluginState) :
    Aside none w (w.notify (.stateChanged id s)) := by
  unfold notify
  split
  · refine .of_tasks rfl rfl (Nat.le_refl _) rfl rfl rfl (fun h => h) (fun _ h => h)
      (Nat.le_refl _) (fun u hu => ?_) rfl
    rw [List.mem_append, List.mem_singleton] at hu
    rcases hu with hu | rfl
    · exact .inl hu
    · exact .inr rfl
  · exact .refl w

/-- So is taking what is queued off the update channel, or closing it. -/
theorem aside_drain (w : World) (l : Bool) : Aside none w { w with listening := l, outbox := [] } :=
  .of_tasks rfl rfl (Nat.le_refl _) rfl rfl rfl id (fun _ h => h) (Nat.le_refl _)
    (fun _ h => nomatch h) rfl

/-! ## The thread's bookkeeping -/

section Quiet

variable (w : World)

theorem aside_logCall (id : String) (f : CallLog → CallLog) : Aside none w (w.logCall id f) :=
  .of_view (dispatchView_logCall w id f) (visible_logCall w id f) (taskFrame_logCall w id f)

theorem aside_release (plugin : String) : Aside none w (w.release plugin) :=
  .of_view (dispatchView_release w plugin) (visible_release w plugin) (taskFrame_release w plugin)

theorem aside_foldl_wake {α : Type} (f : α → Waker) (l : List α) :
    Aside none w (l.foldl (fun w x => w.wake (f x)) w) :=
  .of_view (dispatchView_foldl_wake f l w) (visible_foldl_wake f l w) (taskFrame_foldl_wake f l w)

theorem aside_afterPoll (id : Nat) : Aside none w (w.afterPoll id) :=
  .of_view (dispatchView_afterPoll w id) (visible_afterPoll w id) (taskFrame_afterPoll w id)

theorem aside_nextTask : Aside none w w.nextTask.2 :=
  .of_view (dispatchView_nextTask w) (visible_nextTask w) (taskFrame_nextTask w)

theorem aside_park : Aside none w w.park :=
  .of_view (dispatchView_park w) (visible_park w) (taskFrame_park w)

theorem aside_parkYield : Aside none w w.parkYield :=
  .of_view (dispatchView_parkYield w) (visible_parkYield w) (taskFrame_parkYield w)

theorem aside_deliverSelection (plugin : String) (item : ResultItem) (k : Waker) :
    Aside none w (w.deliverSelection plugin item k).2 :=
  .of_view (dispatchView_deliverSelection w plugin item k) (visible_deliverSelection w plugin item k)
    (taskFrame_deliverSelection w plugin item k)

end Quiet

/-- **Issuing a generation** is aside every dispatch: the current generation moves on, and the
listeners of the one before are woken. -/
theorem aside_beginQuery (w : World) : Aside none w w.beginQuery.2 := by
  unfold beginQuery
  dsimp only
  refine Aside.trans ?_ (aside_foldl_wake _ _ _)
  exact .of_tasks rfl rfl (Nat.le_refl _) rfl rfl rfl id (fun _ h => h) (Nat.le_succ _)
    (fun _ h => .inl h) rfl

/-! ## Plugin calls -/

/-- **A plugin call's poll** leaves the call as it was, puts it to sleep until a deadline, or
ends it with its plugin's answer to its query. -/
theorem pollCall_cases (w : World) (self : Nat) (c : Call) :
    (w.pollCall self c).2.1 = c ∨ (∃ d, (w.pollCall self c).2.1 = { c with phase := .sleeping d }) ∨
      (w.pollCall self c).2.1 = { c with phase := .done ((w.plugin c.plugin).answer c.query) } := by
  unfold pollCall
  cases c.phase with
  | fresh =>
    dsimp only
    split_ifs
    · exact .inr (.inr rfl)
    · exact .inr (.inl ⟨_, rfl⟩)
  | sleeping d =>
    dsimp only
    split_ifs
    · exact .inr (.inr rfl)
    · exact .inl rfl
  | done a => exact .inl rfl

theorem dispatchView_pollCall (w : World) (self : Nat) (c : Call) :
    (w.pollCall self c).1.dispatchView = w.dispatchView := by
  unfold pollCall
  cases c.phase with
  | fresh =>
    dsimp only
    split_ifs
    · cases c.join <;> simp
    · simp
  | sleeping d =>
    dsimp only
    split_ifs
    · cases c.join <;> simp
    · rfl
  | done a => rfl

theorem aside_pollCall (w : World) (self : Nat) (c : Call) : Aside none w (w.pollCall self c).1 :=
  .of_view (dispatchView_pollCall w self c) (visible_pollCall w self c) (taskFrame_pollCall w self c)

/-- The call a poll leaves is a call of the same plugin and query, and holds its plugin's answer
if it ended. -/
theorem answered_pollCall (self : Nat) (c : Call) (h : w.Answered (.call c)) :
    (w.pollCall self c).2.1.plugin = c.plugin ∧ (w.pollCall self c).2.1.query = c.query ∧
      (w.pollCall self c).2.1.awaited = c.awaited ∧ w.Answered (.call (w.pollCall self c).2.1) := by
  rcases pollCall_cases w self c with hc | ⟨d, hc⟩ | hc
  all_goals refine ⟨by rw [hc], by rw [hc], by rw [hc], ?_⟩
  · rwa [hc]
  · intro c' a hb ha
    rw [hc, TaskBody.call.injEq] at hb
    rw [← hb] at ha
    cases ha
  · intro c' a hb ha
    rw [hc, TaskBody.call.injEq] at hb
    subst hb
    cases ha
    rfl

/-! ## The caller's jobs that are not queries -/

theorem aside_pollSleep (w : World) (ms : Nat) (deadline timer : Option Nat) :
    Aside none w (w.pollSleep ms deadline timer).1 := by
  unfold pollSleep
  dsimp only
  have h₁ := aside_pollDelay w ⟨.main, none⟩ (deadline.getD (w.sleepEnd ms)) timer
  rcases hd : w.pollDelay ⟨.main, none⟩ (deadline.getD (w.sleepEnd ms)) timer with
    ⟨_ | _, timer', w₁⟩
  all_goals rw [hd] at h₁
  · exact h₁.trans (aside_setMain w₁ rfl)
  · exact (h₁.trans (aside_dropTimer? w₁ timer')).trans (aside_setMain _ rfl)

theorem aside_rememberSelection (w : World) (g : Nat) (p : String) (i : ResultItem) :
    Aside none w (w.rememberSelection g p i).1 := by
  rcases rememberSelection_cases w g p i with h | ⟨d, -, -, h⟩
  all_goals rw [h]
  · exact .refl w
  · exact aside_history w _ _

theorem aside_pollSelect_holding (w : World) (g : Nat) (p : String) (i : ResultItem) :
    Aside none w (w.pollSelect g p i .holding).1 := by
  rw [pollSelect]
  have h₁ := aside_deliverSelection w p i ⟨.main, none⟩
  rcases hd : w.deliverSelection p i ⟨.main, none⟩ with ⟨_ | _, w₁⟩
  all_goals
    rw [hd] at h₁
    exact h₁.trans (aside_setMain w₁ rfl)

/-- **A selection** is aside every dispatch, whatever stage it is at. -/
theorem aside_pollSelect (w : World) (g : Nat) (p : String) (i : ResultItem) (s : SelectStage) :
    Aside none w (w.pollSelect g p i s).1 := by
  cases s with
  | start =>
    rw [pollSelect]
    split
    · exact aside_setMain w rfl
    · have h₁ := aside_rememberSelection w g p i
      rcases hr : w.rememberSelection g p i with ⟨w₁, _ | err⟩
      all_goals
        rw [hr] at h₁
        dsimp only
      · have h₂ := aside_tryAcquire w₁ p
        rcases hq : w₁.tryAcquire p with ⟨_ | _, w₂⟩
        all_goals rw [hq] at h₂
        · exact (h₁.trans h₂).trans ((aside_enqueueWaiter w₂ p ⟨.main, none⟩).trans
            (aside_setMain _ rfl))
        · exact (h₁.trans h₂).trans (aside_pollSelect_holding w₂ g p i)
      · exact h₁.trans (aside_setMain w₁ rfl)
  | queued x =>
    rw [pollSelect]
    split
    · exact (aside_settleWaiter w x).trans (aside_pollSelect_holding _ g p i)
    · exact .refl w
  | holding => exact aside_pollSelect_holding w g p i

/-- A lifecycle move keeps the registry's ids. -/
theorem ids_of_move {r r' : Registry} {c : Registry.Call} {id : String} {s : PluginState}
    (hc : c.move? = some (id, s)) (h : r.call c = .ok r') : r'.ids = r.ids := by
  rw [Registry.call_of_move? hc] at h
  exact Registry.ids_moveTo h

/-- **A bring-up step** runs between taking the gate and releasing it, and moves the plugin to
its end state. -/
theorem aside_runStep (w : World) (k : Waker) (id : String) (reload : Bool) :
    Aside none w (w.runStep k id reload).1 := by
  unfold runStep
  split
  · exact aside_defer w k
  · dsimp only
    have h₁ : Aside none w ((if reload then w.spend.logCall id fun l => { l with reloads := l.reloads + 1 }
        else w.spend).release id) := by
      refine Aside.trans ?_ (aside_release _ _)
      split
      · exact (aside_spend w).trans (aside_logCall _ _ _)
      · exact aside_spend w
    generalize (if reload then w.spend.logCall id fun l => { l with reloads := l.reloads + 1 }
      else w.spend).release id = w₁ at h₁ ⊢
    split
    · exact h₁
    · next r heq =>
      have hids : r.ids = w₁.registry.ids := by
        split at heq
        · exact ids_of_move (c := .markReady id) rfl heq
        · exact ids_of_move (c := .markFailed id _) rfl heq
        · exact ids_of_move (c := .markFailed id _) rfl heq
      exact (h₁.trans (aside_registry w₁ hids)).trans (aside_notify_stateChanged _ _ _)

/-- **A bring-up's poll** is aside every dispatch: it announces the plugin and takes its gate,
queues for it, or runs its step. -/
theorem aside_pollBringUp (w : World) (k : Waker) (b : BringUp) :
    Aside none w (w.pollBringUp k b).1 := by
  cases b with
  | fresh id reload =>
    rw [pollBringUp]
    split
    · exact .refl w
    · next r heq =>
      have h₁ : Aside none w ({ w with registry := r }.notify (.stateChanged id .initializing)) :=
        (aside_registry w (ids_of_move (c := .beginInitialize id) rfl heq)).trans
          (aside_notify_stateChanged _ _ _)
      generalize { w with registry := r }.notify (.stateChanged id .initializing) = w₁ at h₁ ⊢
      have h₂ := aside_tryAcquire w₁ id
      dsimp only
      rcases hq : w₁.tryAcquire id with ⟨_ | _, w₂⟩
      all_goals rw [hq] at h₂
      · exact (h₁.trans h₂).trans (aside_enqueueWaiter w₂ id k)
      · exact (h₁.trans h₂).trans (aside_runStep w₂ k id reload)
  | waiting id reload waiter =>
    rw [pollBringUp]
    split
    · exact (aside_settleWaiter w waiter).trans (aside_runStep _ k id reload)
    · exact .refl w
  | holding id reload => exact aside_runStep w k id reload
  | done id result => exact .refl w

theorem aside_pollBringUps (w : World) (bs : List BringUp) :
    Aside none w (w.pollBringUps bs).1 := by
  induction bs generalizing w with
  | nil => exact .refl w
  | cons b bs ih =>
    rw [pollBringUps]
    have h₁ : Aside none w (if b.isDone then (w, b) else w.pollBringUp ⟨.main, none⟩ b).1 := by
      split
      · exact .refl w
      · exact aside_pollBringUp w _ b
    exact h₁.trans (ih _)

/-- Polling the bring-ups in the caller's pool is aside every dispatch but the caller's. -/
theorem aside_collectBringUps (fuel : Nat) (ups : List BringUp) (w : World) :
    Aside (some .main) w (w.collectBringUps fuel ups).1 := by
  induction fuel generalizing ups w with
  | zero => exact (aside_wakeOwner w .main).mono _
  | succ fuel ih =>
    rw [collectBringUps]
    split
    all_goals
      rename_i heq
      have h₁ := @rel_pollPool BringUp Unit (Aside (some .main)) _ _ _ _ _ _ _ _ heq
        (fun h₁ h₂ => h₁.trans h₂) (fun w => (aside_wakeOwner w .main).mono _)
        (fun w => (aside_dequeue w .main).mono _) (fun w f hf => aside_updatePool .main f hf)
        (fun w k b => (aside_pollBringUp w k b).mono _)
    · exact h₁.trans (ih _ _)
    · exact h₁
    · exact h₁

/-- Making the caller's pool anew is aside every dispatch but the caller's. -/
theorem aside_newPool (w : World) (p : Pool) (hp : p.owner = .main) :
    Aside (some .main) w
      { w with pools := w.pools.filter (fun (p : Pool) => p.owner != .main) ++ [p] } := by
  refine ⟨Nat.le_refl _, fun h => ⟨h.nodup, h.lt⟩, Nat.le_refl _, rfl, rfl, rfl, id,
    fun _ x' hx _ => ⟨x', hx, rfl⟩, id, fun _ _ _ he => he, fun o' ho => ?_, fun _ h => .inl h,
    rfl⟩
  have hne : o' ≠ .main := fun h => ho (congrArg some h.symm)
  simp only [liveOf, pool?, List.find?_append, List.find?_filter, List.find?_singleton, hp]
  have hpf : ∀ q : Pool, decide ((q.owner != .main) = true ∧ (q.owner == o') = true) =
      (q.owner == o') := fun q => by by_cases hq : q.owner = o' <;> simp [hq, hne]
  simp only [hpf]
  cases w.pools.find? (·.owner == o') <;> simp [Ne.symm hne]

/-- Dropping an owner's pool is aside every dispatch but that owner's. -/
theorem aside_dropPool (w : World) (o : Owner) :
    Aside (some o) w { w with pools := w.pools.filter (fun (p : Pool) => p.owner != o) } := by
  refine ⟨Nat.le_refl _, fun h => ⟨h.nodup, h.lt⟩, Nat.le_refl _, rfl, rfl, rfl, id,
    fun _ x' hx _ => ⟨x', hx, rfl⟩, id, fun _ _ _ he => he, fun o' ho => ?_, fun _ h => .inl h,
    rfl⟩
  have hne : o' ≠ o := fun h => ho (congrArg some h.symm)
  simp only [liveOf, pool?, List.find?_filter]
  have hpf : ∀ q : Pool, decide ((q.owner != o) = true ∧ (q.owner == o') = true) =
      (q.owner == o') := fun q => by by_cases hq : q.owner = o' <;> simp [hq, hne]
  simp only [hpf]

/-- Changing the caller's job is aside every dispatch but the caller's. -/
theorem aside_main (w : World) (m : MainJob) : Aside (some .main) w { w with main := m } := by
  refine ⟨Nat.le_refl _, fun h => ⟨h.nodup, h.lt⟩, Nat.le_refl _, rfl, rfl, rfl, id,
    fun _ x' hx _ => ⟨x', hx, rfl⟩, id, fun o' e ho he => ?_, fun _ _ => rfl, fun _ h => .inl h,
    rfl⟩
  cases o' with
  | main => exact absurd rfl ho
  | task id => exact he

theorem aside_pollStartAll_some (w : World) (ups : List BringUp) :
    Aside (some .main) w (w.pollStartAll (some ups)).1 := by
  unfold pollStartAll
  dsimp only
  by_cases hc : ups.length ≤ startUpsPolledInTurn
  · simp only [hc, ↓reduceIte]
    split
    · exact ((aside_pollBringUps w ups).mono _).trans
        ((aside_dropPool _ .main).trans ((aside_setMain _ rfl).mono _))
    · exact (aside_pollBringUps w ups).trans (aside_setMain _ rfl) |>.mono _
  · simp only [hc, ↓reduceIte]
    split
    · exact (aside_collectBringUps _ ups w).trans
        ((aside_dropPool _ .main).trans ((aside_setMain _ rfl).mono _))
    · exact (aside_collectBringUps _ ups w).trans ((aside_setMain _ rfl).mono _)

/-- **Starting every plugin** is aside every dispatch but the caller's, whose pool it uses. -/
theorem aside_pollStartAll (w : World) (ups : Option (List BringUp)) :
    Aside (some .main) w (w.pollStartAll ups).1 := by
  cases ups with
  | some ups => exact aside_pollStartAll_some w ups
  | none =>
    let fresh := (w.registry.idsInState .unloaded).map (BringUp.fresh · false)
    by_cases hc : fresh.length ≤ startUpsPolledInTurn
    · have hs : w.pollStartAll none = w.pollStartAll (some fresh) := by
        simp only [pollStartAll, fresh, hc, ↓reduceIte]
      rw [hs]
      exact aside_pollStartAll_some w fresh
    · let w₁ : World := { w with pools := w.pools.filter (fun (p : Pool) => p.owner != .main) ++
        [⟨.main, List.range fresh.length, List.range fresh.length⟩] }
      have hs : w.pollStartAll none = w₁.pollStartAll (some fresh) := by
        simp only [pollStartAll, fresh, w₁, hc, ↓reduceIte]
      rw [hs]
      exact (aside_newPool w _ rfl).trans (aside_pollStartAll_some w₁ fresh)

/-- **A reload** is aside every dispatch: the plugin is reset and announced, then brought up. -/
theorem aside_pollReload (w : World) (id : String) (b : Option BringUp) :
    Aside none w (w.pollReload id b).1 := by
  have hsome : ∀ (w : World) (b : BringUp), Aside none w (w.pollReload id (some b)).1 := by
    intro w b
    rw [pollReload]
    have h₁ := aside_pollBringUp w ⟨.main, none⟩ b
    rcases hp : w.pollBringUp ⟨.main, none⟩ b with ⟨w₁, _ | _ | _ | ⟨_, _ | _⟩⟩
    all_goals
      rw [hp] at h₁
      exact h₁.trans (aside_setMain w₁ rfl)
  cases b with
  | some b => exact hsome w b
  | none =>
    rw [pollReload]
    split
    · exact aside_setMain w rfl
    · next r heq =>
      exact ((aside_registry w (ids_of_move (c := .reset id) rfl heq)).trans
        (aside_notify_stateChanged _ _ _)).trans (hsome _ _)

/-! ## Searches -/

/-- **A new search** is aside every dispatch but its own. -/
theorem aside_spawn_search (w : World) (e : Execute) :
    Aside (some (.task w.nextId)) w (w.spawn (.search e)).2 := by
  obtain ⟨ht, hn⟩ := tasks_spawn (w := w) (.search e)
  have hv := dispatchView_spawn (w := w) (.search e)
  simp only [dispatchView, Prod.mk.injEq] at hv
  obtain ⟨hm, -, hp, ho, hpl, hr⟩ := hv
  have hvis := visible_spawn w (.search e)
  have hout : (w.spawn (.search e)).2.outbox = w.outbox := congrArg Visible.outbox hvis
  refine ⟨by omega, taskIds_spawn _, Nat.le_of_eq (congrArg (·.generations.current) hvis).symm,
    ho, hpl, congrArg Visible.maxResults hvis, fun h => by rwa [hr], fun t x' hx hlt => ?_,
    fun h x hx => ?_, fun o' e' ho' he => ?_, fun o' _ => by rw [liveOf_view, liveOf_view, hp],
    fun u hu => .inl (hout ▸ hu), congrArg Visible.delivered hvis⟩
  · rw [task?_spawn, if_neg (Nat.ne_of_gt hlt), Option.or_none] at hx
    exact ⟨x', hx, rfl⟩
  · rw [ht, List.mem_append, List.mem_singleton] at hx
    rcases hx with hx | rfl
    · exact (h x hx).of_plugins hpl
    · intro c a hb
      cases hb
  · cases o' with
    | main =>
      rw [dispatchOf, hm] at he
      exact he
    | task id =>
      rw [dispatchOf, task?_spawn] at he
      rw [dispatchOf]
      cases hx : w.task? id with
      | some x => rwa [hx] at he
      | none =>
        rw [hx] at he
        split at he
        · next hid => exact (ho' (by rw [hid])).elim
        · cases he

/-- **A search's record replaced** is aside every dispatch but its own. -/
theorem aside_updateTask_search {t : Nat} {x₀ : Task} (hids : TaskIds w)
    (hx₀ : w.task? t = some x₀) (hs : x₀.body.search?.isSome) (e' : Execute) :
    Aside (some (.task t)) w (w.updateTask t fun x => { x with body := .search e' }) := by
  have hone : ∀ x ∈ w.tasks, x.id = t → x = x₀ := fun x hx hxt => hids.eq_of_task? hx₀ hx hxt
  have hid : ∀ x ∈ w.tasks, x.id = t → ({ x with body := .search e' } : Task).id = x.id :=
    fun _ _ _ => rfl
  have hcall : x₀.body.call? = none := by
    cases hb : x₀.body with
    | search _ => rfl
    | call _ => rw [hb] at hs; cases hs
  have hframe : TaskIds w → TaskIds (w.updateTask t fun x => { x with body := .search e' }) :=
    fun h => ⟨by simpa [updateTask, List.map_map, Function.comp_def, apply_ite] using h.nodup,
      fun x hx => by
        simp only [updateTask, List.mem_map] at hx
        obtain ⟨y, hy, rfl⟩ := hx
        split <;> exact h.lt y hy⟩
  refine ⟨Nat.le_refl _, hframe, Nat.le_refl _, rfl, rfl, rfl, id, fun t' x' hx _ => ?_,
    fun h x' hx' => ?_, fun o' e'' ho he => ?_, fun _ _ => rfl, fun _ h => .inl h, rfl⟩
  · rw [task?_updateTask t t' _ hid] at hx
    obtain ⟨x, hx₁, rfl⟩ := Option.map_eq_some_iff.1 hx
    refine ⟨x, hx₁, ?_⟩
    split
    · next hxt =>
      rw [hone x (mem_of_task? hx₁).1 (by simpa using hxt), hcall]
      rfl
    · rfl
  · simp only [updateTask, List.mem_map] at hx'
    obtain ⟨x, hx, rfl⟩ := hx'
    split
    · intro c a hb
      cases hb
    · exact h x hx
  · cases o' with
    | main => exact he
    | task id =>
      rw [dispatchOf, task?_updateTask t id _ hid] at he
      rw [dispatchOf]
      have hne : id ≠ t := fun h => ho (by rw [h])
      cases hx : w.task? id with
      | none => rw [hx] at he; cases he
      | some x =>
        rw [hx, Option.map_some, Option.bind_some] at he
        rw [Option.bind_some, ← he]
        have hxid : x.id ≠ t := by rw [(mem_of_task? hx).2]; exact hne
        simp [hxid]

end World

end Launcher.Engine
