import Mathlib.Data.List.Nodup
import Launcher.Proofs.Engine.Frame

/-!
# Spawned tasks keep distinct ids, and their dispatches

Every task is spawned under a fresh id, and a task's body is replaced only by its own poll. So
the tasks keep distinct ids, and the query dispatches they run change only when one is spawned
for a submitted query, or when its own poll ends it. This is proved here, for every step of the
engine's bookkeeping and of a dispatch before its end:

* `World.TaskIds` — the task ids are distinct, and all below the next fresh id;
* `World.searches` — the dispatches the tasks run, as pairs of task id and generation;
* `World.TaskFrame` — a step that hands out ids only forward, and that, on an engine whose task
  ids are distinct, keeps them distinct and leaves the dispatches alone.

Plugin calls are tasks too: they come and go under the dispatches, and a call task is only ever
removed or changed once it was found to be a call, which is what needs the ids to be distinct.
-/

namespace Launcher.Engine

/-- The generation a task dispatches, when it runs a query. -/
def TaskBody.generation? : TaskBody → Option Nat
  | .search e => some e.generation
  | .call _ => none

namespace World

/-- The query dispatches run by tasks: each one's task id and generation. -/
def searches (w : World) : List (Nat × Nat) :=
  w.tasks.filterMap fun t => t.body.generation?.map (t.id, ·)

/-- The ids of the tasks, each with the generation it dispatches, if it runs a query. -/
def taskView (w : World) : List (Nat × Option Nat) :=
  w.tasks.map fun t => (t.id, t.body.generation?)

/-- The task ids are distinct, and all handed out already. -/
structure TaskIds (w : World) : Prop where
  nodup : (w.tasks.map (·.id)).Nodup
  lt : ∀ t ∈ w.tasks, t.id < w.nextId

/-- A step that hands out ids only forward and, on an engine whose task ids are distinct, keeps
them distinct and leaves the dispatches among the tasks alone. -/
structure TaskFrame (w w' : World) : Prop where
  nextId : w.nextId ≤ w'.nextId
  keep : TaskIds w → TaskIds w' ∧ w'.searches = w.searches

variable {w w' w'' : World}

theorem TaskIds.eq_of_id (h : TaskIds w) {t t' : Task} (ht : t ∈ w.tasks) (ht' : t' ∈ w.tasks)
    (hid : t.id = t'.id) : t = t' :=
  List.inj_on_of_nodup_map h.nodup ht ht' hid

theorem mem_of_task? {id : Nat} {t : Task} (h : w.task? id = some t) : t ∈ w.tasks ∧ t.id = id :=
  ⟨List.mem_of_find?_eq_some h, by simpa using List.find?_some h⟩

/-- With distinct ids, the task found under an id is the only task with it. -/
theorem TaskIds.eq_of_task? (h : TaskIds w) {id : Nat} {t t' : Task} (ht : w.task? id = some t)
    (ht' : t' ∈ w.tasks) (hid : t'.id = id) : t' = t :=
  h.eq_of_id ht' (mem_of_task? ht).1 (hid.trans (mem_of_task? ht).2.symm)

namespace TaskFrame

theorem refl (w : World) : TaskFrame w w := ⟨Nat.le_refl _, fun h => ⟨h, rfl⟩⟩

theorem trans (h₁ : TaskFrame w w') (h₂ : TaskFrame w' w'') : TaskFrame w w'' := by
  refine ⟨Nat.le_trans h₁.nextId h₂.nextId, fun h => ?_⟩
  obtain ⟨h', hs'⟩ := h₁.keep h
  obtain ⟨h'', hs''⟩ := h₂.keep h'
  exact ⟨h'', hs''.trans hs'⟩

/-- A step that leaves the tasks alone and hands out ids only forward. -/
theorem of_le (ht : w'.tasks = w.tasks) (hn : w.nextId ≤ w'.nextId) : TaskFrame w w' := by
  refine ⟨hn, fun h => ⟨⟨ht ▸ h.nodup, fun t hmem => ?_⟩, by simp only [searches, ht]⟩⟩
  exact Nat.lt_of_lt_of_le (h.lt t (ht ▸ hmem)) hn

theorem of_eq (ht : w'.tasks = w.tasks) (hn : w'.nextId = w.nextId) : TaskFrame w w' :=
  of_le ht (Nat.le_of_eq hn.symm)

/-- A step that changes no task's id nor what it dispatches, and hands out ids only forward. -/
theorem of_view (hv : w'.taskView = w.taskView) (hn : w.nextId ≤ w'.nextId) : TaskFrame w w' := by
  have hids : w'.tasks.map (·.id) = w.tasks.map (·.id) := by
    have := congrArg (List.map Prod.fst) hv
    simpa [taskView, List.map_map, Function.comp_def] using this
  refine ⟨hn, fun h => ⟨⟨hids ▸ h.nodup, fun t ht => ?_⟩, ?_⟩⟩
  · have hmem : t.id ∈ w.tasks.map (·.id) := hids ▸ List.mem_map_of_mem ht
    obtain ⟨t₀, ht₀, he⟩ := List.mem_map.1 hmem
    exact Nat.lt_of_lt_of_le (he ▸ h.lt t₀ ht₀) hn
  · have := congrArg (List.filterMap fun p : Nat × Option Nat => p.2.map (p.1, ·)) hv
    simpa [taskView, searches, List.filterMap_map, Function.comp_def] using this

/-- What a step may do when the engine's task ids are distinct. -/
theorem of_taskIds (hn : w.nextId ≤ w'.nextId) (h : TaskIds w → TaskFrame w w') :
    TaskFrame w w' :=
  ⟨hn, fun hids => (h hids).keep hids⟩

end TaskFrame

/-! ## Changing, removing and spawning tasks -/

/-- Changing the tasks of an id keeps the ids and the dispatches, when it keeps each one's id
and what it dispatches. -/
theorem taskFrame_updateTask (id : Nat) (f : Task → Task)
    (hf : ∀ t ∈ w.tasks, t.id = id → (f t).id = t.id ∧ (f t).body.generation? = t.body.generation?) :
    TaskFrame w (w.updateTask id f) := by
  have hsame : ∀ t ∈ w.tasks, (if t.id == id then f t else t).id = t.id ∧
      (if t.id == id then f t else t).body.generation? = t.body.generation? := by
    intro t ht
    by_cases hid : t.id = id
    · simpa [hid] using hf t ht hid
    · simp [hid]
  refine ⟨Nat.le_refl _, fun h => ⟨⟨?_, ?_⟩, ?_⟩⟩
  · have hids : (w.updateTask id f).tasks.map (·.id) = w.tasks.map (·.id) := by
      simp only [updateTask, List.map_map]
      exact List.map_congr_left fun t ht => (hsame t ht).1
    rw [hids]
    exact h.nodup
  · intro t ht
    simp only [updateTask, List.mem_map] at ht
    obtain ⟨t₀, ht₀, rfl⟩ := ht
    rw [(hsame t₀ ht₀).1]
    exact h.lt t₀ ht₀
  · simp only [searches, updateTask, List.filterMap_map]
    exact List.filterMap_congr fun t ht => by
      simp only [Function.comp_apply, (hsame t ht).1, (hsame t ht).2]

/-- Removing the tasks of an id keeps the dispatches when none of them is one. -/
theorem taskFrame_removeTask (id : Nat) (hf : ∀ t ∈ w.tasks, t.id = id → t.body.generation? = none) :
    TaskFrame w (w.removeTask id) := by
  refine ⟨Nat.le_refl _, fun h => ⟨⟨?_, ?_⟩, ?_⟩⟩
  · exact (List.filter_sublist.map _).nodup h.nodup
  · intro t ht
    exact h.lt t (List.mem_of_mem_filter ht)
  · simp only [searches, removeTask, List.filterMap_filter]
    refine List.filterMap_congr fun t ht => ?_
    by_cases hid : t.id = id
    · simp [hid, hf t ht hid]
    · simp [hid]

/-- Removing the task of an id drops its dispatch, if it runs one, and no other. -/
theorem searches_removeTask (id : Nat) :
    (w.removeTask id).searches = w.searches.filter (·.1 != id) := by
  simp only [searches, removeTask, List.filterMap_filter, List.filter_filterMap]
  refine List.filterMap_congr fun t _ => ?_
  by_cases hid : t.id = id <;> cases t.body.generation? <;> simp [hid, Option.filter]

theorem taskIds_removeTask (id : Nat) (h : TaskIds w) : TaskIds (w.removeTask id) :=
  ⟨(List.filter_sublist.map _).nodup h.nodup, fun t ht => h.lt t (List.mem_of_mem_filter ht)⟩

/-- Spawning puts the new task last, under the next fresh id. -/
theorem tasks_spawn (body : TaskBody) :
    (w.spawn body).2.tasks = w.tasks ++ [{ id := w.nextId, body := body, state := .queued }] ∧
      (w.spawn body).2.nextId = w.nextId + 1 := by
  simp only [spawn, fresh, enqueue]
  by_cases hi : w.inside = true <;> simp [hi, unpark]

/-- A new task keeps the ids distinct. -/
theorem taskIds_spawn (body : TaskBody) (h : TaskIds w) : TaskIds (w.spawn body).2 := by
  obtain ⟨ht, hn⟩ := tasks_spawn (w := w) body
  refine ⟨?_, fun t hmem => ?_⟩
  · rw [ht, List.map_append, List.nodup_append]
    refine ⟨h.nodup, List.nodup_singleton _, ?_⟩
    intro a ha b hb
    obtain ⟨t, ht', rfl⟩ := List.mem_map.1 ha
    rw [List.map_singleton, List.mem_singleton] at hb
    subst hb
    exact Nat.ne_of_lt (h.lt t ht')
  · rw [ht, List.mem_append, List.mem_singleton] at hmem
    rw [hn]
    rcases hmem with hmem | rfl
    · exact Nat.lt_succ_of_lt (h.lt t hmem)
    · exact Nat.lt_succ_self _

/-- A plugin call is spawned under a fresh id, and is no dispatch. -/
theorem taskFrame_spawn_call (c : Call) : TaskFrame w (w.spawn (.call c)).2 := by
  obtain ⟨ht, hn⟩ := tasks_spawn (w := w) (.call c)
  refine ⟨by omega, fun h => ⟨taskIds_spawn _ h, ?_⟩⟩
  simp [searches, ht, TaskBody.generation?]

/-! ## The dispatch of one task -/

theorem mem_searches_of_task? {id : Nat} {t : Task} {g : Nat} (ht : w.task? id = some t)
    (hg : t.body.generation? = some g) : (id, g) ∈ w.searches := by
  obtain ⟨hmem, hid⟩ := mem_of_task? ht
  exact List.mem_filterMap.2 ⟨t, hmem, by rw [hg, hid]; rfl⟩

/-- Each task runs at most one dispatch, so the dispatches have distinct task ids. -/
theorem keys_searches_sublist : ∀ ts : List Task,
    ((ts.filterMap fun t => t.body.generation?.map (t.id, ·)).map (·.1)).Sublist (ts.map (·.id))
  | [] => .slnil
  | t :: ts => by
    cases h : t.body.generation? with
    | none => simpa [h] using (keys_searches_sublist ts).cons t.id
    | some g => simpa [h] using (keys_searches_sublist ts).cons_cons t.id

theorem TaskIds.nodup_keys (h : TaskIds w) : (w.searches.map (·.1)).Nodup :=
  (keys_searches_sublist w.tasks).nodup h.nodup

/-- With distinct ids, every task under the id of a dispatch is that dispatch's task. -/
theorem TaskIds.generation?_of_mem (h : TaskIds w) {id g : Nat} (hmem : (id, g) ∈ w.searches) :
    ∀ x ∈ w.tasks, x.id = id → x.body.generation? = some g := by
  intro x hx hxid
  obtain ⟨x₀, hx₀, he⟩ := List.mem_filterMap.1 hmem
  obtain ⟨g₀, hg₀, hpair⟩ := Option.map_eq_some_iff.1 he
  simp only [Prod.mk.injEq] at hpair
  rw [h.eq_of_id hx hx₀ (hxid.trans hpair.1.symm), hg₀, hpair.2]

/-- Under an id that no dispatch has, every task dispatches nothing. -/
theorem generation?_eq_none_of_not_mem {id : Nat} (hn : ∀ g, (id, g) ∉ w.searches) :
    ∀ x ∈ w.tasks, x.id = id → x.body.generation? = none := by
  intro x hx hxid
  cases hg : x.body.generation? with
  | none => rfl
  | some g => exact absurd (List.mem_filterMap.2 ⟨x, hx, by rw [hg, hxid]; rfl⟩) (hn g)

/-- With distinct ids, a plugin call's id is no dispatch's. -/
theorem TaskIds.not_mem_searches (h : TaskIds w) {id : Nat} {t : Task} (ht : w.task? id = some t)
    (hb : t.body.generation? = none) : ∀ g, (id, g) ∉ w.searches := by
  intro g hmem
  obtain ⟨hmem₀, hid⟩ := mem_of_task? ht
  rw [h.generation?_of_mem hmem t hmem₀ hid] at hb
  cases hb

/-- With distinct ids, a dispatch can be taken out of the list of dispatches by its task id. -/
theorem TaskIds.searches_perm (h : TaskIds w) {id g : Nat} (hmem : (id, g) ∈ w.searches) :
    w.searches.Perm ((id, g) :: w.searches.filter (·.1 != id)) := by
  have hnd := h.nodup_keys
  refine (List.perm_cons_erase hmem).trans (List.Perm.cons _ (List.Perm.of_eq ?_))
  rw [(List.Nodup.of_map _ hnd).erase_eq_filter]
  refine List.filter_congr fun p hp => ?_
  by_cases hp₁ : p.1 = id
  · have : p = (id, g) := List.inj_on_of_nodup_map hnd hp hmem hp₁
    simp [this]
  · have : p ≠ (id, g) := fun he => hp₁ (by rw [he])
    rw [bne_iff_ne.2 this, bne_iff_ne.2 hp₁]

/-! ## Steps that change no task's id nor what it dispatches -/

section Bookkeeping

variable (w : World)

/-- Changing tasks in a way that keeps every id and dispatch. -/
theorem taskView_updateTask (id : Nat) (f : Task → Task)
    (hf : ∀ t, (f t).id = t.id ∧ (f t).body.generation? = t.body.generation?) :
    (w.updateTask id f).taskView = w.taskView := by
  simp only [taskView, updateTask, List.map_map]
  refine List.map_congr_left fun t _ => ?_
  by_cases hid : t.id = id
  · simp [hid, (hf t).1, (hf t).2]
  · simp [hid]

theorem taskFrame_addTimer (d : Nat) (k : Waker) : TaskFrame w (w.addTimer d k).2 :=
  .of_le rfl (Nat.le_succ _)

theorem taskFrame_dropTimer? (t : Option Nat) : TaskFrame w (w.dropTimer? t) := by
  cases t <;> exact .of_eq rfl rfl

theorem taskFrame_logCall (id : String) (f : CallLog → CallLog) : TaskFrame w (w.logCall id f) := by
  unfold logCall
  split <;> exact .of_eq rfl rfl

theorem taskFrame_enqueue (id : Nat) : TaskFrame w (w.enqueue id) := by
  unfold enqueue
  split <;> exact .of_eq rfl rfl

/-- Changing a task's scheduling state. -/
theorem taskFrame_updateState (id : Nat) (s : TaskState) :
    TaskFrame w (w.updateTask id fun t => { t with state := s }) :=
  .of_view (taskView_updateTask _ _ _ fun _ => ⟨rfl, rfl⟩) (Nat.le_refl _)

theorem taskFrame_schedule (id : Nat) : TaskFrame w (w.schedule id) := by
  unfold schedule
  split
  · split
    · exact (taskFrame_updateState w id _).trans (taskFrame_enqueue _ id)
    · exact taskFrame_updateState w id _
    · exact .refl w
  · exact .refl w

theorem taskFrame_wakeOwner (o : Owner) : TaskFrame w (w.wakeOwner o) := by
  cases o with
  | main => exact .of_eq rfl rfl
  | task id => exact taskFrame_schedule w id

theorem taskFrame_wake (k : Waker) : TaskFrame w (w.wake k) := by
  unfold wake
  split
  · exact taskFrame_wakeOwner w _
  · split
    · split
      · refine TaskFrame.trans ?_ (taskFrame_wakeOwner _ _)
        exact .of_eq rfl rfl
      · exact .refl w
    · exact .refl w

theorem taskFrame_foldl_wake {α : Type} (f : α → Waker) :
    ∀ (l : List α) (w : World), TaskFrame w (l.foldl (fun w x => w.wake (f x)) w)
  | [], w => .refl w
  | x :: l, w => (taskFrame_wake w (f x)).trans (taskFrame_foldl_wake f l _)

theorem taskFrame_defer (k : Waker) : TaskFrame w (w.defer k) := by
  unfold defer
  split <;> exact .of_eq rfl rfl

theorem taskFrame_wakeDeferred : TaskFrame w w.wakeDeferred := by
  unfold wakeDeferred
  refine TaskFrame.trans ?_ (taskFrame_foldl_wake id _ _)
  exact .of_eq rfl rfl

theorem taskFrame_pollDelay (k : Waker) (d : Nat) (timer : Option Nat) :
    TaskFrame w (w.pollDelay k d timer).2.2 := by
  unfold pollDelay
  split
  · exact taskFrame_defer w k
  · split
    · exact .of_eq rfl rfl
    · split
      · exact .refl w
      · exact taskFrame_addTimer w d k

theorem taskFrame_tryAcquire (plugin : String) : TaskFrame w (w.tryAcquire plugin).2 := by
  unfold tryAcquire
  dsimp only
  split <;> exact .of_eq rfl rfl

theorem taskFrame_enqueueWaiter (plugin : String) (k : Waker) :
    TaskFrame w (w.enqueueWaiter plugin k).2 :=
  .of_le rfl (Nat.le_succ _)

theorem taskFrame_release (plugin : String) : TaskFrame w (w.release plugin) := by
  unfold release
  dsimp only
  split
  · exact .of_eq rfl rfl
  · split
    · refine TaskFrame.trans ?_ (taskFrame_wake _ _)
      exact .of_eq rfl rfl
    · exact .of_eq rfl rfl

theorem taskFrame_settleWaiter (id : Nat) : TaskFrame w (w.settleWaiter id) := .of_eq rfl rfl

theorem taskFrame_dropWaiter (id : Nat) : TaskFrame w (w.dropWaiter id) := by
  unfold dropWaiter
  split
  · exact .refl w
  · split
    · refine TaskFrame.trans ?_ (taskFrame_release _ _)
      exact .of_eq rfl rfl
    · exact .of_eq rfl rfl

theorem taskFrame_addListener (g : Nat) (k : Waker) : TaskFrame w (w.addListener g k).2 :=
  .of_le rfl (Nat.le_succ _)

theorem taskFrame_dropListener (id : Nat) : TaskFrame w (w.dropListener id) := .of_eq rfl rfl

theorem taskFrame_spend : TaskFrame w w.spend := .of_eq rfl rfl

theorem taskFrame_awaitCall (t : Nat) (k : Waker) : TaskFrame w (w.awaitCall t k) := by
  refine .of_view (taskView_updateTask _ _ _ fun x => ?_) (Nat.le_refl _)
  rcases x with ⟨_, _ | _, _⟩ <;> exact ⟨rfl, rfl⟩

theorem taskFrame_notify (u : EngineUpdate) : TaskFrame w (w.notify u) := by
  unfold notify
  split <;> exact .of_eq rfl rfl

theorem taskFrame_dequeue (o : Owner) : TaskFrame w (w.dequeue o).2 := by
  unfold dequeue
  split <;> exact .of_eq rfl rfl

end Bookkeeping

/-! ## The children of a dispatch -/

section Children

variable (w : World)

theorem TaskFrame.of_pollDelay {w₁ : World} {k : Waker} {d : Nat} {timer timer' : Option Nat}
    {b : Bool} (h : w.pollDelay k d timer = (b, timer', w₁)) : TaskFrame w w₁ := by
  have hf := taskFrame_pollDelay w k d timer
  rwa [h] at hf

/-- Detaching from a call task: with distinct ids, the task under that id is that call. -/
theorem taskFrame_detach (t : Nat) : TaskFrame w (w.detach t) := by
  unfold detach
  split
  · next c s hfind =>
    have hcall : TaskIds w → ∀ x ∈ w.tasks, x.id = t → x.body.generation? = none :=
      fun hids x hx hxid => by rw [hids.eq_of_task? hfind hx hxid]; rfl
    split
    · exact .of_taskIds (Nat.le_refl _) fun hids => taskFrame_removeTask t (hcall hids)
    · refine .of_taskIds (Nat.le_refl _) fun hids =>
        taskFrame_updateTask t _ fun x hx hxid => ⟨rfl, ?_⟩
      rw [hcall hids x hx hxid]
      rfl
  · exact .refl w

theorem taskFrame_pollCalling (k : Waker) (target : Listed) (t deadline : Nat)
    (timer : Option Nat) : TaskFrame w (w.pollCalling k target t deadline timer).2.2 := by
  unfold pollCalling
  split
  · exact taskFrame_defer w k
  · split
    · next hfind =>
      have h₁ : TaskFrame w (w.removeTask t) := .of_taskIds (Nat.le_refl _) fun hids =>
        taskFrame_removeTask t fun x hx hxid => by rw [hids.eq_of_task? hfind hx hxid]; rfl
      exact (h₁.trans (taskFrame_dropTimer? _ timer)).trans (.of_eq rfl rfl)
    · dsimp only
      have h₁ := taskFrame_awaitCall w t k
      rcases hd : (w.awaitCall t k).pollDelay k deadline timer with ⟨_ | _, timer', w₂⟩
      all_goals have h₂ := TaskFrame.of_pollDelay _ hd
      · exact h₁.trans h₂
      · exact (h₁.trans h₂).trans ((taskFrame_detach w₂ t).trans (taskFrame_dropTimer? _ _))

theorem taskFrame_startCall (k : Waker) (gen : Nat) (target : Listed) (q : Query) :
    TaskFrame w (w.startCall k gen target q).2.2 :=
  (taskFrame_spawn_call _).trans (taskFrame_pollCalling _ k target _ _ none)

/-- A child at its gate: whichever way the race goes, only its call, once started, touches the
tasks. -/
theorem taskFrame_pollGate (k : Waker) (gen : Nat) (q : Query) (target : Listed) (deadline : Nat)
    (waiter timer listener : Option Nat) :
    TaskFrame w (w.pollGate k gen q target deadline waiter timer listener).2.2 := by
  cases waiter <;> cases listener <;> simp only [pollGate]
  all_goals
    split
    · exact taskFrame_defer w k
    split
  · exact taskFrame_dropTimer? w timer
  · split
    · exact (taskFrame_tryAcquire w _).trans
        (((taskFrame_dropTimer? _ timer).trans (taskFrame_spend _)).trans (taskFrame_startCall _ k gen target q))
    · split
      all_goals
        rename_i heq
        have h₁ := ((taskFrame_tryAcquire w _).trans (taskFrame_enqueueWaiter _ _ k)).trans
          ((taskFrame_addListener _ gen k).trans (TaskFrame.of_pollDelay _ heq))
      · exact h₁.trans (((taskFrame_dropTimer? _ _).trans (taskFrame_dropListener _ _)).trans
          (taskFrame_dropWaiter _ _))
      · exact h₁
  · exact (taskFrame_dropTimer? w timer).trans (taskFrame_dropListener _ _)
  · split
    · exact (taskFrame_tryAcquire w _).trans ((((taskFrame_dropTimer? _ timer).trans
        (taskFrame_spend _)).trans (taskFrame_dropListener _ _)).trans (taskFrame_startCall _ k gen target q))
    · split
      all_goals
        rename_i heq
        have h₁ := ((taskFrame_tryAcquire w _).trans (taskFrame_enqueueWaiter _ _ k)).trans
          (TaskFrame.of_pollDelay _ heq)
      · exact h₁.trans (((taskFrame_dropTimer? _ _).trans (taskFrame_dropListener _ _)).trans
          (taskFrame_dropWaiter _ _))
      · exact h₁
  · exact (taskFrame_dropTimer? w timer).trans (taskFrame_dropWaiter _ _)
  · split
    · simp only [↓reduceIte]
      exact (taskFrame_settleWaiter w _).trans
        (((taskFrame_dropTimer? _ timer).trans (taskFrame_spend _)).trans (taskFrame_startCall _ k gen target q))
    · simp only [Bool.false_eq_true, ↓reduceIte]
      split
      all_goals
        rename_i heq
        have h₁ := (taskFrame_addListener w gen k).trans (TaskFrame.of_pollDelay _ heq)
      · exact h₁.trans (((taskFrame_dropTimer? _ _).trans (taskFrame_dropListener _ _)).trans
          (taskFrame_dropWaiter _ _))
      · exact h₁
  · exact ((taskFrame_dropTimer? w timer).trans (taskFrame_dropListener _ _)).trans
      (taskFrame_dropWaiter _ _)
  · split
    · simp only [↓reduceIte]
      exact (taskFrame_settleWaiter w _).trans ((((taskFrame_dropTimer? _ timer).trans
        (taskFrame_spend _)).trans (taskFrame_dropListener _ _)).trans (taskFrame_startCall _ k gen target q))
    · simp only [Bool.false_eq_true, ↓reduceIte]
      split
      all_goals
        rename_i heq
        have h₁ := TaskFrame.of_pollDelay _ heq
      · exact h₁.trans (((taskFrame_dropTimer? _ _).trans (taskFrame_dropListener _ _)).trans
          (taskFrame_dropWaiter _ _))
      · exact h₁

theorem taskFrame_pollChild (k : Waker) (gen : Nat) (q : Query) (c : Child) :
    TaskFrame w (w.pollChild k gen q c).2.2 := by
  cases c with
  | fresh target => exact taskFrame_pollGate w k gen q target _ none none none
  | waiting target deadline waiter timer listener =>
    exact taskFrame_pollGate w k gen q target deadline waiter timer listener
  | calling target t deadline timer => exact taskFrame_pollCalling w k target t deadline timer
  | finished => exact .refl w

/-- **Gathering arrivals leaves the dispatches alone**: however many children it polls, `collect`
keeps the task ids distinct and changes no task's dispatch. -/
theorem taskFrame_collect (o : Owner) :
    ∀ (fuel : Nat) (e : Execute) (w : World), TaskFrame w (w.collect o fuel e).1
  | 0, _, w => taskFrame_wakeOwner w o
  | fuel + 1, e, w => by
    rw [collect]
    split
    all_goals
      rename_i heq
      have h₁ := @rel_pollPool Child Arrival TaskFrame _ _ _ _ _ _ _ _ heq
        (fun h₁ h₂ => h₁.trans h₂) (taskFrame_wakeOwner · o)
        (taskFrame_dequeue · o) (fun w f _ => (.of_eq rfl rfl : TaskFrame w (w.updatePool o f)))
        (fun w k c => taskFrame_pollChild w k e.generation e.query c)
    · exact h₁.trans (taskFrame_collect o fuel _ _)
    · exact h₁
    · exact h₁

theorem taskFrame_startExecute (o : Owner) (e : Execute) : TaskFrame w (w.startExecute o e).1 :=
  .of_eq rfl rfl

theorem taskFrame_finish (o : Owner) (e : Execute) : TaskFrame w (w.finish o e).1 := by
  unfold finish
  dsimp only
  split
  · exact .of_eq rfl rfl
  · refine TaskFrame.trans ?_ (taskFrame_notify _ _)
    exact .of_eq rfl rfl

end Children

/-! ## The thread, plugin calls and the caller's other jobs -/

section Thread

variable (w : World)

theorem taskFrame_pollCall (self : Nat) (c : Call) : TaskFrame w (w.pollCall self c).1 := by
  unfold pollCall
  dsimp only
  have hend : ∀ w₁ : World, TaskFrame w w₁ → TaskFrame w (w₁.release c.plugin) ∧
      ∀ k, TaskFrame w ((w₁.release c.plugin).wake k) := fun w₁ h₁ =>
    ⟨h₁.trans (taskFrame_release _ _), fun k => (h₁.trans (taskFrame_release _ _)).trans (taskFrame_wake _ _)⟩
  cases c.join with
  | none =>
    dsimp only
    split
    · split
      · exact (hend _ (taskFrame_logCall w _ _)).1
      · exact (taskFrame_logCall w _ _).trans (taskFrame_addTimer _ _ _)
    · split
      · exact (hend w (.refl w)).1
      · exact .refl w
    · exact .refl w
  | some k =>
    dsimp only
    split
    · split
      · exact (hend _ (taskFrame_logCall w _ _)).2 k
      · exact (taskFrame_logCall w _ _).trans (taskFrame_addTimer _ _ _)
    · split
      · exact (hend w (.refl w)).2 k
      · exact .refl w
    · exact .refl w

theorem taskFrame_afterPoll (id : Nat) : TaskFrame w (w.afterPoll id) := by
  unfold afterPoll
  split
  · exact (taskFrame_updateState w id _).trans (taskFrame_enqueue _ id)
  · exact taskFrame_updateState w id _
  · exact .refl w

theorem taskFrame_nextTask : TaskFrame w w.nextTask.2 :=
  .of_eq (by unfold nextTask; grind) (by unfold nextTask; grind)

theorem taskFrame_fireTimers : TaskFrame w w.fireTimers := by
  unfold fireTimers
  refine TaskFrame.trans ?_ (taskFrame_foldl_wake (fun t : Timer => t.waker) _ _)
  exact .of_eq rfl rfl

theorem taskFrame_park : TaskFrame w w.park := by
  unfold park
  refine TaskFrame.trans ?_ ((taskFrame_fireTimers _).trans (taskFrame_wakeDeferred _))
  split
  · split
    · exact .of_eq rfl rfl
    · split <;> exact .of_eq rfl rfl
  · exact .of_eq rfl rfl

theorem taskFrame_parkYield : TaskFrame w w.parkYield := by
  unfold parkYield
  refine TaskFrame.trans ?_ ((taskFrame_fireTimers _).trans (taskFrame_wakeDeferred _))
  split
  · split <;> exact .of_eq rfl rfl
  · exact .of_eq rfl rfl

theorem taskFrame_deliverSelection (plugin : String) (item : ResultItem) (k : Waker) :
    TaskFrame w (w.deliverSelection plugin item k).2 := by
  unfold deliverSelection
  split
  · exact taskFrame_defer w k
  · exact ((taskFrame_spend w).trans (taskFrame_logCall _ _ _)).trans (taskFrame_release _ _)

theorem taskFrame_beginQuery : TaskFrame w w.beginQuery.2 := by
  unfold beginQuery
  refine TaskFrame.trans ?_ (taskFrame_foldl_wake _ _ _)
  exact .of_eq rfl rfl

end Thread

end World

end Launcher.Engine
