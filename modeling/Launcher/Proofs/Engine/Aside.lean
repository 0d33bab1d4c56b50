import Mathlib.Data.List.Find
import Launcher.Proofs.Engine.Order
import Launcher.Proofs.Registry.Invariant

/-!
# What a step leaves to the dispatches

A dispatch reads, of the engine around it, its own record (the caller's query or its task's
search), the live children of its pool, the plugin calls its children wait for, the generations,
the options and the plugins; at its end it ranks with the registry's snapshot and adds its list to
the delivered list and the outbox. Almost every step of the engine leaves all of that alone, or
changes it only in ways no dispatch can tell:

* `World.dispatchView` — what the dispatches read of the engine, the generations apart;
* `World.Aside` — a step that keeps every dispatch record and every pool's live children (but
  those of one owner), keeps the plugin and query of every call it does not remove and the answer
  of every call that ended, hands out ids and generations only forward, keeps the registry's ids
  distinct, and neither delivers a list nor announces one;
* `World.Aside.of_view` — a step that keeps the view, the visible state and the tasks' ids is
  aside every dispatch; `aside_removeTask`, `aside_updateTask` and `aside_spawn_call` are the
  steps on plugin calls, which change the tasks.
-/

namespace Launcher

namespace Engine

/-- The plugin and query of a plugin call. -/
def TaskBody.call? : TaskBody → Option (String × Query)
  | .call c => some (c.plugin, c.query)
  | .search _ => none

/-- The dispatch of a search. -/
def TaskBody.search? : TaskBody → Option Execute
  | .search e => some e
  | .call _ => none

/-- The caller's dispatch, once its query has one. -/
def MainJob.search? : MainJob → Option Execute
  | .run _ e => e
  | _ => none

namespace World

/-- The live children of an owner's pool. -/
def liveOf (w : World) (o : Owner) : Option (List Nat) := (w.pool? o).map (·.live)

/-- The dispatch an owner holds: the caller's query, or a task's search. -/
def dispatchOf (w : World) : Owner → Option Execute
  | .main => w.main.search?
  | .task id => (w.task? id).bind (·.body.search?)

/-- A task body that, if it is a plugin call that ended, holds its plugin's answer to its
query. -/
def Answered (w : World) (b : TaskBody) : Prop :=
  ∀ c a, b = .call c → c.phase = .done a → a = (w.plugin c.plugin).answer c.query

/-- Every plugin call that ended holds its plugin's answer to its query. -/
def Answers (w : World) : Prop := ∀ x ∈ w.tasks, w.Answered x.body

/-- What the dispatches read of the engine, the generations apart: the caller's job, the tasks'
ids and bodies, the live children of every pool, the options, the plugins and the registry. -/
def dispatchView (w : World) : MainJob × List (Nat × TaskBody) × List (Owner × List Nat) ×
    DispatchOptions × List (String × ScriptedPlugin) × Registry :=
  (w.main, w.tasks.map (fun t => (t.id, t.body)), w.pools.map (fun p => (p.owner, p.live)),
    w.options, w.plugins, w.registry)

/-- A step that leaves the dispatches alone, but that of `o`: every dispatch record after it was
there before it, and every pool's live children stay; a task kept under an id handed out before
is a call of the same plugin and query, or no call, as before; ended calls keep their plugins'
answers; ids and generations only move on; the task ids and the registry's ids stay distinct; the
options, plugins and list length stay; and no list is delivered or announced. -/
structure Aside (o : Option Owner) (w w' : World) : Prop where
  nextId : w.nextId ≤ w'.nextId
  ids : TaskIds w → TaskIds w'
  current : w.generations.current ≤ w'.generations.current
  options : w'.options = w.options
  plugins : w'.plugins = w.plugins
  maxResults : w'.maxResults = w.maxResults
  registry : w.registry.ids.Nodup → w'.registry.ids.Nodup
  calls : ∀ t x', w'.task? t = some x' → t < w.nextId →
    ∃ x, w.task? t = some x ∧ x'.body.call? = x.body.call?
  answers : Answers w → Answers w'
  held : ∀ o' e, o ≠ some o' → w'.dispatchOf o' = some e → w.dispatchOf o' = some e
  live : ∀ o', o ≠ some o' → w'.liveOf o' = w.liveOf o'
  sent : ∀ u ∈ w'.outbox, u ∈ w.outbox ∨ u.results? = none
  delivered : w'.delivered = w.delivered

variable {w w' w'' : World} {o : Option Owner}

theorem plugin_of_plugins (h : w'.plugins = w.plugins) (id : String) : w'.plugin id = w.plugin id := by
  rw [plugin, plugin, h]

theorem Answered.of_plugins {b : TaskBody} (h : w'.plugins = w.plugins) (ha : w.Answered b) :
    w'.Answered b := fun c a hb hd => by
  rw [plugin_of_plugins h]
  exact ha c a hb hd

/-- A task as the dispatches see it: its id and body. -/
theorem task?_view (t : Nat) : (w.task? t).map (fun x => (x.id, x.body)) =
    (w.tasks.map fun x => (x.id, x.body)).find? (·.1 == t) := by
  rw [task?, List.find?_map]
  rfl

/-- Worlds whose tasks have the same ids and bodies find, under every id, a task with the body
the other finds. -/
theorem task?_of_bodies
    (hv : w'.tasks.map (fun x => (x.id, x.body)) = w.tasks.map (fun x => (x.id, x.body)))
    {t : Nat} {x : Task} (hx : w.task? t = some x) :
    ∃ x', w'.task? t = some x' ∧ x'.body = x.body := by
  have hview : (w'.task? t).map (fun x => (x.id, x.body)) =
      (w.task? t).map (fun x => (x.id, x.body)) := by
    rw [task?_view, task?_view, hv]
  rw [hx, Option.map_some] at hview
  obtain ⟨x', hx', hxx⟩ := Option.map_eq_some_iff.1 hview
  exact ⟨x', hx', (Prod.mk.inj hxx).2⟩

theorem liveOf_view (o : Owner) :
    w.liveOf o = ((w.pools.map fun p => (p.owner, p.live)).find? (·.1 == o)).map (·.2) := by
  rw [liveOf, pool?, List.find?_map, Option.map_map]
  rfl

theorem dispatchOf_task (id : Nat) :
    w.dispatchOf (.task id) = ((w.task? id).map fun x => (x.id, x.body)).bind (·.2.search?) := by
  rw [dispatchOf, Option.bind_map]
  rfl

namespace Aside

theorem refl (w : World) : Aside o w w :=
  ⟨Nat.le_refl _, id, Nat.le_refl _, rfl, rfl, rfl, id, fun _ x' h _ => ⟨x', h, rfl⟩, id,
    fun _ _ _ h => h, fun _ _ => rfl, fun _ h => .inl h, rfl⟩

theorem trans (h₁ : Aside o w w') (h₂ : Aside o w' w'') : Aside o w w'' := by
  refine ⟨Nat.le_trans h₁.nextId h₂.nextId, h₂.ids ∘ h₁.ids, Nat.le_trans h₁.current h₂.current,
    h₂.options.trans h₁.options, h₂.plugins.trans h₁.plugins, h₂.maxResults.trans h₁.maxResults,
    h₂.registry ∘ h₁.registry, fun t x'' hx ht => ?_, h₂.answers ∘ h₁.answers,
    fun o' e ho he => h₁.held o' e ho (h₂.held o' e ho he),
    fun o' ho => (h₂.live o' ho).trans (h₁.live o' ho),
    fun u hu => (h₂.sent u hu).elim (h₁.sent u) .inr, h₂.delivered.trans h₁.delivered⟩
  obtain ⟨x', hx', hc'⟩ := h₂.calls t x'' hx (Nat.lt_of_lt_of_le ht h₁.nextId)
  obtain ⟨x, hx, hc⟩ := h₁.calls t x' hx' ht
  exact ⟨x, hx, hc'.trans hc⟩

/-- A step aside every dispatch is aside any one. -/
theorem mono (h : Aside none w w') (o : Option Owner) : Aside o w w' :=
  { h with
    held := fun o' e _ => h.held o' e (Option.some_ne_none o').symm
    live := fun o' _ => h.live o' (Option.some_ne_none o').symm }

/-- **A step that keeps the view** of the dispatches, the visible state and the tasks' ids is
aside every dispatch. -/
theorem of_view (hv : w'.dispatchView = w.dispatchView) (hvis : w'.visible = w.visible)
    (ht : TaskFrame w w') : Aside none w w' := by
  simp only [dispatchView, Prod.mk.injEq] at hv
  obtain ⟨hm, htasks, hp, ho, hpl, hr⟩ := hv
  have htask : ∀ t, (w'.task? t).map (fun x => (x.id, x.body)) =
      (w.task? t).map (fun x => (x.id, x.body)) := fun t => by
    rw [task?_view, task?_view, htasks]
  have hout : w'.outbox = w.outbox := congrArg Visible.outbox hvis
  refine ⟨ht.nextId, fun h => (ht.keep h).1,
    Nat.le_of_eq (congrArg (·.generations.current) hvis).symm, ho, hpl,
    congrArg Visible.maxResults hvis, fun h => by rwa [hr], fun t x' hx _ => ?_,
    fun h x' hx' => ?_, fun o' e _ he => ?_, fun o' _ => by rw [liveOf_view, liveOf_view, hp],
    fun u hu => .inl (hout ▸ hu), congrArg Visible.delivered hvis⟩
  · have hx' := htask t
    rw [hx, Option.map_some] at hx'
    obtain ⟨x, hx, hxx⟩ := Option.map_eq_some_iff.1 hx'.symm
    exact ⟨x, hx, by rw [(Prod.mk.inj hxx).2]⟩
  · have hmem : (x'.id, x'.body) ∈ w.tasks.map fun x => (x.id, x.body) :=
      htasks ▸ List.mem_map_of_mem hx'
    obtain ⟨x, hx, hxx⟩ := List.mem_map.1 hmem
    exact (Prod.mk.inj hxx).2 ▸ (h x hx).of_plugins hpl
  · cases o' with
    | main =>
      rw [dispatchOf, hm] at he
      exact he
    | task id =>
      rw [dispatchOf_task, htask] at he
      rw [dispatchOf_task]
      exact he

end Aside

/-! ## Plugin calls come and go -/

theorem task?_removeTask (t t' : Nat) :
    (w.removeTask t).task? t' = if t' = t then none else w.task? t' := by
  simp only [task?, removeTask, List.find?_filter]
  split
  · subst t'
    rw [List.find?_eq_none]
    intro x _
    simp
  · rename_i hne
    congr 1
    funext x
    by_cases hx : x.id = t'
    · simp [hx, hne]
    · simp [hx]

/-- A lookup after changing tasks, when the change keeps ids. -/
theorem task?_updateTask (t t' : Nat) (f : Task → Task)
    (hf : ∀ x ∈ w.tasks, x.id = t → (f x).id = x.id) :
    (w.updateTask t f).task? t' = (w.task? t').map fun x => if x.id == t then f x else x := by
  simp only [task?, updateTask, List.find?_map]
  congr 1
  refine List.find?_congr fun x hx => ?_
  simp only [Function.comp_apply]
  split
  · next hxt => rw [hf x hx (by simpa using hxt)]
  · rfl

/-- The task changed under its own id, keeping its id, is found there changed. -/
theorem task?_updateTask_self {id : Nat} {x : Task} (hx : w.task? id = some x) (f : Task → Task)
    (hf : ∀ y, (f y).id = y.id) : (w.updateTask id f).task? id = some (f x) := by
  rw [task?_updateTask id id f fun y _ _ => hf y, hx, Option.map_some, (mem_of_task? hx).2,
    beq_self_eq_true, if_pos rfl]

theorem task?_spawn (b : TaskBody) (t : Nat) :
    (w.spawn b).2.task? t =
      (w.task? t).or (if w.nextId = t then some ⟨w.nextId, b, .queued⟩ else none) := by
  simp only [task?, (tasks_spawn (w := w) b).1, List.find?_append, List.find?_singleton]
  by_cases h : w.nextId = t <;> simp [h]

/-- A task spawned with distinct ids is found under its fresh id. -/
theorem task?_spawn_self (b : TaskBody) (h : TaskIds w) :
    (w.spawn b).2.task? w.nextId = some ⟨w.nextId, b, .queued⟩ := by
  rw [task?_spawn, if_pos rfl]
  have hnone : w.task? w.nextId = none := by
    rw [task?, List.find?_eq_none]
    intro x hx
    simpa using Nat.ne_of_lt (h.lt x hx)
  rw [hnone]
  rfl

theorem dispatchView_spawn (b : TaskBody) : (w.spawn b).2.dispatchView =
    (w.main, (w.tasks ++ [(⟨w.nextId, b, .queued⟩ : Task)]).map (fun t => (t.id, t.body)),
      w.pools.map (fun p => (p.owner, p.live)), w.options, w.plugins, w.registry) := by
  simp only [dispatchView, spawn, fresh, enqueue]
  by_cases hi : w.inside = true <;> simp [hi, unpark]

theorem TaskBody.generation?_eq (b : TaskBody) : b.generation? = b.search?.map (·.generation) := by
  cases b <;> rfl

/-- Removing a task is aside every dispatch: the dispatch it held, if any, is gone. -/
theorem aside_removeTask (t : Nat) : Aside none w (w.removeTask t) := by
  refine ⟨Nat.le_refl _, taskIds_removeTask t, Nat.le_refl _, rfl, rfl, rfl, id,
    fun t' x' hx _ => ?_, fun h x hx => h x (List.mem_of_mem_filter hx), fun o' e _ he => ?_,
    fun _ _ => rfl, fun _ h => .inl h, rfl⟩
  · rw [task?_removeTask] at hx
    split at hx
    · cases hx
    · exact ⟨x', hx, rfl⟩
  · cases o' with
    | main => exact he
    | task id =>
      rw [dispatchOf, task?_removeTask] at he
      split at he
      · cases he
      · exact he

/-- Changing the tasks of an id in a way that keeps their ids, calls and searches, and keeps an
ended call's answer, is aside every dispatch. -/
theorem aside_updateTask (t : Nat) (f : Task → Task)
    (hf : ∀ x ∈ w.tasks, x.id = t → (f x).id = x.id ∧ (f x).body.call? = x.body.call? ∧
      (f x).body.search? = x.body.search?)
    (ha : ∀ x ∈ w.tasks, x.id = t → w.Answered x.body → w.Answered (f x).body) :
    Aside none w (w.updateTask t f) := by
  have hsame : ∀ x ∈ w.tasks, (if x.id == t then f x else x).body.call? = x.body.call? ∧
      (if x.id == t then f x else x).body.search? = x.body.search? := fun x hx => by
    split
    · next hxt => exact (hf x hx (by simpa using hxt)).2
    · exact ⟨rfl, rfl⟩
  have hid : ∀ x ∈ w.tasks, x.id = t → (f x).id = x.id := fun x hx hxt => (hf x hx hxt).1
  have hframe : TaskFrame w (w.updateTask t f) := taskFrame_updateTask t f fun x hx hxt =>
    ⟨(hf x hx hxt).1, by
      rw [TaskBody.generation?_eq, TaskBody.generation?_eq, (hf x hx hxt).2.2]⟩
  refine ⟨hframe.nextId, fun h => (hframe.keep h).1, Nat.le_refl _, rfl, rfl, rfl, id,
    fun t' x' hx _ => ?_, fun h x' hx' => ?_, fun o' e _ he => ?_, fun _ _ => rfl,
    fun _ h => .inl h, rfl⟩
  · rw [task?_updateTask t t' f hid] at hx
    obtain ⟨x, hx₀, rfl⟩ := Option.map_eq_some_iff.1 hx
    exact ⟨x, hx₀, (hsame x (mem_of_task? hx₀).1).1⟩
  · obtain ⟨x, hx, rfl⟩ := List.mem_map.1 hx'
    split
    · next hxt => exact ha x hx (by simpa using hxt) (h x hx)
    · exact h x hx
  · cases o' with
    | main => exact he
    | task id =>
      rw [dispatchOf, task?_updateTask t id f hid] at he
      rw [dispatchOf]
      cases hx : w.task? id with
      | none => rw [hx] at he; cases he
      | some x =>
        rw [hx, Option.map_some, Option.bind_some] at he
        rw [Option.bind_some, ← he, (hsame x (mem_of_task? hx).1).2]

/-- With distinct ids, a task found under an id is the only one there. -/
theorem aside_updateTask_of_task? {t : Nat} {x₀ : Task} (hids : TaskIds w)
    (hx₀ : w.task? t = some x₀) (f : Task → Task)
    (hf : (f x₀).id = x₀.id ∧ (f x₀).body.call? = x₀.body.call? ∧
      (f x₀).body.search? = x₀.body.search?)
    (ha : w.Answered x₀.body → w.Answered (f x₀).body) :
    Aside none w (w.updateTask t f) :=
  aside_updateTask t f (fun _ hx hxt => hids.eq_of_task? hx₀ hx hxt ▸ hf)
    (fun _ hx hxt => hids.eq_of_task? hx₀ hx hxt ▸ ha)

/-- Leaving a waker with a call changes nothing the dispatches read but the call's waker. -/
theorem aside_awaitCall (t : Nat) (k : Waker) : Aside none w (w.awaitCall t k) := by
  refine aside_updateTask t _ (fun x _ _ => ?_) (fun x _ _ => ?_)
  · cases x.body <;> simp [TaskBody.call?, TaskBody.search?]
  · intro ha c a hb hd
    cases hx : x.body with
    | search e => simp [hx] at hb
    | call c₀ =>
      simp only [hx, TaskBody.call.injEq] at hb
      subst hb
      exact ha c₀ a hx hd

/-- A child stops waiting for its call: the call is cleared away, or goes on alone. -/
theorem aside_detach (t : Nat) (hids : TaskIds w) : Aside none w (w.detach t) := by
  unfold detach
  split
  · next c s hfind =>
    split
    · exact aside_removeTask t
    · refine aside_updateTask_of_task? hids hfind _ ⟨rfl, rfl, rfl⟩ fun ha c' a hb hd => ?_
      simp only [TaskBody.call.injEq] at hb
      subst hb
      exact ha c a rfl hd
  · exact .refl w

/-- Spawning a plugin call that has not ended wrongly is aside every dispatch. -/
theorem aside_spawn_call (c : Call) (hc : w.Answered (.call c)) :
    Aside none w (w.spawn (.call c)).2 := by
  obtain ⟨ht, hn⟩ := tasks_spawn (w := w) (.call c)
  have hv := dispatchView_spawn (w := w) (.call c)
  simp only [dispatchView, Prod.mk.injEq] at hv
  obtain ⟨hm, -, hp, ho, hpl, hr⟩ := hv
  have hvis := visible_spawn w (.call c)
  have hout : (w.spawn (.call c)).2.outbox = w.outbox := congrArg Visible.outbox hvis
  refine ⟨by omega, taskIds_spawn _, Nat.le_of_eq (congrArg (·.generations.current) hvis).symm,
    ho, hpl, congrArg Visible.maxResults hvis, fun h => by rwa [hr], fun t x' hx hlt => ?_,
    fun h x hx => ?_, fun o' e _ he => ?_, fun o' _ => by rw [liveOf_view, liveOf_view, hp],
    fun u hu => .inl (hout ▸ hu),
    congrArg Visible.delivered hvis⟩
  · rw [task?_spawn, if_neg (Nat.ne_of_gt hlt), Option.or_none] at hx
    exact ⟨x', hx, rfl⟩
  · rw [ht, List.mem_append, List.mem_singleton] at hx
    rcases hx with hx | rfl
    · exact (h x hx).of_plugins hpl
    · exact hc.of_plugins hpl
  · cases o' with
    | main =>
      rw [dispatchOf, hm] at he
      exact he
    | task id =>
      rw [dispatchOf, task?_spawn] at he
      rw [dispatchOf]
      cases hx : w.task? id with
      | some x => rwa [hx] at he
      | none =>
        rw [hx] at he
        split at he <;> cases he

/-! ## Steps that keep the view -/

section Bookkeeping

variable (w : World)

@[simp] theorem dispatchView_fresh : w.fresh.2.dispatchView = w.dispatchView := rfl

@[simp] theorem dispatchView_addTimer (d : Nat) (k : Waker) :
    (w.addTimer d k).2.dispatchView = w.dispatchView := rfl

@[simp] theorem dispatchView_dropTimer? (t : Option Nat) :
    (w.dropTimer? t).dispatchView = w.dispatchView := by
  cases t <;> rfl

@[simp] theorem dispatchView_logCall (id : String) (f : CallLog → CallLog) :
    (w.logCall id f).dispatchView = w.dispatchView := by
  unfold logCall
  split <;> rfl

/-- Changing tasks without changing their ids or bodies. -/
theorem dispatchView_updateTask (id : Nat) (f : Task → Task)
    (hf : ∀ t, (f t).id = t.id ∧ (f t).body = t.body) :
    (w.updateTask id f).dispatchView = w.dispatchView := by
  have ht : (w.updateTask id f).tasks.map (fun t => (t.id, t.body)) =
      w.tasks.map fun t => (t.id, t.body) := by
    simp only [updateTask, List.map_map]
    refine List.map_congr_left fun t _ => ?_
    simp only [Function.comp_apply]
    split
    · rw [(hf t).1, (hf t).2]
    · rfl
  simp only [dispatchView, ht]
  rfl

@[simp] theorem dispatchView_enqueue (id : Nat) : (w.enqueue id).dispatchView = w.dispatchView := by
  unfold enqueue
  split <;> rfl

@[simp] theorem dispatchView_schedule (id : Nat) : (w.schedule id).dispatchView = w.dispatchView := by
  unfold schedule
  split
  · split
    · rw [dispatchView_enqueue]
      exact dispatchView_updateTask _ _ _ fun _ => ⟨rfl, rfl⟩
    · exact dispatchView_updateTask _ _ _ fun _ => ⟨rfl, rfl⟩
    · rfl
  · rfl

@[simp] theorem dispatchView_wakeOwner (o : Owner) :
    (w.wakeOwner o).dispatchView = w.dispatchView := by
  cases o with
  | main => rfl
  | task id => exact dispatchView_schedule w id

/-- Changing pools without changing their owners or live children. -/
theorem dispatchView_updatePool (o : Owner) (f : Pool → Pool)
    (hf : ∀ p, (f p).owner = p.owner ∧ (f p).live = p.live) :
    (w.updatePool o f).dispatchView = w.dispatchView := by
  have hp : (w.updatePool o f).pools.map (fun p => (p.owner, p.live)) =
      w.pools.map fun p => (p.owner, p.live) := by
    simp only [updatePool, List.map_map]
    refine List.map_congr_left fun p _ => ?_
    simp only [Function.comp_apply]
    split
    · rw [(hf p).1, (hf p).2]
    · rfl
  simp only [dispatchView, hp]
  rfl

@[simp] theorem dispatchView_wake (k : Waker) : (w.wake k).dispatchView = w.dispatchView := by
  unfold wake
  split
  · exact dispatchView_wakeOwner w _
  · split
    · split
      · rw [dispatchView_wakeOwner]
        exact dispatchView_updatePool _ _ _ fun _ => ⟨rfl, rfl⟩
      · rfl
    · rfl

theorem dispatchView_foldl_wake {α : Type} (f : α → Waker) :
    ∀ (l : List α) (w : World), (l.foldl (fun w x => w.wake (f x)) w).dispatchView = w.dispatchView
  | [], _ => rfl
  | x :: l, w => (dispatchView_foldl_wake f l _).trans (dispatchView_wake w (f x))

@[simp] theorem dispatchView_defer (k : Waker) : (w.defer k).dispatchView = w.dispatchView := by
  unfold defer
  split <;> rfl

@[simp] theorem dispatchView_spend : w.spend.dispatchView = w.dispatchView := rfl

@[simp] theorem dispatchView_setGate (g : Gate) : (w.setGate g).dispatchView = w.dispatchView := rfl

@[simp] theorem dispatchView_wakeDeferred : w.wakeDeferred.dispatchView = w.dispatchView :=
  dispatchView_foldl_wake id w.deferred.reverse { w with deferred := [] }

@[simp] theorem dispatchView_pollDelay (k : Waker) (d : Nat) (timer : Option Nat) :
    (w.pollDelay k d timer).2.2.dispatchView = w.dispatchView := by
  unfold pollDelay
  split
  · simp
  · split
    · rfl
    · split <;> rfl

@[simp] theorem dispatchView_tryAcquire (plugin : String) :
    (w.tryAcquire plugin).2.dispatchView = w.dispatchView := by
  unfold tryAcquire
  dsimp only
  split <;> rfl

@[simp] theorem dispatchView_enqueueWaiter (plugin : String) (k : Waker) :
    (w.enqueueWaiter plugin k).2.dispatchView = w.dispatchView := rfl

@[simp] theorem dispatchView_release (plugin : String) :
    (w.release plugin).dispatchView = w.dispatchView := by
  unfold release
  dsimp only
  split
  · rfl
  · split
    · exact dispatchView_wake _ _
    · rfl

@[simp] theorem dispatchView_settleWaiter (id : Nat) :
    (w.settleWaiter id).dispatchView = w.dispatchView := rfl

@[simp] theorem dispatchView_dropWaiter (id : Nat) :
    (w.dropWaiter id).dispatchView = w.dispatchView := by
  unfold dropWaiter
  split
  · rfl
  · split
    · exact dispatchView_release _ _
    · rfl

@[simp] theorem dispatchView_addListener (g : Nat) (k : Waker) :
    (w.addListener g k).2.dispatchView = w.dispatchView := rfl

@[simp] theorem dispatchView_dropListener (id : Nat) :
    (w.dropListener id).dispatchView = w.dispatchView := rfl

@[simp] theorem dispatchView_notify (u : EngineUpdate) :
    (w.notify u).dispatchView = w.dispatchView := by
  unfold notify
  split <;> rfl

@[simp] theorem dispatchView_dequeue (o : Owner) : (w.dequeue o).2.dispatchView = w.dispatchView := by
  unfold dequeue
  split
  · exact dispatchView_updatePool _ _ _ fun _ => ⟨rfl, rfl⟩
  · rfl

@[simp] theorem dispatchView_afterPoll (id : Nat) :
    (w.afterPoll id).dispatchView = w.dispatchView := by
  unfold afterPoll
  split
  · rw [dispatchView_enqueue]
    exact dispatchView_updateTask _ _ _ fun _ => ⟨rfl, rfl⟩
  · exact dispatchView_updateTask _ _ _ fun _ => ⟨rfl, rfl⟩
  · rfl

@[simp] theorem dispatchView_nextTask : w.nextTask.2.dispatchView = w.dispatchView := by
  unfold nextTask
  grind [dispatchView]

@[simp] theorem dispatchView_fireTimers : w.fireTimers.dispatchView = w.dispatchView := by
  unfold fireTimers
  exact dispatchView_foldl_wake (fun t : Timer => t.waker) _ _

@[simp] theorem dispatchView_park : w.park.dispatchView = w.dispatchView := by
  unfold park
  rw [dispatchView_wakeDeferred, dispatchView_fireTimers]
  split
  · split
    · rfl
    · split <;> rfl
  · rfl

@[simp] theorem dispatchView_parkYield : w.parkYield.dispatchView = w.dispatchView := by
  unfold parkYield
  rw [dispatchView_wakeDeferred, dispatchView_fireTimers]
  split
  · split <;> rfl
  · rfl

@[simp] theorem dispatchView_deliverSelection (plugin : String) (item : ResultItem) (k : Waker) :
    (w.deliverSelection plugin item k).2.dispatchView = w.dispatchView := by
  unfold deliverSelection
  split <;> simp

end Bookkeeping

/-! ## Bookkeeping is aside every dispatch -/

section Quiet

variable (w : World)

theorem aside_defer (k : Waker) : Aside none w (w.defer k) :=
  .of_view (dispatchView_defer w k) (visible_defer w k) (taskFrame_defer w k)

theorem aside_spend : Aside none w w.spend :=
  .of_view (dispatchView_spend w) (visible_spend w) (taskFrame_spend w)

theorem aside_dropTimer? (t : Option Nat) : Aside none w (w.dropTimer? t) :=
  .of_view (dispatchView_dropTimer? w t) (visible_dropTimer? w t) (taskFrame_dropTimer? w t)

theorem aside_dropListener (id : Nat) : Aside none w (w.dropListener id) :=
  .of_view (dispatchView_dropListener w id) (visible_dropListener w id) (taskFrame_dropListener w id)

theorem aside_dropWaiter (id : Nat) : Aside none w (w.dropWaiter id) :=
  .of_view (dispatchView_dropWaiter w id) (visible_dropWaiter w id) (taskFrame_dropWaiter w id)

theorem aside_settleWaiter (id : Nat) : Aside none w (w.settleWaiter id) :=
  .of_view (dispatchView_settleWaiter w id) (visible_settleWaiter w id) (taskFrame_settleWaiter w id)

theorem aside_tryAcquire (plugin : String) : Aside none w (w.tryAcquire plugin).2 :=
  .of_view (dispatchView_tryAcquire w plugin) (visible_tryAcquire w plugin)
    (taskFrame_tryAcquire w plugin)

theorem aside_enqueueWaiter (plugin : String) (k : Waker) :
    Aside none w (w.enqueueWaiter plugin k).2 :=
  .of_view (dispatchView_enqueueWaiter w plugin k) (visible_enqueueWaiter w plugin k)
    (taskFrame_enqueueWaiter w plugin k)

theorem aside_addListener (g : Nat) (k : Waker) : Aside none w (w.addListener g k).2 :=
  .of_view (dispatchView_addListener w g k) (visible_addListener w g k) (taskFrame_addListener w g k)

theorem aside_pollDelay (k : Waker) (d : Nat) (timer : Option Nat) :
    Aside none w (w.pollDelay k d timer).2.2 :=
  .of_view (dispatchView_pollDelay w k d timer) (visible_pollDelay w k d timer)
    (taskFrame_pollDelay w k d timer)

theorem aside_dequeue (o : Owner) : Aside none w (w.dequeue o).2 :=
  .of_view (dispatchView_dequeue w o) (visible_dequeue w o) (taskFrame_dequeue w o)

theorem aside_wakeOwner (o : Owner) : Aside none w (w.wakeOwner o) :=
  .of_view (dispatchView_wakeOwner w o) (visible_wakeOwner w o) (taskFrame_wakeOwner w o)

end Quiet

theorem Aside.of_pollDelay {k : Waker} {d : Nat} {timer timer' : Option Nat} {b : Bool}
    (h : w.pollDelay k d timer = (b, timer', w')) : Aside none w w' := by
  have ha := aside_pollDelay w k d timer
  rwa [h] at ha

end World


end Engine

end Launcher
