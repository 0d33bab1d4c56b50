import Launcher.Proofs.Engine.Calls
import Launcher.Proofs.Engine.Serialized

/-!
# The calls a plugin receives

A plugin receives a query call when the task that holds the call runs for the first time. Over
any run of the engine, the query calls one plugin receives come in the order of their
generations, one per generation, and a generation superseded before it took the plugin's gate
never calls the plugin:

* `World.Paced` — the invariant: the engine is complete and its gates are in order, its
  dispatches are of distinct generations, and every call was made for a generation issued
  already that will call its plugin no more;
* `World.Onward` — what a step does to the calls: a call kept is the one it was, made or not
  made yet as it was or made since; a call made in the step is for a generation not superseded,
  that could still call the plugin, and cannot any more;
* `World.Paced.step`, `World.Reachable.paced` — every step keeps the invariant, and moves
  onward;
* `World.Receives` — a step in which a plugin receives the query call of a generation;
* `World.Past`, `World.Superseded` — a plugin received the call of a generation; a generation
  was superseded with no call of it into a plugin pending: both last, step after step;
* `World.plugin_calls_are_paced` — over every run from a configured engine, calls into one
  plugin never overlap, the query calls it receives are of strictly increasing generations, and a
  generation superseded before it took the plugin's gate never calls it.
-/

namespace Launcher.Engine

/-- A command's job holds no dispatch yet. -/
theorem EngineCommand.search?_job {c : EngineCommand} {job : MainJob} (hc : c.job? = some job) :
    job.search? = none := by
  cases c <;> cases hc <;> rfl

namespace World

variable {w w' : World} {p : String} {g : Nat}

/-- The dispatches are of distinct generations. -/
def Distinct (w : World) : Prop :=
  ∀ o₁ o₂ e₁ e₂, w.dispatchOf o₁ = some e₁ → w.dispatchOf o₂ = some e₂ →
    e₁.generation = e₂.generation → o₁ = o₂

/-- **An engine whose plugin calls are paced**: it is complete and its gates are in order, its
dispatches are of distinct generations, and every call was made for a generation issued already,
no dispatch of which will call that plugin again. -/
structure Paced (w : World) : Prop where
  complete : Complete none w
  exclusive : Exclusive w
  distinct : w.Distinct
  calls : ∀ t x p g, w.task? t = some x → x.body.callOf? = some (p, g) →
    g ≤ w.generations.current ∧ w.Spent p g

/-- What a step does to the calls: ids and generations move only forward; a task of before keeps
its call, and a call not made after the step was not made before it; a call new in the step is
for a generation not superseded when the step began, which could then still call its plugin, and
cannot any more; and a generation issued that could call a plugin no more still cannot. -/
structure Onward (w w' : World) : Prop where
  current : w.generations.current ≤ w'.generations.current
  nextId : w.nextId ≤ w'.nextId
  kept : ∀ t x', w'.task? t = some x' → t < w.nextId → ∃ x, w.task? t = some x ∧
    x'.body.callOf? = x.body.callOf? ∧ ∀ pg, x'.body.unmade? = some pg → x.body.unmade? = some pg
  made : ∀ t x' p g, w'.task? t = some x' → w.nextId ≤ t → x'.body.callOf? = some (p, g) →
    w.generations.current ≤ g ∧ w.MayCall p g ∧ g ≤ w'.generations.current ∧ w'.Spent p g
  spent : ∀ p g, g ≤ w.generations.current → w.Spent p g → w'.Spent p g

/-- A dispatch of a complete engine is of a generation issued already. -/
theorem Complete.issued {o : Owner} {e : Execute} (h : Complete none w)
    (hd : w.dispatchOf o = some e) : e.generation ≤ w.generations.current := by
  have hon := h.onTrack o e (Option.some_ne_none o).symm hd
  cases hs : e.started
  · exact (hon.1 hs).2
  · exact (hon.2 hs).issued

/-- A step onward from a paced engine, to a complete one whose gates are in order and whose
dispatches are of distinct generations, reaches a paced engine. -/
theorem Paced.of_onward (h : Paced w) (ho : Onward w w') (hc : Complete none w')
    (hx : Exclusive w') (hd : w'.Distinct) : Paced w' := by
  refine ⟨hc, hx, hd, fun t x' p g hx' hcall => ?_⟩
  by_cases ht : t < w.nextId
  · obtain ⟨x, hx, hc', -⟩ := ho.kept t x' hx' ht
    obtain ⟨hg, hs⟩ := h.calls t x p g hx (hc'.symm.trans hcall)
    exact ⟨Nat.le_trans hg ho.current, ho.spent p g hg hs⟩
  · obtain ⟨-, -, hg, hs⟩ := ho.made t x' p g hx' (Nat.not_lt.1 ht) hcall
    exact ⟨hg, hs⟩

/-! ## Steps that make no call -/

/-- A step that makes no call and begins no dispatch: generations move only forward, every task
after it was there before it, with its call, made or not made yet, and every dispatch after it
was there before it. -/
structure Quiet (w w' : World) : Prop where
  current : w.generations.current ≤ w'.generations.current
  nextId : w.nextId ≤ w'.nextId
  kept : ∀ t x', w'.task? t = some x' → ∃ x, w.task? t = some x ∧
    x'.body.callOf? = x.body.callOf? ∧ ∀ pg, x'.body.unmade? = some pg → x.body.unmade? = some pg
  held : ∀ o e, w'.dispatchOf o = some e → w.dispatchOf o = some e

namespace Quiet

theorem of_kept (hk : CallsKept w w') (hd : ∀ o e, w'.dispatchOf o = some e → w.dispatchOf o = some e) :
    Quiet w w' :=
  ⟨hk.current, hk.nextId, fun t x' hx => by
    obtain ⟨x, hx₀, hb⟩ := hk.task? hx
    exact ⟨x, hx₀, by rw [hb], fun pg h => by rwa [hb] at h⟩, hd⟩

theorem refl (w : World) : Quiet w w := .of_kept (.refl w) fun _ _ h => h

theorem trans {w'' : World} (h₁ : Quiet w w') (h₂ : Quiet w' w'') : Quiet w w'' := by
  refine ⟨Nat.le_trans h₁.current h₂.current, Nat.le_trans h₁.nextId h₂.nextId, fun t x'' hx => ?_,
    fun o e he => h₁.held o e (h₂.held o e he)⟩
  obtain ⟨x', hx', hc', hu'⟩ := h₂.kept t x'' hx
  obtain ⟨x, hx₀, hc, hu⟩ := h₁.kept t x' hx'
  exact ⟨x, hx₀, hc'.trans hc, fun pg h => hu pg (hu' pg h)⟩

theorem of_aside (hk : CallsKept w w') (ha : Aside none w w') : Quiet w w' :=
  .of_kept hk fun o e he => ha.held o e (Option.some_ne_none o).symm he

/-- A step that keeps the view of the dispatches and the visible state. -/
theorem of_view (hv : w'.dispatchView = w.dispatchView) (hs : w'.visible = w.visible)
    (ht : TaskFrame w w') : Quiet w w' :=
  .of_aside (.of_view hv hs ht) (.of_view hv hs ht)

/-- A step that keeps the tasks and gives the caller no dispatch it did not hold. -/
theorem of_tasks (ht : w'.tasks = w.tasks) (hg : w'.generations = w.generations)
    (hn : w'.nextId = w.nextId) (hm : ∀ e, w'.main.search? = some e → w.main.search? = some e) :
    Quiet w w' := by
  have htask : ∀ t, w'.task? t = w.task? t := fun t => by rw [task?, task?, ht]
  refine of_kept ⟨by simp only [dispatchView, ht], by rw [hg], by rw [hn]⟩ fun o e he => ?_
  cases o with
  | main => exact hm e he
  | task id => rwa [dispatchOf, htask] at he

/-- A quiet step moves onward. -/
theorem onward (hq : Quiet w w') (hids : TaskIds w) : Onward w w' := by
  refine ⟨hq.current, hq.nextId, fun t x' hx _ => hq.kept t x' hx, fun t x' p g hx ht _ => ?_,
    fun p g _ hs o e he hg => hs o e (hq.held o e he) hg⟩
  obtain ⟨x, hx₀, -⟩ := hq.kept t x' hx
  obtain ⟨hmem, hid⟩ := mem_of_task? hx₀
  have hlt := hids.lt x hmem
  omega

theorem distinct (hq : Quiet w w') (hd : w.Distinct) : w'.Distinct :=
  fun o₁ o₂ e₁ e₂ h₁ h₂ hg => hd o₁ o₂ e₁ e₂ (hq.held o₁ e₁ h₁) (hq.held o₂ e₂ h₂) hg

/-- Removing a task is quiet. -/
theorem removeTask (w : World) (t : Nat) : Quiet w (w.removeTask t) := by
  refine ⟨Nat.le_refl _, Nat.le_refl _, fun t' x' hx => ?_,
    fun o e he => (aside_removeTask t).held o e (Option.some_ne_none o).symm he⟩
  rw [task?_removeTask] at hx
  split at hx
  · cases hx
  · exact ⟨x', hx, rfl, fun _ h => h⟩

/-- Changing the call under an id to one of the same plugin and generation, not made only if it
was not, is quiet. -/
theorem updateCall {id : Nat} {x : Task} {c c' : Call} {f : Task → Task} (hx : w.task? id = some x)
    (hb : x.body = .call c) (hc : (TaskBody.call c').callOf? = (TaskBody.call c).callOf?)
    (hu : ∀ pg, (TaskBody.call c').unmade? = some pg → (TaskBody.call c).unmade? = some pg)
    (hf : ∀ y, (f y).id = y.id ∧ (f y).body = .call c') : Quiet w (w.updateTask id f) := by
  have hone : ∀ y, w.task? id = some y → y = x := fun y hy => Option.some.inj (hy.symm.trans hx)
  refine ⟨Nat.le_refl _, Nat.le_refl _, fun t x' hx' => ?_,
    held_updateTask (fun y => (hf y).1) fun y hy => by rw [(hf y).2, hone y hy, hb]; rfl⟩
  rw [task?_updateTask id t f fun y _ _ => (hf y).1] at hx'
  cases hy : w.task? t with
  | none => rw [hy] at hx'; cases hx'
  | some y =>
    rw [hy, Option.map_some] at hx'
    cases hx'
    refine ⟨y, rfl, ?_⟩
    split
    · next hyt =>
      have hty : t = id := (mem_of_task? hy).2.symm.trans (by simpa using hyt)
      subst hty
      rw [(hf y).2, hone y hy, hb]
      exact ⟨hc, hu⟩
    · exact ⟨rfl, fun _ h => h⟩

end Quiet

/-! ## Steps that poll a dispatch -/

/-- **A step that polls one dispatch** of generation `g`, from a paced engine, moves onward and
keeps the dispatches of distinct generations. The dispatch was there when the step began, or `g`
is new; after the step it is begun with the children the poll left, or gone; and every other
dispatch is as it was. -/
theorem Paced.poll (h : Paced w) {o : Owner} {cs : List Child} (hp : CallsPoll w g cs w')
    (hg : g ≤ w'.generations.current)
    (hnew : (∃ e, w.dispatchOf o = some e ∧ e.generation = g) ∨ w.generations.current < g)
    (ho : ∀ e', w'.dispatchOf o = some e' →
      e'.generation = g ∧ e'.started = true ∧ e'.children = cs)
    (hrest : ∀ o' e', o' ≠ o → w'.dispatchOf o' = some e' → w.dispatchOf o' = some e') :
    Onward w w' ∧ w'.Distinct := by
  have hother : ∀ o' e', o' ≠ o → w.dispatchOf o' = some e' → e'.generation ≠ g := by
    intro o' e' hne he' hge
    rcases hnew with ⟨e, he, hge'⟩ | hlt
    · exact hne (h.distinct o' o e' e he' he (hge.trans hge'.symm))
    · have := h.complete.issued he'
      omega
  have hawait : ∀ e' p, w'.dispatchOf o = some e' → e'.awaits p = true →
      ∃ c ∈ cs, c.awaits p = true := by
    intro e' p he' ha
    obtain ⟨-, hst, hcs⟩ := ho e' he'
    simpa [Execute.awaits, hst, hcs] using ha
  refine ⟨⟨hp.current, hp.nextId, fun t x' hx ht => ?_, fun t x' p g' hx ht hc => ?_,
    fun p g' hg' hs o' e' he' hge => ?_⟩, fun o₁ o₂ e₁ e₂ h₁ h₂ hge => ?_⟩
  · obtain ⟨x, hx₀, hc, hu⟩ := hp.kept t x' hx ht
    exact ⟨x, hx₀, hc, fun pg h => hu ▸ h⟩
  · obtain ⟨rfl, hcur, hmay, hnone⟩ := hp.made t x' p g' hx ht hc
    refine ⟨hcur, hmay, hg, fun o' e' he' hge => ?_⟩
    by_cases hoo : o' = o
    · subst hoo
      cases ha : e'.awaits p
      · rfl
      · obtain ⟨c, hc, hca⟩ := hawait e' p he' ha
        rw [hnone c hc] at hca
        cases hca
    · exact absurd hge (hother o' e' hoo (hrest o' e' hoo he'))
  · by_cases hoo : o' = o
    · subst hoo
      cases ha : e'.awaits p
      · rfl
      · obtain ⟨c, hc, hca⟩ := hawait e' p he' ha
        have hgg : g = g' := (ho e' he').1.symm.trans hge
        subst hgg
        rcases hp.awaiting c hc p hca with hlt | hns
        · omega
        · exact absurd hs hns
    · exact hs o' e' (hrest o' e' hoo he') hge
  · by_cases h₁o : o₁ = o <;> by_cases h₂o : o₂ = o
    · rw [h₁o, h₂o]
    · subst h₁o
      exact absurd ((ho e₁ h₁).1 ▸ hge).symm (hother o₂ e₂ h₂o (hrest o₂ e₂ h₂o h₂))
    · subst h₂o
      exact absurd ((ho e₂ h₂).1 ▸ hge) (hother o₁ e₁ h₁o (hrest o₁ e₁ h₁o h₁))
    · exact h.distinct o₁ o₂ e₁ e₂ (hrest o₁ e₁ h₁o h₁) (hrest o₂ e₂ h₂o h₂) hge

theorem generation_pollExecute (w : World) (o : Owner) (e : Execute) :
    (w.pollExecute o e).2.1.generation = e.generation := by
  obtain ⟨w₁, e₁, done, -, -, he, hpoll⟩ := pollExecute_cases w o e
  rw [hpoll]
  split <;> exact he

/-- **One poll of a dispatch** in a step from a paced engine: the calls it makes are of its
generation, its record comes back begun, of its generation, generations move only forward, and
every dispatch after it was there when the step began. -/
theorem Paced.dispatchPoll (h : Paced w) {w₁ : World} {o : Owner} {e : Execute}
    (hk : CallsKept w w₁) (hf : GateFrame w w₁) (hreg : w₁.registry.ids.Nodup)
    (hs : e.started = true → CallsPoll w e.generation e.children w₁)
    (hu : e.started = false → ∀ p, w.MayCall p e.generation)
    (ht : w₁.dispatchOf o = some e ∨ e.children = []) :
    CallsPoll w e.generation (w₁.pollExecute o e).2.1.children (w₁.pollExecute o e).1 ∧
      (w₁.pollExecute o e).2.1.started = true ∧
      (w₁.pollExecute o e).2.1.generation = e.generation ∧
      w₁.generations.current ≤ (w₁.pollExecute o e).1.generations.current ∧
      ∀ o' e', (w₁.pollExecute o e).1.dispatchOf o' = some e' → w.dispatchOf o' = some e' := by
  obtain ⟨hc, hst⟩ := calls_pollExecute o e hs fun hst => .begin hk h.complete.ids hreg (hu hst) o e
  have hx₁ := h.exclusive.of_gateFrame hf
  have ht₁ : ∀ c ∈ e.children, w₁.ChildTied c := by
    rcases ht with hd | hnil
    · exact hx₁.serial.tied o e hd
    · intro c hc
      rw [hnil] at hc
      cases hc
  have hg := gatedPoll_pollExecute (o := o) hx₁.serial.holding ht₁
  exact ⟨hc, hst, generation_pollExecute w₁ o e, (background_pollExecute w₁ o e).advances.1,
    fun o' e' he => hf.held o' e' (hg.grows.held o' e' he)⟩

/-- A quiet step from a paced engine moves onward, and keeps the dispatches of distinct
generations. -/
theorem Paced.quiet (h : Paced w) (hq : Quiet w w') : Onward w w' ∧ w'.Distinct :=
  ⟨hq.onward h.complete.ids, hq.distinct h.distinct⟩

/-! ## A task's run -/

/-- A step that keeps every task's body finds every task of before under its id. -/
theorem CallsKept.task?_some (h : CallsKept w w') {t : Nat} {x : Task} (hx : w.task? t = some x) :
    ∃ x', w'.task? t = some x' ∧ x'.body = x.body :=
  task?_of_bodies h.bodies hx

/-- A call's poll keeps its plugin and generation, and leaves it not made only if it was not. -/
theorem pollCall_callOf (w : World) (self : Nat) (c : Call) :
    (TaskBody.call (w.pollCall self c).2.1).callOf? = (TaskBody.call c).callOf? ∧
      ∀ pg, (TaskBody.call (w.pollCall self c).2.1).unmade? = some pg →
        (TaskBody.call c).unmade? = some pg := by
  rcases pollCall_cases w self c with hc | ⟨d, hc⟩ | hc
  all_goals rw [hc]
  · exact ⟨rfl, fun _ h => h⟩
  · exact ⟨rfl, fun _ h => by cases h⟩
  · exact ⟨rfl, fun _ h => by cases h⟩

/-- After the task under `id` changes, keeping its id, the dispatch found under `id` is the one
the changed task holds. -/
theorem dispatchOf_updateTask_self {id : Nat} {f : Task → Task} (hf : ∀ y, (f y).id = y.id)
    {e : Execute} (he : (w.updateTask id f).dispatchOf (.task id) = some e) :
    ∃ x, w.task? id = some x ∧ (f x).body.search? = some e := by
  rw [dispatchOf, task?_updateTask id id f fun y _ _ => hf y] at he
  cases hx : w.task? id with
  | none => rw [hx] at he; cases he
  | some x =>
    rw [hx, Option.map_some, Option.bind_some, (mem_of_task? hx).2, beq_self_eq_true,
      if_pos rfl] at he
    exact ⟨x, rfl, he⟩

/-- Changing the task under `id`, keeping ids, leaves every other owner's dispatch. -/
theorem dispatchOf_updateTask_ne {id : Nat} {f : Task → Task} (hf : ∀ y, (f y).id = y.id)
    {o : Owner} (ho : o ≠ .task id) : (w.updateTask id f).dispatchOf o = w.dispatchOf o := by
  cases o with
  | main => rfl
  | task i =>
    rw [dispatchOf, dispatchOf, task?_updateTask id i f fun y _ _ => hf y]
    cases hx : w.task? i with
    | none => rfl
    | some x =>
      have hxi : x.id ≠ id := by
        rw [(mem_of_task? hx).2]
        exact fun h => ho (by rw [h])
      simp [hxi]

/-- **A task's run** from a paced engine moves onward: a search's dispatch is polled and goes
back to its task, or goes with it; a plugin call is polled, which makes no call. -/
theorem Paced.runTask (h : Paced w) (id : Nat) :
    Onward w (w.runTask id) ∧ (w.runTask id).Distinct := by
  unfold World.runTask
  split
  · exact h.quiet (.refl w)
  · next t ht =>
    dsimp only
    have hlt : id < w.nextId := by
      obtain ⟨hmem, hid⟩ := mem_of_task? ht
      rw [← hid]
      exact h.complete.ids.lt t hmem
    generalize hwb : ({ w with budget := pollBudget } : World) = wb
    have hkb : CallsKept w wb := by rw [← hwb]; exact ⟨rfl, Nat.le_refl _, Nat.le_refl _⟩
    have hfb : GateFrame w wb := by rw [← hwb]; exact .of_eq rfl rfl rfl rfl rfl
    have hregb : wb.registry.ids.Nodup := by rw [← hwb]; exact h.complete.registry
    have htb : wb.task? id = some t := by rw [← hwb]; exact ht
    have hk₁ := hkb.trans (callsKept_updateState wb id (.running false))
    have hf₁ := hfb.trans (gateFrame_updateState (w := wb) id (.running false))
    have hreg₁ : (wb.updateTask id fun t => { t with state := .running false }).registry.ids.Nodup :=
      hregb
    have ht₁ : (wb.updateTask id fun t => { t with state := .running false }).task? id =
        some { t with state := .running false } :=
      task?_updateTask_self htb _ fun _ => rfl
    generalize (wb.updateTask id fun t => { t with state := .running false }) = w₁
      at hk₁ hf₁ hreg₁ ht₁ ⊢
    split
    · next e hb =>
      have hd₀ : w.dispatchOf (.task id) = some e := by
        rw [dispatchOf, ht, Option.bind_some, hb]
        rfl
      have hd₁ : w₁.dispatchOf (.task id) = some e := by
        rw [dispatchOf, ht₁, Option.bind_some]
        show t.body.search? = some e
        rw [hb]
        rfl
      have hon := h.complete.onTrack (.task id) e (Option.some_ne_none _).symm hd₀
      obtain ⟨hc, hst, hge, -, hheld⟩ := h.dispatchPoll hk₁ hf₁ hreg₁
        (fun hs => .resume hk₁ h.complete.ids (hon.2 hs) hd₀)
        (fun hs p => mayCall_of_awaits hd₀ (by simp [Execute.awaits, hs])) (.inl hd₁)
      rcases hq : w₁.pollExecute (.task id) e with ⟨w₂, e₂, _ | r⟩
      all_goals
        rw [hq] at hc hst hge hheld
        dsimp only at hc hst hge hheld ⊢
      · have hid : ∀ x : Task, ({ x with body := .search e₂ } : Task).id = x.id := fun _ => rfl
        have hsearch : ∀ x, w₂.task? id = some x →
            (TaskBody.search e₂).callOf? = x.body.callOf? ∧
              (TaskBody.search e₂).unmade? = x.body.unmade? := by
          intro x hx
          obtain ⟨x₀, hx₀, hc₀, hu₀⟩ := hc.kept id x hx hlt
          rw [ht] at hx₀
          cases hx₀
          rw [hb] at hc₀ hu₀
          exact ⟨hc₀.symm, hu₀.symm⟩
        have hp := (hc.updateTask id hid hsearch).of_kept (callsKept_afterPoll _ id)
        refine h.poll (o := .task id) hp (Nat.le_trans (h.complete.issued hd₀) hp.current)
          (.inl ⟨e, hd₀, rfl⟩) (fun e' he' => ?_) (fun o' e' ho' he' => hheld o' e' ?_)
        · obtain ⟨x, -, hx⟩ := dispatchOf_updateTask_self hid ((gateFrame_afterPoll _ id).held _ _ he')
          cases hx
          exact ⟨hge, hst, rfl⟩
        · rw [← dispatchOf_updateTask_ne hid ho']
          exact (gateFrame_afterPoll _ id).held _ _ he'
      · have hp := hc.removeTask id
        refine h.poll (o := .task id) hp (Nat.le_trans (h.complete.issued hd₀) hp.current)
          (.inl ⟨e, hd₀, rfl⟩) (fun e' he' => ?_) (fun o' e' _ he' => hheld o' e' ?_)
        · rw [dispatchOf_removeTask] at he'
          cases he'
        · exact (aside_removeTask id).held o' e' (Option.some_ne_none _).symm he'
    · next c hb =>
      have hq₁ : Quiet w w₁ := .of_kept hk₁ hf₁.held
      have hk₂ : CallsKept w₁ (w₁.pollCall id c).1 := .of_view (dispatchView_pollCall w₁ id c)
        (visible_pollCall w₁ id c) (taskFrame_pollCall w₁ id c)
      have hq₂ : Quiet w₁ (w₁.pollCall id c).1 := .of_view (dispatchView_pollCall w₁ id c)
        (visible_pollCall w₁ id c) (taskFrame_pollCall w₁ id c)
      obtain ⟨x₂, hx₂, hb₂⟩ := hk₂.task?_some ht₁
      have hcall := pollCall_callOf w₁ id c
      rcases hp : w₁.pollCall id c with ⟨w₂, c₂, _ | _⟩
      all_goals
        rw [hp] at hq₂ hx₂ hcall
        dsimp only at hq₂ hx₂ hcall ⊢
      · exact h.quiet ((hq₁.trans hq₂).trans ((Quiet.updateCall (f := fun t => { t with body := .call c₂ })
          hx₂ (hb₂.trans hb) hcall.1 hcall.2 fun _ => ⟨rfl, rfl⟩).trans (.of_view (dispatchView_afterPoll _ id) (visible_afterPoll _ id)
            (taskFrame_afterPoll _ id))))
      · split
        · exact h.quiet ((hq₁.trans hq₂).trans (Quiet.removeTask w₂ id))
        · exact h.quiet ((hq₁.trans hq₂).trans (Quiet.updateCall
            (f := fun t => { t with body := .call c₂, state := .complete }) hx₂ (hb₂.trans hb)
            hcall.1 hcall.2 fun _ => ⟨rfl, rfl⟩))

/-! ## The caller's job and commands -/

/-- **A poll of the caller's query** from a paced engine moves onward: its dispatch begins with
the next generation unless it has one, is polled, and goes back to the caller's job, or ends
it. -/
theorem Paced.pollRun (h : Paced w) {raw : String} {x : Option Execute} (b : Nat)
    (hm : w.main = .run raw x) :
    Onward w ({ w with mainWoken := false, budget := b }.pollRun raw x).1 ∧
      ({ w with mainWoken := false, budget := b }.pollRun raw x).1.Distinct := by
  have hkb : CallsKept w { w with mainWoken := false, budget := b } :=
    ⟨rfl, Nat.le_refl _, Nat.le_refl _⟩
  have hfb : GateFrame w { w with mainWoken := false, budget := b } := .of_eq rfl rfl rfl rfl rfl
  obtain ⟨w₁, e, hk, hf, hreg, hs, hu, ht, hnew, hg, hrun⟩ : ∃ w₁ e, CallsKept w w₁ ∧
      GateFrame w w₁ ∧ w₁.registry.ids.Nodup ∧
      (e.started = true → CallsPoll w e.generation e.children w₁) ∧
      (e.started = false → ∀ p, w.MayCall p e.generation) ∧
      (w₁.dispatchOf .main = some e ∨ e.children = []) ∧
      ((∃ e₀, w.dispatchOf .main = some e₀ ∧ e₀.generation = e.generation) ∨
        w.generations.current < e.generation) ∧
      e.generation ≤ w₁.generations.current ∧
      { w with mainWoken := false, budget := b }.pollRun raw x = w₁.pollRun raw (some e) := by
    cases x with
    | some e =>
      have hd : w.dispatchOf .main = some e := by rw [dispatchOf, hm]; rfl
      have hon := h.complete.onTrack .main e (Option.some_ne_none _).symm hd
      exact ⟨_, e, hkb, hfb, h.complete.registry, fun hs => .resume hkb h.complete.ids (hon.2 hs) hd,
        fun hs p => mayCall_of_awaits hd (by simp [Execute.awaits, hs]), .inl hd, .inl ⟨e, hd, rfl⟩,
        h.complete.issued hd, rfl⟩
    | none =>
      have hcur : { w with mainWoken := false, budget := b }.beginQuery.2.generations.current =
          w.generations.current + 1 :=
        congrArg (·.generations.current) (visible_beginQuery { w with mainWoken := false, budget := b })
      refine ⟨_, { generation := w.generations.current + 1, raw := raw },
        hkb.trans (callsKept_beginQuery _), hfb.trans (gateFrame_beginQuery _),
        (aside_beginQuery _).registry h.complete.registry, (fun hs => by cases hs),
        fun _ _ => .inl (Nat.lt_succ_self _), .inr rfl, .inr (Nat.lt_succ_self _),
        Nat.le_of_eq hcur.symm, ?_⟩
      unfold World.pollRun
      rfl
  obtain ⟨hc, hst, hge, hcur, hheld⟩ := h.dispatchPoll hk hf hreg hs hu ht
  rw [hrun]
  unfold World.pollRun
  dsimp only
  rcases hq : w₁.pollExecute .main e with ⟨w₂, e₂, _ | r⟩
  all_goals
    rw [hq] at hc hst hge hcur hheld
    dsimp only at hc hst hge hcur hheld ⊢
  · have hp : CallsPoll w e.generation e₂.children { w₂ with main := .run raw (some e₂) } :=
      hc.of_kept ⟨rfl, Nat.le_refl _, Nat.le_refl _⟩
    refine h.poll (o := .main) hp (Nat.le_trans hg hcur) hnew (fun e' he' => ?_)
      (fun o' e' ho' he' => ?_)
    · cases he'
      exact ⟨hge, hst, rfl⟩
    · cases o' with
      | main => exact absurd rfl ho'
      | task i => exact hheld (.task i) e' he'
  · have hp : CallsPoll w e.generation e₂.children { w₂ with main := .idle } :=
      hc.of_kept ⟨rfl, Nat.le_refl _, Nat.le_refl _⟩
    refine h.poll (o := .main) hp (Nat.le_trans hg hcur) hnew (fun e' he' => by cases he')
      (fun o' e' ho' he' => ?_)
    cases o' with
    | main => exact absurd rfl ho'
    | task i => exact hheld (.task i) e' he'

/-- Starting every plugin uses the caller's pool, and leaves the caller no dispatch. -/
theorem quiet_pollStartAll (w : World) (ups : Option (List BringUp)) :
    Quiet w (w.pollStartAll ups).1 := by
  refine .of_kept (callsKept_pollStartAll w ups) fun o e he => ?_
  cases o with
  | main =>
    rw [show (w.pollStartAll ups).1.dispatchOf .main = (w.pollStartAll ups).1.main.search? from rfl,
      search?_pollStartAll] at he
    cases he
  | task id => exact (aside_pollStartAll w ups).held (.task id) e (fun h => by cases h) he

/-- **A poll of the caller's job** from a paced engine moves onward: a query is polled, and every
other job makes no call. -/
theorem Paced.pollMain (h : Paced w) (b : Nat) :
    Onward w { w with mainWoken := false, budget := b }.pollMain.1 ∧
      { w with mainWoken := false, budget := b }.pollMain.1.Distinct := by
  have hq₀ : Quiet w { w with mainWoken := false, budget := b } :=
    .of_tasks rfl rfl rfl fun _ he => he
  unfold World.pollMain
  split
  · exact h.quiet hq₀
  · next raw x hm => exact h.pollRun b hm
  · next ms d t _ =>
    exact h.quiet (hq₀.trans (.of_aside (callsKept_pollSleep _ ms d t) (aside_pollSleep _ ms d t)))
  · next g' p i st _ =>
    exact h.quiet (hq₀.trans (.of_aside (callsKept_pollSelect _ g' p i st)
      (aside_pollSelect _ g' p i st)))
  · next ups _ => exact h.quiet (hq₀.trans (quiet_pollStartAll _ ups))
  · next id up _ =>
    exact h.quiet (hq₀.trans (.of_aside (callsKept_pollReload _ id up) (aside_pollReload _ id up)))

/-- A dispatch found after a spawn is one of before, or the new task's. -/
theorem dispatchOf_spawn_cases {b : TaskBody} {o : Owner} {e : Execute}
    (he : (w.spawn b).2.dispatchOf o = some e) :
    w.dispatchOf o = some e ∨ (o = .task w.nextId ∧ b.search? = some e) := by
  cases o with
  | main =>
    refine .inl ?_
    rwa [show (w.spawn b).2.dispatchOf .main = w.dispatchOf .main from
      congrArg (·.search?) (congrArg (·.1) (dispatchView_spawn (w := w) b))] at he
  | task t =>
    rw [dispatchOf, task?_spawn] at he
    cases hw : w.task? t with
    | some x =>
      rw [hw] at he
      exact .inl (by rw [dispatchOf, hw]; exact he)
    | none =>
      rw [hw] at he
      simp only [Option.none_or] at he
      split at he
      · next ht => exact .inr ⟨by rw [ht], he⟩
      · cases he

/-- Two steps onward are one step onward: a call made in the second was for a generation that
could still call its plugin when the first began. -/
theorem Onward.trans {w'' : World} (h₁ : Onward w w') (h₂ : Onward w' w'') : Onward w w'' := by
  refine ⟨Nat.le_trans h₁.current h₂.current, Nat.le_trans h₁.nextId h₂.nextId,
    fun t x'' hx ht => ?_, fun t x'' p g hx ht hc => ?_,
    fun p g hg hs => h₂.spent p g (Nat.le_trans hg h₁.current) (h₁.spent p g hg hs)⟩
  · obtain ⟨x', hx', hc', hu'⟩ := h₂.kept t x'' hx (Nat.lt_of_lt_of_le ht h₁.nextId)
    obtain ⟨x, hx₀, hc, hu⟩ := h₁.kept t x' hx' ht
    exact ⟨x, hx₀, hc'.trans hc, fun pg h => hu pg (hu' pg h)⟩
  · by_cases ht' : t < w'.nextId
    · obtain ⟨x', hx', hc', -⟩ := h₂.kept t x'' hx ht'
      obtain ⟨hcur, hmay, hg, hs⟩ := h₁.made t x' p g hx' ht (hc'.symm.trans hc)
      exact ⟨hcur, hmay, Nat.le_trans hg h₂.current, h₂.spent p g hg hs⟩
    · obtain ⟨hcur, hmay, hg, hs⟩ := h₂.made t x'' p g hx (Nat.not_lt.1 ht') hc
      refine ⟨Nat.le_trans h₁.current hcur, ?_, hg, hs⟩
      by_cases hle : g ≤ w.generations.current
      · have := h₁.current
        rcases hmay with hlt | hns
        · omega
        · exact .inr fun hs₀ => hns (h₁.spent p g hle hs₀)
      · exact .inl (Nat.lt_of_not_le hle)

/-- **A new search**, of a generation newer than every dispatch, queued after a quiet step from
a paced engine, moves onward and keeps the dispatches of distinct generations. -/
theorem Paced.spawnSearch (h : Paced w) {w₁ : World} (hq : Quiet w w₁) (e₀ : Execute)
    (hnew : w.generations.current < e₀.generation) :
    Onward w (w₁.spawn (.search e₀)).2 ∧ (w₁.spawn (.search e₀)).2.Distinct := by
  have hcur : (w₁.spawn (.search e₀)).2.generations = w₁.generations :=
    congrArg Visible.generations (visible_spawn w₁ _)
  have hn : (w₁.spawn (.search e₀)).2.nextId = w₁.nextId + 1 := (tasks_spawn (w := w₁) _).2
  have hd : ∀ o e, (w₁.spawn (.search e₀)).2.dispatchOf o = some e →
      (w.dispatchOf o = some e ∧ e.generation ≤ w.generations.current) ∨
        (o = .task w₁.nextId ∧ e = e₀) := by
    intro o e he
    rcases dispatchOf_spawn_cases he with he₁ | ⟨ho, he₁⟩
    · have he₀ := hq.held o e he₁
      exact .inl ⟨he₀, h.complete.issued he₀⟩
    · cases he₁
      exact .inr ⟨ho, rfl⟩
  refine ⟨⟨by rw [hcur]; exact hq.current, by rw [hn]; exact Nat.le_succ_of_le hq.nextId,
    fun t x' hx ht => ?_, fun t x' p g' hx ht hc => ?_, fun p g' hg' hs o e he hge => ?_⟩,
    fun o₁ o₂ e₁ e₂ h₁ h₂ hge => ?_⟩
  · rcases task?_spawn_cases hx with hx | ⟨rfl, -⟩
    · exact hq.kept t x' hx
    · exact absurd ht (Nat.not_lt.2 hq.nextId)
  · rcases task?_spawn_cases hx with hx | ⟨-, hb⟩
    · obtain ⟨x, hx₀, -⟩ := hq.kept t x' hx
      obtain ⟨hmem, hid⟩ := mem_of_task? hx₀
      have := h.complete.ids.lt x hmem
      omega
    · rw [hb] at hc
      cases hc
  · rcases hd o e he with ⟨he₀, -⟩ | ⟨-, rfl⟩
    · exact hs o e he₀ hge
    · omega
  · rcases hd o₁ e₁ h₁ with ⟨h₁', hi₁⟩ | ⟨ho₁, rfl⟩ <;>
      rcases hd o₂ e₂ h₂ with ⟨h₂', hi₂⟩ | ⟨ho₂, rfl⟩
    · exact h.distinct o₁ o₂ e₁ e₂ h₁' h₂' hge
    · omega
    · omega
    · rw [ho₁, ho₂]

/-- **A submitted query** from a paced engine moves onward: it issues the next generation and
queues a search of it, not begun. -/
theorem Paced.submit (h : Paced w) (raw : String) :
    Onward w (w.submit raw).2 ∧ (w.submit raw).2.Distinct := by
  have hq₁ : Quiet w w.beginQuery.2 := .of_aside (callsKept_beginQuery w) (aside_beginQuery w)
  have hids₁ := (aside_beginQuery w).ids h.complete.ids
  have hg : w.beginQuery.1 = w.generations.current + 1 := rfl
  unfold World.submit
  rcases hb : w.beginQuery with ⟨g, w₁⟩
  rw [hb] at hq₁ hids₁ hg
  dsimp only at hg ⊢
  have hq₂ : Quiet w { w₁ with inside := true } := hq₁.trans (.of_tasks rfl rfl rfl fun _ he => he)
  obtain ⟨ho, hd⟩ := h.spawnSearch hq₂ { generation := g, raw := raw }
    (by rw [hg]; exact Nat.lt_succ_self _)
  have hids₂ := taskIds_spawn (w := { w₁ with inside := true }) (.search { generation := g, raw := raw })
    ⟨hids₁.nodup, hids₁.lt⟩
  have hq₃ : Quiet ({ w₁ with inside := true }.spawn (.search { generation := g, raw := raw })).2
      { ({ w₁ with inside := true }.spawn (.search { generation := g, raw := raw })).2 with
        inside := false } :=
    .of_tasks rfl rfl rfl fun _ he => he
  exact ⟨ho.trans (hq₃.onward hids₂), hq₃.distinct hd⟩

/-- **A command answered at once** from a paced engine moves onward: a submitted query queues its
search, and every other command makes no call. -/
theorem Paced.answer (h : Paced w) {c : EngineCommand} (hc : c.job? = none) :
    Onward w (w.command c).2 ∧ (w.command c).2.Distinct := by
  have hsame : ∀ w', w'.tasks = w.tasks → w'.generations = w.generations → w'.nextId = w.nextId →
      w'.main = w.main → Onward w w' ∧ w'.Distinct :=
    fun w' ht hg hn hm => h.quiet (.of_tasks ht hg hn fun e he => hm ▸ he)
  cases c with
  | submit raw => exact h.submit raw
  | updates => exact hsame _ rfl rfl rfl rfl
  | showMore g =>
    simp only [command]
    split
    · split <;> exact h.quiet (.refl w)
    · exact h.quiet (.refl w)
  | history => exact h.quiet (.refl w)
  | forget q =>
    simp only [command]
    split <;> exact hsame _ rfl rfl rfl rfl
  | calls id =>
    simp only [command]
    split
    · split <;> exact h.quiet (.refl w)
    · exact h.quiet (.refl w)
  | closeUpdates => exact hsame _ rfl rfl rfl rfl
  | registry c => exact hsame _ rfl rfl rfl rfl
  | run | sleep | select | initializeAll | reload => cases hc

/-! ## Every step -/

/-- **Every step keeps the engine complete.** -/
theorem Complete.step (h : Complete none w) (hs : Step w w') : Complete none w' := by
  cases hs with
  | @hand c job hc =>
    refine h.of_aside_raw (.of_tasks rfl rfl (Nat.le_refl _) rfl rfl rfl id
      (fun e he => by rw [EngineCommand.search?_job hc] at he; cases he) (Nat.le_refl _)
      (fun _ h => .inl h) rfl) fun raw e he => ?_
    have hs := EngineCommand.search?_job hc
    rw [show job = MainJob.run raw (some e) from he] at hs
    cases hs
  | pollMain b =>
    have h₀ : Complete none { w with mainWoken := false, budget := b } :=
      h.of_aside (.of_view rfl rfl (.of_eq rfl rfl)) rfl
    exact (complete_pollMain h₀).1
  | nextTask => exact h.of_aside (aside_nextTask w) (congrArg Visible.main (visible_nextTask w))
  | runTask id => exact (complete_runTask h id).1
  | park => exact h.of_aside (aside_park w) (congrArg Visible.main (visible_park w))
  | parkYield => exact h.of_aside (aside_parkYield w) (congrArg Visible.main (visible_parkYield w))
  | drop => exact h.of_aside_raw (aside_setMain w (m := .idle) rfl) fun raw e he => (by cases he)
  | leave => exact h.of_aside (.of_view rfl rfl (.of_eq rfl rfl)) rfl
  | answer hc => exact complete_command h _

/-- **Every step keeps the engine paced, and moves onward.** -/
theorem Paced.step (h : Paced w) (hs : Step w w') : Paced w' ∧ Onward w w' := by
  obtain ⟨ho, hd⟩ : Onward w w' ∧ w'.Distinct := by
    cases hs with
    | hand hc => exact h.quiet (.of_tasks rfl rfl rfl fun e he => by
        rw [EngineCommand.search?_job hc] at he
        cases he)
    | pollMain b => exact h.pollMain b
    | nextTask => exact h.quiet (.of_view (dispatchView_nextTask w) (visible_nextTask w)
        (taskFrame_nextTask w))
    | runTask id => exact h.runTask id
    | park => exact h.quiet (.of_view (dispatchView_park w) (visible_park w) (taskFrame_park w))
    | parkYield => exact h.quiet (.of_view (dispatchView_parkYield w) (visible_parkYield w)
        (taskFrame_parkYield w))
    | drop => exact h.quiet (.of_tasks rfl rfl rfl fun e he => by cases he)
    | leave => exact h.quiet (.of_tasks rfl rfl rfl fun e he => he)
    | answer hc => exact h.answer hc
  exact ⟨h.of_onward ho (h.complete.step hs) (h.exclusive.step hs) hd, ho⟩

/-- **Every engine a run passes through is paced**, from a paced start. -/
theorem Reachable.paced {w₀ : World} (h₀ : Paced w₀) (h : Reachable w₀ w) : Paced w := by
  induction h with
  | refl => exact h₀
  | tail _ hs ih => exact (ih.step hs).1

/-- A property that every step onward keeps holds all along a run from a paced engine. -/
theorem Reachable.onward {w₀ : World} {P : World → Prop} (h₀ : Paced w₀)
    (hP : ∀ w w', Onward w w' → P w → P w') (hp : P w₀) (h : Reachable w₀ w) : P w := by
  induction h with
  | refl => exact hp
  | tail hr hs ih => exact hP _ _ ((Reachable.paced h₀ hr).step hs).2 ih

/-- A configured engine is paced: nothing is under way. -/
theorem paced_configured (registry : Registry) (plugins : List (String × ScriptedPlugin))
    (c : Config) (history : HistoryStore) (disk : Disk) (hreg : registry.ids.Nodup) :
    Paced (configured registry plugins c history disk) where
  complete := complete_configured registry plugins c history disk hreg
  exclusive := exclusive_configured registry plugins c history disk
  distinct o₁ _ _ _ h₁ := by cases o₁ <;> cases h₁
  calls _ _ _ _ hx := nomatch hx

/-! ## The calls a plugin receives -/

/-- In the step from `w` to `w'`, plugin `p` receives the query call of generation `g`: a task
holding that call, not made yet, runs. -/
def Receives (w : World) (p : String) (g : Nat) (w' : World) : Prop :=
  ∃ t x, w.task? t = some x ∧ x.body.unmade? = some (p, g) ∧ w' = w.runTask t

theorem Receives.step (h : Receives w p g w') : Step w w' := by
  obtain ⟨t, -, -, -, rfl⟩ := h
  exact .runTask w t

/-- A call's first poll makes it. -/
theorem unmade_pollCall {c : Call} (hc : c.phase = .fresh) (w : World) (self : Nat) :
    (TaskBody.call (w.pollCall self c).2.1).unmade? = none := by
  simp only [pollCall, hc]
  split <;> rfl

/-- After a task is changed to hold `b`, the task under its id holds `b`. -/
theorem body_updateTask_self {t : Nat} {f : Task → Task} {b : TaskBody} {x' : Task}
    (hf : ∀ y, (f y).id = y.id ∧ (f y).body = b) (hx : (w.updateTask t f).task? t = some x') :
    x'.body = b := by
  rw [task?_updateTask t t f fun y _ _ => (hf y).1] at hx
  obtain ⟨y, hy, rfl⟩ := Option.map_eq_some_iff.1 hx
  rw [(mem_of_task? hy).2, beq_self_eq_true, if_pos rfl]
  exact (hf y).2

/-- **A call received is made**: once the task holding a call not made yet has run, the task
holds the call made, or is gone. -/
theorem unmade_runTask {t : Nat} {x x' : Task} {pg : String × Nat} (hx : w.task? t = some x)
    (hu : x.body.unmade? = some pg) (hx' : (w.runTask t).task? t = some x') :
    x'.body.unmade? = none := by
  obtain ⟨c, hb, hc⟩ : ∃ c, x.body = .call c ∧ c.phase = .fresh := by
    rcases hb : x.body with _ | ⟨p, q, g, _ | _ | _, j, a⟩ <;> rw [hb] at hu <;> cases hu
    exact ⟨_, rfl, rfl⟩
  unfold World.runTask at hx'
  rw [hx] at hx'
  dsimp only at hx'
  rw [hb] at hx'
  dsimp only at hx'
  generalize ({ w with budget := pollBudget }.updateTask t fun t => { t with state := .running false }) = w₁
    at hx'
  have hm := unmade_pollCall hc w₁ t
  rcases hp : w₁.pollCall t c with ⟨w₂, c₂, _ | _⟩
  all_goals
    rw [hp] at hx' hm
    dsimp only at hx' hm
  · obtain ⟨y, hy, hby⟩ := (callsKept_afterPoll _ t).task? hx'
    rw [hby, body_updateTask_self (f := fun t => { t with body := .call c₂ }) (fun _ => ⟨rfl, rfl⟩) hy]
    exact hm
  · split at hx'
    · rw [task?_removeTask, if_pos rfl] at hx'
      cases hx'
    · rw [body_updateTask_self (f := fun t => { t with body := .call c₂, state := .complete })
        (fun _ => ⟨rfl, rfl⟩) hx']
      exact hm

/-- **With the gates in order, at most one call into a plugin is pending**: two calls into `p`
not made yet are the same task's, since each holds the gate of `p`. -/
theorem Exclusive.unmade_unique (h : Exclusive w) {t t' : Nat} {x x' : Task} {g g' : Nat}
    (hx : w.task? t = some x) (hx' : w.task? t' = some x') (hu : x.body.unmade? = some (p, g))
    (hu' : x'.body.unmade? = some (p, g')) : t' = t := by
  have hh : ∀ {y : Task} {g₀ : Nat}, y.body.unmade? = some (p, g₀) → y.body.holding? = some p := by
    intro y g₀ hy
    rcases hb : y.body with _ | ⟨p₀, q, g₁, _ | _ | _, j, a⟩ <;> rw [hb] at hy <;> cases hy
    rfl
  by_contra hne
  have hcount := count_callsUnderWay h.serial.holding.ids hx p
  rw [hh hu, Option.toList_some, List.count_singleton_self] at hcount
  have hx'' : (w.removeTask t).task? t' = some x' := by rw [task?_removeTask, if_neg hne]; exact hx'
  have hpos : 0 < (w.removeTask t).callsUnderWay.count p :=
    List.count_pos_iff.2 (List.mem_filterMap.2 ⟨x', (mem_of_task? hx'').1, hh hu'⟩)
  have hone := h.serial.holding.gated.one p
  rw [List.count_append] at hone
  omega

/-- Plugin `p` received the call of generation `g`: `g` was issued and no dispatch of it will
call `p` again, and every call into `p` not made yet is of a later generation. -/
def Past (w : World) (p : String) (g : Nat) : Prop :=
  g ≤ w.generations.current ∧ w.Spent p g ∧
    ∀ t x g', w.task? t = some x → x.body.unmade? = some (p, g') → g < g'

/-- A step onward from an engine where `g` was issued and can call `p` no more, which leaves
every call into `p` of before that is not made of a later generation, reaches an engine past
`g`: a call new in the step is of a generation that could still call `p`. -/
theorem past_of_onward (ho : Onward w w') (hg : g ≤ w.generations.current) (hs : w.Spent p g)
    (hold : ∀ t x' g', w'.task? t = some x' → t < w.nextId → x'.body.unmade? = some (p, g') →
      g < g') : w'.Past p g := by
  refine ⟨Nat.le_trans hg ho.current, ho.spent p g hg hs, fun t x' g' hx hu => ?_⟩
  by_cases ht : t < w.nextId
  · exact hold t x' g' hx ht hu
  · obtain ⟨hcur, hmay, -, -⟩ :=
      ho.made t x' p g' hx (Nat.not_lt.1 ht) (TaskBody.callOf?_of_unmade? hu)
    rcases Nat.lt_or_eq_of_le (Nat.le_trans hg hcur) with hlt | rfl
    · exact hlt
    · rcases hmay with hlt | hns
      · omega
      · exact absurd hs hns

/-- Being past a generation lasts. -/
theorem Past.onward (hp : w.Past p g) (ho : Onward w w') : w'.Past p g := by
  obtain ⟨hg, hs, hlt⟩ := hp
  refine past_of_onward ho hg hs fun t x' g' hx ht hu => ?_
  obtain ⟨x, hx₀, -, hu₀⟩ := ho.kept t x' hx ht
  exact hlt t x g' hx₀ (hu₀ _ hu)

/-- **A plugin that receives the call of a generation is past it**: the call is made, no other
call into the plugin was pending beside it, and its generation will call the plugin no more. -/
theorem Paced.past (h : Paced w) (hr : Receives w p g w') (ho : Onward w w') : w'.Past p g := by
  obtain ⟨t, x, hx, hu, rfl⟩ := hr
  obtain ⟨hg, hs⟩ := h.calls t x p g hx (TaskBody.callOf?_of_unmade? hu)
  refine past_of_onward ho hg hs fun t' x' g' hx' ht hu' => ?_
  obtain ⟨x₀, hx₀, -, hu₀⟩ := ho.kept t' x' hx' ht
  have htt := h.exclusive.unmade_unique hx hx₀ hu (hu₀ _ hu')
  subst htt
  rw [unmade_runTask hx hu hx'] at hu'
  cases hu'

/-- Generation `g` was superseded with no call of it into `p` pending: it had not taken the gate
of `p`, or its call was made already. -/
def Superseded (w : World) (p : String) (g : Nat) : Prop :=
  w.generations.isCancelled g = true ∧ ∀ t x, w.task? t = some x → x.body.unmade? ≠ some (p, g)

/-- Being superseded lasts: a call made later is of a generation not superseded. -/
theorem Superseded.onward (hs : w.Superseded p g) (ho : Onward w w') : w'.Superseded p g := by
  obtain ⟨hc, hu⟩ := hs
  simp only [Generations.isCancelled, decide_eq_true_eq] at hc
  refine ⟨by simp only [Generations.isCancelled, decide_eq_true_eq]; exact Nat.lt_of_lt_of_le hc ho.current,
    fun t x' hx hu' => ?_⟩
  by_cases ht : t < w.nextId
  · obtain ⟨x, hx₀, -, hu₀⟩ := ho.kept t x' hx ht
    exact hu t x hx₀ (hu₀ _ hu')
  · obtain ⟨hcur, -⟩ := ho.made t x' p g hx (Nat.not_lt.1 ht) (TaskBody.callOf?_of_unmade? hu')
    omega

theorem Superseded.not_receives (hs : w.Superseded p g) : ¬ Receives w p g w' :=
  fun ⟨t, x, hx, hu, _⟩ => hs.2 t x hx hu

/-- **Calls into one plugin are paced.** Over any run of an engine configured with a registry of
distinct ids:
* calls into one plugin never overlap: its query calls under way, a start-up, reload or selection
  the caller's job makes under its gate, and a waiter handed its gate are never more than one;
* the query calls a plugin receives are of strictly increasing generations, so one per
  generation at most;
* a generation superseded with no call of it into a plugin pending, as when it had not taken the
  plugin's gate, never has the plugin receive a call of it afterwards. -/
theorem plugin_calls_are_paced (registry : Registry) (plugins : List (String × ScriptedPlugin))
    (cfg : Config) (history : HistoryStore) (disk : Disk) (hreg : registry.ids.Nodup) :
    let w₀ := configured registry plugins cfg history disk
    (∀ w p, Reachable w₀ w → w.handedTo p + (w.callsUnderWay ++ w.main.holding).count p ≤ 1) ∧
    (∀ w₁ w₁' w₂ w₂' p g₁ g₂, Reachable w₀ w₁ → Receives w₁ p g₁ w₁' → Reachable w₁' w₂ →
      Receives w₂ p g₂ w₂' → g₁ < g₂) ∧
    (∀ w w₂ w₂' p g, Reachable w₀ w → w.generations.isCancelled g = true →
      (∀ t x, w.task? t = some x → x.body.unmade? ≠ some (p, g)) → Reachable w w₂ →
      ¬ Receives w₂ p g w₂') := by
  intro w₀
  have h₀ : Paced w₀ := paced_configured registry plugins cfg history disk hreg
  refine ⟨fun w p hr => (Reachable.paced h₀ hr).exclusive.serial.holding.gated.one p,
    fun w₁ w₁' w₂ w₂' p g₁ g₂ hr₁ hrec₁ hr hrec₂ => ?_,
    fun w w₂ w₂' p g hr hc hu hr₂ hrec => ?_⟩
  · have hp₁ := Reachable.paced h₀ hr₁
    obtain ⟨hp₁', ho₁⟩ := hp₁.step hrec₁.step
    have hpast : w₂.Past p g₁ := Reachable.onward (P := fun w => w.Past p g₁) hp₁'
      (fun _ _ ho hp => hp.onward ho) (hp₁.past hrec₁ ho₁) hr
    obtain ⟨t, x, hx, hu, -⟩ := hrec₂
    exact hpast.2.2 t x g₂ hx hu
  · have hs : w.Superseded p g := ⟨hc, hu⟩
    exact (Reachable.onward (P := fun w => w.Superseded p g) (Reachable.paced h₀ hr)
      (fun _ _ ho hs => hs.onward ho) hs hr₂).not_receives hrec

/-- A registry of one plugin: calls into it are paced over every run. -/
theorem plugin_calls_are_paced_one_plugin :
    let registry : Registry := ⟨[⟨{ id := "files" }, .ready⟩]⟩
    let w₀ := configured registry [] {} (HistoryStore.inMemory {}) Disk.fresh
    registry.ids.Nodup ∧
    (∀ w p, Reachable w₀ w → w.handedTo p + (w.callsUnderWay ++ w.main.holding).count p ≤ 1) ∧
    (∀ w₁ w₁' w₂ w₂' p g₁ g₂, Reachable w₀ w₁ → Receives w₁ p g₁ w₁' → Reachable w₁' w₂ →
      Receives w₂ p g₂ w₂' → g₁ < g₂) ∧
    (∀ w w₂ w₂' p g, Reachable w₀ w → w.generations.isCancelled g = true →
      (∀ t x, w.task? t = some x → x.body.unmade? ≠ some (p, g)) → Reachable w w₂ →
      ¬ Receives w₂ p g w₂') := by
  intro registry w₀
  have hn : registry.ids.Nodup := List.nodup_singleton _
  exact ⟨hn, plugin_calls_are_paced registry [] {} (HistoryStore.inMemory {}) Disk.fresh hn⟩

end World

end Launcher.Engine
