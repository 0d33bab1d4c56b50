import Launcher.Proofs.Engine.Exclusion
import Launcher.Proofs.Engine.Merged

/-!
# The calls a dispatch makes

A dispatch child takes its target's gate and calls the plugin under its generation; until it
does, it awaits the plugin. A call is made at its task's first poll; before it, the call is
unmade. This module follows, through one poll of a dispatch, which calls it makes:

* `Child.awaits`, `Execute.awaits` — a child that may still take its target's gate, a dispatch
  that may still call a plugin (it has not begun, or a child of it awaits the plugin);
* `TaskBody.callOf?`, `TaskBody.unmade?` — the plugin and generation of a call, and of a call
  not made yet;
* `World.Spent` — no dispatch of a generation will call a plugin any more;
* `World.CallsPoll` — the poll of a dispatch of generation `g` so far: its children await each
  plugin at most once, the calls before it are kept, and every call it made is of `g`, into a
  plugin the dispatch still awaited when the step began, which no child awaits any more;
* `World.calls_pollChild`, `World.calls_pollPool`, `World.calls_pollExecute` — a child, a pool
  and a whole dispatch poll keep it;
* `World.CallsPoll.begin`, `World.CallsPoll.resume` — a dispatch that begins, or resumes, starts
  its poll with children that await each plugin at most once;
* `World.CallsKept` — a step that keeps every task's body, as the caller's jobs that are not
  queries do (`World.callsKept_pollSelect`, `World.callsKept_pollStartAll`,
  `World.callsKept_pollReload`).
-/

namespace Launcher.Engine

/-- A dispatch child that may still take the gate of plugin `p` and call it. -/
def Child.awaits (p : String) : Child → Bool
  | .fresh target => target.metadata.id == p
  | .waiting target _ _ _ _ => target.metadata.id == p
  | _ => false

/-- A dispatch that may still call plugin `p`: it has not begun, or a child of it awaits `p`. -/
def Execute.awaits (e : Execute) (p : String) : Bool := !e.started || e.children.any (·.awaits p)

/-- The plugin and generation of a call. -/
def TaskBody.callOf? : TaskBody → Option (String × Nat)
  | .call ⟨p, _, g, _, _, _⟩ => some (p, g)
  | _ => none

/-- The plugin and generation of a call not made yet: a call task before its first poll. -/
def TaskBody.unmade? : TaskBody → Option (String × Nat)
  | .call ⟨p, _, g, .fresh, _, _⟩ => some (p, g)
  | _ => none

theorem TaskBody.callOf?_of_unmade? {b : TaskBody} {pg : String × Nat} (h : b.unmade? = some pg) :
    b.callOf? = some pg := by
  rcases b with _ | ⟨p, q, g, _ | _ | _, j, a⟩ <;> cases h
  rfl

namespace World

/-- No dispatch of generation `g` will call plugin `p` any more: each has begun, and no child of
it awaits `p`. -/
def Spent (w : World) (p : String) (g : Nat) : Prop :=
  ∀ o e, w.dispatchOf o = some e → e.generation = g → e.awaits p = false

/-- Generation `g` may still call plugin `p`: it was not issued yet, or some dispatch of it may. -/
def MayCall (w : World) (p : String) (g : Nat) : Prop :=
  w.generations.current < g ∨ ¬ w.Spent p g

variable {w w' w'' : World}

/-! ## Steps that keep the calls -/

/-- A step that keeps every task's body and hands out ids and generations only forward. -/
structure CallsKept (w w' : World) : Prop where
  bodies : w'.dispatchView.2.1 = w.dispatchView.2.1
  current : w.generations.current ≤ w'.generations.current
  nextId : w.nextId ≤ w'.nextId

namespace CallsKept

theorem refl (w : World) : CallsKept w w := ⟨rfl, Nat.le_refl _, Nat.le_refl _⟩

theorem trans (h₁ : CallsKept w w') (h₂ : CallsKept w' w'') : CallsKept w w'' :=
  ⟨h₂.bodies.trans h₁.bodies, Nat.le_trans h₁.current h₂.current, Nat.le_trans h₁.nextId h₂.nextId⟩

/-- A step that keeps the view of the dispatches and the visible state. -/
theorem of_view (hv : w'.dispatchView = w.dispatchView) (hs : w'.visible = w.visible)
    (ht : TaskFrame w w') : CallsKept w w' :=
  ⟨congrArg (·.2.1) hv, Nat.le_of_eq (congrArg (·.generations.current) hs).symm, ht.nextId⟩

/-- A task under a kept id has the body it had. -/
theorem task? (h : CallsKept w w') {t : Nat} {x' : Task} (hx : w'.task? t = some x') :
    ∃ x, w.task? t = some x ∧ x'.body = x.body := by
  obtain ⟨x, hx', hxb⟩ := task?_of_bodies h.bodies.symm hx
  exact ⟨x, hx', hxb.symm⟩

theorem of_pollDelay {k : Waker} {d : Nat} {timer timer' : Option Nat} {b : Bool}
    (h : w.pollDelay k d timer = (b, timer', w')) : CallsKept w w' := by
  have hk := of_view (dispatchView_pollDelay w k d timer) (visible_pollDelay w k d timer)
    (taskFrame_pollDelay w k d timer)
  rwa [h] at hk

end CallsKept

section Bookkeeping

variable (w : World)

theorem callsKept_defer (k : Waker) : CallsKept w (w.defer k) :=
  .of_view (dispatchView_defer w k) (visible_defer w k) (taskFrame_defer w k)

theorem callsKept_spend : CallsKept w w.spend :=
  .of_view (dispatchView_spend w) (visible_spend w) (taskFrame_spend w)

theorem callsKept_dropTimer? (t : Option Nat) : CallsKept w (w.dropTimer? t) :=
  .of_view (dispatchView_dropTimer? w t) (visible_dropTimer? w t) (taskFrame_dropTimer? w t)

theorem callsKept_dropListener (id : Nat) : CallsKept w (w.dropListener id) :=
  .of_view (dispatchView_dropListener w id) (visible_dropListener w id) (taskFrame_dropListener w id)

theorem callsKept_dropWaiter (id : Nat) : CallsKept w (w.dropWaiter id) :=
  .of_view (dispatchView_dropWaiter w id) (visible_dropWaiter w id) (taskFrame_dropWaiter w id)

theorem callsKept_settleWaiter (id : Nat) : CallsKept w (w.settleWaiter id) :=
  .of_view (dispatchView_settleWaiter w id) (visible_settleWaiter w id) (taskFrame_settleWaiter w id)

theorem callsKept_tryAcquire (plugin : String) : CallsKept w (w.tryAcquire plugin).2 :=
  .of_view (dispatchView_tryAcquire w plugin) (visible_tryAcquire w plugin)
    (taskFrame_tryAcquire w plugin)

theorem callsKept_enqueueWaiter (plugin : String) (k : Waker) :
    CallsKept w (w.enqueueWaiter plugin k).2 :=
  .of_view (dispatchView_enqueueWaiter w plugin k) (visible_enqueueWaiter w plugin k)
    (taskFrame_enqueueWaiter w plugin k)

theorem callsKept_addListener (g : Nat) (k : Waker) : CallsKept w (w.addListener g k).2 :=
  .of_view (dispatchView_addListener w g k) (visible_addListener w g k) (taskFrame_addListener w g k)

theorem callsKept_dequeue (o : Owner) : CallsKept w (w.dequeue o).2 :=
  .of_view (dispatchView_dequeue w o) (visible_dequeue w o) (taskFrame_dequeue w o)

theorem callsKept_wakeOwner (o : Owner) : CallsKept w (w.wakeOwner o) :=
  .of_view (dispatchView_wakeOwner w o) (visible_wakeOwner w o) (taskFrame_wakeOwner w o)

theorem callsKept_updatePool (o : Owner) (f : Pool → Pool) : CallsKept w (w.updatePool o f) :=
  ⟨rfl, Nat.le_refl _, Nat.le_refl _⟩

/-- A child leaving its gate: its timer, listener and waiter go. -/
theorem callsKept_leaveGate (timer : Option Nat) (l x : Nat) :
    CallsKept w (((w.dropTimer? timer).dropListener l).dropWaiter x) :=
  ((callsKept_dropTimer? w timer).trans (callsKept_dropListener _ l)).trans (callsKept_dropWaiter _ x)

theorem callsKept_logCall (id : String) (f : CallLog → CallLog) : CallsKept w (w.logCall id f) :=
  .of_view (dispatchView_logCall w id f) (visible_logCall w id f) (taskFrame_logCall w id f)

theorem callsKept_release (plugin : String) : CallsKept w (w.release plugin) :=
  .of_view (dispatchView_release w plugin) (visible_release w plugin) (taskFrame_release w plugin)

theorem callsKept_registry (r : Registry) : CallsKept w { w with registry := r } :=
  ⟨rfl, Nat.le_refl _, Nat.le_refl _⟩

theorem callsKept_notify (u : EngineUpdate) : CallsKept w (w.notify u) := by
  unfold notify
  split <;> exact ⟨rfl, Nat.le_refl _, Nat.le_refl _⟩

theorem callsKept_deliverSelection (plugin : String) (item : ResultItem) (k : Waker) :
    CallsKept w (w.deliverSelection plugin item k).2 :=
  .of_view (dispatchView_deliverSelection w plugin item k) (visible_deliverSelection w plugin item k)
    (taskFrame_deliverSelection w plugin item k)

theorem callsKept_updateState (id : Nat) (s : TaskState) :
    CallsKept w (w.updateTask id fun t => { t with state := s }) :=
  .of_view (dispatchView_updateTask (w := w) id _ fun _ => ⟨rfl, rfl⟩) (visible_updateTask w id _)
    (taskFrame_updateState w id s)

theorem callsKept_afterPoll (id : Nat) : CallsKept w (w.afterPoll id) :=
  .of_view (dispatchView_afterPoll w id) (visible_afterPoll w id) (taskFrame_afterPoll w id)

/-- Issuing a generation moves the current one on, and wakes the listeners of the one before. -/
theorem callsKept_beginQuery : CallsKept w w.beginQuery.2 := by
  unfold beginQuery
  exact ⟨congrArg (·.2.1) (dispatchView_foldl_wake _ _ _), (aside_beginQuery w).current,
    (taskFrame_beginQuery w).nextId⟩

end Bookkeeping

/-! ## The poll of a dispatch -/

/-- The poll of a dispatch of generation `g`, begun in the step from `w₀`, with children `cs`
at engine `w`: the children await each plugin at most once, and only plugins `g` may still call
as of `w₀`; a task of `w₀` keeps its call's plugin and generation, and whether it was made; and
a call made since is of `g`, issued by `w₀`, into a plugin `g` may still call as of `w₀`, which
no child awaits any more. -/
structure CallsPoll (w₀ : World) (g : Nat) (cs : List Child) (w : World) : Prop where
  current : w₀.generations.current ≤ w.generations.current
  nextId : w₀.nextId ≤ w.nextId
  once : ∀ (p : String) (i j : Nat) (c c' : Child), cs[i]? = some c → cs[j]? = some c' →
    c.awaits p = true → c'.awaits p = true → i = j
  awaiting : ∀ c ∈ cs, ∀ p, c.awaits p = true → w₀.MayCall p g
  kept : ∀ t x', w.task? t = some x' → t < w₀.nextId →
    ∃ x, w₀.task? t = some x ∧ x'.body.callOf? = x.body.callOf? ∧ x'.body.unmade? = x.body.unmade?
  made : ∀ t x' p g', w.task? t = some x' → w₀.nextId ≤ t → x'.body.callOf? = some (p, g') →
    g' = g ∧ w₀.generations.current ≤ g ∧ w₀.MayCall p g ∧ ∀ c ∈ cs, c.awaits p = false

variable {w₀ : World} {g : Nat} {cs : List Child}

/-- A step that keeps the calls keeps the poll. -/
theorem CallsPoll.of_kept (h : CallsPoll w₀ g cs w) (hk : CallsKept w w') : CallsPoll w₀ g cs w' := by
  refine ⟨Nat.le_trans h.current hk.current, Nat.le_trans h.nextId hk.nextId, h.once, h.awaiting,
    fun t x' hx ht => ?_, fun t x' p g' hx ht hc => ?_⟩
  · obtain ⟨x, hx₁, hb⟩ := hk.task? hx
    rw [hb]
    exact h.kept t x hx₁ ht
  · obtain ⟨x, hx₁, hb⟩ := hk.task? hx
    rw [hb] at hc
    exact h.made t x p g' hx₁ ht hc

/-- A child at an index of the children after one was replaced awaits only what the child there
awaited before. -/
theorem awaits_of_set {i j : Nat} {c c' d : Child} (hi : cs[i]? = some c)
    (hc : ∀ p, c'.awaits p = true → c.awaits p = true) (hd : (cs.set i c')[j]? = some d) :
    ∃ d₀, cs[j]? = some d₀ ∧ ∀ p, d.awaits p = true → d₀.awaits p = true := by
  rw [List.getElem?_set] at hd
  split at hd
  · next hij =>
    subst hij
    split at hd
    · cases hd
      exact ⟨c, hi, hc⟩
    · cases hd
  · exact ⟨d, hd, fun _ h => h⟩

/-- **Replacing a child** by one that awaits no more than it did keeps the poll. -/
theorem CallsPoll.set (h : CallsPoll w₀ g cs w) {i : Nat} {c c' : Child} (hi : cs[i]? = some c)
    (hc : ∀ p, c'.awaits p = true → c.awaits p = true) : CallsPoll w₀ g (cs.set i c') w := by
  have hmem : ∀ d ∈ cs.set i c', ∃ d₀ ∈ cs, ∀ p, d.awaits p = true → d₀.awaits p = true := by
    intro d hd
    obtain ⟨j, hj⟩ := List.mem_iff_getElem?.1 hd
    obtain ⟨d₀, hd₀, hdd⟩ := awaits_of_set hi hc hj
    exact ⟨d₀, List.mem_of_getElem? hd₀, hdd⟩
  refine ⟨h.current, h.nextId, fun p j₁ j₂ d₁ d₂ h₁ h₂ ha₁ ha₂ => ?_, fun d hd p hp => ?_, h.kept,
    fun t x' p g' hx ht hcall => ?_⟩
  · obtain ⟨e₁, he₁, hd₁⟩ := awaits_of_set hi hc h₁
    obtain ⟨e₂, he₂, hd₂⟩ := awaits_of_set hi hc h₂
    exact h.once p j₁ j₂ e₁ e₂ he₁ he₂ (hd₁ p ha₁) (hd₂ p ha₂)
  · obtain ⟨d₀, hd₀, hdd⟩ := hmem d hd
    exact h.awaiting d₀ hd₀ p (hdd p hp)
  · obtain ⟨hg, hcur, hmay, hnone⟩ := h.made t x' p g' hx ht hcall
    refine ⟨hg, hcur, hmay, fun d hd => ?_⟩
    obtain ⟨d₀, hd₀, hdd⟩ := hmem d hd
    cases hda : d.awaits p
    · rfl
    · have h₀ := hdd p hda
      rw [hnone d₀ hd₀] at h₀
      cases h₀

/-- Removing a task keeps the poll. -/
theorem CallsPoll.removeTask (h : CallsPoll w₀ g cs w) (t : Nat) :
    CallsPoll w₀ g cs (w.removeTask t) := by
  have hx : ∀ t' x', (w.removeTask t).task? t' = some x' → w.task? t' = some x' := fun t' x' hx => by
    rw [task?_removeTask] at hx
    split at hx
    · cases hx
    · exact hx
  exact ⟨h.current, h.nextId, h.once, h.awaiting, fun t' x' hx' => h.kept t' x' (hx t' x' hx'),
    fun t' x' p g' hx' => h.made t' x' p g' (hx t' x' hx')⟩

/-- Changing the task found under an id without changing what it calls, or whether its call is
made, keeps the poll. -/
theorem CallsPoll.updateTask (h : CallsPoll w₀ g cs w) (t : Nat) {f : Task → Task}
    (hid : ∀ x, (f x).id = x.id)
    (hf : ∀ x, w.task? t = some x → (f x).body.callOf? = x.body.callOf? ∧
      (f x).body.unmade? = x.body.unmade?) :
    CallsPoll w₀ g cs (w.updateTask t f) := by
  have hx : ∀ t' x', (w.updateTask t f).task? t' = some x' → ∃ x, w.task? t' = some x ∧
      x'.body.callOf? = x.body.callOf? ∧ x'.body.unmade? = x.body.unmade? := fun t' x' hx => by
    rw [task?_updateTask t t' f fun x _ _ => hid x] at hx
    cases hw : w.task? t' with
    | none => rw [hw] at hx; cases hx
    | some x =>
      rw [hw] at hx
      cases hx
      refine ⟨x, rfl, ?_⟩
      dsimp only
      split
      · next hxt =>
        have htt : t' = t := (mem_of_task? hw).2.symm.trans (by simpa using hxt)
        subst htt
        exact hf x hw
      · exact ⟨rfl, rfl⟩
  refine ⟨h.current, h.nextId, h.once, h.awaiting, fun t' x' hx' ht => ?_,
    fun t' x' p g' hx' ht hc => ?_⟩
  · obtain ⟨x, hx₁, hc₁, hu₁⟩ := hx t' x' hx'
    obtain ⟨x₀, hx₀, hc₀, hu₀⟩ := h.kept t' x hx₁ ht
    exact ⟨x₀, hx₀, hc₁.trans hc₀, hu₁.trans hu₀⟩
  · obtain ⟨x, hx₁, hc₁, -⟩ := hx t' x' hx'
    exact h.made t' x p g' hx₁ ht (hc₁.symm.trans hc)

/-! ## A child waiting for its call -/

/-- Leaving a waker with a call keeps the poll. -/
theorem CallsPoll.awaitCall (h : CallsPoll w₀ g cs w) (t : Nat) (k : Waker) :
    CallsPoll w₀ g cs (w.awaitCall t k) :=
  h.updateTask t (fun x => by rcases x with ⟨id, _ | _, s⟩ <;> rfl) fun x _ => by
    rcases x with ⟨id, _ | ⟨p, q, g, _ | _ | _, j, a⟩, s⟩ <;> exact ⟨rfl, rfl⟩

/-- A child that stops waiting for its call keeps the poll: the call is cleared away, or goes on
alone. -/
theorem CallsPoll.detach (h : CallsPoll w₀ g cs w) (t : Nat) : CallsPoll w₀ g cs (w.detach t) := by
  unfold World.detach
  split
  · next c s hfind =>
    split
    · exact h.removeTask t
    · refine h.updateTask t (fun _ => rfl) fun x hx => ?_
      rw [hfind] at hx
      cases hx
      rcases c with ⟨p, q, g, _ | _ | _, j, a⟩ <;> exact ⟨rfl, rfl⟩
  · exact h

/-- A child waiting for its call awaits no gate, whatever the poll brings. -/
theorem awaits_pollCalling {k : Waker} {target : Listed} {t deadline : Nat} {timer : Option Nat}
    {c' : Child} {out : Option Arrival} (hr : w.pollCalling k target t deadline timer = (c', out, w'))
    (p : String) : c'.awaits p = false := by
  unfold pollCalling at hr
  split at hr
  · cases hr
    rfl
  · split at hr
    · cases hr
      rfl
    · dsimp only at hr
      split at hr <;>
      · cases hr
        rfl

/-- **A child waiting for its call** keeps the poll. -/
theorem calls_pollCalling (h : CallsPoll w₀ g cs w) {k : Waker} {target : Listed}
    {t deadline : Nat} {timer : Option Nat} {c' : Child} {out : Option Arrival}
    (hr : w.pollCalling k target t deadline timer = (c', out, w')) : CallsPoll w₀ g cs w' := by
  unfold pollCalling at hr
  split at hr
  · cases hr
    exact h.of_kept (callsKept_defer w k)
  · split at hr
    · cases hr
      exact ((h.removeTask t).of_kept (callsKept_dropTimer? _ timer)).of_kept (callsKept_spend _)
    · dsimp only at hr
      have h₁ := h.awaitCall t k
      split at hr
      · next hd =>
        cases hr
        exact ((h₁.of_kept (.of_pollDelay hd)).detach t).of_kept (callsKept_dropTimer? _ _)
      · next hd =>
        cases hr
        exact h₁.of_kept (.of_pollDelay hd)

/-! ## A child at its gate -/

/-- After a child awaiting `p` is replaced by one awaiting nothing, no child awaits `p`. -/
theorem CallsPoll.none_awaits (h : CallsPoll w₀ g cs w) {i : Nat} {c c₀ : Child} {p : String}
    (hi : cs[i]? = some c) (hc : c.awaits p = true) (hc₀ : ∀ p, c₀.awaits p = false) :
    ∀ d ∈ cs.set i c₀, d.awaits p = false := by
  intro d hd
  obtain ⟨j, hj⟩ := List.mem_iff_getElem?.1 hd
  rw [List.getElem?_set] at hj
  split at hj
  · split at hj
    · cases hj
      exact hc₀ p
    · cases hj
  · next hij =>
    cases hda : d.awaits p
    · rfl
    · exact absurd (h.once p i j c d hi hj hc hda) hij

/-- A task found after a spawn is one of before, or the new one under the next id. -/
theorem task?_spawn_cases {b : TaskBody} {t : Nat} {x' : Task} (hx : (w.spawn b).2.task? t = some x') :
    w.task? t = some x' ∨ (t = w.nextId ∧ x'.body = b) := by
  rw [task?_spawn] at hx
  cases hw : w.task? t with
  | some x => rw [hw] at hx; exact .inl hx
  | none =>
    rw [hw] at hx
    simp only [Option.none_or] at hx
    split at hx
    · next ht =>
      cases hx
      exact .inr ⟨ht.symm, rfl⟩
    · cases hx

/-- **A call started for `g`**, by a child awaiting its plugin while `g` is not cancelled, is a
call the poll may make. -/
theorem CallsPoll.spawn_call (h : CallsPoll w₀ g cs w) {i : Nat} {c c₀ : Child} {target : Listed}
    {q : Query} (hi : cs[i]? = some c) (hc : c.awaits target.metadata.id = true)
    (hc₀ : ∀ p, c₀.awaits p = false) (hcur : w₀.generations.current ≤ g) :
    CallsPoll w₀ g (cs.set i c₀)
      (w.spawn (.call { plugin := target.metadata.id, query := q, generation := g })).2 := by
  have h₁ := h.set hi fun p hp => by rw [hc₀] at hp; cases hp
  obtain ⟨-, hn⟩ := tasks_spawn (w := w)
    (.call { plugin := target.metadata.id, query := q, generation := g })
  have hgen : (w.spawn (.call { plugin := target.metadata.id, query := q, generation := g })).2.generations =
      w.generations := congrArg Visible.generations (visible_spawn w _)
  refine ⟨hgen ▸ h₁.current, Nat.le_trans h₁.nextId (by rw [hn]; exact Nat.le_succ _), h₁.once,
    h₁.awaiting, fun t x' hx ht => ?_, fun t x' p g' hx ht hcall => ?_⟩
  · rcases task?_spawn_cases hx with hx | ⟨rfl, -⟩
    · exact h₁.kept t x' hx ht
    · exact absurd ht (Nat.not_lt.2 h₁.nextId)
  · rcases task?_spawn_cases hx with hx | ⟨-, hb⟩
    · exact h₁.made t x' p g' hx ht hcall
    · rw [hb] at hcall
      cases hcall
      exact ⟨rfl, hcur, h.awaiting c (List.mem_of_getElem? hi) _ hc, h.none_awaits hi hc hc₀⟩

/-- **A child that took its gate** for `g`, issued by the engine the step began from, starts a
call the poll may make. -/
theorem calls_startCall (h : CallsPoll w₀ g cs w) {i : Nat} {c c' : Child} {k : Waker}
    {target : Listed} {q : Query} {out : Option Arrival} (hi : cs[i]? = some c)
    (hc : c.awaits target.metadata.id = true) (hcur : w₀.generations.current ≤ g)
    (hr : w.startCall k g target q = (c', out, w')) : CallsPoll w₀ g (cs.set i c') w' := by
  unfold startCall at hr
  rcases hs : w.spawn (.call { plugin := target.metadata.id, query := q, generation := g }) with ⟨t, w₁⟩
  rw [hs] at hr
  dsimp only at hr
  have h₁ := h.spawn_call (q := q) hi hc (awaits_pollCalling hr) hcur
  rw [hs] at h₁
  exact calls_pollCalling h₁ hr

/-- **A child at its gate** keeps the poll, whichever way the race goes: it waits on at its
target or finishes, leaving the calls alone; or, its generation not cancelled, it takes the gate
and starts its call. -/
theorem calls_pollGate (h : CallsPoll w₀ g cs w) {i : Nat} {c c' : Child} {k : Waker} {q : Query}
    {target : Listed} {deadline : Nat} {waiter timer listener : Option Nat} {out : Option Arrival}
    (hi : cs[i]? = some c) (hc : c.awaits target.metadata.id = true)
    (hr : w.pollGate k g q target deadline waiter timer listener = (c', out, w')) :
    CallsPoll w₀ g (cs.set i c') w' := by
  have hset : ∀ {w₁ : World} {c₁ : Child}, CallsPoll w₀ g cs w₁ →
      (∀ p, c₁.awaits p = true → target.metadata.id = p) → CallsPoll w₀ g (cs.set i c₁) w₁ :=
    fun h₁ hc₁ => h₁.set hi fun p hp => hc₁ p hp ▸ hc
  have hwaiting : ∀ {d : Nat} {x t l : Option Nat} (p : String),
      (Child.waiting target d x t l).awaits p = true → target.metadata.id = p := fun _ hp => by
    simpa [Child.awaits] using hp
  have hfinished : ∀ p, Child.finished.awaits p = true → target.metadata.id = p := fun _ hp => by
    cases hp
  have hcall : ∀ {w₁ : World}, CallsPoll w₀ g cs w₁ → ¬ w.generations.isCancelled g = true →
      w₁.startCall k g target q = (c', out, w') → CallsPoll w₀ g (cs.set i c') w' := by
    intro w₁ h₁ hg hs
    simp only [Generations.isCancelled, decide_eq_true_eq, Nat.not_lt] at hg
    exact calls_startCall h₁ hi hc (Nat.le_trans h.current hg) hs
  have hwait : ∀ {w₂ w₁ : World} {timer' : Option Nat} (l x : Nat), CallsPoll w₀ g cs w₂ →
      w₂.pollDelay k deadline timer = (false, timer', w₁) →
      (Child.waiting target deadline (some x) timer' (some l), none, w₁) = (c', out, w') →
      CallsPoll w₀ g (cs.set i c') w' := by
    intro w₂ w₁ timer' l x h₂ hd hr
    cases hr
    exact hset (h₂.of_kept (.of_pollDelay hd)) hwaiting
  have hlate : ∀ {w₂ w₁ : World} {timer' : Option Nat} (l x : Nat), CallsPoll w₀ g cs w₂ →
      w₂.pollDelay k deadline timer = (true, timer', w₁) →
      (Child.finished, some (w₁.timedOut target.metadata.id),
        ((w₁.dropTimer? timer').dropListener l).dropWaiter x) = (c', out, w') →
      CallsPoll w₀ g (cs.set i c') w' := by
    intro w₂ w₁ timer' l x h₂ hd hr
    cases hr
    exact hset ((h₂.of_kept (.of_pollDelay hd)).of_kept (callsKept_leaveGate _ timer' l x)) hfinished
  cases waiter <;> cases listener <;> simp only [pollGate] at hr
  all_goals
    split at hr
    · cases hr
      exact hset (h.of_kept (callsKept_defer w k)) hwaiting
  case none.none.isFalse =>
    split at hr
    · cases hr
      exact hset (h.of_kept (callsKept_dropTimer? w timer)) hfinished
    next hg =>
    have h₀ := h.of_kept (callsKept_tryAcquire w target.metadata.id)
    split at hr
    · exact hcall ((h₀.of_kept (callsKept_dropTimer? _ timer)).of_kept (callsKept_spend _)) hg hr
    have h₂ := (h₀.of_kept (callsKept_enqueueWaiter _ target.metadata.id k)).of_kept
      (callsKept_addListener _ g k)
    split at hr
    · next hd => exact hlate _ _ h₂ hd hr
    · next hd => exact hwait _ _ h₂ hd hr
  case none.some.isFalse l _ =>
    split at hr
    · cases hr
      exact hset ((h.of_kept (callsKept_dropTimer? w timer)).of_kept (callsKept_dropListener _ l))
        hfinished
    next hg =>
    have h₀ := h.of_kept (callsKept_tryAcquire w target.metadata.id)
    split at hr
    · exact hcall (((h₀.of_kept (callsKept_dropTimer? _ timer)).of_kept (callsKept_spend _)).of_kept
        (callsKept_dropListener _ l)) hg hr
    have h₂ := h₀.of_kept (callsKept_enqueueWaiter _ target.metadata.id k)
    split at hr
    · next hd => exact hlate _ _ h₂ hd hr
    · next hd => exact hwait _ _ h₂ hd hr
  case some.none.isFalse x _ =>
    split at hr
    · cases hr
      exact hset ((h.of_kept (callsKept_dropTimer? w timer)).of_kept (callsKept_dropWaiter _ x))
        hfinished
    next hg =>
    by_cases hx : w.isAssigned x = true
    · simp only [hx, if_true] at hr
      exact hcall (((h.of_kept (callsKept_settleWaiter w x)).of_kept (callsKept_dropTimer? _ timer)).of_kept
        (callsKept_spend _)) hg hr
    simp only [hx, Bool.false_eq_true, if_false] at hr
    have h₂ := h.of_kept (callsKept_addListener w g k)
    split at hr
    · next hd => exact hlate _ _ h₂ hd hr
    · next hd => exact hwait _ _ h₂ hd hr
  case some.some.isFalse x l _ =>
    split at hr
    · cases hr
      exact hset (h.of_kept (callsKept_leaveGate w timer l x)) hfinished
    next hg =>
    by_cases hx : w.isAssigned x = true
    · simp only [hx, if_true] at hr
      exact hcall ((((h.of_kept (callsKept_settleWaiter w x)).of_kept (callsKept_dropTimer? _ timer)).of_kept
        (callsKept_spend _)).of_kept (callsKept_dropListener _ l)) hg hr
    simp only [hx, Bool.false_eq_true, if_false] at hr
    split at hr
    · next hd => exact hlate _ _ h hd hr
    · next hd => exact hwait _ _ h hd hr

/-! ## A dispatch -/

/-- **One poll of a child** keeps the poll. -/
theorem calls_pollChild (h : CallsPoll w₀ g cs w) {i : Nat} {c c' : Child} {k : Waker} {q : Query}
    {out : Option Arrival} (hi : cs[i]? = some c) (hr : w.pollChild k g q c = (c', out, w')) :
    CallsPoll w₀ g (cs.set i c') w' := by
  cases c with
  | fresh target =>
    rw [pollChild] at hr
    exact calls_pollGate h hi (by simp [Child.awaits]) hr
  | waiting target deadline waiter timer listener =>
    rw [pollChild] at hr
    exact calls_pollGate h hi (by simp [Child.awaits]) hr
  | calling target t deadline timer =>
    rw [pollChild] at hr
    exact (calls_pollCalling h hr).set hi fun p hp => by
      rw [awaits_pollCalling hr p] at hp
      cases hp
  | finished =>
    simp only [pollChild, Prod.mk.injEq] at hr
    obtain ⟨rfl, rfl, rfl⟩ := hr
    exact h.set hi fun _ hp => hp

/-- **One poll of a dispatch's pool** keeps the poll, child after child. -/
theorem calls_pollPool (o : Owner) (q : Query) (len fuel polled : Nat) (cs : List Child)
    (h : CallsPoll w₀ g cs w) :
    CallsPoll w₀ g (w.pollPool (fun w k c => w.pollChild k g q c) o len fuel polled cs).2.1
      (w.pollPool (fun w k c => w.pollChild k g q c) o len fuel polled cs).1 :=
  inv_pollPool (I := fun w cs => CallsPoll w₀ g cs w) _ o len
    (fun w _ h => h.of_kept (callsKept_wakeOwner w o))
    (fun w _ h => h.of_kept (callsKept_dequeue w o))
    (fun w _ f h => h.of_kept (callsKept_updatePool w o f))
    (fun _ _ _ _ _ h hc => calls_pollChild h hc rfl) fuel polled cs w h

/-- **Gathering arrivals** keeps the poll, however many rounds it takes. -/
theorem calls_collect (o : Owner) : ∀ (fuel : Nat) (e : Execute) (w : World), e.generation = g →
    CallsPoll w₀ g e.children w → CallsPoll w₀ g (w.collect o fuel e).2.1.children (w.collect o fuel e).1
  | 0, _, w, _, h => h.of_kept (callsKept_wakeOwner w o)
  | fuel + 1, e, w, he, h => by
    rw [collect]
    dsimp only
    rw [he]
    have hp := calls_pollPool o e.query (((w.pool? o).map (·.live.length)).getD 0)
      (((w.pool? o).map (·.live.length)).getD 0 + 1) 0 e.children h
    split
    all_goals
      rename_i heq
      rw [heq] at hp
      dsimp only at hp
    · exact calls_collect o fuel _ _ rfl hp
    · exact hp
    · exact hp

theorem started_collect (o : Owner) (fuel : Nat) (e : Execute) (w : World) :
    (w.collect o fuel e).2.1.started = e.started := by
  induction fuel generalizing e w with
  | zero => rfl
  | succ fuel ih =>
    rw [collect]
    split
    · exact ih _ _
    · rfl
    · rfl

theorem callsKept_startExecute (o : Owner) (e : Execute) : CallsKept w (w.startExecute o e).1 :=
  ⟨rfl, Nat.le_refl _, Nat.le_refl _⟩

theorem callsKept_finish (o : Owner) (e : Execute) : CallsKept w (w.finish o e).1 := by
  unfold finish notify
  dsimp only
  split
  · exact ⟨rfl, Nat.le_refl _, Nat.le_refl _⟩
  · split <;> exact ⟨rfl, Nat.le_refl _, Nat.le_refl _⟩

/-- **One poll of a dispatch** keeps the poll: it begins, if it has not, with children the poll
may have, gathers arrivals and ends by ranking, which makes no call. -/
theorem calls_pollExecute (o : Owner) (e : Execute)
    (hs : e.started = true → CallsPoll w₀ e.generation e.children w)
    (hu : e.started = false → CallsPoll w₀ e.generation (w.startExecute o e).2.children w) :
    CallsPoll w₀ e.generation (w.pollExecute o e).2.1.children (w.pollExecute o e).1 ∧
      (w.pollExecute o e).2.1.started = true := by
  obtain ⟨w₁, e₁, h₁, hg₁, hst₁, heq⟩ : ∃ w₁ e₁, CallsPoll w₀ e.generation e₁.children w₁ ∧
      e₁.generation = e.generation ∧ e₁.started = true ∧
      (if e.started then (w, e) else w.startExecute o e) = (w₁, e₁) := by
    cases hst : e.started
    · exact ⟨_, _, (hu hst).of_kept (callsKept_startExecute o e), rfl, rfl, by simp⟩
    · exact ⟨w, e, hs hst, rfl, hst, by simp⟩
  unfold pollExecute
  rw [heq]
  dsimp only
  have hc := calls_collect o (e₁.children.length + 1) e₁ w₁ hg₁ h₁
  have hst := started_collect o (e₁.children.length + 1) e₁ w₁
  rw [hst₁] at hst
  split
  · exact ⟨hc.of_kept (callsKept_finish o _), hst⟩
  · exact ⟨hc, hst⟩

/-! ## The start of a poll -/

/-- Two positions of a list without duplicates that hold the same entry are one. -/
theorem index_eq_of_nodup {α : Type} {l : List α} (h : l.Nodup) {i j : Nat} {a : α}
    (hi : l[i]? = some a) (hj : l[j]? = some a) : i = j := by
  obtain ⟨hi', hia⟩ := List.getElem?_eq_some_iff.1 hi
  obtain ⟨hj', hja⟩ := List.getElem?_eq_some_iff.1 hj
  exact h.getElem_inj_iff.1 (hia.trans hja.symm)

/-- A child awaits only its own target's plugin. -/
theorem Child.target?_of_awaits {c : Child} {p : String} (h : c.awaits p = true) :
    ∃ t, c.target? = some t ∧ t.metadata.id = p := by
  rcases c with t | ⟨t, _, _, _, _⟩ | ⟨t, _, _, _⟩ | _ <;> simp [Child.awaits] at h
  all_goals exact ⟨t, rfl, h⟩

/-- Children working, each, for the target at its position among targets of distinct plugins
await each plugin at most once. -/
theorem awaits_once {cs : List Child} {ts : List Listed} (hd : (ts.map (·.metadata.id)).Nodup)
    (ha : ∀ (i : Nat) (c : Child) (t : Listed), cs[i]? = some c → c.target? = some t →
      ts[i]? = some t)
    (p : String) (i j : Nat) (c c' : Child) (hi : cs[i]? = some c) (hj : cs[j]? = some c')
    (hc : c.awaits p = true) (hc' : c'.awaits p = true) : i = j := by
  obtain ⟨t, ht, rfl⟩ := Child.target?_of_awaits hc
  obtain ⟨t', ht', htt⟩ := Child.target?_of_awaits hc'
  have h₁ : (ts.map (·.metadata.id))[i]? = some t.metadata.id := by
    rw [List.getElem?_map, ha i c t hi ht]
    rfl
  have h₂ : (ts.map (·.metadata.id))[j]? = some t.metadata.id := by
    rw [List.getElem?_map, ha j c' t' hj ht', Option.map_some, htt]
  exact index_eq_of_nodup hd h₁ h₂

/-- A dispatch of `w₀` that may still call `p` leaves its generation able to call `p`. -/
theorem mayCall_of_awaits {o : Owner} {e : Execute} {p : String} (hd : w₀.dispatchOf o = some e)
    (ha : e.awaits p = true) : w₀.MayCall p e.generation :=
  .inr fun hs => by rw [hs o e hd rfl] at ha; cases ha

/-- **A poll begins** with children that await each plugin at most once, and only plugins their
generation may still call: nothing is made yet. -/
theorem CallsPoll.of_children (hk : CallsKept w₀ w) (hids : TaskIds w₀)
    (honce : ∀ (p : String) (i j : Nat) (c c' : Child), cs[i]? = some c → cs[j]? = some c' →
      c.awaits p = true → c'.awaits p = true → i = j)
    (hawait : ∀ c ∈ cs, ∀ p, c.awaits p = true → w₀.MayCall p g) : CallsPoll w₀ g cs w := by
  refine ⟨hk.current, hk.nextId, honce, hawait, fun t x' hx _ => ?_, fun t x' p g' hx ht _ => ?_⟩
  · obtain ⟨x, hx₀, hb⟩ := hk.task? hx
    exact ⟨x, hx₀, by rw [hb], by rw [hb]⟩
  · obtain ⟨x, hx₀, -⟩ := hk.task? hx
    obtain ⟨hmem, hid⟩ := mem_of_task? hx₀
    have hlt := hids.lt x hmem
    omega

/-- A dispatch that begins has one fresh child per target, of distinct plugins. -/
theorem CallsPoll.begin (hk : CallsKept w₀ w) (hids : TaskIds w₀) (hreg : w.registry.ids.Nodup)
    (hmay : ∀ p, w₀.MayCall p g) (o : Owner) (e : Execute) :
    CallsPoll w₀ g (w.startExecute o e).2.children w := by
  refine .of_children hk hids
    (awaits_once (nodup_targets hreg (w.registry.snapshot.parse e.raw) w.options) fun i c t hi ht => ?_)
    fun _ _ p _ => hmay p
  simp only [startExecute, List.getElem?_map] at hi
  cases hts : (w.registry.snapshot.targets (w.registry.snapshot.parse e.raw) w.options)[i]? with
  | none => rw [hts] at hi; cases hi
  | some t₀ =>
    rw [hts] at hi
    cases hi
    cases ht
    rfl

/-- A dispatch under way resumes with the children it has. -/
theorem CallsPoll.resume {o : Owner} {e : Execute} (hk : CallsKept w₀ w) (hids : TaskIds w₀)
    (hc : Collecting w₀ o e) (hd : w₀.dispatchOf o = some e) :
    CallsPoll w₀ e.generation e.children w :=
  .of_children hk hids (awaits_once hc.distinct fun i c t hi ht => hc.aimed i t (by
      rw [Execute.working, hi, Option.map_some, ht]))
    fun c hc' p hp => mayCall_of_awaits hd (by
      simp only [Execute.awaits, Bool.or_eq_true, List.any_eq_true]
      exact .inr ⟨c, hc', hp⟩)

/-! ## The caller's jobs that are not queries make no call -/

theorem callsKept_pollSleep (w : World) (ms : Nat) (deadline timer : Option Nat) :
    CallsKept w (w.pollSleep ms deadline timer).1 := by
  unfold pollSleep
  dsimp only
  rcases hd : w.pollDelay ⟨.main, none⟩ (deadline.getD (w.sleepEnd ms)) timer with
    ⟨_ | _, timer', w₁⟩
  all_goals have h₁ := CallsKept.of_pollDelay hd
  · exact h₁.trans ⟨rfl, Nat.le_refl _, Nat.le_refl _⟩
  · exact (h₁.trans (callsKept_dropTimer? w₁ timer')).trans ⟨rfl, Nat.le_refl _, Nat.le_refl _⟩

theorem callsKept_rememberSelection (w : World) (g : Nat) (p : String) (i : ResultItem) :
    CallsKept w (w.rememberSelection g p i).1 := by
  rcases rememberSelection_cases w g p i with h | ⟨d, -, -, h⟩
  all_goals rw [h]
  · exact .refl w
  · exact ⟨rfl, Nat.le_refl _, Nat.le_refl _⟩

theorem callsKept_pollSelect_holding (w : World) (g : Nat) (p : String) (i : ResultItem) :
    CallsKept w (w.pollSelect g p i .holding).1 := by
  rw [pollSelect]
  have h₁ := callsKept_deliverSelection w p i ⟨.main, none⟩
  rcases hd : w.deliverSelection p i ⟨.main, none⟩ with ⟨_ | _, w₁⟩
  all_goals
    rw [hd] at h₁
    exact h₁.trans ⟨rfl, Nat.le_refl _, Nat.le_refl _⟩

/-- A selection hands the result to its plugin under the plugin's gate, and makes no call. -/
theorem callsKept_pollSelect (w : World) (g : Nat) (p : String) (i : ResultItem) (s : SelectStage) :
    CallsKept w (w.pollSelect g p i s).1 := by
  cases s with
  | start =>
    rw [pollSelect]
    split
    · exact ⟨rfl, Nat.le_refl _, Nat.le_refl _⟩
    · have h₁ := callsKept_rememberSelection w g p i
      rcases hr : w.rememberSelection g p i with ⟨w₁, _ | err⟩
      all_goals
        rw [hr] at h₁
        dsimp only
      · have h₂ := callsKept_tryAcquire w₁ p
        rcases hq : w₁.tryAcquire p with ⟨_ | _, w₂⟩
        all_goals rw [hq] at h₂
        · exact (h₁.trans h₂).trans ((callsKept_enqueueWaiter w₂ p ⟨.main, none⟩).trans
            ⟨rfl, Nat.le_refl _, Nat.le_refl _⟩)
        · exact (h₁.trans h₂).trans (callsKept_pollSelect_holding w₂ g p i)
      · exact h₁.trans ⟨rfl, Nat.le_refl _, Nat.le_refl _⟩
  | queued x =>
    rw [pollSelect]
    split
    · exact (callsKept_settleWaiter w x).trans (callsKept_pollSelect_holding _ g p i)
    · exact .refl w
  | holding => exact callsKept_pollSelect_holding w g p i

theorem callsKept_runStep (w : World) (k : Waker) (id : String) (reload : Bool) :
    CallsKept w (w.runStep k id reload).1 := by
  unfold runStep
  split
  · exact callsKept_defer w k
  · dsimp only
    have h₁ : CallsKept w ((if reload then w.spend.logCall id fun l => { l with reloads := l.reloads + 1 }
        else w.spend).release id) := by
      refine CallsKept.trans ?_ (callsKept_release _ _)
      split
      · exact (callsKept_spend w).trans (callsKept_logCall _ _ _)
      · exact callsKept_spend w
    generalize (if reload then w.spend.logCall id fun l => { l with reloads := l.reloads + 1 }
      else w.spend).release id = w₁ at h₁ ⊢
    split
    · exact h₁
    · exact (h₁.trans (callsKept_registry w₁ _)).trans (callsKept_notify _ _)

theorem callsKept_pollBringUp (w : World) (k : Waker) (b : BringUp) :
    CallsKept w (w.pollBringUp k b).1 := by
  cases b with
  | fresh id reload =>
    rw [pollBringUp]
    split
    · exact .refl w
    · next r _ =>
      have h₁ : CallsKept w ({ w with registry := r }.notify (.stateChanged id .initializing)) :=
        (callsKept_registry w r).trans (callsKept_notify _ _)
      generalize { w with registry := r }.notify (.stateChanged id .initializing) = w₁ at h₁ ⊢
      have h₂ := callsKept_tryAcquire w₁ id
      dsimp only
      rcases hq : w₁.tryAcquire id with ⟨_ | _, w₂⟩
      all_goals rw [hq] at h₂
      · exact (h₁.trans h₂).trans (callsKept_enqueueWaiter w₂ id k)
      · exact (h₁.trans h₂).trans (callsKept_runStep w₂ k id reload)
  | waiting id reload waiter =>
    rw [pollBringUp]
    split
    · exact (callsKept_settleWaiter w waiter).trans (callsKept_runStep _ k id reload)
    · exact .refl w
  | holding id reload => exact callsKept_runStep w k id reload
  | done id result => exact .refl w

theorem callsKept_pollBringUps (w : World) (bs : List BringUp) :
    CallsKept w (w.pollBringUps bs).1 := by
  induction bs generalizing w with
  | nil => exact .refl w
  | cons b bs ih =>
    rw [pollBringUps]
    have h₁ : CallsKept w (if b.isDone then (w, b) else w.pollBringUp ⟨.main, none⟩ b).1 := by
      split
      · exact .refl w
      · exact callsKept_pollBringUp w _ b
    exact h₁.trans (ih _)

theorem callsKept_collectBringUps (fuel : Nat) (ups : List BringUp) (w : World) :
    CallsKept w (w.collectBringUps fuel ups).1 := by
  induction fuel generalizing ups w with
  | zero => exact callsKept_wakeOwner w .main
  | succ fuel ih =>
    rw [collectBringUps]
    split
    all_goals
      rename_i heq
      have h₁ := @rel_pollPool BringUp Unit CallsKept _ _ _ _ _ _ _ _ heq
        (fun h₁ h₂ => h₁.trans h₂) (fun w => callsKept_wakeOwner w .main)
        (fun w => callsKept_dequeue w .main) (fun w f _ => callsKept_updatePool w .main f)
        (fun w k b => callsKept_pollBringUp w k b)
    · exact h₁.trans (ih _ _)
    · exact h₁
    · exact h₁

theorem callsKept_pollStartAll_some (w : World) (ups : List BringUp) :
    CallsKept w (w.pollStartAll (some ups)).1 := by
  unfold pollStartAll
  dsimp only
  by_cases hc : ups.length ≤ startUpsPolledInTurn
  · simp only [hc, ↓reduceIte]
    split <;> exact (callsKept_pollBringUps w ups).trans ⟨rfl, Nat.le_refl _, Nat.le_refl _⟩
  · simp only [hc, ↓reduceIte]
    split <;> exact (callsKept_collectBringUps _ ups w).trans ⟨rfl, Nat.le_refl _, Nat.le_refl _⟩

/-- Starting every plugin brings each up under its gate, and makes no call. -/
theorem callsKept_pollStartAll (w : World) (ups : Option (List BringUp)) :
    CallsKept w (w.pollStartAll ups).1 := by
  cases ups with
  | some ups => exact callsKept_pollStartAll_some w ups
  | none =>
    let fresh := (w.registry.idsInState .unloaded).map (BringUp.fresh · false)
    by_cases hc : fresh.length ≤ startUpsPolledInTurn
    · have hs : w.pollStartAll none = w.pollStartAll (some fresh) := by
        simp only [pollStartAll, fresh, hc, ↓reduceIte]
      rw [hs]
      exact callsKept_pollStartAll_some w fresh
    · let w₁ : World := { w with pools := w.pools.filter (fun (p : Pool) => p.owner != .main) ++
        [⟨.main, List.range fresh.length, List.range fresh.length⟩] }
      have hs : w.pollStartAll none = w₁.pollStartAll (some fresh) := by
        simp only [pollStartAll, fresh, w₁, hc, ↓reduceIte]
      rw [hs]
      have h₁ : CallsKept w w₁ := ⟨rfl, Nat.le_refl _, Nat.le_refl _⟩
      exact h₁.trans (callsKept_pollStartAll_some w₁ fresh)

/-- A reload resets its plugin and brings it up again, and makes no call. -/
theorem callsKept_pollReload (w : World) (id : String) (b : Option BringUp) :
    CallsKept w (w.pollReload id b).1 := by
  have hsome : ∀ (w : World) (b : BringUp), CallsKept w (w.pollReload id (some b)).1 := by
    intro w b
    rw [pollReload]
    have h₁ := callsKept_pollBringUp w ⟨.main, none⟩ b
    rcases hp : w.pollBringUp ⟨.main, none⟩ b with ⟨w₁, _ | _ | _ | ⟨_, _ | _⟩⟩
    all_goals
      rw [hp] at h₁
      exact h₁.trans ⟨rfl, Nat.le_refl _, Nat.le_refl _⟩
  cases b with
  | some b => exact hsome w b
  | none =>
    rw [pollReload]
    split
    · exact ⟨rfl, Nat.le_refl _, Nat.le_refl _⟩
    · exact ((callsKept_registry w _).trans (callsKept_notify _ _)).trans (hsome _ _)

end World

end Launcher.Engine
