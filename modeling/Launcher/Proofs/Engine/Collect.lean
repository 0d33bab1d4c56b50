import Mathlib.Data.List.Perm.Basic
import Launcher.Proofs.Engine.Aside
import Launcher.Proofs.Ranking.Places

/-!
# A dispatch gathers one contribution from each target

A dispatch polls one child per target of its snapshot. A child stays on its target until it
finishes, and it finishes once: with its plugin's answer, with a timeout warning, or with
nothing once its generation is cancelled. Whatever order the children finish in, the dispatch
keeps, while its generation is current, exactly one arrival per finished child, and what arrived
is what that child's target contributes.

* `World.ChildPolled` — what one poll of a child does;
* `World.polled_pollChild` — every poll of a child does that, and leaves the other dispatches
  alone;
* `World.Collecting` — the invariant of a dispatch under way: its query and targets, its children
  on their targets, the live ones in its pool, and its arrivals, while current, one per finished
  child;
* `World.collecting_collect` — gathering keeps it, and a pool found exhausted has every child
  finished.
-/

namespace Launcher.Engine

/-- The target a child works for, until it finishes. -/
def Child.target? : Child → Option Listed
  | .fresh t => some t
  | .waiting t _ _ _ _ => some t
  | .calling t _ _ _ => some t
  | .finished => none

/-- What the child at a position works for: nothing past the last child, `some none` once it
finished, and its target while it works. -/
def Execute.working (e : Execute) (i : Nat) : Option (Option Listed) :=
  e.children[i]?.map Child.target?

namespace World

/-- What a target may contribute to a query: its plugin's answer, or a timeout warning. -/
def Contributes (w : World) (q : Query) (t : Listed) (a : Arrival) : Prop :=
  a = answered t.metadata.id ((w.plugin t.metadata.id).answer q) ∨ a = w.timedOut t.metadata.id

/-- A child waiting for its call: the call's id was handed out, and the task under it, while it
is there, calls the child's plugin with the dispatch's query. -/
def Waits (w : World) (q : Query) : Child → Prop
  | .calling target t _ _ =>
    t < w.nextId ∧ ∀ x, w.task? t = some x → x.body.call? = some (target.metadata.id, q)
  | _ => True

/-- What one poll of a child of generation `gen` did, for a child that worked for `t`: it stays
on its target, or it finishes, contributing for its target unless the generation was
cancelled. -/
def ChildPolled (w : World) (gen : Nat) (q : Query) (t : Option Listed) :
    Child × Option Arrival → Prop
  | (c, none) => c.target? = t ∧ w.Waits q c
  | (c, some a) => c.target? = none ∧ ∃ t₀, t = some t₀ ∧
      (w.generations.isCancelled gen = true ∨ w.Contributes q t₀ a)

variable {w w' : World} {o : Option Owner}

theorem timedOut_of_options (h : w'.options = w.options) (id : String) :
    w'.timedOut id = w.timedOut id := by
  rw [timedOut, timedOut, h]

theorem Contributes.of_aside {q : Query} {t : Listed} {a : Arrival} (ha : Aside o w w')
    (h : w.Contributes q t a) : w'.Contributes q t a := by
  rw [Contributes, plugin_of_plugins ha.plugins, timedOut_of_options ha.options]
  exact h

theorem Waits.of_aside {q : Query} {c : Child} (ha : Aside o w w') (h : w.Waits q c) :
    w'.Waits q c := by
  cases c with
  | calling target t deadline timer =>
    refine ⟨Nat.lt_of_lt_of_le h.1 ha.nextId, fun x' hx' => ?_⟩
    obtain ⟨x, hx, hc⟩ := ha.calls t x' hx' h.1
    exact hc ▸ h.2 x hx
  | _ => trivial

/-- A generation cancelled stays cancelled. -/
theorem isCancelled_of_aside {gen : Nat} (ha : Aside o w w')
    (h : w.generations.isCancelled gen = true) : w'.generations.isCancelled gen = true := by
  simp only [Generations.isCancelled, decide_eq_true_eq] at h ⊢
  exact Nat.lt_of_lt_of_le h ha.current

theorem ChildPolled.of_aside {gen : Nat} {q : Query} {t : Option Listed}
    {r : Child × Option Arrival} (ha : Aside o w w') (h : w.ChildPolled gen q t r) : w'.ChildPolled gen q t r := by
  rcases r with ⟨c, _ | a⟩
  · exact ⟨h.1, h.2.of_aside ha⟩
  · obtain ⟨hc, t₀, ht, hp⟩ := h
    exact ⟨hc, t₀, ht, hp.imp (isCancelled_of_aside ha) (Contributes.of_aside ha)⟩

/-! ## One poll of a child -/

/-- A call read back holds its plugin's answer, so the child contributes it. -/
theorem contributes_answered {q : Query} {target : Listed} {t d : Nat} {timer : Option Nat}
    {x : Task} {c : Call} {a : Answer} (hans : Answers w) (hw : w.Waits q (.calling target t d timer))
    (hx : w.task? t = some x) (hb : x.body = .call c) (hd : c.phase = .done a) :
    w.Contributes q target (answered target.metadata.id a) := by
  have hc := hw.2 x hx
  rw [hb] at hc
  simp only [TaskBody.call?, Option.some.injEq, Prod.mk.injEq] at hc
  left
  rw [hans x (mem_of_task? hx).1 c a hb hd, hc.1, hc.2]

/-- **A child waiting for its call** reads back the call's answer, or gives up at its deadline
with a timeout warning, or waits on. -/
theorem polled_pollCalling {k : Waker} {target : Listed} {t deadline : Nat} {timer : Option Nat}
    {gen : Nat} {q : Query} {c' : Child} {out : Option Arrival} (hids : TaskIds w)
    (hans : Answers w) (hw : w.Waits q (.calling target t deadline timer))
    (h : w.pollCalling k target t deadline timer = (c', out, w')) :
    Aside none w w' ∧ w'.ChildPolled gen q (some target) (c', out) := by
  unfold pollCalling at h
  split at h
  · simp only [Prod.mk.injEq] at h
    obtain ⟨rfl, rfl, rfl⟩ := h
    exact ⟨aside_defer w k, rfl, hw.of_aside (aside_defer w k)⟩
  · split at h
    · next id plugin query a join awaited s hx =>
      simp only [Prod.mk.injEq] at h
      obtain ⟨rfl, rfl, rfl⟩ := h
      have ha : Aside none w (((w.removeTask t).dropTimer? timer).spend) :=
        ((aside_removeTask t).trans (aside_dropTimer? _ timer)).trans (aside_spend _)
      exact ⟨ha, rfl, target, rfl, .inr ((contributes_answered hans hw hx rfl rfl).of_aside ha)⟩
    · dsimp only at h
      rcases hd : (w.awaitCall t k).pollDelay k deadline timer with ⟨_ | _, timer', w₂⟩
      all_goals
        rw [hd] at h
        simp only [Prod.mk.injEq] at h
        obtain ⟨rfl, rfl, rfl⟩ := h
        have h₂ : Aside none w w₂ := (aside_awaitCall t k).trans (Aside.of_pollDelay hd)
      · exact ⟨h₂, rfl, (hw.of_aside h₂ : w₂.Waits q (.calling target t deadline timer))⟩
      · have h₃ := (aside_detach t (h₂.ids hids)).trans (aside_dropTimer? _ timer')
        exact ⟨h₂.trans h₃, rfl, target, rfl, .inr (.inr (timedOut_of_options h₃.options _).symm)⟩

/-- **A child that took its gate** spawns its call under a fresh id and waits for it. -/
theorem polled_startCall {k : Waker} {target : Listed} {q : Query} {gen : Nat} {c' : Child}
    {out : Option Arrival} (hids : TaskIds w) (hans : Answers w)
    (h : w.startCall k gen target q = (c', out, w')) :
    Aside none w w' ∧ w'.ChildPolled gen q (some target) (c', out) := by
  unfold startCall at h
  generalize hc : ({ plugin := target.metadata.id, query := q, generation := gen } : Call) = c at h
  rcases hs : w.spawn (.call c) with ⟨t, w₁⟩
  rw [hs] at h
  dsimp only at h
  have h₁ := aside_spawn_call (w := w) c fun c₀ a hb hd => by
    cases hb
    subst hc
    cases hd
  rw [hs] at h₁
  have ht : t = w.nextId := (congrArg Prod.fst hs).symm
  have hn : w₁.nextId = w.nextId + 1 := by
    have := (tasks_spawn (w := w) (.call c)).2
    rwa [hs] at this
  have hfound := task?_spawn_self (.call c) hids
  rw [hs] at hfound
  have hw : w₁.Waits q (.calling target t (w₁.now + w₁.options.pluginTimeoutMs) none) := by
    refine ⟨by rw [hn, ht]; exact Nat.lt_succ_self _, fun x hx => ?_⟩
    rw [ht] at hx
    rw [hfound] at hx
    cases hx
    subst hc
    rfl
  obtain ⟨h₂, hp⟩ := polled_pollCalling (h₁.ids hids) (h₁.answers hans) hw h
  exact ⟨h₁.trans h₂, hp⟩

/-- A child leaving its gate: its timer, listener and waiter go. -/
theorem aside_leaveGate (timer : Option Nat) (l x : Nat) :
    Aside none w (((w.dropTimer? timer).dropListener l).dropWaiter x) :=
  ((aside_dropTimer? w timer).trans (aside_dropListener _ l)).trans (aside_dropWaiter _ x)

/-- A child that waited too long for its gate leaves it with a timeout warning. -/
theorem polled_gaveUp {w₁ : World} {gen : Nat} {q : Query} {target : Listed}
    (h₁ : Aside none w w₁) (timer : Option Nat) (l x : Nat) :
    Aside none w (((w₁.dropTimer? timer).dropListener l).dropWaiter x) ∧
      (((w₁.dropTimer? timer).dropListener l).dropWaiter x).ChildPolled gen q (some target)
        (.finished, some (w₁.timedOut target.metadata.id)) :=
  ⟨h₁.trans (aside_leaveGate timer l x), rfl, target, rfl,
    .inr (.inr (timedOut_of_options (aside_leaveGate timer l x).options _).symm)⟩

/-- A child whose generation was cancelled leaves its gate with nothing. -/
theorem polled_cancelled {w₁ : World} {gen : Nat} {q : Query} {target : Listed}
    (h₁ : Aside none w w₁) (hc : w.generations.isCancelled gen = true) :
    Aside none w w₁ ∧
      w₁.ChildPolled gen q (some target) (.finished, some (skipped target.metadata.id)) :=
  ⟨h₁, rfl, target, rfl, .inl (isCancelled_of_aside h₁ hc)⟩

/-- **A child at its gate**, whichever way the race goes: it waits on, or finishes because its
generation was cancelled or it waited too long for the gate, or it takes the gate and starts its
call. -/
theorem polled_pollGate {k : Waker} {gen : Nat} {q : Query} {target : Listed} {deadline : Nat}
    {waiter timer listener : Option Nat} {c' : Child} {out : Option Arrival} (hids : TaskIds w)
    (hans : Answers w)
    (h : w.pollGate k gen q target deadline waiter timer listener = (c', out, w')) :
    Aside none w w' ∧ w'.ChildPolled gen q (some target) (c', out) := by
  have hcall : ∀ {w₁ : World}, Aside none w w₁ → w₁.startCall k gen target q = (c', out, w') →
      Aside none w w' ∧ w'.ChildPolled gen q (some target) (c', out) := fun h₁ hs => by
    obtain ⟨h₂, hp⟩ := polled_startCall (h₁.ids hids) (h₁.answers hans) hs
    exact ⟨h₁.trans h₂, hp⟩
  have hwait : ∀ {w₂ w₁ : World} {timer' : Option Nat} (l x : Nat), Aside none w w₂ →
      w₂.pollDelay k deadline timer = (false, timer', w₁) →
      (Child.waiting target deadline (some x) timer' (some l), none, w₁) = (c', out, w') →
      Aside none w w' ∧ w'.ChildPolled gen q (some target) (c', out) := by
    intro w₂ w₁ timer' l x h₂ hd h
    simp only [Prod.mk.injEq] at h
    obtain ⟨rfl, rfl, rfl⟩ := h
    exact ⟨h₂.trans (Aside.of_pollDelay hd), rfl, trivial⟩
  have hlate : ∀ {w₂ w₁ : World} {timer' : Option Nat} (l x : Nat), Aside none w w₂ →
      w₂.pollDelay k deadline timer = (true, timer', w₁) →
      (Child.finished, some (w₁.timedOut target.metadata.id),
        ((w₁.dropTimer? timer').dropListener l).dropWaiter x) = (c', out, w') →
      Aside none w w' ∧ w'.ChildPolled gen q (some target) (c', out) := by
    intro w₂ w₁ timer' l x h₂ hd h
    simp only [Prod.mk.injEq] at h
    obtain ⟨rfl, rfl, rfl⟩ := h
    exact polled_gaveUp (h₂.trans (Aside.of_pollDelay hd)) timer' l x
  cases waiter <;> cases listener <;> simp only [pollGate] at h
  all_goals
    split at h
    · simp only [Prod.mk.injEq] at h
      obtain ⟨rfl, rfl, rfl⟩ := h
      exact ⟨aside_defer w k, rfl, trivial⟩
  case none.none.isFalse =>
    split at h
    · next hc =>
      simp only [Prod.mk.injEq] at h
      obtain ⟨rfl, rfl, rfl⟩ := h
      exact polled_cancelled (aside_dropTimer? w timer) hc
    have h₀ := aside_tryAcquire w target.metadata.id
    split at h
    · exact hcall ((h₀.trans (aside_dropTimer? _ timer)).trans (aside_spend _)) h
    have h₂ := (h₀.trans (aside_enqueueWaiter _ target.metadata.id k)).trans (aside_addListener _ gen k)
    split at h
    · next hd => exact hlate _ _ h₂ hd h
    · next hd => exact hwait _ _ h₂ hd h
  case none.some.isFalse l _ =>
    split at h
    · next hc =>
      simp only [Prod.mk.injEq] at h
      obtain ⟨rfl, rfl, rfl⟩ := h
      exact polled_cancelled ((aside_dropTimer? w timer).trans (aside_dropListener _ l)) hc
    have h₀ := aside_tryAcquire w target.metadata.id
    split at h
    · exact hcall (((h₀.trans (aside_dropTimer? _ timer)).trans (aside_spend _)).trans
        (aside_dropListener _ l)) h
    have h₂ := h₀.trans (aside_enqueueWaiter _ target.metadata.id k)
    split at h
    · next hd => exact hlate _ _ h₂ hd h
    · next hd => exact hwait _ _ h₂ hd h
  case some.none.isFalse x _ =>
    split at h
    · next hc =>
      simp only [Prod.mk.injEq] at h
      obtain ⟨rfl, rfl, rfl⟩ := h
      exact polled_cancelled ((aside_dropTimer? w timer).trans (aside_dropWaiter _ x)) hc
    by_cases hx : w.isAssigned x = true
    · simp only [hx, if_true] at h
      exact hcall (((aside_settleWaiter w x).trans (aside_dropTimer? _ timer)).trans
        (aside_spend _)) h
    simp only [hx, Bool.false_eq_true, if_false] at h
    have h₂ := aside_addListener w gen k
    split at h
    · next hd => exact hlate _ _ h₂ hd h
    · next hd => exact hwait _ _ h₂ hd h
  case some.some.isFalse x l _ =>
    split at h
    · next hc =>
      simp only [Prod.mk.injEq] at h
      obtain ⟨rfl, rfl, rfl⟩ := h
      exact polled_cancelled (aside_leaveGate timer l x) hc
    by_cases hx : w.isAssigned x = true
    · simp only [hx, if_true] at h
      exact hcall ((((aside_settleWaiter w x).trans (aside_dropTimer? _ timer)).trans
        (aside_spend _)).trans (aside_dropListener _ l)) h
    simp only [hx, Bool.false_eq_true, if_false] at h
    split at h
    · next hd => exact hlate _ _ (.refl w) hd h
    · next hd => exact hwait _ _ (.refl w) hd h

/-- **One poll of a child**: it stays on its target or finishes once, with its target's
contribution unless its generation was cancelled; every other dispatch is left alone. -/
theorem polled_pollChild {k : Waker} {gen : Nat} {q : Query} {c c' : Child}
    {out : Option Arrival} (hids : TaskIds w) (hans : Answers w) (hw : w.Waits q c)
    (h : w.pollChild k gen q c = (c', out, w')) :
    Aside none w w' ∧ w'.ChildPolled gen q c.target? (c', out) := by
  cases c with
  | fresh target => exact polled_pollGate hids hans (by rwa [pollChild] at h)
  | waiting target deadline waiter timer listener =>
    exact polled_pollGate hids hans (by rwa [pollChild] at h)
  | calling target t deadline timer => exact polled_pollCalling hids hans hw (by rwa [pollChild] at h)
  | finished =>
    simp only [pollChild, Prod.mk.injEq] at h
    obtain ⟨rfl, rfl, rfl⟩ := h
    exact ⟨.refl w, rfl, trivial⟩

/-! ## A dispatch under way -/

/-- The targets a dispatch sends its query to. -/
def targetsOf (w : World) (e : Execute) : List Listed := e.snapshot.targets e.query w.options

/-- **The invariant of a dispatch under way**, held by owner `o`: its query is its raw text read
against its snapshot's keywords, and its targets have distinct ids; it is of an issued
generation; it has one child per target, each working for its own target or finished; the
children still working are live in the owner's pool; a child waiting for its call knows the
call; and while the generation is current, the arrivals are one per finished child, in the order
they finished, each what the child's target contributes. -/
structure Collecting (w : World) (o : Owner) (e : Execute) : Prop where
  query : e.query = e.snapshot.parse e.raw
  distinct : ((w.targetsOf e).map (·.metadata.id)).Nodup
  issued : e.generation ≤ w.generations.current
  length : e.children.length = (w.targetsOf e).length
  aimed : ∀ i t, e.working i = some (some t) → (w.targetsOf e)[i]? = some t
  pooled : ∃ live, w.liveOf o = some live ∧ ∀ i t, e.working i = some (some t) → i ∈ live
  waits : ∀ c ∈ e.children, w.Waits e.query c
  arrived : w.generations.isCurrent e.generation = true → ∃ done : List Nat, done.Nodup ∧
    (∀ i, i ∈ done ↔ e.working i = some none) ∧
    List.Forall₂ (fun i a => ∃ t, (w.targetsOf e)[i]? = some t ∧ w.Contributes e.query t a)
      done e.arrived

theorem targetsOf_of_aside {e : Execute} (ha : Aside o w w') : w'.targetsOf e = w.targetsOf e := by
  rw [targetsOf, targetsOf, ha.options]

/-- A generation current after a step was current before it, once issued. -/
theorem isCurrent_of_aside {gen : Nat} (ha : Aside o w w') (hi : gen ≤ w.generations.current)
    (h : w'.generations.isCurrent gen = true) : w.generations.isCurrent gen = true := by
  simp only [Generations.isCurrent, Bool.and_eq_true, bne_iff_ne, ne_eq, beq_iff_eq] at h ⊢
  exact ⟨h.1, Nat.le_antisymm (h.2 ▸ ha.current) hi⟩

/-- A current generation is not cancelled. -/
theorem not_isCancelled_of_isCurrent {g : Generations} {gen : Nat} (h : g.isCurrent gen = true) :
    g.isCancelled gen = false := by
  rw [Generations.eq_current_of_isCurrent h]
  simp [Generations.isCancelled]

/-- Only a child waiting for its call has a call to know. -/
theorem waits_of_target?_eq_none {q : Query} {c : Child} (h : c.target? = none) : w.Waits q c := by
  cases c with
  | calling target t deadline timer => cases h
  | _ => trivial

/-- **A step that keeps a dispatch's pool keeps its invariant**: whatever else the step does to
the other dispatches, this one reads only what every step aside keeps, and its pool. -/
theorem Collecting.of_aside_live {e : Execute} {o' : Owner} (h : Collecting w o' e)
    (ha : Aside o w w') (hl : w'.liveOf o' = w.liveOf o') : Collecting w' o' e := by
  obtain ⟨live, hlive, hpool⟩ := h.pooled
  refine ⟨h.query, ?_, Nat.le_trans h.issued ha.current, ?_, ?_, ⟨live, ?_, hpool⟩,
    fun c hc => (h.waits c hc).of_aside ha, fun hcur => ?_⟩
  · rw [targetsOf_of_aside ha]
    exact h.distinct
  · rw [targetsOf_of_aside ha]
    exact h.length
  · rw [targetsOf_of_aside ha]
    exact h.aimed
  · rw [hl]
    exact hlive
  · obtain ⟨done, hnd, hdone, harr⟩ := h.arrived (isCurrent_of_aside ha h.issued hcur)
    refine ⟨done, hnd, hdone, harr.imp fun {i a} ⟨t, ht, hc⟩ => ⟨t, ?_, hc.of_aside ha⟩⟩
    rwa [targetsOf_of_aside ha]

/-- **A step aside a dispatch keeps its invariant.** -/
theorem Collecting.of_aside {e : Execute} {o' : Owner} (h : Collecting w o' e) (ha : Aside o w w')
    (ho : o ≠ some o') : Collecting w' o' e :=
  h.of_aside_live ha (ha.live o' ho)

theorem working_set {e : Execute} {i : Nat} {c c' : Child} {arr : List Arrival}
    (hi : e.children[i]? = some c) (hc : c'.target? = c.target?) :
    ({ e with children := e.children.set i c', arrived := arr } : Execute).working = e.working := by
  funext j
  simp only [Execute.working, List.getElem?_set']
  split
  · next hij =>
    subst hij
    rw [hi]
    exact congrArg some hc
  · rfl

theorem working_set_finished {e : Execute} {i : Nat} {c c' : Child} {arr : List Arrival}
    (hi : e.children[i]? = some c) (hc : c'.target? = none) (j : Nat) :
    ({ e with children := e.children.set i c', arrived := arr } : Execute).working j =
      if i = j then some none else e.working j := by
  simp only [Execute.working, List.getElem?_set']
  split
  · next hij =>
    subst hij
    rw [hi]
    exact congrArg some hc
  · rfl

/-- A child that stays on its target keeps the invariant. -/
theorem Collecting.child_pending {e : Execute} {o' : Owner} {i : Nat} {c c' : Child}
    (h : Collecting w o' e) (hi : e.children[i]? = some c) (ha : Aside none w w')
    (hp : w'.ChildPolled e.generation e.query c.target? (c', none)) :
    Collecting w' o' { e with children := e.children.set i c' } := by
  have h' := h.of_aside ha (Option.some_ne_none o').symm
  have hw := @working_set e i c c' e.arrived hi hp.1
  obtain ⟨live, hlive, hpool⟩ := h'.pooled
  refine ⟨h'.query, h'.distinct, h'.issued, ?_, ?_, ⟨live, hlive, ?_⟩, fun c₁ hc₁ => ?_,
    fun hcur => ?_⟩
  · rw [List.length_set]
    exact h'.length
  · rw [hw]
    exact h'.aimed
  · rw [hw]
    exact hpool
  · rcases List.mem_or_eq_of_mem_set hc₁ with hc₁ | rfl
    · exact h'.waits c₁ hc₁
    · exact hp.2
  · rw [hw]
    exact h'.arrived hcur

theorem pool?_updatePool (o o' : Owner) (f : Pool → Pool) (hf : ∀ p, (f p).owner = p.owner) :
    (w.updatePool o f).pool? o' = (w.pool? o').map fun p => if p.owner == o then f p else p := by
  simp only [pool?, updatePool, List.find?_map]
  congr 2
  funext p
  simp only [Function.comp_apply]
  split <;> simp [hf]

theorem liveOf_updatePool_self (o : Owner) (f : Pool → Pool) (hf : ∀ p, (f p).owner = p.owner) :
    (w.updatePool o f).liveOf o = (w.pool? o).map fun p => (f p).live := by
  rw [liveOf, pool?_updatePool o o f hf, Option.map_map]
  cases hp : w.pool? o with
  | none => rfl
  | some p =>
    have ho : p.owner = o := by simpa using List.find?_some hp
    simp [ho]

/-- Changing one owner's pool, but not its owner, is aside every other dispatch. -/
theorem aside_updatePool (o : Owner) (f : Pool → Pool) (hf : ∀ p, (f p).owner = p.owner) :
    Aside (some o) w (w.updatePool o f) := by
  refine ⟨Nat.le_refl _, fun h => ⟨h.nodup, h.lt⟩, Nat.le_refl _, rfl, rfl, rfl, id,
    fun _ x' hx _ => ⟨x', hx, rfl⟩, id, fun _ _ _ he => he, fun o' ho => ?_, fun _ h => .inl h,
    rfl⟩
  rw [liveOf, pool?_updatePool o o' f hf, liveOf]
  cases hp : w.pool? o' with
  | none => rfl
  | some p =>
    have ho' : p.owner = o' := by simpa using List.find?_some hp
    have hne : p.owner ≠ o := fun h => ho (congrArg some (h.symm.trans ho'))
    simp [hne]

/-- A child that finishes is taken out of the pool, and its arrival is kept while its generation
is current: the invariant holds with one more finished child. -/
theorem Collecting.child_done {e : Execute} {o' : Owner} {i : Nat} {c c' : Child} {a : Arrival}
    (h : Collecting w o' e) (hi : e.children[i]? = some c) (ha : Aside none w w')
    (hp : w'.ChildPolled e.generation e.query c.target? (c', some a)) :
    Collecting (w'.updatePool o' (fun p => { p with live := p.live.erase i, ready := p.ready.erase i }))
      o' { e with
        children := e.children.set i c'
        arrived := if w'.generations.isCurrent e.generation then e.arrived ++ [a] else e.arrived } := by
  have h' := h.of_aside ha (Option.some_ne_none o').symm
  have hu : Aside (some o') w' _ :=
    aside_updatePool o' (fun p => { p with live := p.live.erase i, ready := p.ready.erase i })
      fun _ => rfl
  obtain ⟨hc', t₀, ht₀, hcon⟩ := hp
  have hwi : e.working i = some (some t₀) := by simp [Execute.working, hi, ht₀]
  obtain ⟨live, hlive, hpool⟩ := h'.pooled
  refine ⟨h'.query, h'.distinct, h'.issued, List.length_set.trans h'.length, fun j t hj => ?_,
    ⟨live.erase i, ?_, fun j t hj => ?_⟩, fun c₁ hc₁ => ?_, fun hcur => ?_⟩
  · rw [working_set_finished hi hc'] at hj
    split at hj
    · cases hj
    · exact h'.aimed j t hj
  · refine (liveOf_updatePool_self o' _ (by intro; rfl)).trans ?_
    obtain ⟨p, hp, rfl⟩ := Option.map_eq_some_iff.1 hlive
    rw [hp]
    rfl
  · rw [working_set_finished hi hc'] at hj
    split at hj
    · cases hj
    · next hij => exact List.mem_erase_of_ne (Ne.symm hij) |>.2 (hpool j t hj)
  · rcases List.mem_or_eq_of_mem_set hc₁ with hc₁ | rfl
    · exact (h'.waits c₁ hc₁).of_aside hu
    · exact waits_of_target?_eq_none hc'
  · have hcur' : w'.generations.isCurrent e.generation = true := hcur
    obtain ⟨done, hnd, hdone, harr⟩ := h'.arrived hcur'
    have hnot : i ∉ done := fun hmem => by
      rw [hdone i, hwi] at hmem
      cases hmem
    refine ⟨done ++ [i], ?_, fun j => ?_, ?_⟩
    · rw [List.nodup_append]
      refine ⟨hnd, List.nodup_singleton i, fun x hx y hy => ?_⟩
      rw [List.mem_singleton] at hy
      subst hy
      exact fun hxy => hnot (hxy ▸ hx)
    · rw [working_set_finished hi hc', List.mem_append, List.mem_singleton, hdone j]
      by_cases hij : i = j
      · subst hij
        simp [hwi]
      · simp [hij, Ne.symm hij]
    · rw [if_pos hcur']
      refine List.rel_append harr (List.Forall₂.cons ⟨t₀, h'.aimed i t₀ hwi, ?_⟩ .nil)
      exact hcon.resolve_left (by rw [not_isCancelled_of_isCurrent hcur']; simp)

/-- A pool found with no live child has every child of its dispatch finished. -/
theorem Collecting.finished_of_poolEmpty {e : Execute} {o' : Owner} (h : Collecting w o' e)
    (he : w.poolEmpty o' = true) : ∀ c ∈ e.children, c.target? = none := by
  intro c hc
  obtain ⟨live, hlive, hpool⟩ := h.pooled
  obtain ⟨p, hp, rfl⟩ := Option.map_eq_some_iff.1 hlive
  rw [poolEmpty, hp, List.isEmpty_iff] at he
  obtain ⟨i, hi⟩ := List.mem_iff_getElem?.1 hc
  cases ht : c.target? with
  | none => rfl
  | some t =>
    have := hpool i t (by simp [Execute.working, hi, ht])
    rw [he] at this
    cases this

/-! ## Gathering -/

/-- What one poll of a dispatch's pool leaves, for the children `cs` and what the pool gave: the
invariant, with the arrival kept while the generation is current; and when the pool is exhausted,
every child finished. -/
def PoolPolled (w : World) (o : Owner) (e : Execute) : List Child × Next Arrival → Prop
  | (cs, .item a) => Collecting w o { e with
      children := cs
      arrived := if w.generations.isCurrent e.generation then e.arrived ++ [a] else e.arrived }
  | (cs, .pending) => Collecting w o { e with children := cs }
  | (cs, .exhausted) => Collecting w o { e with children := cs } ∧ ∀ c ∈ cs, c.target? = none

/-- **One poll of a dispatch's pool** polls ready children until one finishes or all stay
pending: the invariant carries through every child's poll, and the other dispatches are left
alone. -/
theorem collecting_pollPool {o : Owner} {e : Execute} {len : Nat} {r : World × List Child × Next Arrival} :
    ∀ (fuel polled : Nat) (cs : List Child) (w : World), Collecting w o { e with children := cs } →
      TaskIds w → Answers w →
      w.pollPool (fun w k c => w.pollChild k e.generation e.query c) o len fuel polled cs = r →
      Aside (some o) w r.1 ∧ r.1.PoolPolled o e r.2
  | 0, _, cs, w, hc, _, _, h => by
    subst h
    have ha := aside_wakeOwner w o
    exact ⟨ha.mono _, hc.of_aside ha (Option.some_ne_none o).symm⟩
  | fuel + 1, polled, cs, w, hc, hids, hans, h => by
    rw [pollPool] at h
    have hd := aside_dequeue w o
    rcases hq : w.dequeue o with ⟨_ | i, w₁⟩
    all_goals
      rw [hq] at h hd
      dsimp only at h
      have hc₁ := hc.of_aside hd (Option.some_ne_none o).symm
    · subst h
      refine ⟨hd.mono _, ?_⟩
      split
      · next he => exact ⟨hc₁, hc₁.finished_of_poolEmpty he⟩
      · exact hc₁
    rcases hci : cs[i]? with _ | c
    all_goals rw [hci] at h
    · have ih := collecting_pollPool fuel polled cs w₁ hc₁ (hd.ids hids) (hd.answers hans) h
      exact ⟨(hd.mono _).trans ih.1, ih.2⟩
    dsimp only at h
    rcases hs : w₁.pollChild ⟨o, some i⟩ e.generation e.query c with ⟨c', _ | a, w₂⟩
    all_goals
      rw [hs] at h
      dsimp only at h
      obtain ⟨h₂, hp⟩ := polled_pollChild (hd.ids hids) (hd.answers hans)
        (hc₁.waits c (List.mem_of_getElem? hci)) hs
      have h₁₂ : Aside (some o) w w₂ := (hd.trans h₂).mono _
    · have hc₂ := hc₁.child_pending (e := { e with children := cs }) hci h₂ hp
      split at h
      · subst h
        have hw := aside_wakeOwner w₂ o
        exact ⟨h₁₂.trans (hw.mono _), hc₂.of_aside hw (Option.some_ne_none o).symm⟩
      · have ih := collecting_pollPool fuel (polled + 1) _ w₂ hc₂ (h₁₂.ids hids) (h₁₂.answers hans) h
        exact ⟨h₁₂.trans ih.1, ih.2⟩
    · subst h
      have hc₃ := hc₁.child_done (e := { e with children := cs }) hci h₂ hp
      exact ⟨h₁₂.trans (aside_updatePool o _ (by intro; rfl)), hc₃⟩

/-- **Gathering keeps the invariant**: `collect` polls the pool until it is pending or
exhausted, changing only the children and arrivals of its dispatch; when it reports the pool
exhausted, every child finished. -/
theorem collecting_collect {o : Owner} {r : World × Execute × Bool} :
    ∀ (fuel : Nat) (e : Execute) (w : World), Collecting w o e → TaskIds w → Answers w →
      w.collect o fuel e = r →
      Aside (some o) w r.1 ∧ Collecting r.1 o r.2.1 ∧
        (∃ cs arr, r.2.1 = { e with children := cs, arrived := arr }) ∧
        (r.2.2 = true → ∀ c ∈ r.2.1.children, c.target? = none)
  | 0, e, w, hc, _, _, h => by
    subst h
    have ha := aside_wakeOwner w o
    exact ⟨ha.mono _, hc.of_aside ha (Option.some_ne_none o).symm, ⟨_, _, rfl⟩,
      fun h => absurd h Bool.false_ne_true⟩
  | fuel + 1, e, w, hc, hids, hans, h => by
    rw [collect] at h
    dsimp only at h
    split at h
    all_goals
      rename_i hp
      obtain ⟨h₁, hpp⟩ := collecting_pollPool _ 0 e.children w hc hids hans hp
    · obtain ⟨h₂, hc₂, ⟨cs', arr', he⟩, hdone⟩ :=
        collecting_collect fuel _ _ hpp (h₁.ids hids) (h₁.answers hans) h
      exact ⟨h₁.trans h₂, hc₂, ⟨cs', arr', he⟩, hdone⟩
    · subst h
      exact ⟨h₁, hpp, ⟨_, _, rfl⟩, fun h => absurd h Bool.false_ne_true⟩
    · subst h
      exact ⟨h₁, hpp.1, ⟨_, _, rfl⟩, fun _ => hpp.2⟩

/-- What a `filterMap` keeps, seen through `g`, is a sublist of the whole list seen through
`h`, when every kept value agrees with its source. -/
theorem map_filterMap_sublist {α β γ : Type} {f : α → Option β} {g : β → γ} {h : α → γ}
    (hfg : ∀ a b, f a = some b → g b = h a) : ∀ l : List α, ((l.filterMap f).map g).Sublist (l.map h)
  | [] => .slnil
  | a :: l => by
    rw [List.filterMap_cons, List.map_cons]
    cases hf : f a with
    | none => exact (map_filterMap_sublist hfg l).cons _
    | some b =>
      rw [List.map_cons, hfg a b hf]
      exact (map_filterMap_sublist hfg l).cons_cons _

/-- The ids a registry's snapshot lists are among the registry's own, in order. -/
theorem ids_snapshot_sublist (r : Registry) :
    (r.snapshot.plugins.map (·.metadata.id)).Sublist r.ids := by
  have hfst : r.entries.zipIdx.map (·.1.metadata.id) = r.ids := by
    have h := congrArg (List.map (·.metadata.id)) (List.zipIdx_map_fst 0 r.entries)
    rwa [List.map_map] at h
  rw [← hfst]
  refine map_filterMap_sublist (fun p b hb => ?_) _
  obtain ⟨e, i⟩ := p
  dsimp only at hb
  split at hb
  · cases hb
    rfl
  · cases hb

/-- In a registry whose ids are distinct, the targets of any query have distinct ids. -/
theorem nodup_targets {r : Registry} (h : r.ids.Nodup) (q : Query) (o : DispatchOptions) :
    ((r.snapshot.targets q o).map (·.metadata.id)).Nodup :=
  (((List.filter_sublist).map _).trans (ids_snapshot_sublist r)).nodup h

/-- A dispatch that begins puts its owner's pool last, all its children live. -/
theorem liveOf_startExecute (o o' : Owner) (e : Execute) :
    (w.startExecute o e).1.liveOf o' =
      if o' = o then some (List.range (w.startExecute o e).2.children.length) else w.liveOf o' := by
  simp only [liveOf, pool?, startExecute, List.find?_append, List.find?_filter,
    List.find?_singleton, List.length_map]
  by_cases ho : o' = o
  · subst ho
    rw [List.find?_eq_none.2 fun p _ => by simp]
    simp
  · have hp : ∀ p : Pool, decide ((p.owner != o) = true ∧ (p.owner == o') = true) = (p.owner == o') :=
      fun p => by by_cases hp : p.owner = o' <;> simp [hp, ho]
    simp only [hp, if_neg ho]
    cases w.pools.find? (·.owner == o') <;> simp [Ne.symm ho]

theorem targetsOf_startExecute (o : Owner) (e : Execute) :
    (w.startExecute o e).1.targetsOf (w.startExecute o e).2 =
      w.registry.snapshot.targets (w.registry.snapshot.parse e.raw) w.options := by
  simp only [startExecute, targetsOf]

theorem children_startExecute (o : Owner) (e : Execute) :
    (w.startExecute o e).2.children =
      (w.registry.snapshot.targets (w.registry.snapshot.parse e.raw) w.options).map .fresh := by
  simp only [startExecute]

/-- **A dispatch begins** with the registry's snapshot: its query read against the snapshot's
keywords, one fresh child per target, all of them live in a fresh pool of its owner. -/
theorem collecting_startExecute {o : Owner} {e : Execute} (hreg : w.registry.ids.Nodup)
    (hi : e.generation ≤ w.generations.current) (ha : e.arrived = []) :
    Aside (some o) w (w.startExecute o e).1 ∧
      Collecting (w.startExecute o e).1 o (w.startExecute o e).2 := by
  refine ⟨⟨Nat.le_refl _, fun h => ⟨h.nodup, h.lt⟩, Nat.le_refl _, rfl, rfl, rfl, id,
    fun _ x' hx _ => ⟨x', hx, rfl⟩, id, fun _ _ _ he => he, fun o' ho => ?_, fun _ h => .inl h,
    rfl⟩, ?_⟩
  · rw [liveOf_startExecute, if_neg fun h => ho (congrArg some h.symm)]
  have hwork : ∀ i, (w.startExecute o e).2.working i =
      (w.registry.snapshot.targets (w.registry.snapshot.parse e.raw) w.options)[i]?.map some := by
    intro i
    simp only [Execute.working, children_startExecute, List.getElem?_map, Option.map_map]
    rfl
  refine ⟨?_, ?_, ?_, ?_, fun i t hi' => ?_,
    ⟨List.range (w.startExecute o e).2.children.length, ?_, fun i t hi' => ?_⟩, fun c hc => ?_,
    fun _ => ⟨[], List.nodup_nil, fun i => ?_, ?_⟩⟩
  · simp only [startExecute]
  · rw [targetsOf_startExecute]
    exact nodup_targets hreg _ _
  · exact hi
  · rw [targetsOf_startExecute, children_startExecute, List.length_map]
  · rw [hwork] at hi'
    obtain ⟨t', ht', he⟩ := Option.map_eq_some_iff.1 hi'
    cases he
    rw [targetsOf_startExecute]
    exact ht'
  · rw [liveOf_startExecute, if_pos rfl]
  · rw [hwork] at hi'
    obtain ⟨t', ht', -⟩ := Option.map_eq_some_iff.1 hi'
    rw [List.mem_range, children_startExecute, List.length_map]
    exact (List.getElem?_eq_some_iff.1 ht').1
  · rw [children_startExecute] at hc
    obtain ⟨t, -, rfl⟩ := List.mem_map.1 hc
    trivial
  · rw [hwork]
    simp
  · exact ha ▸ .nil

/-! ## A complete merge -/

/-- **A complete merge for a query over a snapshot**: the query is its raw text read against the
snapshot's keywords; the snapshot's targets for it have distinct ids and each contributed once, its
plugin's answer or a timeout warning; the ranking is the merge of those contributions in the
snapshot's order, with the bonuses `boost`, whatever order they arrived in; and the warnings are
theirs, in some order. -/
def Merges (w : World) (snap : Snapshot) (boost : ResultIdentity → Int) (q : Query) (r : Ranking)
    (ws : List PluginWarning) : Prop :=
  ∃ cs : List Arrival, q = snap.parse q.rawText ∧
    ((snap.targets q w.options).map (·.metadata.id)).Nodup ∧
    List.Forall₂ (w.Contributes q) (snap.targets q w.options) cs ∧
    r = merge (cs.map (·.batch)) q snap boost w.maxResults ∧ ws.Perm (cs.filterMap (·.warning))

theorem Contributes.pluginId {q : Query} {t : Listed} {a : Arrival} (h : w.Contributes q t a) :
    a.batch.pluginId = t.metadata.id := by
  rcases h with rfl | rfl
  · cases (w.plugin t.metadata.id).answer q <;> rfl
  · rfl

theorem rawText_parse (s : Snapshot) (raw : String) : (s.parse raw).rawText = raw :=
  Query.rawText_parse raw s.keywords

/-- Arrivals indexed by the positions of a list, each position once, line up with the list. -/
theorem forall₂_of_range {α β : Type} {ts : List α} {cs : List β} {P : α → β → Prop}
    (h : List.Forall₂ (fun i b => ∃ a, ts[i]? = some a ∧ P a b) (List.range ts.length) cs) :
    List.Forall₂ P ts cs := by
  obtain ⟨hlen, hget⟩ := List.forall₂_iff_get.1 h
  rw [List.length_range] at hlen
  refine List.forall₂_iff_get.2 ⟨hlen, fun i h₁ h₂ => ?_⟩
  obtain ⟨a, ha, hp⟩ := hget i (by simpa using h₁) h₂
  simp only [List.get_eq_getElem, List.getElem_range] at ha hp
  rw [List.getElem?_eq_getElem h₁, Option.some.injEq] at ha
  simpa [ha] using hp

/-- **A dispatch whose children all finished, still current, holds a complete merge**: its
arrivals are one per target, in the order they finished, so ranking them is ranking the targets'
contributions in the snapshot's order. -/
theorem Collecting.merges {e : Execute} {o : Owner} (h : Collecting w o e)
    (hall : ∀ c ∈ e.children, c.target? = none)
    (hcur : w.generations.isCurrent e.generation = true) (boost : ResultIdentity → Int) :
    w.Merges e.snapshot boost e.query
      (merge (e.arrived.map (·.batch)) e.query e.snapshot boost w.maxResults)
      (e.arrived.filterMap (·.warning)) := by
  obtain ⟨done, hnd, hdone, harr⟩ := h.arrived hcur
  have hperm : (List.range (w.targetsOf e).length).Perm done := by
    refine (List.perm_ext_iff_of_nodup List.nodup_range hnd).2 fun i => ?_
    rw [List.mem_range, hdone i, ← h.length, Execute.working]
    constructor
    · intro hi
      rw [List.getElem?_eq_getElem hi, Option.map_some,
        hall _ (List.getElem_mem hi)]
    · intro hw
      obtain ⟨c, hc, -⟩ := Option.map_eq_some_iff.1 hw
      exact (List.getElem?_eq_some_iff.1 hc).1
  obtain ⟨cs, hcs, hcsp⟩ := List.perm_comp_forall₂ hperm harr
  have hfor : List.Forall₂ (w.Contributes e.query) (w.targetsOf e) cs := forall₂_of_range hcs
  have hids : (w.targetsOf e).map (·.metadata.id) = cs.map (·.batch.pluginId) := by
    rw [← List.forall₂_eq_eq_eq]
    exact List.forall₂_map_left_iff.2 (List.forall₂_map_right_iff.2
      (hfor.imp fun _ _ hc => hc.pluginId.symm))
  have hn : ((e.arrived.map (·.batch)).map (·.pluginId)).Nodup := by
    rw [List.map_map]
    exact (hcsp.map _).nodup_iff.1 (hids ▸ h.distinct)
  refine ⟨cs, ?_, h.distinct, hfor, ?_, (hcsp.filterMap _).symm⟩
  · rw [h.query, rawText_parse]
  · exact merge_perm (hcsp.symm.map _) hn e.query e.snapshot boost w.maxResults

end World

end Launcher.Engine
