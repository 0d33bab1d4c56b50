import Launcher.Proofs.Engine.Gates

/-!
# The engine's jobs keep one holder per gate

The gate operations keep the gates in order given the holders they add and drop
(`Launcher.Proofs.Engine.Gates`). Here every job of the engine is shown to add and drop them
rightly: a dispatch child takes a gate only when it is free or handed to its own waiter, and
passes it on to the call it spawns; a call releases its gate when it ends; a bring-up or a
selection takes the gate, runs its step, and releases it. What a job holds on to between its
polls, the id of its waiter at a gate, stays the id of a waiter for the job's own plugin:

* `World.Holding` — the gates are in order for the calls under way and further holders, and the
  task ids are distinct;
* `World.ChildTied`, `World.UpTied` — a dispatch child's and a bring-up's waiter is one for its
  plugin;
* `World.held_pollGate`, `World.held_pollExecute` — a child at its gate, and a whole dispatch;
* `World.held_pollCall` — a call's poll, which releases the gate when the call ends;
* `World.held_pollBringUp`, `World.held_pollStartAll`, `World.held_pollSelect` — the caller's
  jobs that hold a gate themselves.
-/

namespace Launcher.Engine

namespace World

/-- The gates are in order for the calls under way and the further holders `m`, and the tasks
have distinct ids. -/
structure Holding (m : List String) (w : World) : Prop where
  ids : TaskIds w
  gated : Gated (w.callsUnderWay ++ m) w

/-- A dispatch child waiting at a gate waits under a waiter of its target's plugin. -/
def ChildTied (w : World) : Child → Prop
  | .waiting target _ (some x) _ _ => w.Tied target.metadata.id x
  | _ => True

/-- A bring-up waiting at a gate waits under a waiter of its plugin. -/
def UpTied (w : World) : BringUp → Prop
  | .waiting id _ x => w.Tied id x
  | _ => True

variable {w w' w'' : World} {m m' : List String} {p : String}

theorem ChildTied.of_waiters {c : Child} (h : w.ChildTied c) (hn : w.nextId ≤ w'.nextId)
    (hw : ∀ r' ∈ w'.waiters,
      w.nextId ≤ r'.id ∨ ∃ r ∈ w.waiters, r.id = r'.id ∧ r.plugin = r'.plugin) :
    w'.ChildTied c := by
  cases c with
  | waiting target d waiter timer l =>
    cases waiter with
    | none => trivial
    | some x => exact Tied.of_waiters h hn hw
  | _ => trivial

theorem ChildTied.grow {c : Child} (h : w.ChildTied c) (hg : Grows w w') : w'.ChildTied c :=
  h.of_waiters hg.nextId hg.waiters

theorem UpTied.grow {b : BringUp} (h : w.UpTied b) (hg : Grows w w') : w'.UpTied b := by
  cases b with
  | waiting id r x => exact Tied.grow h hg
  | _ => trivial

/-- A child waiting at a gate is tied when the waiter it keeps, if any, stands for its plugin. -/
theorem childTied_waiting {target : Listed} {deadline : Nat} {waiter timer listener : Option Nat}
    (ht : ∀ x, waiter = some x → w.Tied target.metadata.id x) :
    w.ChildTied (.waiting target deadline waiter timer listener) := by
  cases waiter with
  | none => trivial
  | some x => exact ht x rfl

/-! ## Holders across the gate operations -/

namespace Holding

theorem of_gateFrame (h : Holding m w) (hf : GateFrame w w') : Holding m w' :=
  ⟨(hf.tasks.keep h.ids).1, h.gated.of_gateFrame h.ids hf⟩

/-- The same holders, in another order. -/
theorem perm (h : Holding m w) (hp : m.Perm m') : Holding m' w :=
  ⟨h.ids, h.gated.mono fun q =>
    Nat.le_of_eq (by rw [List.count_append, List.count_append, hp.count_eq])⟩

/-- A holder that leaves. -/
theorem drop (h : Holding (p :: m) w) : Holding m w :=
  ⟨h.ids, h.gated.mono fun q => ((List.sublist_cons_self p m).append_left _).count_le q⟩

end Holding

/-- Whatever the further holders, the one in front stands for one more besides the calls. -/
theorem gated_cons_iff {a : List String} :
    Gated (a ++ p :: m) w ↔ Gated (p :: (a ++ m)) w :=
  ⟨fun h => h.mono fun q => Nat.le_of_eq (List.perm_middle.count_eq q).symm,
    fun h => h.mono fun q => Nat.le_of_eq (List.perm_middle.count_eq q)⟩

/-- **Taking a free gate** adds its taker as a holder. -/
theorem held_acquire (h : Holding m w) (hb : (w.gate p).busy = false) :
    Holding (p :: m) (w.setGate { w.gate p with busy := true }) :=
  ⟨⟨h.ids.nodup, h.ids.lt⟩, gated_cons_iff.2 (gated_acquire h.gated hb)⟩

theorem held_tryAcquire (h : Holding m w) (p : String) :
    ((w.tryAcquire p).1 = true → Holding (p :: m) (w.tryAcquire p).2) ∧
      ((w.tryAcquire p).1 = false → (w.tryAcquire p).2 = w) := by
  rw [tryAcquire_eq]
  split
  · exact ⟨fun h => absurd h Bool.false_ne_true, fun _ => rfl⟩
  · next hb =>
    exact ⟨fun _ => held_acquire h (Bool.eq_false_iff.2 hb), fun h => Bool.noConfusion h⟩

/-- A waiter handed its gate that stops waiting passes the gate on to its job. -/
theorem held_settleWaiter (h : Holding m w) {x : Nat} {r : Waiter} (hr : w.waiter? x = some r)
    (ha : r.assigned = true) : Holding (r.plugin :: m) (w.settleWaiter x) := by
  have hg := gated_settleWaiter h.gated hr
  rw [if_pos ha] at hg
  exact ⟨⟨h.ids.nodup, h.ids.lt⟩, gated_cons_iff.2 hg⟩

/-- **A holder that releases its gate** is no holder any more. -/
theorem held_release (h : Holding (p :: m) w) : Holding m (w.release p) := by
  refine ⟨((taskFrame_release w p).keep h.ids).1, ?_⟩
  rw [callsUnderWay_release]
  exact gated_release (gated_cons_iff.1 h.gated)

theorem held_dropWaiter (h : Holding m w) (x : Nat) : Holding m (w.dropWaiter x) := by
  refine ⟨((taskFrame_dropWaiter w x).keep h.ids).1, ?_⟩
  rw [callsUnderWay_dropWaiter]
  exact gated_dropWaiter h.gated x

theorem held_enqueueWaiter (h : Holding m w) (p : String) (k : Waker) :
    Holding m (w.enqueueWaiter p k).2 ∧ (w.enqueueWaiter p k).2.Tied p (w.enqueueWaiter p k).1 :=
  ⟨⟨((taskFrame_enqueueWaiter w p k).keep h.ids).1, (gated_enqueueWaiter h.gated p k).1⟩,
    (gated_enqueueWaiter h.gated p k).2⟩

/-- **A call spawned by the holder of its plugin's gate** holds the gate from then on. -/
theorem held_spawn_call {c : Call} (h : Holding (c.plugin :: m) w) (hc : c.phase.isDone = false) :
    Holding m (w.spawn (.call c)).2 := by
  have hg := gates_spawn (w := w) (.call c)
  have hcalls : (w.spawn (.call c)).2.callsUnderWay ++ m = w.callsUnderWay ++ c.plugin :: m := by
    rw [callsUnderWay_spawn]
    simp [TaskBody.holding?, hc]
  refine ⟨taskIds_spawn _ h.ids, ?_⟩
  rw [hcalls]
  exact h.gated.of_eq hg.1 hg.2 (taskFrame_spawn_call c).nextId

/-! ## A dispatch child -/

theorem held_pollCalling {k : Waker} {target : Listed} {t deadline : Nat} {timer : Option Nat}
    {c' : Child} {out : Option Arrival} (h : Holding m w)
    (hr : w.pollCalling k target t deadline timer = (c', out, w')) :
    Holding m w' ∧ Grows w w' ∧ w'.ChildTied c' := by
  have hf := gateFrame_pollCalling w k target t deadline timer
  rw [hr] at hf
  refine ⟨h.of_gateFrame hf, hf.grows, ?_⟩
  unfold pollCalling at hr
  split at hr
  · simp only [Prod.mk.injEq] at hr
    rw [← hr.1]
    trivial
  · split at hr
    · simp only [Prod.mk.injEq] at hr
      rw [← hr.1]
      trivial
    · dsimp only at hr
      split at hr <;>
      · simp only [Prod.mk.injEq] at hr
        rw [← hr.1]
        trivial

/-- **A child that took its gate** hands it to the call it spawns. -/
theorem held_startCall {k : Waker} {gen : Nat} {target : Listed} {q : Query} {c' : Child}
    {out : Option Arrival} (h : Holding (target.metadata.id :: m) w)
    (hr : w.startCall k gen target q = (c', out, w')) :
    Holding m w' ∧ Grows w w' ∧ w'.ChildTied c' := by
  unfold startCall at hr
  have h₁ := held_spawn_call (c := { plugin := target.metadata.id, query := q, generation := gen }) h rfl
  obtain ⟨h₂, hg₂, ht⟩ := held_pollCalling h₁ hr
  exact ⟨h₂, (Grows.of_eq (gates_spawn _).2 (taskFrame_spawn_call _).nextId
    (dispatchOf_spawn_call _)).trans hg₂, ht⟩

/-- A waiter of `p` that was handed the gate gives it to its job when it stops waiting. -/
theorem held_settle_of_isAssigned (h : Holding m w) {x : Nat} (hx : w.isAssigned x = true)
    (ht : w.Tied p x) : Holding (p :: m) (w.settleWaiter x) := by
  unfold isAssigned at hx
  cases hr : w.waiter? x with
  | none =>
    rw [hr] at hx
    cases hx
  | some r =>
    rw [hr] at hx
    have hpl : r.plugin = p :=
      ht.2 r (List.mem_of_find?_eq_some hr) (by simpa using List.find?_some hr)
    rw [← hpl]
    exact held_settleWaiter h hr hx

/-- **A child at its gate**, whichever way the race goes, keeps one holder per gate: it takes the
gate only when it is free or was handed to its own waiter, and then hands it to its call; a gate
handed to a child that leaves is released again; and the waiter a child keeps stands for its
plugin. -/
theorem held_pollGate {k : Waker} {gen : Nat} {q : Query} {target : Listed} {deadline : Nat}
    {waiter timer listener : Option Nat} {c' : Child} {out : Option Arrival} (h : Holding m w)
    (ht : ∀ x, waiter = some x → w.Tied target.metadata.id x)
    (hr : w.pollGate k gen q target deadline waiter timer listener = (c', out, w')) :
    Holding m w' ∧ Grows w w' ∧ w'.ChildTied c' := by
  have hcall : ∀ {w₁ : World}, Holding (target.metadata.id :: m) w₁ → Grows w w₁ →
      w₁.startCall k gen target q = (c', out, w') → Holding m w' ∧ Grows w w' ∧ w'.ChildTied c' :=
    fun h₁ hg₁ hs =>
      let ⟨h₂, hg₂, ht₂⟩ := held_startCall h₁ hs
      ⟨h₂, hg₁.trans hg₂, ht₂⟩
  have hwait : ∀ {w₂ w₁ : World} {timer' : Option Nat} (l x : Nat), Holding m w₂ → Grows w w₂ →
      w₂.Tied target.metadata.id x → w₂.pollDelay k deadline timer = (false, timer', w₁) →
      (Child.waiting target deadline (some x) timer' (some l), none, w₁) = (c', out, w') →
      Holding m w' ∧ Grows w w' ∧ w'.ChildTied c' := by
    intro w₂ w₁ timer' l x h₂ hg₂ ht₂ hd hr
    simp only [Prod.mk.injEq] at hr
    obtain ⟨rfl, rfl, rfl⟩ := hr
    have hf := GateFrame.of_pollDelay _ hd
    exact ⟨h₂.of_gateFrame hf, hg₂.trans hf.grows, ht₂.grow hf.grows⟩
  have hlate : ∀ {w₂ w₁ : World} {timer' : Option Nat} (l x : Nat), Holding m w₂ → Grows w w₂ →
      w₂.pollDelay k deadline timer = (true, timer', w₁) →
      (Child.finished, some (w₁.timedOut target.metadata.id),
        ((w₁.dropTimer? timer').dropListener l).dropWaiter x) = (c', out, w') →
      Holding m w' ∧ Grows w w' ∧ w'.ChildTied c' := by
    intro w₂ w₁ timer' l x h₂ hg₂ hd hr
    simp only [Prod.mk.injEq] at hr
    obtain ⟨rfl, rfl, rfl⟩ := hr
    have hf := ((GateFrame.of_pollDelay _ hd).trans (gateFrame_dropTimer? _ timer')).trans
      (gateFrame_dropListener _ l)
    exact ⟨held_dropWaiter (h₂.of_gateFrame hf) x, (hg₂.trans hf.grows).trans (grows_dropWaiter _ x),
      trivial⟩
  have hqueue : ∀ {w₁ : World}, Holding m w₁ → Grows w w₁ → ∀ (p : String) (k : Waker),
      Holding m (w₁.enqueueWaiter p k).2 ∧ Grows w (w₁.enqueueWaiter p k).2 ∧
        (w₁.enqueueWaiter p k).2.Tied p (w₁.enqueueWaiter p k).1 := fun h₁ hg₁ p k =>
    ⟨(held_enqueueWaiter h₁ p k).1, hg₁.trans (grows_enqueueWaiter _ p k),
      (held_enqueueWaiter h₁ p k).2⟩
  cases waiter <;> cases listener <;> simp only [pollGate] at hr
  all_goals
    split at hr
    · simp only [Prod.mk.injEq] at hr
      obtain ⟨rfl, rfl, rfl⟩ := hr
      have hf := gateFrame_defer w k
      exact ⟨h.of_gateFrame hf, hf.grows, childTied_waiting fun x hx => (ht x hx).grow hf.grows⟩
  case none.none.isFalse =>
    split at hr
    · simp only [Prod.mk.injEq] at hr
      obtain ⟨rfl, rfl, rfl⟩ := hr
      have hf := gateFrame_dropTimer? w timer
      exact ⟨h.of_gateFrame hf, hf.grows, trivial⟩
    have h₀ := held_tryAcquire h target.metadata.id
    have hg₀ := grows_tryAcquire w target.metadata.id
    split at hr
    · next htaken =>
      have hf := (gateFrame_dropTimer? (w.tryAcquire target.metadata.id).2 timer).trans
        (gateFrame_spend _)
      exact hcall ((h₀.1 htaken).of_gateFrame hf) (hg₀.trans hf.grows) hr
    · next hnot =>
      have h₁ : Holding m (w.tryAcquire target.metadata.id).2 := by
        rw [h₀.2 (Bool.eq_false_iff.2 hnot)]
        exact h
      obtain ⟨h₂, hg₂, ht₂⟩ := hqueue h₁ hg₀ target.metadata.id k
      have hf := gateFrame_addListener
        ((w.tryAcquire target.metadata.id).2.enqueueWaiter target.metadata.id k).2 gen k
      split at hr
      · next hd => exact hlate _ _ (h₂.of_gateFrame hf) (hg₂.trans hf.grows) hd hr
      · next hd => exact hwait _ _ (h₂.of_gateFrame hf) (hg₂.trans hf.grows) (ht₂.grow hf.grows) hd hr
  case none.some.isFalse l _ =>
    split at hr
    · simp only [Prod.mk.injEq] at hr
      obtain ⟨rfl, rfl, rfl⟩ := hr
      have hf := (gateFrame_dropTimer? w timer).trans (gateFrame_dropListener _ l)
      exact ⟨h.of_gateFrame hf, hf.grows, trivial⟩
    have h₀ := held_tryAcquire h target.metadata.id
    have hg₀ := grows_tryAcquire w target.metadata.id
    split at hr
    · next htaken =>
      have hf := ((gateFrame_dropTimer? (w.tryAcquire target.metadata.id).2 timer).trans
        (gateFrame_spend _)).trans (gateFrame_dropListener _ l)
      exact hcall ((h₀.1 htaken).of_gateFrame hf) (hg₀.trans hf.grows) hr
    · next hnot =>
      have h₁ : Holding m (w.tryAcquire target.metadata.id).2 := by
        rw [h₀.2 (Bool.eq_false_iff.2 hnot)]
        exact h
      obtain ⟨h₂, hg₂, ht₂⟩ := hqueue h₁ hg₀ target.metadata.id k
      split at hr
      · next hd => exact hlate _ _ h₂ hg₂ hd hr
      · next hd => exact hwait _ _ h₂ hg₂ ht₂ hd hr
  case some.none.isFalse x _ =>
    have htx := ht x rfl
    split at hr
    · simp only [Prod.mk.injEq] at hr
      obtain ⟨rfl, rfl, rfl⟩ := hr
      have hf := gateFrame_dropTimer? w timer
      exact ⟨held_dropWaiter (h.of_gateFrame hf) x, hf.grows.trans (grows_dropWaiter _ x), trivial⟩
    by_cases hx : w.isAssigned x = true
    · simp only [hx, if_true] at hr
      have hf := (gateFrame_dropTimer? (w.settleWaiter x) timer).trans (gateFrame_spend _)
      exact hcall ((held_settle_of_isAssigned h hx htx).of_gateFrame hf)
        ((grows_settleWaiter w x).trans hf.grows) hr
    simp only [hx, Bool.false_eq_true, if_false] at hr
    have hf := gateFrame_addListener w gen k
    split at hr
    · next hd => exact hlate _ _ (h.of_gateFrame hf) hf.grows hd hr
    · next hd => exact hwait _ _ (h.of_gateFrame hf) hf.grows (htx.grow hf.grows) hd hr
  case some.some.isFalse x l _ =>
    have htx := ht x rfl
    split at hr
    · simp only [Prod.mk.injEq] at hr
      obtain ⟨rfl, rfl, rfl⟩ := hr
      have hf := (gateFrame_dropTimer? w timer).trans (gateFrame_dropListener _ l)
      exact ⟨held_dropWaiter (h.of_gateFrame hf) x, hf.grows.trans (grows_dropWaiter _ x), trivial⟩
    by_cases hx : w.isAssigned x = true
    · simp only [hx, if_true] at hr
      have hf := ((gateFrame_dropTimer? (w.settleWaiter x) timer).trans (gateFrame_spend _)).trans
        (gateFrame_dropListener _ l)
      exact hcall ((held_settle_of_isAssigned h hx htx).of_gateFrame hf)
        ((grows_settleWaiter w x).trans hf.grows) hr
    simp only [hx, Bool.false_eq_true, if_false] at hr
    split at hr
    · next hd => exact hlate _ _ h (.refl w) hd hr
    · next hd => exact hwait _ _ h (.refl w) htx hd hr

/-- **One poll of a child** keeps one holder per gate, and the waiter it keeps stands for its
target's plugin. -/
theorem held_pollChild {k : Waker} {gen : Nat} {q : Query} {c c' : Child} {out : Option Arrival}
    (h : Holding m w) (ht : w.ChildTied c) (hr : w.pollChild k gen q c = (c', out, w')) :
    Holding m w' ∧ Grows w w' ∧ w'.ChildTied c' := by
  cases c with
  | fresh target =>
    rw [pollChild] at hr
    exact held_pollGate h (fun _ hx => by cases hx) hr
  | waiting target deadline waiter timer listener =>
    rw [pollChild] at hr
    refine held_pollGate h (fun x hx => ?_) hr
    subst hx
    exact ht
  | calling target t deadline timer =>
    rw [pollChild] at hr
    exact held_pollCalling h hr
  | finished =>
    simp only [pollChild, Prod.mk.injEq] at hr
    obtain ⟨rfl, rfl, rfl⟩ := hr
    exact ⟨h, .refl w, trivial⟩

/-! ## A whole dispatch -/

/-- Any invariant of the engine and an owner's children that holds across waking the owner,
taking a ready child off its pool and changing the pool, and across the poll of one child, put
back in its place, holds across a whole poll of the pool. -/
theorem inv_pollPool {α β : Type} {I : World → List α → Prop}
    (step : World → Waker → α → α × Option β × World) (o : Owner) (len : Nat)
    (hwake : ∀ w cs, I w cs → I (w.wakeOwner o) cs)
    (hdequeue : ∀ w cs, I w cs → I (w.dequeue o).2 cs)
    (hpool : ∀ w cs f, I w cs → I (w.updatePool o f) cs)
    (hstep : ∀ w cs i c k, I w cs → cs[i]? = some c →
      I (step w k c).2.2 (cs.set i (step w k c).1)) :
    ∀ (fuel polled : Nat) (cs : List α) (w : World), I w cs →
      I (w.pollPool step o len fuel polled cs).1 (w.pollPool step o len fuel polled cs).2.1
  | 0, _, cs, w, h => hwake w cs h
  | fuel + 1, polled, cs, w, h => by
    rw [pollPool]
    have hd := hdequeue w cs h
    rcases hq : w.dequeue o with ⟨_ | i, w₁⟩
    all_goals rw [hq] at hd
    · exact hd
    dsimp only
    rcases hc : cs[i]? with _ | c
    all_goals dsimp only
    · exact inv_pollPool step o len hwake hdequeue hpool hstep fuel polled cs w₁ hd
    have hs := hstep w₁ cs i c ⟨o, some i⟩ hd hc
    rcases hr : step w₁ ⟨o, some i⟩ c with ⟨c', _ | a, w₂⟩
    all_goals rw [hr] at hs
    · dsimp only
      split
      · exact hwake _ _ hs
      · exact inv_pollPool step o len hwake hdequeue hpool hstep fuel (polled + 1) _ w₂ hs
    · exact hpool _ _ _ hs

/-- What a dispatch's poll keeps, of the engine and its children: the gates in order for the
holders `m` besides the calls, the waiters and dispatch records of `w₀` (`Grows`), and the
children's waiters tied to their plugins. -/
structure GatedPoll (m : List String) (w₀ : World) (cs : List Child) (w : World) : Prop where
  holding : Holding m w
  grows : Grows w₀ w
  tied : ∀ c ∈ cs, w.ChildTied c

theorem GatedPoll.of_gateFrame {w₀ : World} {cs : List Child} (h : GatedPoll m w₀ cs w)
    (hf : GateFrame w w') : GatedPoll m w₀ cs w' :=
  ⟨h.holding.of_gateFrame hf, h.grows.trans hf.grows, fun c hc => (h.tied c hc).grow hf.grows⟩

/-- **One poll of a dispatch's pool** keeps the gates in order, child after child. -/
theorem gatedPoll_pollPool {w₀ : World} (o : Owner) (gen : Nat) (q : Query)
    (len fuel polled : Nat) (cs : List Child) (h : GatedPoll m w₀ cs w) :
    GatedPoll m w₀ (w.pollPool (fun w k c => w.pollChild k gen q c) o len fuel polled cs).2.1
      (w.pollPool (fun w k c => w.pollChild k gen q c) o len fuel polled cs).1 := by
  refine inv_pollPool (I := fun w cs => GatedPoll m w₀ cs w) _ o len
    (fun w _ h => h.of_gateFrame (gateFrame_wakeOwner w o))
    (fun w _ h => h.of_gateFrame (gateFrame_dequeue w o))
    (fun w _ f h => h.of_gateFrame (gateFrame_updatePool w o f)) (fun w cs i c k h hc => ?_)
    fuel polled cs w h
  obtain ⟨h₁, hg₁, ht₁⟩ := held_pollChild h.holding (h.tied c (List.mem_of_getElem? hc)) rfl
  refine ⟨h₁, h.grows.trans hg₁, fun c' hc' => ?_⟩
  rcases List.mem_or_eq_of_mem_set hc' with hc' | rfl
  · exact (h.tied c' hc').grow hg₁
  · exact ht₁

/-- **Gathering arrivals** keeps the gates in order, however many children it polls. -/
theorem gatedPoll_collect {w₀ : World} (o : Owner) :
    ∀ (fuel : Nat) (e : Execute) (w : World), GatedPoll m w₀ e.children w →
      GatedPoll m w₀ (w.collect o fuel e).2.1.children (w.collect o fuel e).1
  | 0, _, w, h => h.of_gateFrame (gateFrame_wakeOwner w o)
  | fuel + 1, e, w, h => by
    rw [collect]
    dsimp only
    have hp := gatedPoll_pollPool o e.generation e.query (((w.pool? o).map (·.live.length)).getD 0)
      (((w.pool? o).map (·.live.length)).getD 0 + 1) 0 e.children h
    split
    all_goals
      rename_i heq
      rw [heq] at hp
    · exact gatedPoll_collect o fuel _ _ hp
    · exact hp
    · exact hp

/-- **One poll of a dispatch** keeps the gates in order: it begins with fresh children, gathers
what arrived, and ends by ranking, which takes no gate. -/
theorem gatedPoll_pollExecute {o : Owner} {e : Execute} (h : Holding m w)
    (ht : ∀ c ∈ e.children, w.ChildTied c) :
    GatedPoll m w (w.pollExecute o e).2.1.children (w.pollExecute o e).1 := by
  obtain ⟨w₁, e₁, h₁, hs⟩ : ∃ w₁ e₁, GatedPoll m w e₁.children w₁ ∧
      (if e.started then (w, e) else w.startExecute o e) = (w₁, e₁) := by
    split
    · exact ⟨w, e, ⟨h, .refl w, ht⟩, rfl⟩
    · refine ⟨_, _, ⟨h.of_gateFrame (gateFrame_startExecute w o e),
        (gateFrame_startExecute w o e).grows, fun c hc => ?_⟩, rfl⟩
      obtain ⟨t, -, rfl⟩ := List.mem_map.1 hc
      trivial
  have h₂ := gatedPoll_collect o (e₁.children.length + 1) e₁ w₁ h₁
  unfold pollExecute
  rw [hs]
  dsimp only
  split
  · exact h₂.of_gateFrame (gateFrame_finish _ o _)
  · exact h₂

/-! ## A call's task -/

theorem taskIds_updateTask {id : Nat} {f : Task → Task} (hf : ∀ y, (f y).id = y.id)
    (h : TaskIds w) : TaskIds (w.updateTask id f) := by
  have hg : ∀ y : Task, (if y.id == id then f y else y).id = y.id := fun y => by
    split
    · exact hf y
    · rfl
  have hmap : (w.updateTask id f).tasks.map (·.id) = w.tasks.map (·.id) := by
    simp only [updateTask, List.map_map]
    exact List.map_congr_left fun y _ => hg y
  refine ⟨hmap ▸ h.nodup, fun y hy => ?_⟩
  obtain ⟨y₀, hy₀, rfl⟩ := List.mem_map.1 hy
  rw [hg y₀]
  exact h.lt y₀ hy₀

/-- The calls under way are those of every task but the one under an id, and the gate that one
holds. -/
theorem count_callsUnderWay (hids : TaskIds w) {id : Nat} {x : Task} (hx : w.task? id = some x)
    (q : String) : w.callsUnderWay.count q =
      (w.removeTask id).callsUnderWay.count q + x.body.holding?.toList.count q := by
  obtain ⟨hmem, hid⟩ := mem_of_task? hx
  simp only [callsUnderWay, removeTask, List.count_filterMap]
  rw [countP_filter_id_ne (·.id) hids.nodup hmem, hid]
  cases x.body.holding? <;> simp [List.count_singleton]

/-- Changing the task under an id, and keeping its id, changes the calls under way by the gate it
holds alone. -/
theorem count_callsUnderWay_updateTask (hids : TaskIds w) {id : Nat} {x : Task}
    (hx : w.task? id = some x) {f : Task → Task} (hf : ∀ y, (f y).id = y.id) (q : String) :
    (w.updateTask id f).callsUnderWay.count q =
      (w.removeTask id).callsUnderWay.count q + (f x).body.holding?.toList.count q := by
  have hx' : (w.updateTask id f).task? id = some (f x) := task?_updateTask_self hx f hf
  have hrest : ((w.updateTask id f).removeTask id).callsUnderWay = (w.removeTask id).callsUnderWay := by
    simp only [callsUnderWay, removeTask, updateTask, List.filter_map]
    congr 1
    have hp : ∀ y : Task, ((fun x : Task => x.id != id) ∘
        fun t => if (t.id == id) = true then f t else t) y = (y.id != id) := fun y => by
      by_cases hy : y.id = id <;> simp [hy, hf]
    rw [List.filter_congr fun y _ => hp y]
    refine (List.map_congr_left fun y hy => ?_).trans (List.map_id _)
    have hy' : ¬y.id = id := by simpa using (List.mem_filter.1 hy).2
    simp [hy']
  rw [count_callsUnderWay (taskIds_updateTask hf hids) hx' q, hrest]

/-- Engines whose tasks have the same ids and bodies have the same calls under way, besides any
one task. -/
theorem callsUnderWay_removeTask_of_bodies
    (hv : w'.tasks.map (fun t => (t.id, t.body)) = w.tasks.map (fun t => (t.id, t.body)))
    (id : Nat) : (w'.removeTask id).callsUnderWay = (w.removeTask id).callsUnderWay := by
  have key : ∀ w : World, (w.removeTask id).callsUnderWay =
      ((w.tasks.map fun t => (t.id, t.body)).filter (·.1 != id)).filterMap (·.2.holding?) := by
    intro w
    simp [callsUnderWay, removeTask, List.filter_map, List.filterMap_map, Function.comp_def]
  rw [key, key, hv]

theorem grows_pollCall (self : Nat) (c : Call) : Grows w (w.pollCall self c).1 := by
  unfold pollCall
  dsimp only
  have hend : ∀ w₁ : World, Grows w w₁ → Grows w (w₁.release c.plugin) ∧
      ∀ k, Grows w ((w₁.release c.plugin).wake k) := fun w₁ h₁ =>
    ⟨h₁.trans (grows_release _ _),
      fun k => (h₁.trans (grows_release _ _)).trans (gateFrame_wake _ k).grows⟩
  cases c.join with
  | none =>
    dsimp only
    split
    · split
      · exact (hend _ (gateFrame_logCall w _ _).grows).1
      · exact ((gateFrame_logCall w _ _).trans (gateFrame_addTimer _ _ _)).grows
    · split
      · exact (hend w (.refl w)).1
      · exact .refl w
    · exact .refl w
  | some k =>
    dsimp only
    split
    · split
      · exact (hend _ (gateFrame_logCall w _ _).grows).2 k
      · exact ((gateFrame_logCall w _ _).trans (gateFrame_addTimer _ _ _)).grows
    · split
      · exact (hend w (.refl w)).2 k
      · exact .refl w
    · exact .refl w

/-- **A call's poll**, for any further holders `l`: while the call goes on it holds its gate as
before, and a call that ends releases the gate and holds none. -/
theorem gated_pollCall {l : List String} {c : Call}
    (h : Gated ((TaskBody.call c).holding?.toList ++ l) w) (self : Nat) :
    Gated ((TaskBody.call (w.pollCall self c).2.1).holding?.toList ++ l) (w.pollCall self c).1 ∧
      ((w.pollCall self c).2.2 = true → (TaskBody.call (w.pollCall self c).2.1).holding? = none) := by
  have hframe : ∀ w₁ : World, GateFrame w w₁ → Gated ((TaskBody.call c).holding?.toList ++ l) w₁ :=
    fun w₁ hf => h.of_eq hf.gates hf.waiters hf.tasks.nextId
  have hend : ∀ w₁ : World, GateFrame w w₁ → c.phase.isDone = false →
      Gated l (w₁.release c.plugin) ∧ ∀ k, Gated l ((w₁.release c.plugin).wake k) := by
    intro w₁ hf hd
    have h₁ : Gated (c.plugin :: l) w₁ := by
      simpa [TaskBody.holding?, hd] using hframe w₁ hf
    have h₂ := gated_release h₁
    exact ⟨h₂, fun k => h₂.of_eq (gateFrame_wake _ k).gates (gateFrame_wake _ k).waiters
      (gateFrame_wake _ k).tasks.nextId⟩
  unfold pollCall
  cases hph : c.phase with
  | fresh =>
    dsimp only
    split
    · cases c.join with
      | none => exact ⟨by simpa [TaskBody.holding?, CallPhase.isDone] using
          (hend _ (gateFrame_logCall w _ _) (by rw [hph]; rfl)).1, fun _ => rfl⟩
      | some k => exact ⟨by simpa [TaskBody.holding?, CallPhase.isDone] using
          (hend _ (gateFrame_logCall w _ _) (by rw [hph]; rfl)).2 k, fun _ => rfl⟩
    · refine ⟨?_, fun h => by cases h⟩
      have hs : ∀ d, (TaskBody.call { c with phase := .sleeping d }).holding? =
          (TaskBody.call c).holding? := fun d => by
        simp [TaskBody.holding?, CallPhase.isDone, hph]
      rw [hs]
      exact hframe _ ((gateFrame_logCall w _ _).trans (gateFrame_addTimer _ _ _))
  | sleeping d =>
    dsimp only
    split
    · cases c.join with
      | none => exact ⟨by simpa [TaskBody.holding?, CallPhase.isDone] using
          (hend w (.refl w) (by rw [hph]; rfl)).1, fun _ => rfl⟩
      | some k => exact ⟨by simpa [TaskBody.holding?, CallPhase.isDone] using
          (hend w (.refl w) (by rw [hph]; rfl)).2 k, fun _ => rfl⟩
    · exact ⟨h, fun h => by cases h⟩
  | done a => exact ⟨h, fun _ => by simp [TaskBody.holding?, CallPhase.isDone, hph]⟩

/-- **A call's poll** keeps the gates in order, whatever is then done with its task: while the
call goes on its task holds the gate as before; a call that ends has released the gate, and its
task, changed to hold the ended call or removed, holds none. -/
theorem held_pollCall (h : Holding m w) {id : Nat} {x : Task} {c : Call}
    (hx : w.task? id = some x) (hb : x.body = .call c) :
    Grows w (w.pollCall id c).1 ∧
      (∀ f : Task → Task, (∀ y, (f y).id = y.id ∧ (f y).body = .call (w.pollCall id c).2.1) →
        Holding m ((w.pollCall id c).1.updateTask id f)) ∧
      ((w.pollCall id c).2.2 = true → Holding m ((w.pollCall id c).1.removeTask id)) := by
  have hv : (w.pollCall id c).1.tasks.map (fun t => (t.id, t.body)) =
      w.tasks.map (fun t => (t.id, t.body)) := by
    have := dispatchView_pollCall w id c
    simp only [dispatchView, Prod.mk.injEq] at this
    exact this.2.1
  have hR := callsUnderWay_removeTask_of_bodies hv id
  have hids₂ : TaskIds (w.pollCall id c).1 := ((taskFrame_pollCall w id c).keep h.ids).1
  obtain ⟨x₂, hx₂, -⟩ := task?_of_bodies hv hx
  have h₀ : Gated ((TaskBody.call c).holding?.toList ++ ((w.removeTask id).callsUnderWay ++ m)) w :=
    h.gated.mono fun q => Nat.le_of_eq (by
      rw [List.count_append, List.count_append, List.count_append, count_callsUnderWay h.ids hx q, hb]
      omega)
  obtain ⟨h₂, hend⟩ := gated_pollCall h₀ id
  refine ⟨grows_pollCall id c, fun f hf => ⟨taskIds_updateTask (fun y => (hf y).1) hids₂, ?_⟩,
    fun hfin => ⟨taskIds_removeTask id hids₂, ?_⟩⟩
  · have h₃ : Gated _ ((w.pollCall id c).1.updateTask id f) := h₂.of_eq rfl rfl (Nat.le_refl _)
    refine h₃.mono fun q => Nat.le_of_eq ?_
    rw [List.count_append, count_callsUnderWay_updateTask hids₂ hx₂ (fun y => (hf y).1), hR,
      (hf x₂).2, List.count_append, List.count_append]
    omega
  · have h₃ : Gated _ ((w.pollCall id c).1.removeTask id) := h₂.of_eq rfl rfl (Nat.le_refl _)
    rwa [hend hfin, Option.toList_none, List.nil_append, ← hR] at h₃

/-! ## A task's run -/

/-- Every dispatch's children wait under waiters of their targets' plugins. -/
def DispatchesTied (w : World) : Prop :=
  ∀ o e, w.dispatchOf o = some e → ∀ c ∈ e.children, w.ChildTied c

/-- The gates are in order for the calls under way and the holders `m`, with distinct task ids,
and every dispatch's children are tied. -/
structure Serial (m : List String) (w : World) : Prop where
  holding : Holding m w
  tied : w.DispatchesTied

theorem DispatchesTied.grow (h : w.DispatchesTied) (hg : Grows w w') : w'.DispatchesTied :=
  fun o e he c hc => (h o e (hg.held o e he) c hc).grow hg

theorem Serial.of_gateFrame (h : Serial m w) (hf : GateFrame w w') : Serial m w' :=
  ⟨h.holding.of_gateFrame hf, h.tied.grow hf.grows⟩

theorem Holding.removeTask (h : Holding m w) (id : Nat) : Holding m (w.removeTask id) := by
  have hg : Gated (w.callsUnderWay ++ m) (w.removeTask id) := h.gated.of_eq rfl rfl (Nat.le_refl _)
  refine ⟨taskIds_removeTask id h.ids, hg.mono fun q => ?_⟩
  rw [List.count_append, List.count_append]
  exact Nat.add_le_add_right ((List.filter_sublist.filterMap _).count_le q) _

/-- Changing a task, keeping its id, keeps the gates in order when the task then holds the gate
it held, or none. -/
theorem Holding.updateTask (h : Holding m w) {id : Nat} {f : Task → Task}
    (hid : ∀ y, (f y).id = y.id)
    (hf : ∀ y ∈ w.tasks, y.id = id →
      (f y).body.holding? = none ∨ (f y).body.holding? = y.body.holding?) :
    Holding m (w.updateTask id f) := by
  have hg : Gated (w.callsUnderWay ++ m) (w.updateTask id f) := h.gated.of_eq rfl rfl (Nat.le_refl _)
  refine ⟨taskIds_updateTask hid h.ids, hg.mono fun q => ?_⟩
  rw [List.count_append, List.count_append]
  exact Nat.add_le_add_right ((callsUnderWay_updateTask id f hf).count_le q) _

/-- After changing the task under an id, a dispatch record is one of before, or the one the
changed task holds. -/
theorem dispatchOf_updateTask {id : Nat} {f : Task → Task} (hf : ∀ y, (f y).id = y.id)
    {o : Owner} {e : Execute} (he : (w.updateTask id f).dispatchOf o = some e) :
    w.dispatchOf o = some e ∨ ∃ x, w.task? id = some x ∧ (f x).body.search? = some e := by
  cases o with
  | main => exact .inl he
  | task i =>
    rw [dispatchOf, task?_updateTask id i f fun y _ _ => hf y] at he
    cases hx : w.task? i with
    | none =>
      rw [hx] at he
      cases he
    | some x =>
      rw [hx, Option.map_some, Option.bind_some] at he
      split at he
      · next hxt =>
        have hi : i = id := (mem_of_task? hx).2.symm.trans (by simpa using hxt)
        subst hi
        exact .inr ⟨x, hx, he⟩
      · exact .inl (by rw [dispatchOf, hx, Option.bind_some]; exact he)

/-- Changing or removing a task leaves the waiters alone. -/
theorem ChildTied.updateTask {c : Child} (h : w.ChildTied c) (id : Nat) (f : Task → Task) :
    (w.updateTask id f).ChildTied c :=
  h.of_waiters (Nat.le_refl _) fun r hr => .inr ⟨r, hr, rfl, rfl⟩

theorem ChildTied.removeTask {c : Child} (h : w.ChildTied c) (id : Nat) :
    (w.removeTask id).ChildTied c :=
  h.of_waiters (Nat.le_refl _) fun r hr => .inr ⟨r, hr, rfl, rfl⟩

theorem Tied.updateTask {x : Nat} (h : w.Tied p x) (id : Nat) (f : Task → Task) :
    (w.updateTask id f).Tied p x :=
  h.of_waiters (Nat.le_refl _) fun r hr => .inr ⟨r, hr, rfl, rfl⟩

theorem Tied.removeTask {x : Nat} (h : w.Tied p x) (id : Nat) : (w.removeTask id).Tied p x :=
  h.of_waiters (Nat.le_refl _) fun r hr => .inr ⟨r, hr, rfl, rfl⟩

theorem DispatchesTied.removeTask (h : w.DispatchesTied) (id : Nat) :
    (w.removeTask id).DispatchesTied :=
  fun o e he c hc =>
    (h o e ((aside_removeTask id).held o e (Option.some_ne_none o).symm he) c hc).removeTask id

/-- A task changed to hold no dispatch leaves every dispatch record as it was. -/
theorem DispatchesTied.updateTask (h : w.DispatchesTied) {id : Nat} {f : Task → Task}
    (hf : ∀ y, (f y).id = y.id) (hs : ∀ y, (f y).body.search? = none) :
    (w.updateTask id f).DispatchesTied := by
  intro o e he c hc
  rcases dispatchOf_updateTask hf he with he' | ⟨x, -, hx⟩
  · exact (h o e he' c hc).updateTask id f
  · rw [hs x] at hx
    cases hx

/-- **A task's run** keeps the gates in order and every dispatch's children tied: a search's
dispatch is polled and its record goes back to its task, or goes with it; a call is polled, and
releases its gate when it ends. The waiter ids tied before stay tied. -/
theorem serial_runTask (h : Serial m w) (id : Nat) :
    Serial m (w.runTask id) ∧ ∀ p x, w.Tied p x → (w.runTask id).Tied p x := by
  unfold runTask
  split
  · exact ⟨h, fun _ _ hx => hx⟩
  · next t ht =>
    dsimp only
    generalize hwb : ({ w with budget := pollBudget } : World) = wb
    have hfb : GateFrame w wb := by
      rw [← hwb]
      exact .of_eq rfl rfl rfl rfl rfl
    have htb : wb.task? id = some t := by
      rw [← hwb]
      exact ht
    have hf₁ := hfb.trans (gateFrame_updateState wb id (.running false))
    have ht₁ : (wb.updateTask id fun t => { t with state := .running false }).task? id =
        some { t with state := .running false } :=
      task?_updateTask_self htb _ fun _ => rfl
    have h₁ := h.of_gateFrame hf₁
    generalize (wb.updateTask id fun t => { t with state := .running false }) = w₁ at hf₁ ht₁ h₁ ⊢
    split
    · next e hb =>
      have hd : w₁.dispatchOf (.task id) = some e := by
        rw [dispatchOf, ht₁, Option.bind_some]
        show t.body.search? = some e
        rw [hb]
        rfl
      have hp := gatedPoll_pollExecute (o := .task id) h₁.holding (h₁.tied _ e hd)
      have hkept := h₁.tied.grow hp.grows
      have hgw := hf₁.grows.trans hp.grows
      rcases hq : w₁.pollExecute (.task id) e with ⟨w₂, e₂, _ | r⟩
      all_goals
        rw [hq] at hp hkept hgw
        dsimp only at hp hkept hgw ⊢
      · have hf : ∀ y : Task, ({ y with body := .search e₂ } : Task).id = y.id := fun _ => rfl
        have hfa := gateFrame_afterPoll (w₂.updateTask id fun y => { y with body := .search e₂ }) id
        refine ⟨⟨(hp.holding.updateTask hf fun _ _ _ => .inl rfl).of_gateFrame hfa,
          fun o e' he c hc => ?_⟩, fun p x hx => ((hx.grow hgw).updateTask id _).grow hfa.grows⟩
        rcases dispatchOf_updateTask hf (hfa.held o e' he) with he₂ | ⟨x, -, hx⟩
        · exact ((hkept o e' he₂ c hc).updateTask id _).grow hfa.grows
        · cases hx
          exact ((hp.tied c hc).updateTask id _).grow hfa.grows
      · exact ⟨⟨hp.holding.removeTask id, hkept.removeTask id⟩, fun p x hx => (hx.grow hgw).removeTask id⟩
    · next c hb =>
      obtain ⟨hg₂, hupd, hrem⟩ := held_pollCall h₁.holding ht₁ hb
      have hkept := h₁.tied.grow hg₂
      have hgw := hf₁.grows.trans hg₂
      rcases hq : w₁.pollCall id c with ⟨w₂, c₂, _ | _⟩
      all_goals
        rw [hq] at hupd hrem hkept hgw
        dsimp only at hupd hrem hkept hgw ⊢
      · have hfa := gateFrame_afterPoll (w₂.updateTask id fun y => { y with body := .call c₂ }) id
        exact ⟨⟨(hupd (fun y => { y with body := .call c₂ }) fun _ => ⟨rfl, rfl⟩).of_gateFrame hfa,
          (hkept.updateTask (f := fun y => { y with body := .call c₂ }) (fun _ => rfl)
            fun _ => rfl).grow hfa.grows⟩,
          fun p x hx => ((hx.grow hgw).updateTask id _).grow hfa.grows⟩
      · split
        · exact ⟨⟨hrem rfl, hkept.removeTask id⟩, fun p x hx => (hx.grow hgw).removeTask id⟩
        · exact ⟨⟨hupd _ fun _ => ⟨rfl, rfl⟩, hkept.updateTask (fun _ => rfl) fun _ => rfl⟩,
            fun p x hx => (hx.grow hgw).updateTask id _⟩

end World

end Launcher.Engine
