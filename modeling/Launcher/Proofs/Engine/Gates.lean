import Launcher.Proofs.Engine.Jobs

/-!
# One holder per plugin gate

Every call into a plugin goes through its gate: a query call runs as a task of its own once a
dispatch child took the gate, and keeps it until it ends; a start-up, a reload and the handing of
a selected result run while the caller's job holds it. A gate that is released passes straight to
its oldest waiter, who holds it from then on. So the holders of a plugin's gate are the calls into
it under way, the waiters it was handed to, and the caller's job while it holds it; the gates are
in order when each has at most one holder, and is taken while it has one.

This module proves that every operation on gates keeps them in order, given the holders they add
or drop, and that everything else the engine does leaves the gates alone:

* `World.callsUnderWay`, `World.handedTo` — the holders among the tasks and the waiters;
* `World.Gated` — the gates are in order, for a list of further holders;
* `World.Tied` — a waiter id stands for a waiter of one plugin only, now and later (`Grows`);
* `World.gated_acquire`, `World.gated_settleWaiter`, `World.gated_release`,
  `World.gated_enqueueWaiter`, `World.gated_dropWaiter` — the gate operations, each with the
  holder it adds or drops;
* `World.GateFrame` — a step that leaves the gates and the waiters alone and begins no call.
-/

namespace Launcher.Engine

/-- Whether a call has ended. -/
def CallPhase.isDone : CallPhase → Bool
  | .done _ => true
  | _ => false

/-- The plugin whose gate a task holds: a call that has not ended holds its plugin's gate. -/
def TaskBody.holding? : TaskBody → Option String
  | .call c => if c.phase.isDone then none else some c.plugin
  | .search _ => none

/-- The plugin whose gate a bring-up holds, between taking it and running its step. -/
def BringUp.holding? : BringUp → Option String
  | .holding id _ => some id
  | _ => none

/-- The plugins whose gates the caller's job holds. -/
def MainJob.holding : MainJob → List String
  | .select _ p _ .holding => [p]
  | .startAll (some ups) => ups.filterMap BringUp.holding?
  | .reload _ (some b) => b.holding?.toList
  | _ => []

namespace World

/-- The calls under way, each by the plugin whose gate it holds. -/
def callsUnderWay (w : World) : List String := w.tasks.filterMap (·.body.holding?)

/-- How many waiters were handed the gate of `p` and hold it still. -/
def handedTo (w : World) (p : String) : Nat :=
  w.waiters.countP fun x => x.plugin == p && x.assigned

/-- A waiter id handed out already, under which only a waiter for `p` may stand. -/
def Tied (w : World) (p : String) (x : Nat) : Prop :=
  x < w.nextId ∧ ∀ r ∈ w.waiters, r.id = x → r.plugin = p

/-- The gates are in order, for the holders `held` besides the waiters handed a gate: the waiters
have distinct ids, handed out already; a gate's queue holds ids of its own plugin's waiters; and
each gate has at most one holder, and is taken while it has one. -/
structure Gated (held : List String) (w : World) : Prop where
  nodup : (w.waiters.map (·.id)).Nodup
  issued : ∀ r ∈ w.waiters, r.id < w.nextId
  queued : ∀ p, ∀ x ∈ (w.gate p).queue, w.Tied p x
  one : ∀ p, w.handedTo p + held.count p ≤ 1
  busy : ∀ p, 0 < w.handedTo p + held.count p → (w.gate p).busy = true

/-- A step after which every waiter is one of before, for the same plugin, or new, and every
dispatch record was there before. -/
structure Grows (w w' : World) : Prop where
  nextId : w.nextId ≤ w'.nextId
  waiters : ∀ r' ∈ w'.waiters,
    w.nextId ≤ r'.id ∨ ∃ r ∈ w.waiters, r.id = r'.id ∧ r.plugin = r'.plugin
  held : ∀ o e, w'.dispatchOf o = some e → w.dispatchOf o = some e

/-- A step that leaves the gates and the waiters alone and the tasks' ids and dispatches in order
(`TaskFrame`), and begins no call: with distinct task ids, the calls under way after it were under
way before; every dispatch record after it was there before; and the caller's job stays. -/
structure GateFrame (w w' : World) : Prop where
  tasks : TaskFrame w w'
  gates : w'.gates = w.gates
  waiters : w'.waiters = w.waiters
  calls : TaskIds w → w'.callsUnderWay.Sublist w.callsUnderWay
  held : ∀ o e, w'.dispatchOf o = some e → w.dispatchOf o = some e
  main : w'.main = w.main

variable {w w' w'' : World} {l l' : List String} {p : String}

/-! ## Counting waiters -/

/-- Taking an entry out of a list with distinct ids takes out that entry alone. -/
theorem countP_filter_id_ne {α : Type} (key : α → Nat) {l : List α} (hn : (l.map key).Nodup)
    {r : α} (hr : r ∈ l) (P : α → Bool) :
    l.countP P = (l.filter (key · != key r)).countP P + if P r then 1 else 0 := by
  induction l with
  | nil => cases hr
  | cons a l ih =>
    rw [List.map_cons, List.nodup_cons] at hn
    rcases List.mem_cons.1 hr with rfl | hr'
    · have hkeep : l.filter (key · != key r) = l := List.filter_eq_self.2 fun b hb => by
        have hb' : key b ≠ key r := fun h => hn.1 (h ▸ List.mem_map_of_mem hb)
        simpa using hb'
      simp [List.countP_cons, hkeep]
    · have hne : key a ≠ key r := fun h => hn.1 (h ▸ List.mem_map_of_mem hr')
      rw [List.countP_cons, List.filter_cons_of_pos (by simpa using hne), List.countP_cons,
        ih hn.2 hr']
      omega

/-- Handing a gate to the waiters under one id adds at most those of them that count once
handed. -/
theorem countP_assign_le (l : List Waiter) (x : Nat) (P : Waiter → Bool) :
    (l.map fun r => if r.id == x then { r with assigned := true } else r).countP P ≤
      l.countP P + (l.filter (·.id == x)).countP fun r => P { r with assigned := true } := by
  induction l with
  | nil => simp
  | cons a l ih =>
    by_cases ha : a.id = x
    · simp only [List.map_cons, ha, BEq.rfl, if_true, List.countP_cons, List.filter_cons_of_pos]
      split_ifs <;> omega
    · have hx : (a.id == x) = false := by simpa using ha
      simp only [List.map_cons, hx, Bool.false_eq_true, if_false, List.countP_cons,
        List.filter_cons]
      split_ifs <;> omega

/-- Under distinct ids, at most one waiter stands under an id. -/
theorem length_filter_id_le_one {l : List Waiter} (hn : (l.map (·.id)).Nodup) (x : Nat) :
    (l.filter (·.id == x)).length ≤ 1 := by
  have h := List.nodup_iff_count_le_one.1 hn x
  rwa [List.count_eq_countP, List.countP_map, List.countP_eq_length_filter] at h

/-! ## Gates -/

theorem plugin_gate (w : World) (p : String) : (w.gate p).plugin = p := by
  unfold gate
  cases hf : w.gates.find? (·.plugin == p) with
  | none => rfl
  | some g => simpa using List.find?_some hf

theorem gate_setGate (w : World) (g : Gate) (p : String) :
    (w.setGate g).gate p = if g.plugin = p then g else w.gate p := by
  unfold gate setGate
  by_cases hp : g.plugin = p
  · simp [hp]
  · rw [if_neg hp, List.find?_cons_of_neg (by simpa using hp), List.find?_filter]
    congr 2
    funext a
    by_cases ha : a.plugin = p
    · simp [ha, Ne.symm hp]
    · simp [ha]

/-! ## Waiter ids -/

namespace Grows

theorem refl (w : World) : Grows w w :=
  ⟨Nat.le_refl _, fun r hr => .inr ⟨r, hr, rfl, rfl⟩, fun _ _ h => h⟩

theorem trans (h₁ : Grows w w') (h₂ : Grows w' w'') : Grows w w'' := by
  refine ⟨Nat.le_trans h₁.nextId h₂.nextId, fun r'' hr'' => ?_,
    fun o e h => h₁.held o e (h₂.held o e h)⟩
  rcases h₂.waiters r'' hr'' with hle | ⟨r', hr', hid', hpl'⟩
  · exact .inl (Nat.le_trans h₁.nextId hle)
  · rcases h₁.waiters r' hr' with hle | ⟨r, hr, hid, hpl⟩
    · exact .inl (hid' ▸ hle)
    · exact .inr ⟨r, hr, hid.trans hid', hpl.trans hpl'⟩

/-- A step that keeps the waiters and the dispatch records, and hands out ids only forward. -/
theorem of_eq (hw : w'.waiters = w.waiters) (hn : w.nextId ≤ w'.nextId)
    (hd : w'.dispatchOf = w.dispatchOf) : Grows w w' :=
  ⟨hn, fun r hr => .inr ⟨r, hw ▸ hr, rfl, rfl⟩, fun _ _ h => hd ▸ h⟩

/-- A step that only drops waiters. -/
theorem of_sublist (hw : w'.waiters.Sublist w.waiters) (hn : w.nextId ≤ w'.nextId)
    (hd : w'.dispatchOf = w.dispatchOf) : Grows w w' :=
  ⟨hn, fun r hr => .inr ⟨r, hw.subset hr, rfl, rfl⟩, fun _ _ h => hd ▸ h⟩

end Grows

/-- A waiter id stays tied while ids are handed out only forward and every waiter is one of before,
for the same plugin, or new. -/
theorem Tied.of_waiters {x : Nat} (h : w.Tied p x) (hn : w.nextId ≤ w'.nextId)
    (hw : ∀ r' ∈ w'.waiters,
      w.nextId ≤ r'.id ∨ ∃ r ∈ w.waiters, r.id = r'.id ∧ r.plugin = r'.plugin) :
    w'.Tied p x := by
  refine ⟨Nat.lt_of_lt_of_le h.1 hn, fun r' hr' hid => ?_⟩
  rcases hw r' hr' with hle | ⟨r, hr, hrid, hpl⟩
  · exact absurd (hid ▸ hle) (Nat.not_le.2 h.1)
  · exact hpl ▸ h.2 r hr (hrid.trans hid)

theorem Tied.grow {x : Nat} (h : w.Tied p x) (hg : Grows w w') : w'.Tied p x :=
  h.of_waiters hg.nextId hg.waiters

/-! ## Gates in order -/

namespace Gated

/-- Fewer holders keep the gates in order. -/
theorem mono (h : Gated l w) (hc : ∀ p, l'.count p ≤ l.count p) : Gated l' w :=
  ⟨h.nodup, h.issued, h.queued, fun p => Nat.le_trans (Nat.add_le_add_left (hc p) _) (h.one p),
    fun p hp => h.busy p (Nat.lt_of_lt_of_le hp (Nat.add_le_add_left (hc p) _))⟩

/-- So does a step that keeps the gates and the waiters, and hands out ids only forward. -/
theorem of_eq (h : Gated l w) (hg : w'.gates = w.gates) (hw : w'.waiters = w.waiters)
    (hn : w.nextId ≤ w'.nextId) : Gated l w' := by
  have hgate : ∀ p, w'.gate p = w.gate p := fun p => by rw [gate, gate, hg]
  have hhand : ∀ p, w'.handedTo p = w.handedTo p := fun p => by rw [handedTo, handedTo, hw]
  refine ⟨hw ▸ h.nodup, fun r hr => ?_, fun p x hx => ?_, fun p => ?_, fun p hp => ?_⟩
  · exact Nat.lt_of_lt_of_le (h.issued r (hw ▸ hr)) hn
  · rw [hgate] at hx
    exact (h.queued p x hx).of_waiters hn fun r hr => .inr ⟨r, hw ▸ hr, rfl, rfl⟩
  · rw [hhand]
    exact h.one p
  · rw [hhand] at hp
    rw [hgate]
    exact h.busy p hp

/-- A step that leaves the gates alone keeps them in order for the calls under way, and any
holders besides. -/
theorem of_gateFrame {m : List String} (h : Gated (w.callsUnderWay ++ m) w) (hids : TaskIds w)
    (hf : GateFrame w w') : Gated (w'.callsUnderWay ++ m) w' :=
  (h.of_eq hf.gates hf.waiters hf.tasks.nextId).mono fun p => by
    rw [List.count_append, List.count_append]
    exact Nat.add_le_add_right ((hf.calls hids).count_le p) _

/-- **Replacing the gate of `p`** keeps the gates in order for new holders `l'` that differ from
`l` only at `p`, when the new gate's queue holds ids of waiters for `p`, and it has at most one
holder and is taken while it has one. -/
theorem setGate (h : Gated l w) {g : Gate} (hg : g.plugin = p)
    (hq : ∀ x ∈ g.queue, w.Tied p x) (hone : w.handedTo p + l'.count p ≤ 1)
    (hb : 0 < w.handedTo p + l'.count p → g.busy = true)
    (hl : ∀ q, q ≠ p → l'.count q = l.count q) : Gated l' (w.setGate g) := by
  have hgate := gate_setGate w g
  refine ⟨h.nodup, h.issued, fun q x hx => ?_, fun q => ?_, fun q hq' => ?_⟩
  · rw [hgate] at hx
    split at hx
    · next he => exact he ▸ hg ▸ hq x hx
    · exact h.queued q x hx
  · by_cases he : q = p
    · subst he
      exact hone
    · rw [hl q he]
      exact h.one q
  · rw [hgate]
    by_cases he : q = p
    · subst he
      rw [if_pos hg]
      exact hb hq'
    · rw [if_neg fun h : g.plugin = q => he (h.symm.trans hg)]
      rw [hl q he] at hq'
      exact h.busy q hq'

end Gated

/-! ## Steps that leave the gates alone -/

/-- A call under way stays under way, or ends, when its task is changed. -/
theorem filterMap_sublist_of {α β : Type} {f g : α → Option β} :
    ∀ (l : List α), (∀ a ∈ l, f a = none ∨ f a = g a) → (l.filterMap f).Sublist (l.filterMap g)
  | [], _ => List.Sublist.slnil
  | a :: l, h => by
    have ih := filterMap_sublist_of l fun b hb => h b (List.mem_cons_of_mem a hb)
    rw [List.filterMap_cons, List.filterMap_cons]
    rcases h a List.mem_cons_self with hf | hf
    · rw [hf]
      rcases g a with _ | b
      · exact ih
      · exact ih.cons b
    · rw [hf]
      rcases g a with _ | b
      · exact ih
      · exact ih.cons_cons b

theorem callsUnderWay_updateTask (id : Nat) (f : Task → Task)
    (hf : ∀ x ∈ w.tasks, x.id = id →
      (f x).body.holding? = none ∨ (f x).body.holding? = x.body.holding?) :
    (w.updateTask id f).callsUnderWay.Sublist w.callsUnderWay := by
  unfold callsUnderWay updateTask
  rw [List.filterMap_map]
  refine filterMap_sublist_of _ fun x hx => ?_
  by_cases hid : x.id = id
  · simpa [hid] using hf x hx hid
  · simp [hid]

theorem gates_spawn (b : TaskBody) :
    (w.spawn b).2.gates = w.gates ∧ (w.spawn b).2.waiters = w.waiters := by
  simp only [spawn, fresh, enqueue]
  by_cases hi : w.inside = true <;> simp [hi, unpark]

/-- A new call holds no dispatch, so every dispatch record stays as it was. -/
theorem dispatchOf_spawn_call (c : Call) : (w.spawn (.call c)).2.dispatchOf = w.dispatchOf := by
  funext o
  cases o with
  | main => exact congrArg (·.search?) (congrArg (·.1) (dispatchView_spawn (w := w) (.call c)))
  | task t =>
    rw [dispatchOf, dispatchOf, task?_spawn]
    cases w.task? t with
    | none => split <;> rfl
    | some x => rfl

theorem callsUnderWay_spawn (b : TaskBody) :
    (w.spawn b).2.callsUnderWay = w.callsUnderWay ++ b.holding?.toList := by
  rw [callsUnderWay, (tasks_spawn b).1, List.filterMap_append]
  cases hb : b.holding? <;> simp [callsUnderWay, hb]

/-- The dispatch records are read off the caller's job and the tasks. -/
theorem dispatchOf_eq (ht : w'.tasks = w.tasks) (hm : w'.main = w.main) :
    w'.dispatchOf = w.dispatchOf := by
  funext o
  cases o <;> simp [dispatchOf, task?, ht, hm]

/-- Changing the tasks of an id keeps every dispatch record when it keeps their ids and the
search of the task found under that id. -/
theorem held_updateTask {t : Nat} {f : Task → Task} (hf : ∀ x, (f x).id = x.id)
    (hs : ∀ x, w.task? t = some x → (f x).body.search? = x.body.search?) (o : Owner)
    (e : Execute) (he : (w.updateTask t f).dispatchOf o = some e) : w.dispatchOf o = some e := by
  cases o with
  | main => exact he
  | task id =>
    rw [dispatchOf, task?_updateTask t id f fun x _ _ => hf x] at he
    rw [dispatchOf]
    cases hx : w.task? id with
    | none =>
      rw [hx] at he
      cases he
    | some x =>
      rw [hx, Option.map_some, Option.bind_some] at he
      rw [Option.bind_some, ← he]
      split
      · next hxt =>
        have hid : id = t := (mem_of_task? hx).2.symm.trans (by simpa using hxt)
        subst hid
        rw [hs x hx]
      · rfl

namespace GateFrame

theorem refl (w : World) : GateFrame w w := ⟨.refl w, rfl, rfl, fun _ => .refl _, fun _ _ h => h, rfl⟩

theorem trans (h₁ : GateFrame w w') (h₂ : GateFrame w' w'') : GateFrame w w'' :=
  ⟨h₁.tasks.trans h₂.tasks, h₂.gates.trans h₁.gates, h₂.waiters.trans h₁.waiters,
    fun hids => (h₂.calls (h₁.tasks.keep hids).1).trans (h₁.calls hids),
    fun o e h => h₁.held o e (h₂.held o e h), h₂.main.trans h₁.main⟩

/-- A step that keeps the tasks, the gates, the waiters and the caller's job, and hands out ids
only forward. -/
theorem of_le (ht : w'.tasks = w.tasks) (hn : w.nextId ≤ w'.nextId) (hg : w'.gates = w.gates)
    (hw : w'.waiters = w.waiters) (hm : w'.main = w.main) : GateFrame w w' :=
  ⟨.of_le ht hn, hg, hw, fun _ => by rw [callsUnderWay, callsUnderWay, ht],
    fun o e h => dispatchOf_eq ht hm ▸ h, hm⟩

theorem of_eq (ht : w'.tasks = w.tasks) (hn : w'.nextId = w.nextId) (hg : w'.gates = w.gates)
    (hw : w'.waiters = w.waiters) (hm : w'.main = w.main) : GateFrame w w' :=
  .of_le ht (Nat.le_of_eq hn.symm) hg hw hm

theorem grows (h : GateFrame w w') : Grows w w' :=
  ⟨h.tasks.nextId, fun r hr => .inr ⟨r, h.waiters ▸ hr, rfl, rfl⟩, h.held⟩

end GateFrame

section Bookkeeping

variable (w : World)

theorem gateFrame_addTimer (d : Nat) (k : Waker) : GateFrame w (w.addTimer d k).2 :=
  .of_le rfl (Nat.le_succ _) rfl rfl rfl

theorem gateFrame_dropTimer? (t : Option Nat) : GateFrame w (w.dropTimer? t) := by
  cases t <;> exact .of_eq rfl rfl rfl rfl rfl

theorem gateFrame_logCall (id : String) (f : CallLog → CallLog) : GateFrame w (w.logCall id f) := by
  unfold logCall
  split <;> exact .of_eq rfl rfl rfl rfl rfl

theorem gateFrame_notify (u : EngineUpdate) : GateFrame w (w.notify u) := by
  unfold notify
  split <;> exact .of_eq rfl rfl rfl rfl rfl

theorem gateFrame_registry (r : Registry) : GateFrame w { w with registry := r } :=
  .of_eq rfl rfl rfl rfl rfl

theorem gateFrame_pools (ps : List Pool) : GateFrame w { w with pools := ps } :=
  .of_eq rfl rfl rfl rfl rfl

theorem gateFrame_updateState (id : Nat) (s : TaskState) :
    GateFrame w (w.updateTask id fun t => { t with state := s }) :=
  ⟨taskFrame_updateState w id s, rfl, rfl, fun _ => callsUnderWay_updateTask id _ fun _ _ _ => .inr rfl,
    held_updateTask (fun _ => rfl) fun _ _ => rfl, rfl⟩

theorem gateFrame_enqueue (id : Nat) : GateFrame w (w.enqueue id) := by
  unfold enqueue
  split <;> exact .of_eq rfl rfl rfl rfl rfl

theorem gateFrame_schedule (id : Nat) : GateFrame w (w.schedule id) := by
  unfold schedule
  split
  · split
    · exact (gateFrame_updateState w id _).trans (gateFrame_enqueue _ id)
    · exact gateFrame_updateState w id _
    · exact .refl w
  · exact .refl w

theorem gateFrame_wakeOwner (o : Owner) : GateFrame w (w.wakeOwner o) := by
  cases o with
  | main => exact .of_eq rfl rfl rfl rfl rfl
  | task id => exact gateFrame_schedule w id

theorem gateFrame_updatePool (o : Owner) (f : Pool → Pool) : GateFrame w (w.updatePool o f) :=
  .of_eq rfl rfl rfl rfl rfl

theorem gateFrame_wake (k : Waker) : GateFrame w (w.wake k) := by
  unfold wake
  split
  · exact gateFrame_wakeOwner w _
  · split
    · split
      · exact (gateFrame_updatePool w _ _).trans (gateFrame_wakeOwner _ _)
      · exact .refl w
    · exact .refl w

theorem gateFrame_foldl_wake {α : Type} (f : α → Waker) :
    ∀ (l : List α) (w : World), GateFrame w (l.foldl (fun w x => w.wake (f x)) w)
  | [], w => .refl w
  | x :: l, w => (gateFrame_wake w (f x)).trans (gateFrame_foldl_wake f l _)

theorem gateFrame_defer (k : Waker) : GateFrame w (w.defer k) := by
  unfold defer
  split <;> exact .of_eq rfl rfl rfl rfl rfl

theorem gateFrame_spend : GateFrame w w.spend := .of_eq rfl rfl rfl rfl rfl

theorem gateFrame_wakeDeferred : GateFrame w w.wakeDeferred := by
  unfold wakeDeferred
  refine GateFrame.trans ?_ (gateFrame_foldl_wake id w.deferred.reverse { w with deferred := [] })
  exact .of_eq rfl rfl rfl rfl rfl

theorem gateFrame_pollDelay (k : Waker) (d : Nat) (timer : Option Nat) :
    GateFrame w (w.pollDelay k d timer).2.2 := by
  unfold pollDelay
  split
  · exact gateFrame_defer w k
  · split
    · exact gateFrame_spend w
    · split
      · exact .refl w
      · exact gateFrame_addTimer w d k

theorem GateFrame.of_pollDelay {w₁ : World} {k : Waker} {d : Nat} {timer timer' : Option Nat}
    {b : Bool} (h : w.pollDelay k d timer = (b, timer', w₁)) : GateFrame w w₁ := by
  have hf := gateFrame_pollDelay w k d timer
  rwa [h] at hf

theorem gateFrame_addListener (g : Nat) (k : Waker) : GateFrame w (w.addListener g k).2 :=
  .of_le rfl (Nat.le_succ _) rfl rfl rfl

theorem gateFrame_dropListener (id : Nat) : GateFrame w (w.dropListener id) :=
  .of_eq rfl rfl rfl rfl rfl

theorem gateFrame_dequeue (o : Owner) : GateFrame w (w.dequeue o).2 := by
  unfold dequeue
  split <;> exact .of_eq rfl rfl rfl rfl rfl

theorem gateFrame_afterPoll (id : Nat) : GateFrame w (w.afterPoll id) := by
  unfold afterPoll
  split
  · exact (gateFrame_updateState w id _).trans (gateFrame_enqueue _ id)
  · exact gateFrame_updateState w id _
  · exact .refl w

theorem gateFrame_nextTask : GateFrame w w.nextTask.2 :=
  .of_eq (by unfold nextTask; grind) (by unfold nextTask; grind) (by unfold nextTask; grind)
    (by unfold nextTask; grind) (by unfold nextTask; grind)

theorem gateFrame_fireTimers : GateFrame w w.fireTimers := by
  unfold fireTimers
  refine GateFrame.trans ?_ (gateFrame_foldl_wake (fun t : Timer => t.waker) _ _)
  exact .of_eq rfl rfl rfl rfl rfl

theorem gateFrame_park : GateFrame w w.park := by
  unfold park
  refine GateFrame.trans ?_ ((gateFrame_fireTimers _).trans (gateFrame_wakeDeferred _))
  split
  · split
    · exact .of_eq rfl rfl rfl rfl rfl
    · split <;> exact .of_eq rfl rfl rfl rfl rfl
  · exact .of_eq rfl rfl rfl rfl rfl

theorem gateFrame_parkYield : GateFrame w w.parkYield := by
  unfold parkYield
  refine GateFrame.trans ?_ ((gateFrame_fireTimers _).trans (gateFrame_wakeDeferred _))
  split
  · split <;> exact .of_eq rfl rfl rfl rfl rfl
  · exact .of_eq rfl rfl rfl rfl rfl

theorem gateFrame_beginQuery : GateFrame w w.beginQuery.2 := by
  unfold beginQuery
  refine GateFrame.trans ?_ (gateFrame_foldl_wake _ _ _)
  exact .of_eq rfl rfl rfl rfl rfl

theorem gateFrame_rememberSelection (g : Nat) (p : String) (i : ResultItem) :
    GateFrame w (w.rememberSelection g p i).1 := by
  unfold rememberSelection
  split
  · split
    · dsimp only
      split <;> exact .of_eq rfl rfl rfl rfl rfl
    · exact .refl w
  · exact .refl w

end Bookkeeping

/-! ## A dispatch, but for the gates its children take -/

section Children

variable (w : World)

theorem gateFrame_awaitCall (t : Nat) (k : Waker) : GateFrame w (w.awaitCall t k) := by
  refine ⟨taskFrame_awaitCall w t k, rfl, rfl, fun _ => callsUnderWay_updateTask t _ fun x _ _ => ?_,
    held_updateTask (fun x => by rcases x with ⟨_, _ | _, _⟩ <;> rfl) fun x _ => ?_, rfl⟩
  · rcases x with ⟨_, _ | _, _⟩ <;> exact .inr rfl
  · rcases x with ⟨_, _ | _, _⟩ <;> rfl

/-- Detaching from a call task: with distinct ids, the task under that id is that call, which
goes on as it was, or is cleared away. -/
theorem gateFrame_detach (t : Nat) : GateFrame w (w.detach t) := by
  refine ⟨taskFrame_detach w t, ?_, ?_, fun hids => ?_, fun o e => ?_, ?_⟩
  all_goals unfold detach
  · split
    · split <;> rfl
    · rfl
  · split
    · split <;> rfl
    · rfl
  · split
    · next c s hfind =>
      split
      · exact List.filter_sublist.filterMap _
      · refine callsUnderWay_updateTask t _ fun x hx hxid => .inr ?_
        rw [hids.eq_of_task? hfind hx hxid]
        rfl
    · exact .refl _
  · split
    · next c s hfind =>
      split
      · exact (aside_removeTask t).held o e (Option.some_ne_none o).symm
      · exact held_updateTask (f := fun x => { x with body := .call { c with join := none, awaited := false } })
          (fun _ => rfl) (fun x hx => by rw [hfind] at hx; cases hx; rfl) o e
    · exact id
  · split
    · split <;> rfl
    · rfl

theorem gateFrame_pollCalling (k : Waker) (target : Listed) (t deadline : Nat)
    (timer : Option Nat) : GateFrame w (w.pollCalling k target t deadline timer).2.2 := by
  unfold pollCalling
  split
  · exact gateFrame_defer w k
  · split
    · next hfind =>
      have h₁ : GateFrame w (w.removeTask t) :=
        ⟨.of_taskIds (Nat.le_refl _) fun hids => taskFrame_removeTask t fun x hx hxid => by
          rw [hids.eq_of_task? hfind hx hxid]; rfl, rfl, rfl, fun _ => List.filter_sublist.filterMap _,
          fun o e => (aside_removeTask t).held o e (Option.some_ne_none o).symm, rfl⟩
      exact (h₁.trans (gateFrame_dropTimer? _ timer)).trans (gateFrame_spend _)
    · dsimp only
      have h₁ := gateFrame_awaitCall w t k
      rcases hd : (w.awaitCall t k).pollDelay k deadline timer with ⟨_ | _, timer', w₂⟩
      all_goals have h₂ := GateFrame.of_pollDelay _ hd
      · exact h₁.trans h₂
      · exact (h₁.trans h₂).trans ((gateFrame_detach _ t).trans (gateFrame_dropTimer? _ timer'))

theorem gateFrame_startExecute (o : Owner) (e : Execute) : GateFrame w (w.startExecute o e).1 :=
  .of_eq rfl rfl rfl rfl rfl

theorem gateFrame_finish (o : Owner) (e : Execute) : GateFrame w (w.finish o e).1 := by
  unfold finish
  dsimp only
  split
  · exact .of_eq rfl rfl rfl rfl rfl
  · refine GateFrame.trans ?_ (gateFrame_notify _ _)
    exact .of_eq rfl rfl rfl rfl rfl

end Children

/-! ## The gate operations -/

/-- Nobody holds a free gate. -/
theorem Gated.free (h : Gated l w) (hb : (w.gate p).busy = false) :
    w.handedTo p + l.count p = 0 := by
  by_contra hne
  have hbusy := h.busy p (Nat.pos_of_ne_zero hne)
  rw [hb] at hbusy
  cases hbusy

theorem tryAcquire_eq (w : World) (p : String) :
    w.tryAcquire p =
      if (w.gate p).busy then (false, w) else (true, w.setGate { w.gate p with busy := true }) :=
  rfl

/-- **Taking a free gate** makes its taker its one holder. -/
theorem gated_acquire (h : Gated l w) (hb : (w.gate p).busy = false) :
    Gated (p :: l) (w.setGate { w.gate p with busy := true }) := by
  have h0 := h.free hb
  refine h.setGate (plugin_gate w p) (h.queued p) ?_ (fun _ => rfl) fun q hq => ?_
  · rw [List.count_cons_self]
    omega
  · exact List.count_cons_of_ne (Ne.symm hq)

theorem grows_setGate (w : World) (g : Gate) : Grows w (w.setGate g) := .of_eq rfl (Nat.le_refl _) rfl

theorem grows_tryAcquire (w : World) (p : String) : Grows w (w.tryAcquire p).2 := by
  rw [tryAcquire_eq]
  split
  · exact .refl w
  · exact grows_setGate w _

/-- **A waiter that stops waiting** gives up the gate it was handed to whoever takes it up: with
distinct ids, only the one waiter leaves. -/
theorem gated_settleWaiter (h : Gated l w) {x : Nat} {r : Waiter} (hr : w.waiter? x = some r) :
    Gated (if r.assigned then r.plugin :: l else l) (w.settleWaiter x) := by
  have hmem : r ∈ w.waiters := List.mem_of_find?_eq_some hr
  have hid : r.id = x := by simpa using List.find?_some hr
  have hsub : (w.settleWaiter x).waiters.Sublist w.waiters := List.filter_sublist
  have hhand : ∀ q, w.handedTo q = (w.settleWaiter x).handedTo q +
      if (r.plugin == q && r.assigned) then 1 else 0 := fun q => by
    rw [handedTo, countP_filter_id_ne (·.id) h.nodup hmem, hid]
    rfl
  have hcount : ∀ q, (w.settleWaiter x).handedTo q +
      (if r.assigned then r.plugin :: l else l).count q = w.handedTo q + l.count q := by
    intro q
    rw [hhand q]
    by_cases ha : r.assigned = true
    · by_cases hq : r.plugin = q
      · subst hq
        simp [ha, List.count_cons_self]
        omega
      · simp [ha, hq, List.count_cons_of_ne hq]
    · simp [ha]
  refine ⟨(hsub.map _).nodup h.nodup, fun r' hr' => h.issued r' (hsub.subset hr'),
    fun q y hy => (h.queued q y hy).grow (.of_sublist hsub (Nat.le_refl _) rfl), fun q => ?_,
    fun q hq => ?_⟩
  · rw [hcount]
    exact h.one q
  · rw [hcount] at hq
    exact h.busy q hq

theorem grows_settleWaiter (w : World) (x : Nat) : Grows w (w.settleWaiter x) :=
  .of_sublist List.filter_sublist (Nat.le_refl _) rfl

/-- A released gate's oldest waiter was of its plugin, so handing it the gate hands a gate of
that plugin only, and at most once. -/
theorem handedTo_assign_le (h : Gated l w) {x : Nat} (hx : w.Tied p x) (q : String) :
    (w.waiters.map fun r => if r.id == x then { r with assigned := true } else r).countP
        (fun r => r.plugin == q && r.assigned) ≤ w.handedTo q + if q = p then 1 else 0 := by
  refine Nat.le_trans (countP_assign_le _ _ _) (Nat.add_le_add_left ?_ _)
  split
  · exact Nat.le_trans List.countP_le_length (length_filter_id_le_one h.nodup x)
  · next hq =>
    refine Nat.le_of_eq (List.countP_eq_zero.2 fun r hr => ?_)
    obtain ⟨hrw, hrx⟩ := List.mem_filter.1 hr
    have hpl := hx.2 r hrw (by simpa using hrx)
    simp [hpl, Ne.symm hq]

/-- Handing the gate to the waiters under one id keeps every waiter's id and plugin. -/
theorem grows_assign (w : World) (g : Gate) (x : Nat) :
    Grows w { w.setGate g with waiters := w.waiters.map fun (r : Waiter) =>
      if r.id == x then { r with assigned := true } else r } :=
  ⟨Nat.le_refl _, fun r' hr' => .inr (by
    obtain ⟨r, hr, rfl⟩ := List.mem_map.1 hr'
    by_cases hrx : r.id = x
    · exact ⟨r, hr, by simp [hrx], by simp [hrx]⟩
    · exact ⟨r, hr, by simp [hrx], by simp [hrx]⟩), fun _ _ h => h⟩

/-- **A holder that releases a gate** hands it to the oldest waiter, who then holds it, or frees
it when nobody waits. -/
theorem gated_release (h : Gated (p :: l) w) : Gated l (w.release p) := by
  have hone := h.one p
  rw [List.count_cons_self] at hone
  unfold release
  dsimp only
  split
  · next hq =>
    refine h.setGate (plugin_gate w p) (by simp [hq]) (by omega) (fun hpos => by omega)
      fun q hq' => (List.count_cons_of_ne (Ne.symm hq')).symm
  · next x rest hq =>
    have hx : w.Tied p x := h.queued p x (by rw [hq]; exact List.mem_cons_self)
    have hbusy : (w.gate p).busy = true := h.busy p (by rw [List.count_cons_self]; omega)
    let w₁ : World := { w.setGate { w.gate p with queue := rest } with
      waiters := w.waiters.map fun (r : Waiter) =>
        if r.id == x then { r with assigned := true } else r }
    have hids : w₁.waiters.map (·.id) = w.waiters.map (·.id) := by
      simp only [w₁, List.map_map]
      refine List.map_congr_left fun r _ => ?_
      by_cases hr : r.id = x <;> simp [hr]
    have hgrow : Grows w w₁ := grows_assign w _ x
    have hgate : ∀ q, w₁.gate q = if p = q then { w.gate p with queue := rest } else w.gate q :=
      fun q => by
        have hg := gate_setGate w { w.gate p with queue := rest } q
        rwa [show ({ w.gate p with queue := rest } : Gate).plugin = p from plugin_gate w p] at hg
    have hhand : ∀ q, w₁.handedTo q ≤ w.handedTo q + if q = p then 1 else 0 :=
      handedTo_assign_le h hx
    have h₁ : Gated l w₁ := by
      refine ⟨hids ▸ h.nodup, fun r hr => ?_, fun q y hy => ?_, fun q => ?_, fun q hq' => ?_⟩
      · have hr' : r.id ∈ w₁.waiters.map (·.id) := List.mem_map_of_mem hr
        rw [hids] at hr'
        obtain ⟨r₀, hr₀, hid⟩ := List.mem_map.1 hr'
        exact hid ▸ h.issued r₀ hr₀
      · rw [hgate] at hy
        split at hy
        · next he =>
          subst he
          exact (h.queued p y (by rw [hq]; exact List.mem_cons_of_mem _ hy)).grow hgrow
        · exact (h.queued q y hy).grow hgrow
      · have := hhand q
        have := h.one q
        by_cases hqp : q = p
        · subst hqp
          rw [if_pos rfl] at *
          rw [List.count_cons_self] at *
          omega
        · rw [if_neg hqp] at *
          rw [List.count_cons_of_ne (Ne.symm hqp)] at *
          omega
      · rw [hgate]
        by_cases hqp : p = q
        · subst hqp
          rw [if_pos rfl]
          exact hbusy
        · rw [if_neg hqp]
          have := hhand q
          rw [if_neg (Ne.symm hqp)] at this
          exact h.busy q (by rw [List.count_cons_of_ne hqp]; omega)
    split
    · have hf := gateFrame_wake w₁ ‹Waiter›.waker
      exact h₁.of_eq hf.gates hf.waiters hf.tasks.nextId
    · exact h₁

theorem grows_release (w : World) (p : String) : Grows w (w.release p) := by
  unfold release
  dsimp only
  split
  · exact grows_setGate w _
  · next x rest _ =>
    have hgrow := grows_assign w { w.gate p with queue := rest } x
    split
    · exact hgrow.trans (gateFrame_wake _ _).grows
    · exact hgrow

theorem grows_dropWaiter (w : World) (x : Nat) : Grows w (w.dropWaiter x) := by
  unfold dropWaiter
  split
  · exact .refl w
  · split
    · exact (grows_settleWaiter w x).trans (grows_release _ _)
    · exact (grows_settleWaiter w x).trans (grows_setGate _ _)

theorem grows_enqueueWaiter (w : World) (p : String) (k : Waker) :
    Grows w (w.enqueueWaiter p k).2 := by
  refine ⟨Nat.le_succ _, fun r' hr' => ?_, fun _ _ h => h⟩
  rcases List.mem_append.1 hr' with hr | hr
  · exact .inr ⟨r', hr, rfl, rfl⟩
  · rw [List.mem_singleton.1 hr]
    exact .inl (Nat.le_refl _)

/-! ## The calls under way across the gate operations -/

theorem callsUnderWay_updateState (w : World) (id : Nat) (s : TaskState) :
    (w.updateTask id fun t => { t with state := s }).callsUnderWay = w.callsUnderWay := by
  simp only [callsUnderWay, updateTask, List.filterMap_map]
  congr 1
  funext t
  by_cases hid : t.id = id <;> simp [hid]

theorem callsUnderWay_wake (w : World) (k : Waker) : (w.wake k).callsUnderWay = w.callsUnderWay := by
  have hschedule : ∀ (w : World) id, (w.schedule id).callsUnderWay = w.callsUnderWay := by
    intro w id
    unfold schedule
    split
    · split
      · rw [← callsUnderWay_updateState w id .queued]
        unfold enqueue
        split <;> rfl
      · exact callsUnderWay_updateState w id _
      · rfl
    · rfl
  have howner : ∀ (w : World) o, (w.wakeOwner o).callsUnderWay = w.callsUnderWay := by
    intro w o
    cases o with
    | main => rfl
    | task id => exact hschedule w id
  unfold wake
  split
  · exact howner w _
  · split
    · split
      · exact howner _ _
      · rfl
    · rfl

theorem callsUnderWay_release (w : World) (p : String) :
    (w.release p).callsUnderWay = w.callsUnderWay := by
  unfold release
  dsimp only
  split
  · rfl
  · split
    · exact callsUnderWay_wake _ _
    · rfl

theorem callsUnderWay_dropWaiter (w : World) (x : Nat) :
    (w.dropWaiter x).callsUnderWay = w.callsUnderWay := by
  unfold dropWaiter
  split
  · rfl
  · split
    · exact callsUnderWay_release _ _
    · rfl

/-! ## Queueing and leaving a gate -/

/-- **Queueing at a gate** adds a waiter under a fresh id, tied to its plugin, and no holder. -/
theorem gated_enqueueWaiter (h : Gated l w) (p : String) (k : Waker) :
    Gated l (w.enqueueWaiter p k).2 ∧ (w.enqueueWaiter p k).2.Tied p (w.enqueueWaiter p k).1 := by
  have hgrow := grows_enqueueWaiter w p k
  let r : Waiter := { id := w.nextId, plugin := p, waker := k }
  have hw : (w.enqueueWaiter p k).2.waiters = w.waiters ++ [r] := rfl
  have hx : (w.enqueueWaiter p k).1 = w.nextId := rfl
  have hfresh : w.nextId ∉ w.waiters.map (·.id) := fun hm => by
    obtain ⟨r', hr', hid⟩ := List.mem_map.1 hm
    exact Nat.lt_irrefl _ (hid ▸ h.issued r' hr')
  have hhand : ∀ q, (w.enqueueWaiter p k).2.handedTo q = w.handedTo q := fun q => by
    rw [handedTo, hw, List.countP_append]
    simp [r, handedTo]
  have hgate : ∀ q, (w.enqueueWaiter p k).2.gate q =
      if p = q then { w.gate p with queue := (w.gate p).queue ++ [w.nextId] } else w.gate q :=
    fun q => by
      have hg := gate_setGate w.fresh.2 { w.gate p with queue := (w.gate p).queue ++ [w.nextId] } q
      rwa [show ({ w.gate p with queue := (w.gate p).queue ++ [w.nextId] } : Gate).plugin = p
        from plugin_gate w p] at hg
  have htied : (w.enqueueWaiter p k).2.Tied p w.nextId := by
    refine ⟨Nat.lt_succ_self _, fun r' hr' hid => ?_⟩
    rw [hw] at hr'
    rcases List.mem_append.1 hr' with hr | hr
    · exact absurd (hid ▸ h.issued r' hr) (Nat.lt_irrefl _)
    · rw [List.mem_singleton.1 hr]
  refine ⟨⟨?_, fun r' hr' => ?_, fun q y hy => ?_, fun q => ?_, fun q hq => ?_⟩, hx ▸ htied⟩
  · rw [hw, List.map_append]
    exact List.nodup_append.2 ⟨h.nodup, List.nodup_singleton _, fun a ha b hb => by
      rw [List.mem_singleton.1 hb]
      exact fun he => hfresh (by rw [← show a = w.nextId from he]; exact ha)⟩
  · rw [hw] at hr'
    rcases List.mem_append.1 hr' with hr | hr
    · exact Nat.lt_succ_of_lt (h.issued r' hr)
    · rw [List.mem_singleton.1 hr]
      exact Nat.lt_succ_self _
  · rw [hgate] at hy
    split at hy
    · next he =>
      subst he
      rcases List.mem_append.1 hy with hy | hy
      · exact (h.queued p y hy).grow hgrow
      · rw [List.mem_singleton.1 hy]
        exact htied
    · exact (h.queued q y hy).grow hgrow
  · rw [hhand]
    exact h.one q
  · rw [hhand] at hq
    rw [hgate]
    split
    · next he =>
      subst he
      exact h.busy p hq
    · exact h.busy q hq

/-- **A waiter that gives up** leaves its gate's queue, or, when the gate was handed to it
already, releases it again. -/
theorem gated_dropWaiter (h : Gated l w) (x : Nat) : Gated l (w.dropWaiter x) := by
  unfold dropWaiter
  split
  · exact h
  · next r hr =>
    have h₁ := gated_settleWaiter h hr
    split
    · next ha =>
      rw [if_pos ha] at h₁
      exact gated_release h₁
    · next ha =>
      rw [if_neg ha] at h₁
      refine h₁.setGate (plugin_gate _ r.plugin) (fun y hy => h₁.queued r.plugin y
        (List.mem_of_mem_filter hy)) (h₁.one r.plugin) (h₁.busy r.plugin) fun _ _ => rfl

end World

end Launcher.Engine
