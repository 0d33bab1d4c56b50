import Launcher.Session.Engine

/-!
# The engine's bookkeeping leaves its visible state alone

What the caller of an engine can tell apart between commands is its *visible* state: the
generations issued, the list last delivered, the outbox of updates, the history, the caller's
own job, and how lists are delivered (their length, and whether anyone listens). Only a few operations write it: issuing a generation, the end of a dispatch,
announcing a plugin's state, remembering a selection, and the polls of the caller's job. The
timers, tasks, queues, gates, listeners and pools that everything else is built from leave it
alone, and so does every step of a dispatch before its end. That is proved here:

* `World.visible` — the visible state of an engine;
* `World.visible_collect` — gathering a dispatch's arrivals changes nothing visible, so only the
  end of a dispatch can deliver a list or announce it;
* `World.visible_pollCall`, `World.visible_park` — neither a plugin call nor the thread's
  parking does.

Each lemma is an equation `(f w).visible = w.visible`, tagged for `simp` and `grind`: an operation
built from these closes by either once its own branches are split.
-/

namespace Launcher.Engine

/-- What the caller can tell apart of an engine between commands. -/
structure Visible where
  generations : Generations
  delivered : Option Delivered
  outbox : List EngineUpdate
  history : HistoryStore
  main : MainJob
  maxResults : Nat
  listening : Bool

namespace World

/-- The visible state of an engine. -/
def visible (w : World) : Visible :=
  ⟨w.generations, w.delivered, w.outbox, w.history, w.main, w.maxResults, w.listening⟩

section Bookkeeping

variable (w : World)

/-! ## Timers, tasks, queues and pools -/

@[simp, grind =] theorem visible_fresh : w.fresh.2.visible = w.visible := rfl

@[simp, grind =] theorem visible_addTimer (d : Nat) (k : Waker) :
    (w.addTimer d k).2.visible = w.visible := rfl

@[simp, grind =] theorem visible_dropTimer (t : Nat) : (w.dropTimer t).visible = w.visible := rfl

@[simp, grind =] theorem visible_dropTimer? (t : Option Nat) :
    (w.dropTimer? t).visible = w.visible := by
  cases t <;> rfl

@[simp, grind =] theorem visible_logCall (id : String) (f : CallLog → CallLog) :
    (w.logCall id f).visible = w.visible := by
  unfold logCall
  split <;> rfl

@[simp, grind =] theorem visible_updateTask (id : Nat) (f : Task → Task) :
    (w.updateTask id f).visible = w.visible := rfl

@[simp, grind =] theorem visible_removeTask (id : Nat) : (w.removeTask id).visible = w.visible :=
  rfl

@[simp, grind =] theorem visible_enqueue (id : Nat) : (w.enqueue id).visible = w.visible := by
  unfold enqueue
  split <;> rfl

@[simp, grind =] theorem visible_schedule (id : Nat) : (w.schedule id).visible = w.visible := by
  unfold schedule
  split
  · split <;> simp
  · rfl

@[simp, grind =] theorem visible_wakeOwner (o : Owner) : (w.wakeOwner o).visible = w.visible := by
  cases o with
  | main => rfl
  | task id => exact visible_schedule w id

@[simp, grind =] theorem visible_updatePool (o : Owner) (f : Pool → Pool) :
    (w.updatePool o f).visible = w.visible := rfl

@[simp, grind =] theorem visible_wake (k : Waker) : (w.wake k).visible = w.visible := by
  unfold wake
  split
  · exact visible_wakeOwner w _
  · split
    · split <;> simp
    · rfl

/-- Waking a list of wakers one after another changes nothing visible. -/
theorem visible_foldl_wake {α : Type} (f : α → Waker) :
    ∀ (l : List α) (w : World), (l.foldl (fun w x => w.wake (f x)) w).visible = w.visible
  | [], _ => rfl
  | x :: l, w => (visible_foldl_wake f l _).trans (visible_wake w (f x))

@[simp, grind =] theorem visible_defer (k : Waker) : (w.defer k).visible = w.visible := by
  unfold defer
  split <;> rfl

@[simp, grind =] theorem visible_spend : w.spend.visible = w.visible := rfl

@[simp, grind =] theorem visible_wakeDeferred : w.wakeDeferred.visible = w.visible :=
  visible_foldl_wake id w.deferred.reverse { w with deferred := [] }

@[simp, grind =] theorem visible_pollDelay (k : Waker) (d : Nat) (timer : Option Nat) :
    (w.pollDelay k d timer).2.2.visible = w.visible := by
  unfold pollDelay
  split
  · simp
  · split
    · simp
    · split <;> simp

@[simp, grind =] theorem visible_spawn (body : TaskBody) : (w.spawn body).2.visible = w.visible :=
  visible_enqueue _ _

/-! ## Gates and listeners -/

@[simp, grind =] theorem visible_setGate (g : Gate) : (w.setGate g).visible = w.visible := rfl

@[simp, grind =] theorem visible_tryAcquire (plugin : String) :
    (w.tryAcquire plugin).2.visible = w.visible := by
  unfold tryAcquire
  dsimp only
  split <;> rfl

@[simp, grind =] theorem visible_enqueueWaiter (plugin : String) (k : Waker) :
    (w.enqueueWaiter plugin k).2.visible = w.visible := rfl

@[simp, grind =] theorem visible_release (plugin : String) :
    (w.release plugin).visible = w.visible := by
  unfold release
  dsimp only
  split
  · rfl
  · split
    · exact visible_wake _ _
    · rfl

@[simp, grind =] theorem visible_settleWaiter (id : Nat) :
    (w.settleWaiter id).visible = w.visible := rfl

@[simp, grind =] theorem visible_dropWaiter (id : Nat) : (w.dropWaiter id).visible = w.visible := by
  unfold dropWaiter
  split
  · rfl
  · split
    · exact visible_release _ _
    · rfl

@[simp, grind =] theorem visible_addListener (g : Nat) (k : Waker) :
    (w.addListener g k).2.visible = w.visible := rfl

@[simp, grind =] theorem visible_dropListener (id : Nat) :
    (w.dropListener id).visible = w.visible := rfl

/-! ## One dispatch, before its end -/

@[simp, grind =] theorem visible_detach (t : Nat) : (w.detach t).visible = w.visible := by
  unfold detach
  split
  · split <;> simp
  · rfl

@[simp, grind =] theorem visible_awaitCall (t : Nat) (k : Waker) :
    (w.awaitCall t k).visible = w.visible :=
  visible_updateTask _ _ _

@[simp, grind =] theorem visible_pollCalling (k : Waker) (target : Listed) (t deadline : Nat)
    (timer : Option Nat) : (w.pollCalling k target t deadline timer).2.2.visible = w.visible := by
  unfold pollCalling
  grind

@[simp, grind =] theorem visible_startCall (k : Waker) (gen : Nat) (target : Listed) (q : Query) :
    (w.startCall k gen target q).2.2.visible = w.visible := by
  unfold startCall
  grind

@[simp, grind =] theorem visible_pollGate (k : Waker) (gen : Nat) (q : Query) (target : Listed)
    (deadline : Nat) (waiter timer listener : Option Nat) :
    (w.pollGate k gen q target deadline waiter timer listener).2.2.visible = w.visible := by
  unfold pollGate
  grind [visible_pollDelay, visible_enqueueWaiter, visible_addListener, visible_tryAcquire]

@[simp, grind =] theorem visible_pollChild (k : Waker) (gen : Nat) (q : Query) (c : Child) :
    (w.pollChild k gen q c).2.2.visible = w.visible := by
  cases c <;> simp [pollChild]

@[simp, grind =] theorem visible_dequeue (o : Owner) : (w.dequeue o).2.visible = w.visible := by
  unfold dequeue
  split <;> rfl

/-- Any relation between engines that composes, holds across waking an owner, taking a ready
child off its pool and changing a pool, and holds across the poll of one child, holds across a
whole poll of the pool. -/
theorem rel_pollPool {α β : Type} {R : World → World → Prop}
    {step : World → Waker → α → α × Option β × World} {o : Owner} {len fuel polled : Nat}
    {cs : List α} {w : World} {r : World × List α × Next β}
    (h : w.pollPool step o len fuel polled cs = r) (htrans : ∀ {a b c}, R a b → R b c → R a c)
    (hwake : ∀ w, R w (w.wakeOwner o)) (hdequeue : ∀ w, R w (w.dequeue o).2)
    (hpool : ∀ w f, (∀ p, (f p).owner = p.owner) → R w (w.updatePool o f))
    (hstep : ∀ w k c, R w (step w k c).2.2) :
    R w r.1 := by
  subst h
  induction fuel generalizing polled cs w with
  | zero => exact hwake w
  | succ fuel ih =>
    have hd := hdequeue w
    rw [pollPool]
    rcases hq : w.dequeue o with ⟨_ | i, w₁⟩
    all_goals rw [hq] at hd
    · exact hd
    · dsimp only
      rcases hc : cs[i]? with _ | c
      all_goals dsimp only
      · exact htrans hd (@ih polled cs w₁)
      · have hs := hstep w₁ ⟨o, some i⟩ c
        rcases hr : step w₁ ⟨o, some i⟩ c with ⟨c', _ | a, w₂⟩
        all_goals rw [hr] at hs
        · dsimp only
          split
          · exact htrans (htrans hd hs) (hwake _)
          · exact htrans (htrans hd hs) (@ih _ _ w₂)
        · exact htrans (htrans hd hs) (hpool _ _ fun _ => rfl)

theorem visible_pollPool {α β : Type} {step : World → Waker → α → α × Option β × World}
    (hstep : ∀ w k c, (step w k c).2.2.visible = w.visible) (o : Owner) (len : Nat)
    (fuel polled : Nat) (cs : List α) (w : World) :
    (w.pollPool step o len fuel polled cs).1.visible = w.visible :=
  @rel_pollPool α β (fun a b => b.visible = a.visible) step o len fuel polled cs w _ rfl
    (fun h₁ h₂ => h₂.trans h₁) (visible_wakeOwner · o) (visible_dequeue · o)
    (fun w f _ => visible_updatePool w o f) hstep

/-- **Gathering arrivals is invisible**: however many children it polls, `collect` changes
neither the generations, the delivered list, the outbox, the history nor the caller's job. -/
theorem visible_collect (o : Owner) :
    ∀ (fuel : Nat) (e : Execute) (w : World), (w.collect o fuel e).1.visible = w.visible
  | 0, _, w => visible_wakeOwner w o
  | fuel + 1, e, w => by
    have hpool := visible_pollPool (fun w k c => visible_pollChild w k e.generation e.query c) o
    have ih := visible_collect o fuel
    rw [collect]
    grind

@[simp, grind =] theorem visible_startExecute (o : Owner) (e : Execute) :
    (w.startExecute o e).1.visible = w.visible := rfl

/-- Neither does a plugin call, at any of its polls. -/
@[simp, grind =] theorem visible_pollCall (self : Nat) (c : Call) :
    (w.pollCall self c).1.visible = w.visible := by
  unfold pollCall
  grind [visible_addTimer]

/-! ## The thread's own bookkeeping -/

@[simp, grind =] theorem visible_afterPoll (id : Nat) : (w.afterPoll id).visible = w.visible := by
  unfold afterPoll
  split <;> simp

@[simp, grind =] theorem visible_nextTask : w.nextTask.2.visible = w.visible := by
  unfold nextTask
  grind [visible]

@[simp, grind =] theorem visible_fireTimers : w.fireTimers.visible = w.visible := by
  unfold fireTimers
  exact visible_foldl_wake (fun t : Timer => t.waker) _ _

/-- Parking moves the clock and fires timers and put-aside wakers, all invisibly. -/
@[simp, grind =] theorem visible_park : w.park.visible = w.visible := by
  unfold park
  rw [visible_wakeDeferred, visible_fireTimers]
  split
  · split
    · rfl
    · split <;> rfl
  · rfl

@[simp, grind =] theorem visible_parkYield : w.parkYield.visible = w.visible := by
  unfold parkYield
  rw [visible_wakeDeferred, visible_fireTimers]
  split
  · split <;> rfl
  · rfl

@[simp, grind =] theorem visible_deliverSelection (plugin : String) (item : ResultItem)
    (k : Waker) : (w.deliverSelection plugin item k).2.visible = w.visible := by
  unfold deliverSelection
  split <;> simp

end Bookkeeping

end World

end Launcher.Engine
