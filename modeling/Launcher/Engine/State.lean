import Launcher.Engine.Plugin
import Launcher.Ranking
import Launcher.History.Store
import Launcher.Generation
import Launcher.Update

/-!
# The engine's world

The engine runs on a single thread with a virtual clock that never moves on its own: when every
piece of work is blocked, the clock jumps to the next timer. The `World` holds everything that
such a run can observe:

* the clock, the timers (each with a deadline and the waker it fires), and the queues of
  spawned tasks: a local one for tasks woken during a run, a shared one for tasks woken from
  outside it;
* the *main* job — the request the caller is waiting for — and the spawned tasks (submitted
  queries and plugin calls);
* one *gate* per plugin, which lets one call in at a time: a released gate passes straight to
  the oldest waiter;
* listeners on generation cancellation;
* the registry, plugins, call logs, history, delivered list and the update outbox;
* the *budget* of the current poll: each operation that completes uses one unit of it, and one
  that finds it spent is pending, its waker put aside until the thread next parks or yields.
  Every poll of a task starts with a full budget; the caller's jobs share the budget of the
  caller's poll until one of them is pending.

A *waker* names what to resume: the main job or a task, optionally with the dispatch child whose
readiness changed. Dispatch children live in a *pool*: a woken child joins the pool's ready queue
once, and only then is its owner woken.
-/

namespace Launcher.Engine

open Json

/-- A job that can be resumed: the main job or a spawned task. -/
inductive Owner where
  | main
  | task (id : Nat)
  deriving DecidableEq, Inhabited

/-- What a wake-up resumes: an owner, and the dispatch child inside it whose readiness changed. -/
structure Waker where
  owner : Owner
  child : Option Nat := none
  deriving DecidableEq, Inhabited

/-- A timer: when it fires, and whom it wakes. Timers with the same deadline fire in the order
they were set (`id` grows with every registration). -/
structure Timer where
  id : Nat
  deadline : Nat
  waker : Waker
  deriving Inhabited

/-- A job queued at a plugin's gate; `assigned` once the gate has been handed to it. -/
structure Waiter where
  id : Nat
  plugin : String
  waker : Waker
  assigned : Bool := false
  deriving Inhabited

/-- One plugin's gate: whether a call holds it, and the waiters, oldest first. -/
structure Gate where
  plugin : String
  busy : Bool := false
  queue : List Nat := []
  deriving Inhabited

/-- A job waiting for a generation to be cancelled. -/
structure Listener where
  id : Nat
  generation : Nat
  waker : Waker
  deriving Inhabited

/-- The ready queue and live children of one dispatch. -/
structure Pool where
  owner : Owner
  live : List Nat
  ready : List Nat
  deriving Inhabited

/-- One target's progress within a dispatch: not started, waiting at the gate (with its deadline,
and its waiter, timer and cancellation listener once they are set), waiting for its call task
(with the task, the deadline and its timer once set), or finished. -/
inductive Child where
  | fresh (target : Listed)
  | waiting (target : Listed) (deadline : Nat) (waiter timer listener : Option Nat)
  | calling (target : Listed) (task deadline : Nat) (timer : Option Nat)
  | finished
  deriving Inhabited

/-- What one target contributed: its results, and a warning when it contributed nothing. -/
structure Arrival where
  batch : Batch
  warning : Option PluginWarning := none
  deriving Inhabited

/-- One query generation being dispatched and collected. -/
structure Execute where
  generation : Nat
  raw : String
  started : Bool := false
  query : Query := { rawText := raw }
  snapshot : Snapshot := {}
  children : List Child := []
  arrived : List Arrival := []
  deriving Inhabited

/-- Where a plugin call task stands. -/
inductive CallPhase where
  | fresh
  | sleeping (deadline : Nat)
  | done (answer : Answer)
  deriving Inhabited

/-- A spawned plugin call, made for the query of a generation and under that generation's
cancellation. `join` is the waker left by the dispatch child that last looked for its end;
`awaited` says whether the child still waits for it at all. -/
structure Call where
  plugin : String
  query : Query
  generation : Nat
  phase : CallPhase := .fresh
  join : Option Waker := none
  awaited : Bool := true
  deriving Inhabited

/-- What a spawned task runs. -/
inductive TaskBody where
  | search (e : Execute)
  | call (c : Call)
  deriving Inhabited

/-- Scheduling state of a task. `running again` records a wake-up during its own run. -/
inductive TaskState where
  | idle
  | queued
  | running (again : Bool)
  | complete
  deriving DecidableEq, Inhabited

/-- A spawned task. -/
structure Task where
  id : Nat
  body : TaskBody
  state : TaskState
  deriving Inhabited

/-- Bringing one plugin up (start-up or reload): not started, waiting at its gate, holding the
gate with its step still to run, or done. -/
inductive BringUp where
  | fresh (id : String) (reload : Bool)
  | waiting (id : String) (reload : Bool) (waiter : Nat)
  | holding (id : String) (reload : Bool)
  | done (id : String) (result : Except Error PluginState)
  deriving Inhabited

/-- How far a selection got: not started, waiting at the plugin's gate, or holding it with the
plugin still to be told. -/
inductive SelectStage where
  | start
  | queued (waiter : Nat)
  | holding
  deriving Inhabited

/-- The request the caller waits for. A sleep fixes its deadline when first polled, and sets its
timer once it finds the deadline ahead. -/
inductive MainJob where
  | idle
  | run (raw : String) (e : Option Execute)
  | sleep (ms : Nat) (deadline timer : Option Nat)
  | select (generation : Nat) (plugin : String) (item : ResultItem) (stage : SelectStage)
  | startAll (ups : Option (List BringUp))
  | reload (id : String) (up : Option BringUp)
  deriving Inhabited

/-- A query's final list, as answered and sent. -/
structure QueryOutcome where
  generation : Nat
  query : Query
  entries : List ListEntry
  warnings : List PluginWarning
  deriving Inhabited

/-- How the main job ended. -/
inductive Finished where
  | outcome (o : Option QueryOutcome)
  | unit
  | state (s : PluginState)
  | states (l : List (String × PluginState))
  | failed (e : Error)
  deriving Inhabited

/-- The last list handed to the interface. -/
structure Delivered where
  generation : Nat
  query : Query
  full : List RankedResult
  deriving Inhabited

/-- The units of work one poll may do before it has to give way. -/
def pollBudget : Nat := 128

/-- Everything a run of the engine can observe. -/
structure World where
  now : Nat := 0
  nextId : Nat := 0
  timers : List Timer := []
  queue : List Nat := []
  inject : List Nat := []
  tick : Nat := 0
  inside : Bool := false
  tasks : List Task := []
  pools : List Pool := []
  main : MainJob := .idle
  mainWoken : Bool := false
  didWake : Bool := false
  unparked : Bool := false
  gates : List Gate := []
  waiters : List Waiter := []
  listeners : List Listener := []
  generations : Generations := {}
  registry : Registry := {}
  plugins : List (String × ScriptedPlugin) := []
  logs : List (String × CallLog) := []
  history : HistoryStore
  disk : Disk := Disk.fresh
  delivered : Option Delivered := none
  outbox : List EngineUpdate := []
  listening : Bool := true
  options : DispatchOptions := {}
  maxResults : Nat := 25
  budget : Nat := pollBudget
  deferred : List Waker := []
  deriving Inhabited

namespace World

/-- A fresh identifier. -/
def fresh (w : World) : Nat × World := (w.nextId, { w with nextId := w.nextId + 1 })

/-! ## Timers -/

/-- Set a timer. -/
def addTimer (w : World) (deadline : Nat) (k : Waker) : Nat × World :=
  let (id, w) := w.fresh
  (id, { w with timers := w.timers ++ [⟨id, deadline, k⟩] })

/-- The longest sleep, thirty years of 365 days in milliseconds: a sleep asked for longer (a
plugin's delay or the caller's wait) ends that far in the future instead. Time budgets are not
shortened this way. -/
def longestSleep : Nat := 86400 * 365 * 30 * 1000

/-- When a sleep of `ms` milliseconds that starts now ends. -/
def sleepEnd (w : World) (ms : Nat) : Nat := w.now + min ms longestSleep

/-- Remove a timer, if it has not fired. -/
def dropTimer (w : World) (id : Nat) : World := { w with timers := w.timers.filter (·.id != id) }

/-- The earliest deadline of any timer. -/
def nextDeadline (w : World) : Option Nat :=
  w.timers.foldl (fun acc t => match acc with
    | some d => some (min d t.deadline)
    | none => some t.deadline) none

/-! ## Plugins and logs -/

/-- The scripted plugin of an id. -/
def plugin (w : World) (id : String) : ScriptedPlugin := (w.plugins.lookup id).getD ScriptedPlugin.inert

/-- Change the call log of a plugin, if it keeps one. -/
def logCall (w : World) (id : String) (f : CallLog → CallLog) : World :=
  if (w.plugin id).logged then
    let log := (w.logs.lookup id).getD {}
    { w with logs := (id, f log) :: w.logs.filter (·.1 != id) }
  else w

/-- Send an update to the interface, unless it stopped listening. -/
def notify (w : World) (u : EngineUpdate) : World :=
  if w.listening then { w with outbox := w.outbox ++ [u] } else w

/-! ## Tasks and waking -/

/-- The task of an id. -/
def task? (w : World) (id : Nat) : Option Task := w.tasks.find? (·.id == id)

/-- Change the task of an id. -/
def updateTask (w : World) (id : Nat) (f : Task → Task) : World :=
  { w with tasks := w.tasks.map fun t => if t.id == id then f t else t }

/-- Remove a task. -/
def removeTask (w : World) (id : Nat) : World := { w with tasks := w.tasks.filter (·.id != id) }

/-- Tell the parked thread that something happened: the next park returns at once, and the next
timed park leaves the clock where it is. -/
def unpark (w : World) : World := { w with didWake := true, unparked := true }

/-- Queue a task: inside a run on the local queue; from outside on the shared queue, which also
unparks the thread. -/
def enqueue (w : World) (id : Nat) : World :=
  if w.inside then { w with queue := w.queue ++ [id] }
  else { w with inject := w.inject ++ [id] }.unpark

/-- Put a task on the run queue: an idle task is queued, a running one will run again, a queued
or complete one is left alone. -/
def schedule (w : World) (id : Nat) : World :=
  match w.task? id with
  | some t =>
    match t.state with
    | .idle => (w.updateTask id fun t => { t with state := .queued }).enqueue id
    | .running _ => w.updateTask id fun t => { t with state := .running true }
    | _ => w
  | none => w

/-- Resume an owner. -/
def wakeOwner (w : World) : Owner → World
  | .main => { w with mainWoken := true }.unpark
  | .task id => w.schedule id

/-- The pool of an owner. -/
def pool? (w : World) (o : Owner) : Option Pool := w.pools.find? (·.owner == o)

/-- Change the pool of an owner. -/
def updatePool (w : World) (o : Owner) (f : Pool → Pool) : World :=
  { w with pools := w.pools.map fun p => if p.owner == o then f p else p }

/-- Fire a waker: a dispatch child joins its pool's ready queue (once, and only while it is
live), and its owner is resumed. -/
def wake (w : World) (k : Waker) : World :=
  match k.child with
  | none => w.wakeOwner k.owner
  | some i =>
    match w.pool? k.owner with
    | some p =>
      if p.live.contains i && !p.ready.contains i then
        (w.updatePool k.owner fun p => { p with ready := p.ready ++ [i] }).wakeOwner k.owner
      else w
    | none => w

/-! ## The budget of a poll -/

/-- Put a waker aside until the thread next parks or yields; the same waker twice in a row is
kept once. -/
def defer (w : World) (k : Waker) : World :=
  if w.deferred.getLast? == some k then w else { w with deferred := w.deferred ++ [k] }

/-- Use one unit of the current poll's budget. -/
def spend (w : World) : World := { w with budget := w.budget - 1 }

/-- Whether the current poll has spent its budget. -/
def exhausted (w : World) : Bool := w.budget == 0

/-- Fire the wakers put aside, the last one put aside first: they are kept on a stack. -/
def wakeDeferred (w : World) : World :=
  w.deferred.reverse.foldl (fun w k => w.wake k) { w with deferred := [] }

/-- Poll a wait for the deadline `d`, woken through `k`, whose timer is `timer` once set.
Answers whether the deadline has come, which uses a unit of budget; while it is ahead the timer
is set once. With the budget spent the wait is pending and its waker put aside. -/
def pollDelay (w : World) (k : Waker) (d : Nat) (timer : Option Nat) :
    Bool × Option Nat × World :=
  if w.exhausted then (false, timer, w.defer k)
  else if d ≤ w.now then (true, timer, w.spend)
  else match timer with
    | some t => (false, some t, w)
    | none => let (t, w) := w.addTimer d k; (false, some t, w)

/-- Spawn a task and queue it. -/
def spawn (w : World) (body : TaskBody) : Nat × World :=
  let (id, w) := w.fresh
  (id, { w with tasks := w.tasks ++ [({ id := id, body := body, state := .queued } : Task)] }.enqueue id)

/-! ## Gates -/

/-- The gate of a plugin. -/
def gate (w : World) (plugin : String) : Gate := (w.gates.find? (·.plugin == plugin)).getD ⟨plugin, false, []⟩

/-- Replace the gate of a plugin. -/
def setGate (w : World) (g : Gate) : World :=
  { w with gates := g :: w.gates.filter (·.plugin != g.plugin) }

/-- Take a plugin's gate if nobody holds it. -/
def tryAcquire (w : World) (plugin : String) : Bool × World :=
  let g := w.gate plugin
  if g.busy then (false, w) else (true, w.setGate { g with busy := true })

/-- Queue at a plugin's gate. -/
def enqueueWaiter (w : World) (plugin : String) (k : Waker) : Nat × World :=
  let (id, w) := w.fresh
  let g := w.gate plugin
  (id, { (w.setGate { g with queue := g.queue ++ [id] }) with
          waiters := w.waiters ++ [{ id := id, plugin := plugin, waker := k }] })

/-- The waiter of an id. -/
def waiter? (w : World) (id : Nat) : Option Waiter := w.waiters.find? (·.id == id)

/-- Whether the gate was handed to a waiter. -/
def isAssigned (w : World) (id : Nat) : Bool := ((w.waiter? id).map (·.assigned)).getD false

/-- Release a plugin's gate: the oldest waiter gets it and is woken; with no waiter it is free. -/
def release (w : World) (plugin : String) : World :=
  let g := w.gate plugin
  match g.queue with
  | [] => w.setGate { g with busy := false }
  | next :: rest =>
    let w := (w.setGate { g with queue := rest })
    let w := { w with waiters := w.waiters.map fun (x : Waiter) =>
      if x.id == next then { x with assigned := true } else x }
    match w.waiter? next with
    | some x => w.wake x.waker
    | none => w

/-- A waiter that got the gate stops waiting; the gate stays held. -/
def settleWaiter (w : World) (id : Nat) : World := { w with waiters := w.waiters.filter (·.id != id) }

/-- A waiter gives up: it leaves the queue, and a gate already handed to it is released again. -/
def dropWaiter (w : World) (id : Nat) : World :=
  match w.waiter? id with
  | none => w
  | some x =>
    let w := { w with waiters := w.waiters.filter (·.id != id) }
    if x.assigned then w.release x.plugin
    else
      let g := w.gate x.plugin
      w.setGate { g with queue := g.queue.filter (· != id) }

/-! ## Cancellation -/

/-- Listen for the cancellation of a generation. -/
def addListener (w : World) (generation : Nat) (k : Waker) : Nat × World :=
  let (id, w) := w.fresh
  (id, { w with listeners := w.listeners ++ [⟨id, generation, k⟩] })

/-- Stop listening. -/
def dropListener (w : World) (id : Nat) : World :=
  { w with listeners := w.listeners.filter (·.id != id) }

/-- Issue the next generation, cancelling the one before it: its listeners are woken, oldest
first. -/
def beginQuery (w : World) : Nat × World :=
  let (g, gens) := w.generations.next
  let w := { w with generations := gens }
  let (hit, rest) := w.listeners.partition (·.generation + 1 == g)
  let w := { w with listeners := rest }
  (g, hit.foldl (fun w l => w.wake l.waker) w)

end World

end Launcher.Engine
