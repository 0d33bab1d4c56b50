import Launcher.Engine.Dispatch
import Launcher.Engine.Lifecycle

/-!
# Running the caller's job to completion

The caller hands the engine one job at a time (`MainJob`) and waits for it. Meanwhile the
spawned tasks run as well, on one thread, in this order:

* the job is polled whenever it was woken;
* then up to 61 queued tasks run, each queue oldest first: the local queue before the shared
  one, except on every 31st turn, when the shared queue goes first;
* when both queues run dry the thread *parks*: if nothing woke it in the meantime the clock
  jumps to the earliest timer; after 61 tasks it only *yields*, and the clock stays;
* either way every timer whose deadline has come fires, earliest first, waking its owner.

Starting every unloaded plugin is one job of the caller: up to 30 bring-ups are polled in turn
whenever the job is woken, more wait in a pool and are polled in the order they were woken.

`blockOn` repeats this until the job is done, for at most `fuel` rounds.
-/

namespace Launcher.Engine

open Json

namespace World

/-- After a task's poll: a task woken during its own poll is queued again, others wait. -/
def afterPoll (w : World) (id : Nat) : World :=
  match w.task? id with
  | some ⟨_, _, .running true⟩ => (w.updateTask id fun t => { t with state := .queued }).enqueue id
  | some ⟨_, _, .running false⟩ => w.updateTask id fun t => { t with state := .idle }
  | _ => w

/-- Run one queued task, with a full budget. -/
def runTask (w : World) (id : Nat) : World :=
  match w.task? id with
  | none => w
  | some t =>
    let w := { w with budget := pollBudget }
    let w := w.updateTask id fun t => { t with state := .running false }
    match t.body with
    | .search e =>
      match w.pollExecute (.task id) e with
      | (w, _, some _) => w.removeTask id
      | (w, e, none) => (w.updateTask id fun t => { t with body := .search e }).afterPoll id
    | .call c =>
      match w.pollCall id c with
      | (w, c, true) =>
        if !c.awaited then w.removeTask id
        else w.updateTask id fun t => { t with body := .call c, state := .complete }
      | (w, c, false) => (w.updateTask id fun t => { t with body := .call c }).afterPoll id

/-- One turn of the run loop: the turn counter moves on, and the next task is taken from the
local queue, unless it is empty or this is every 31st turn, when the shared queue comes first.
A turn that finds no task still counts. -/
def nextTask (w : World) : Option Nat × World :=
  let w := { w with tick := w.tick + 1 }
  let fromLocal := match w.queue with
    | id :: rest => some (id, { w with queue := rest })
    | [] => none
  let fromShared := match w.inject with
    | id :: rest => some (id, { w with inject := rest })
    | [] => none
  match if w.tick % 31 == 0 then fromShared.or fromLocal else fromLocal.or fromShared with
  | some (id, w) => (some id, w)
  | none => (none, w)

/-- Run up to `n` queued tasks; answers whether the queues ran dry. -/
def runTasks (w : World) : Nat → World × Bool
  | 0 => (w, false)
  | n + 1 =>
    match w.nextTask with
    | (none, w) => (w, true)
    | (some id, w) => (w.runTask id).runTasks n

/-- Fire every timer whose deadline has come, earliest first; timers due at the same moment
fire in the order they were set. -/
def fireTimers (w : World) : World :=
  let (due, rest) := w.timers.partition (·.deadline ≤ w.now)
  let due := due.mergeSort fun a b => a.deadline ≤ b.deadline
  due.foldl (fun w t => w.wake t.waker) { w with timers := rest }

/-- Park the thread until the earliest timer. A pending unpark is used up. With a timer still
ahead, the clock jumps to it unless the thread was unparked since the last such jump, which
only clears that mark; without any timer the thread wakes only from a pending unpark. Then
every due timer fires, and the wakers put aside are woken. -/
def park (w : World) : World :=
  let w := match w.nextDeadline with
    | some d =>
      if d ≤ w.now then w
      else if w.didWake then { w with didWake := false }
      else { w with now := d }
    | none => w
  { w with unparked := false }.fireTimers.wakeDeferred

/-- Yield the thread: the clock stays, a pending unpark is used up, and unless a timer is already
due the unpark mark is cleared as well. Then every due timer fires, and the wakers put aside are
woken. -/
def parkYield (w : World) : World :=
  let w := match w.nextDeadline with
    | some d => if d ≤ w.now then w else { w with didWake := false }
    | none => { w with didWake := false }
  { w with unparked := false }.fireTimers.wakeDeferred

/-- Poll the caller's dispatch. -/
def pollRun (w : World) (raw : String) (e : Option Execute) : World × Option Finished :=
  let (w, e) := match e with
    | some e => (w, e)
    | none =>
      let (g, w) := w.beginQuery
      (w, { generation := g, raw := raw })
  match w.pollExecute .main e with
  | (w, _, some o) => ({ w with main := .idle }, some (.outcome o))
  | (w, e, none) => ({ w with main := .run raw (some e) }, none)

/-- Poll the caller's sleep; its deadline is fixed by the first poll. -/
def pollSleep (w : World) (ms : Nat) (deadline timer : Option Nat) : World × Option Finished :=
  let d := deadline.getD (w.sleepEnd ms)
  match w.pollDelay ⟨.main, none⟩ d timer with
  | (true, timer, w) => ({ w.dropTimer? timer with main := .idle }, some .unit)
  | (false, timer, w) => ({ w with main := .sleep ms (some d) timer }, none)

/-- Poll the caller's selection. -/
def pollSelect (w : World) (generation : Nat) (plugin : String) (item : ResultItem) :
    SelectStage → World × Option Finished
  | .start =>
    if (w.registry.find? plugin).isNone then
      ({ w with main := .idle }, some (.failed (.unknownPlugin plugin)))
    else
      match w.rememberSelection generation plugin item with
      | (w, some e) => ({ w with main := .idle }, some (.failed e))
      | (w, none) =>
        let (free, w) := w.tryAcquire plugin
        if free then w.pollSelect generation plugin item .holding
        else
          let (waiter, w) := w.enqueueWaiter plugin ⟨.main, none⟩
          ({ w with main := .select generation plugin item (.queued waiter) }, none)
  | .queued waiter =>
    if w.isAssigned waiter then (w.settleWaiter waiter).pollSelect generation plugin item .holding
    else (w, none)
  | .holding =>
    match w.deliverSelection plugin item ⟨.main, none⟩ with
    | (true, w) => ({ w with main := .idle }, some .unit)
    | (false, w) => ({ w with main := .select generation plugin item .holding }, none)
termination_by s => match s with
  | .holding => 0
  | _ => 1
/-- Poll every unfinished bring-up, in order. -/
def pollBringUps (w : World) : List BringUp → World × List BringUp
  | [] => (w, [])
  | b :: bs =>
    let (w, b) := if b.isDone then (w, b) else w.pollBringUp ⟨.main, none⟩ b
    let (w, bs) := w.pollBringUps bs
    (w, b :: bs)

/-- The most start-ups that are awaited together by polling each unfinished one, in order, at
every wake-up of the caller. More are kept in a pool of the caller, like the children of a
dispatch: only the ones woken are polled, in the order they were woken. -/
def startUpsPolledInTurn : Nat := 30

/-- Poll the ready bring-ups of the caller's pool until it is pending or exhausted; answers
whether it is exhausted. -/
def collectBringUps (w : World) : Nat → List BringUp → World × List BringUp × Bool
  | 0, ups => (w.wakeOwner .main, ups, false)
  | fuel + 1, ups =>
    let len := ((w.pool? .main).map (·.live.length)).getD 0
    let step := fun (w : World) (k : Waker) (b : BringUp) =>
      let (w, b) := w.pollBringUp k b
      (b, if b.isDone then some () else none, w)
    match w.pollPool step .main len (len + 1) 0 ups with
    | (w, ups, .item ()) => w.collectBringUps fuel ups
    | (w, ups, .pending) => (w, ups, false)
    | (w, ups, .exhausted) => (w, ups, true)

/-- Poll the start-up of every unloaded plugin. The first poll lists the plugins and, when there
are more than `startUpsPolledInTurn`, puts them all into a fresh pool, all ready. -/
def pollStartAll (w : World) (ups : Option (List BringUp)) : World × Option Finished :=
  let (w, ups) : World × List BringUp := match ups with
    | some ups => (w, ups)
    | none =>
      let ups := (w.registry.idsInState .unloaded).map (BringUp.fresh · false)
      let all := List.range ups.length
      if ups.length ≤ startUpsPolledInTurn then (w, ups)
      else
        ({ w with pools := w.pools.filter (fun (p : Pool) => p.owner != .main) ++
          [⟨.main, all, all⟩] }, ups)
  let (w, ups, done) : World × List BringUp × Bool :=
    if ups.length ≤ startUpsPolledInTurn then
      let (w, ups) := w.pollBringUps ups
      (w, ups, ups.all BringUp.isDone)
    else w.collectBringUps (ups.length + 1) ups
  if done then
    ({ w with main := .idle, pools := w.pools.filter (fun (p : Pool) => p.owner != .main) },
      some (.states (ups.map fun b => (b.id, b.state))))
  else ({ w with main := .startAll (some ups) }, none)

/-- Poll the reload of a plugin: reset, announced as unloaded, then brought up again. -/
def pollReload (w : World) (id : String) : Option BringUp → World × Option Finished
  | none =>
    match w.registry.reset id with
    | .error e => ({ w with main := .idle }, some (.failed e))
    | .ok r =>
      let w := { w with registry := r }.notify (.stateChanged id .unloaded)
      w.pollReload id (some (.fresh id true))
  | some b =>
    match w.pollBringUp ⟨.main, none⟩ b with
    | (w, .done _ (.ok s)) => ({ w with main := .idle }, some (.state s))
    | (w, .done _ (.error e)) => ({ w with main := .idle }, some (.failed e))
    | (w, b) => ({ w with main := .reload id (some b) }, none)
termination_by b => if b.isSome then 0 else 1

/-- Poll the caller's job. -/
def pollMain (w : World) : World × Option Finished :=
  match w.main with
  | .idle => (w, some .unit)
  | .run raw e => w.pollRun raw e
  | .sleep ms d t => w.pollSleep ms d t
  | .select g p item stage => w.pollSelect g p item stage
  | .startAll ups => w.pollStartAll ups
  | .reload id up => w.pollReload id up

/-- Whether the thread would sleep for ever: no timer, no pending unpark, and no waker put
aside. -/
def stuck (w : World) : Bool := w.timers.isEmpty && !w.unparked && w.deferred.isEmpty

/-- The rounds of the loop, for at most `fuel` rounds. The caller's job is polled on the budget
left by the caller's poll while that poll goes on (`first`), and on a full one once it gave way.
When the queues run dry the thread parks, or only yields if wakers were put aside. -/
def loop (w : World) (first : Bool) : Nat → World × Option Finished
  | 0 => ({ w with main := .idle }, none)
  | fuel + 1 =>
    let (w, r) :=
      if w.mainWoken then
        { w with mainWoken := false, budget := if first then w.budget else pollBudget }.pollMain
      else (w, none)
    match r with
    | some f => (w, some f)
    | none =>
      match w.runTasks 61 with
      | (w, true) =>
        if w.stuck then ({ w with main := .idle }, none)
        else if w.deferred.isEmpty then w.park.loop false fuel
        else w.parkYield.loop false fuel
      | (w, false) => w.parkYield.loop false fuel

/-- Run a job for the caller until it is done, within `fuel` rounds. The job goes on with the
budget the caller's poll has left. -/
def blockOn (w : World) (job : MainJob) (fuel : Nat) : World × Option Finished :=
  let (w, r) := { w with main := job, mainWoken := true, inside := true }.loop true fuel
  ({ w with inside := false }, r)

end World

end Launcher.Engine
