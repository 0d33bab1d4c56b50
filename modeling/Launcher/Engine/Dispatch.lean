import Launcher.Engine.State

/-!
# Dispatching one generation

A generation's query goes to every target of the registry snapshot at once. Each target is a
*child* of the dispatch, and runs through three phases:

* **gate** — wait for the plugin's gate (one call per plugin at a time) for at most the budget
  `B`, unless the generation is cancelled first; a cancelled child contributes nothing, a child
  that waited too long contributes a timeout warning;
* **call** — the call runs as a task of its own, given a second budget `B`: its results, its
  error, or a crash become the child's contribution; a call that overruns becomes a timeout
  warning and keeps running detached, holding the gate until it ends;
* **finished**.

The children sit in a pool that polls the ready ones in the order they became ready; each
arrival is kept only if its generation is still current. When the pool is exhausted the
generation is ranked, delivered and announced — unless a newer generation began meanwhile.
-/

namespace Launcher.Engine

open Json

/-- What one poll of a pool gives: the next finished child's contribution, nothing yet, or the
end. -/
inductive Next (α : Type) where
  | item (a : α)
  | pending
  | exhausted
  deriving Inhabited

namespace World

/-- The contribution of a target that ran out of budget. -/
def timedOut (w : World) (id : String) : Arrival :=
  { batch := ⟨id, []⟩, warning := some ⟨id, .timeout w.options.pluginTimeoutMs⟩ }

/-- The contribution of a target whose generation was cancelled. -/
def skipped (id : String) : Arrival := { batch := ⟨id, []⟩ }

/-- The contribution of a finished call. -/
def answered (id : String) : Answer → Arrival
  | .items rs => { batch := ⟨id, rs⟩ }
  | .fault m => { batch := ⟨id, []⟩, warning := some ⟨id, .fault m⟩ }
  | .crash => { batch := ⟨id, []⟩, warning := some ⟨id, .fault "plugin panicked"⟩ }

/-- The dispatch child stops waiting for a call task; a finished one is cleared away, a running
one goes on alone. -/
def detach (w : World) (t : Nat) : World :=
  match w.task? t with
  | some ⟨_, .call c, s⟩ =>
    if s == .complete then w.removeTask t
    else w.updateTask t fun x => { x with body := .call { c with join := none, awaited := false } }
  | _ => w

/-- Leave the waker of a dispatch child with the call task it waits for. -/
def awaitCall (w : World) (t : Nat) (k : Waker) : World :=
  w.updateTask t fun x => match x.body with
    | .call c => { x with body := .call { c with join := some k } }
    | b => { x with body := b }

/-- Drop a timer once set. -/
def dropTimer? (w : World) : Option Nat → World
  | some t => w.dropTimer t
  | none => w

/-- Poll a child waiting for its call task `t` until `deadline`: a finished call is read back
(a unit of budget); otherwise the child leaves its waker with the task and then looks at the
deadline, which ends the wait with a timeout warning and leaves the call running alone. With
the budget spent neither is looked at and the child is pending. -/
def pollCalling (w : World) (k : Waker) (target : Listed) (t deadline : Nat)
    (timer : Option Nat) : Child × Option Arrival × World :=
  let id := target.metadata.id
  if w.exhausted then (.calling target t deadline timer, none, w.defer k)
  else
    match w.task? t with
    | some ⟨_, .call ⟨_, _, _, .done a, _, _⟩, _⟩ =>
      (.finished, some (answered id a), ((w.removeTask t).dropTimer? timer).spend)
    | _ =>
      let w := w.awaitCall t k
      match w.pollDelay k deadline timer with
      | (true, timer, w) => (.finished, some (w.timedOut id), (w.detach t).dropTimer? timer)
      | (false, timer, w) => (.calling target t deadline timer, none, w)

/-- A target took its gate for generation `gen`: spawn its call, and wait for it with the second
budget. -/
def startCall (w : World) (k : Waker) (gen : Nat) (target : Listed) (q : Query) :
    Child × Option Arrival × World :=
  let (t, w) := w.spawn (.call { plugin := target.metadata.id, query := q, generation := gen })
  w.pollCalling k target t (w.now + w.options.pluginTimeoutMs) none

/-- Poll a child of generation `gen` at its gate, racing cancellation: with the budget spent it
is pending; a cancelled generation skips the target; a gate free or handed over is taken (a
unit of budget) and the call starts; otherwise the child queues at the gate, listens for
cancellation, and looks at its deadline, which ends the wait with a timeout warning. -/
def pollGate (w : World) (k : Waker) (gen : Nat) (q : Query) (target : Listed) (deadline : Nat)
    (waiter timer listener : Option Nat) : Child × Option Arrival × World :=
  let id := target.metadata.id
  let leave (w : World) : World :=
    let w := w.dropTimer? timer
    let w := match listener with
      | some l => w.dropListener l
      | none => w
    match waiter with
    | some x => w.dropWaiter x
    | none => w
  if w.exhausted then (.waiting target deadline waiter timer listener, none, w.defer k)
  else if w.generations.isCancelled gen then (.finished, some (skipped id), leave w)
  else
    let (taken, w) := match waiter with
      | some x => if w.isAssigned x then (true, w.settleWaiter x) else (false, w)
      | none => w.tryAcquire id
    if taken then
      let w := (w.dropTimer? timer).spend
      let w := match listener with
        | some l => w.dropListener l
        | none => w
      w.startCall k gen target q
    else
      let (waiter, w) := match waiter with
        | some x => (x, w)
        | none => w.enqueueWaiter id k
      let (listener, w) := match listener with
        | some l => (l, w)
        | none => w.addListener gen k
      match w.pollDelay k deadline timer with
      | (true, timer, w) =>
        (.finished, some (w.timedOut id), ((w.dropTimer? timer).dropListener listener).dropWaiter waiter)
      | (false, timer, w) => (.waiting target deadline (some waiter) timer (some listener), none, w)

/-- Poll one child of generation `gen`, woken through `k`. A fresh child fixes its deadline for
the gate now. -/
def pollChild (w : World) (k : Waker) (gen : Nat) (q : Query) : Child →
    Child × Option Arrival × World
  | .fresh target =>
    w.pollGate k gen q target (w.now + w.options.pluginTimeoutMs) none none none
  | .waiting target deadline waiter timer listener =>
    w.pollGate k gen q target deadline waiter timer listener
  | .calling target t deadline timer => w.pollCalling k target t deadline timer
  | .finished => (.finished, none, w)

/-- Take the oldest ready child of an owner's pool. -/
def dequeue (w : World) (o : Owner) : Option Nat × World :=
  match w.pool? o with
  | some ⟨_, _, i :: rest⟩ => (some i, w.updatePool o fun p => { p with ready := rest })
  | _ => (none, w)

/-- Whether an owner's pool has no live child left. -/
def poolEmpty (w : World) (o : Owner) : Bool :=
  match w.pool? o with
  | some p => p.live.isEmpty
  | none => true

/-- One poll of an owner's pool: poll ready children in turn, each advanced by `step` with the
waker that names it, until one finishes. After `len` children stayed pending (the number live
when the poll began) the pool yields, asking to be polled again. -/
def pollPool {α β : Type} (step : World → Waker → α → α × Option β × World) (w : World)
    (o : Owner) (len : Nat) : Nat → Nat → List α → World × List α × Next β
  | 0, _, cs => (w.wakeOwner o, cs, .pending)
  | fuel + 1, polled, cs =>
    match w.dequeue o with
    | (none, w) => (w, cs, if w.poolEmpty o then .exhausted else .pending)
    | (some i, w) =>
      match cs[i]? with
      | none => w.pollPool step o len fuel polled cs
      | some c =>
        let (c, out, w) := step w ⟨o, some i⟩ c
        let cs := cs.set i c
        match out with
        | some a =>
          (w.updatePool o fun p => { p with live := p.live.erase i, ready := p.ready.erase i },
            cs, .item a)
        | none =>
          if polled + 1 == len then (w.wakeOwner o, cs, .pending)
          else w.pollPool step o len fuel (polled + 1) cs

/-- Gather arrivals until the pool is pending or exhausted; an arrival whose generation is no
longer current is dropped. Answers whether the pool is exhausted. -/
def collect (w : World) (o : Owner) : Nat → Execute → World × Execute × Bool
  | 0, e => (w.wakeOwner o, e, false)
  | fuel + 1, e =>
    let len := ((w.pool? o).map (·.live.length)).getD 0
    let step := fun (w : World) (k : Waker) (c : Child) => w.pollChild k e.generation e.query c
    match w.pollPool step o len (len + 1) 0 e.children with
    | (w, cs, .item a) =>
      let kept := if w.generations.isCurrent e.generation then e.arrived ++ [a] else e.arrived
      w.collect o fuel { e with children := cs, arrived := kept }
    | (w, cs, .pending) => (w, { e with children := cs }, false)
    | (w, cs, .exhausted) => (w, { e with children := cs }, true)

/-- Begin a dispatch: take the snapshot, read the query against its keywords, and put every
target into a fresh pool, all ready. -/
def startExecute (w : World) (o : Owner) (e : Execute) : World × Execute :=
  let snap := w.registry.snapshot
  let q := snap.parse e.raw
  let targets := snap.targets q w.options
  let all := List.range targets.length
  ({ w with pools := w.pools.filter (·.owner != o) ++ [⟨o, all, all⟩] },
    { e with started := true, query := q, snapshot := snap, children := targets.map .fresh })

/-- Rank and deliver a collected generation, unless it was superseded. -/
def finish (w : World) (o : Owner) (e : Execute) : World × Option QueryOutcome :=
  let w := { w with pools := w.pools.filter (·.owner != o) }
  if !w.generations.isCurrent e.generation then (w, none)
  else
    let warnings := e.arrived.filterMap (·.warning)
    let ranking := merge (e.arrived.map (·.batch)) e.query e.snapshot
      (w.history.boost e.query.rawText) w.maxResults
    let w := { w with delivered := some ⟨e.generation, e.query, ranking.full⟩ }
    let w := w.notify (.results e.generation e.query ranking.entries warnings)
    (w, some ⟨e.generation, e.query, ranking.entries, warnings⟩)

/-- Poll a dispatch run by an owner: `some` with its outcome once it is over. -/
def pollExecute (w : World) (o : Owner) (e : Execute) :
    World × Execute × Option (Option QueryOutcome) :=
  let (w, e) := if e.started then (w, e) else w.startExecute o e
  let (w, e, done) := w.collect o (e.children.length + 1) e
  if done then
    let (w, r) := w.finish o e
    (w, e, some r)
  else (w, e, none)

/-- Poll a plugin call task `self`: the first poll records the search and, for a plugin that
takes time, sets its timer. When the call ends the gate is released before the awaiting child
is woken. Answers whether the call is over. -/
def pollCall (w : World) (self : Nat) (c : Call) : World × Call × Bool :=
  let p := w.plugin c.plugin
  let complete (w : World) : World × Call × Bool :=
    let w := w.release c.plugin
    let w := match c.join with
      | some k => w.wake k
      | none => w
    (w, { c with phase := .done (p.answer c.query) }, true)
  match c.phase with
  | .fresh =>
    let w := w.logCall c.plugin fun l => { l with searches := l.searches ++ [c.query.search] }
    if p.delayMs == 0 then complete w
    else
      let deadline := w.sleepEnd p.delayMs
      let (_, w) := w.addTimer deadline ⟨.task self, none⟩
      (w, { c with phase := .sleeping deadline }, false)
  | .sleeping deadline => if deadline ≤ w.now then complete w else (w, c, false)
  | .done _ => (w, c, true)

end World

end Launcher.Engine
