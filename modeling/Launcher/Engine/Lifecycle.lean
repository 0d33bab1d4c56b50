import Launcher.Engine.State

/-!
# Bringing plugins up, and handing them selections

Both jobs run for the caller and wait at the plugin's gate like any query call:

* **bring-up** (start-up or reload) — the plugin enters `initializing` (announced), takes its
  gate, runs its start-up or reload step, releases the gate and ends `ready` or `failed`
  (announced); a crash fails it with `plugin panicked`;
* **selection** — a selection from the list last delivered is remembered for that list's query
  text; then the plugin, holding its gate, is told which result was picked. Its failure to
  handle the selection is not the caller's concern.
-/

namespace Launcher.Engine

open Json

/-- The plugin a bring-up is for. -/
def BringUp.id : BringUp → String
  | .fresh id _ | .waiting id _ _ | .holding id _ | .done id _ => id

/-- Whether a bring-up is over. -/
def BringUp.isDone : BringUp → Bool
  | .done _ _ => true
  | _ => false

/-- The end state of a bring-up begun at start-up; an error fails the plugin. -/
def BringUp.state : BringUp → PluginState
  | .done _ (.ok s) => s
  | .done _ (.error e) => .failed e.message
  | _ => .unloaded

namespace World

/-- Run a bring-up step once the gate is taken, then release the gate and record the end state.
Taking the gate uses a unit of the poll's budget; with none left the bring-up keeps the gate and
is pending, woken through `k`. -/
def runStep (w : World) (k : Waker) (id : String) (reload : Bool) : World × BringUp :=
  if w.exhausted then (w.defer k, .holding id reload)
  else
    let w := w.spend
    let p := w.plugin id
    let w := if reload then w.logCall id fun l => { l with reloads := l.reloads + 1 } else w
    let w := w.release id
    let (state, moved) := match if reload then p.reloadEnd else p.initEnd with
      | .ok => (PluginState.ready, w.registry.markReady id)
      | .fail m => (.failed m, w.registry.markFailed id m)
      | .crash => (.failed "plugin panicked", w.registry.markFailed id "plugin panicked")
    match moved with
    | .error e => (w, .done id (.error e))
    | .ok r => ({ w with registry := r }.notify (.stateChanged id state), .done id (.ok state))

/-- Poll a bring-up run by the caller; `k` is the waker it leaves at the gate. -/
def pollBringUp (w : World) (k : Waker) : BringUp → World × BringUp
  | .fresh id reload =>
    match w.registry.beginInitialize id with
    | .error e => (w, .done id (.error e))
    | .ok r =>
      let w := { w with registry := r }.notify (.stateChanged id .initializing)
      let (free, w) := w.tryAcquire id
      if free then w.runStep k id reload
      else
        let (waiter, w) := w.enqueueWaiter id k
        (w, .waiting id reload waiter)
  | .waiting id reload waiter =>
    if w.isAssigned waiter then (w.settleWaiter waiter).runStep k id reload
    else (w, .waiting id reload waiter)
  | .holding id reload => w.runStep k id reload
  | .done id result => (w, .done id result)

/-- Hand a selected result's context to a plugin once its gate is taken, then release the gate;
answers whether that happened. Taking the gate uses a unit of the poll's budget; with none left
the gate stays taken and the waker `k` is put aside. -/
def deliverSelection (w : World) (plugin : String) (item : ResultItem) (k : Waker) :
    Bool × World :=
  if w.exhausted then (false, w.defer k)
  else
    (true, (w.spend.logCall plugin fun l => { l with selections := l.selections ++ [item.contextData] }).release
      plugin)

/-- Remember a selection when it was made from the list last delivered; a history that cannot
be written is reported. -/
def rememberSelection (w : World) (generation : Nat) (plugin : String) (item : ResultItem) :
    World × Option Error :=
  match w.delivered with
  | some d =>
    if d.generation == generation then
      let o := w.history.record w.disk d.query.rawText plugin item.key 0
      let w := { w with history := o.store, disk := o.disk }
      match o.result with
      | .ok _ => (w, none)
      | .error e => (w, some e)
    else (w, none)
  | none => (w, none)

end World

end Launcher.Engine
