import Mathlib.Logic.Relation
import Launcher.Proofs.Engine.Session

/-!
# The engine, step by step

A command that waits for a job hands it to the caller's thread, which then runs in rounds: the
job is polled when it was woken, queued tasks run one at a time, and the thread parks or yields.
Every state the engine passes through on the way is one step (`World.Step`) from the one before:

* `EngineCommand.job?` — the job a command hands the thread, if it waits for one;
* `World.Step` — one step: a job handed, the job polled, the run queue moved on, a task run, the
  thread parked or yielded, the job dropped, the thread left, or a command answered at once;
* `World.Reachable` — the states a session passes through from its start;
* `World.reachable_loop`, `World.reachable_command`, `World.reachable_commands` — a round, a
  command and a whole session go step by step;
* `World.lists_announced_in_order` — every step keeps the order of lists, so over any run the
  lists put on the update channel carry increasing generations.
-/

namespace Launcher.Engine

/-- The job a command hands the caller's thread, when it waits for one. -/
def EngineCommand.job? : EngineCommand → Option MainJob
  | .run raw => some (.run raw none)
  | .sleep ms => some (.sleep ms none none)
  | .select g plugin item => some (.select g plugin item .start)
  | .initializeAll => some (.startAll none)
  | .reload id => some (.reload id none)
  | _ => none

namespace World

/-- A command that hands a job waits for it. -/
theorem command_of_job? {c : EngineCommand} {job : MainJob} (w : World) (hc : c.job? = some job) :
    w.command c = w.wait job := by
  cases c <;> cases hc <;> rfl

/-- **One step of the engine.** -/
inductive Step : World → World → Prop
  /-- the caller hands the job of a command that waits for one -/
  | hand (w : World) {c : EngineCommand} {job : MainJob} (hc : c.job? = some job) :
      Step w { w with main := job, mainWoken := true, inside := true }
  /-- the caller's job is polled, on the budget the round gives it -/
  | pollMain (w : World) (budget : Nat) :
      Step w { w with mainWoken := false, budget := budget }.pollMain.1
  | nextTask (w : World) : Step w w.nextTask.2
  | runTask (w : World) (id : Nat) : Step w (w.runTask id)
  | park (w : World) : Step w w.park
  | parkYield (w : World) : Step w w.parkYield
  /-- the caller stops waiting and drops its job -/
  | drop (w : World) : Step w { w with main := .idle }
  /-- the caller's thread leaves the engine -/
  | leave (w : World) : Step w { w with inside := false }
  /-- a command that waits for no job is answered at once -/
  | answer (w : World) {c : EngineCommand} (hc : c.job? = none) : Step w (w.command c).2

/-- The states a session passes through from `w₀`. -/
def Reachable (w₀ w : World) : Prop := Relation.ReflTransGen Step w₀ w

variable {w₀ w : World}

theorem Reachable.step {w' : World} (h : Reachable w₀ w) (hs : Step w w') : Reachable w₀ w' :=
  Relation.ReflTransGen.tail h hs

theorem Reachable.trans {w' : World} (h : Reachable w₀ w) (h' : Reachable w w') : Reachable w₀ w' :=
  Relation.ReflTransGen.trans h h'

/-- Running queued tasks goes step by step: each turn moves the run queue on, then runs a task. -/
theorem reachable_runTasks : ∀ (n : Nat) (w : World), Reachable w (w.runTasks n).1
  | 0, w => .refl
  | n + 1, w => by
    rw [runTasks]
    have h₁ : Reachable w w.nextTask.2 := Relation.ReflTransGen.single (.nextTask w)
    rcases hq : w.nextTask with ⟨_ | id, w₁⟩
    all_goals
      rw [hq] at h₁
      dsimp only
    · exact h₁
    · exact (h₁.step (.runTask w₁ id)).trans (reachable_runTasks n _)

/-- The start of a round: the caller's job is polled if it was woken. -/
theorem reachable_roundPoll {first : Bool} {p : World × Option Finished}
    (hp : (if w.mainWoken then
        { w with mainWoken := false, budget := if first then w.budget else pollBudget }.pollMain
      else (w, none)) = p) : Reachable w p.1 := by
  subst hp
  split
  · exact Relation.ReflTransGen.single (.pollMain w _)
  · exact .refl

theorem reachable_of_runTasks {n : Nat} {w₂ : World} {dry : Bool}
    (hrun : w.runTasks n = (w₂, dry)) : Reachable w w₂ := by
  have h := reachable_runTasks n w
  rwa [hrun] at h

/-- **The rounds of the loop** go step by step. -/
theorem reachable_loop (w : World) (first : Bool) (fuel : Nat) :
    Reachable w (w.loop first fuel).1 := by
  fun_induction loop w first fuel with
  | case1 w first => exact Relation.ReflTransGen.single (.drop w)
  | case2 w first n w₁ f hpoll => exact reachable_roundPoll hpoll
  | case3 w first n w₁ w₂ hrun hstuck hpoll =>
    exact ((reachable_roundPoll hpoll).trans (reachable_of_runTasks hrun)).step (.drop w₂)
  | case4 w first n w₁ w₂ hrun hstuck hdef hpoll ih =>
    exact (((reachable_roundPoll hpoll).trans (reachable_of_runTasks hrun)).step (.park w₂)).trans ih
  | case5 w first n w₁ w₂ hrun hstuck hdef hpoll ih =>
    exact (((reachable_roundPoll hpoll).trans (reachable_of_runTasks hrun)).step
      (.parkYield w₂)).trans ih
  | case6 w first n w₁ w₂ hrun hpoll ih =>
    exact (((reachable_roundPoll hpoll).trans (reachable_of_runTasks hrun)).step
      (.parkYield w₂)).trans ih

/-- A job run for the caller: handed, run round after round, and left. -/
theorem reachable_blockOn {c : EngineCommand} {job : MainJob} (w : World) (hc : c.job? = some job)
    (fuel : Nat) : Reachable w (w.blockOn job fuel).1 := by
  have h : Reachable w _ := Relation.ReflTransGen.single (.hand w hc)
  exact (h.trans (reachable_loop _ true fuel)).step (.leave _)

/-- **A command goes step by step**: one that waits for a job runs it, any other is answered
at once. -/
theorem reachable_command (w : World) (c : EngineCommand) : Reachable w (w.command c).2 := by
  cases hc : c.job? with
  | none => exact Relation.ReflTransGen.single (.answer w hc)
  | some job =>
    rw [command_of_job? w hc]
    exact reachable_blockOn w hc roundLimit

/-- **A session goes step by step**, command after command. -/
theorem reachable_commands (w : World) (cs : List EngineCommand) : Reachable w (w.commands cs).2 := by
  rw [commands_snd]
  induction cs generalizing w with
  | nil => exact .refl
  | cons c cs ih => exact (reachable_command w c).trans (ih _)

/-! ## Lists in order, step by step -/

/-- A job a command hands over holds no dispatch yet. -/
theorem generation?_job {c : EngineCommand} {job : MainJob} (hc : c.job? = some job) :
    job.generation? = none := by
  cases c <;> cases hc <;> rfl

/-- **Every step keeps the order of lists** and moves the engine forward. -/
theorem keeps_step {w' : World} (h : Step w w') : Keeps w w' := by
  cases h with
  | hand hc => exact .of_calm ⟨.of_eq rfl rfl, rfl, rfl, rfl, rfl⟩ (.inr (generation?_job hc))
  | pollMain budget =>
    have h₁ : Keeps w { w with mainWoken := false, budget := budget } := .of_visible rfl (.of_eq rfl rfl)
    exact h₁.trans keeps_pollMain
  | nextTask => exact .of_visible (visible_nextTask w) (taskFrame_nextTask w)
  | runTask id => exact keeps_runTask id
  | park => exact .of_visible (visible_park w) (taskFrame_park w)
  | parkYield => exact .of_visible (visible_parkYield w) (taskFrame_parkYield w)
  | drop => exact keeps_setMain (.refl w) rfl
  | leave => exact .of_visible rfl (.of_eq rfl rfl)
  | answer hc => exact keeps_command _

theorem Reachable.keeps (h : Reachable w₀ w) : Keeps w₀ w := by
  induction h with
  | refl => exact .refl _
  | tail _ hs ih => exact ih.trans (keeps_step hs)

/-- **On the engine's own thread, the interface never receives an older list after a newer one.**
Over any run from a configured engine, every list on the update channel at some point is older
than each list a later step puts there. -/
theorem lists_announced_in_order (registry : Registry) (plugins : List (String × ScriptedPlugin))
    (c : Config) (history : HistoryStore) (disk : Disk) {w₁ w₂ w₂' : World}
    (r₁ : Reachable (configured registry plugins c history disk) w₁) (r₂ : Reachable w₁ w₂)
    (s₂ : Step w₂ w₂') {a b : Nat × Query × List ListEntry} (ha : a ∈ w₁.announced)
    (hb : b ∈ w₂'.announced) (hb' : b ∉ w₂.announced) : a.1 < b.1 := by
  have h₁ : Orderly w₁ := (r₁.keeps (orderly_configured registry plugins c history disk)).1
  obtain ⟨h₂, hf₁⟩ := r₂.keeps h₁
  have hf₂ := (keeps_step s₂ h₂).2
  have hnew : w₂.deliveredGeneration < b.1 := by
    rcases hf₂.announced b hb with hb'' | ⟨hlt, -⟩
    · exact absurd hb'' hb'
    · exact hlt
  calc a.1 ≤ w₁.deliveredGeneration := h₁.announced_le a ha
    _ ≤ w₂.deliveredGeneration := hf₁.delivered
    _ < b.1 := hnew

end World

end Launcher.Engine
