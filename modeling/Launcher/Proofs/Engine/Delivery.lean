import Launcher.Proofs.Engine.Tasks

/-!
# Stale lists are never delivered

A query's list reaches the caller only at the end of its dispatch (`finish`), which delivers
it only while its generation is current. Since issuing a generation is the one way the current
one moves, and it only moves forward, the delivered list can only be replaced by a newer one.

* `World.Advances` — how a step may move the current generation and the delivered list;
  `World.Background` and `World.Steady` add that the history (and the caller's job) stay;
* `World.pollExecute_of_stale` — a dispatch polled once its generation is no longer current
  ends without an outcome and changes nothing visible;
* `World.pollExecute_delivers` — a dispatch that ends with an outcome leaves its whole ranking
  as the delivered list, of which the outcome's entries are the cut.
-/

namespace Launcher

/-- The rows of a cut list start the full ranking, and are all of it unless the list ends in
the marker. -/
theorem rows_cutDown (full : List RankedResult) (n : Nat) :
    ((cutDown full n).filterMap ListEntry.result?).IsPrefix full ∧
      ((cutDown full n).getLast?.map ListEntry.isMarker = some true ∨
        (cutDown full n).filterMap ListEntry.result? = full) := by
  have hrows : ∀ l : List RankedResult, (l.map ListEntry.result).filterMap ListEntry.result? = l :=
    fun l => by simp [List.filterMap_map, Function.comp_def, ListEntry.result?]
  unfold cutDown
  by_cases hn : n = 0
  · subst hn
    simp [hrows]
  · have hn' : (n == 0) = false := by simpa using hn
    simp only [hn', Bool.false_eq_true, if_false]
    split
    · refine ⟨?_, .inl ?_⟩
      · simp only [List.filterMap_append, hrows, ListEntry.result?, List.filterMap_cons,
          List.filterMap_nil, List.append_nil]
        exact List.take_prefix n full
      · simp [ListEntry.isMarker]
    · rename_i hcut
      have hlen : full.length ≤ n := by simp at hcut; omega
      rw [hrows, List.take_of_length_le hlen]
      exact ⟨List.prefix_refl full, .inr rfl⟩

/-- Only a generation that was issued is current, and only the newest. -/
theorem Generations.eq_current_of_isCurrent {g : Generations} {n : Nat}
    (h : g.isCurrent n = true) : n = g.current := by
  simp [Generations.isCurrent] at h
  omega

namespace Engine

/-- Whether the caller's job is a selection not yet looked at. -/
def MainJob.isSelectStart : MainJob → Bool
  | .select _ _ _ .start => true
  | _ => false

namespace World

variable {w w' w'' : World}

/-! ## How the generations and the delivered list may move -/

/-- The current generation goes only forward, and a newly delivered list carries a generation no
older than the current one before the step, and issued by its end. -/
def Advances (w w' : World) : Prop :=
  w.generations.current ≤ w'.generations.current ∧
    (w'.delivered = w.delivered ∨
      ∃ d, w'.delivered = some d ∧ w.generations.current ≤ d.generation ∧
        d.generation ≤ w'.generations.current)

theorem Advances.refl (w : World) : Advances w w := ⟨Nat.le_refl _, .inl rfl⟩

theorem Advances.trans (h₁ : Advances w w') (h₂ : Advances w' w'') : Advances w w'' := by
  refine ⟨Nat.le_trans h₁.1 h₂.1, ?_⟩
  rcases h₂.2 with h₂d | ⟨d, hd, hlo, hhi⟩
  · rcases h₁.2 with h₁d | ⟨d, hd, hlo, hhi⟩
    · exact .inl (h₂d.trans h₁d)
    · exact .inr ⟨d, h₂d.trans hd, hlo, Nat.le_trans hhi h₂.1⟩
  · exact .inr ⟨d, hd, Nat.le_trans h₁.1 hlo, hhi⟩

theorem Advances.of_eq (hg : w'.generations = w.generations) (hd : w'.delivered = w.delivered) :
    Advances w w' :=
  ⟨hg ▸ Nat.le_refl _, .inl hd⟩

theorem Advances.of_visible (h : w'.visible = w.visible) : Advances w w' :=
  .of_eq (congrArg Visible.generations h) (congrArg Visible.delivered h)

/-- A step of the engine's own work: it advances, and leaves the history and the caller's job
alone. -/
structure Background (w w' : World) : Prop where
  advances : Advances w w'
  history : w'.history = w.history
  main : w'.main = w.main

theorem Background.refl (w : World) : Background w w := ⟨.refl w, rfl, rfl⟩

theorem Background.trans (h₁ : Background w w') (h₂ : Background w' w'') : Background w w'' :=
  ⟨h₁.advances.trans h₂.advances, h₂.history.trans h₁.history, h₂.main.trans h₁.main⟩

theorem Background.of_visible (h : w'.visible = w.visible) : Background w w' :=
  ⟨.of_visible h, congrArg Visible.history h, congrArg Visible.main h⟩

/-- A step of the caller's job that leaves the history alone: it advances, and may move the job
on. -/
structure Steady (w w' : World) : Prop where
  advances : Advances w w'
  history : w'.history = w.history

theorem Steady.refl (w : World) : Steady w w := ⟨.refl w, rfl⟩

theorem Steady.trans (h₁ : Steady w w') (h₂ : Steady w' w'') : Steady w w'' :=
  ⟨h₁.advances.trans h₂.advances, h₂.history.trans h₁.history⟩

theorem Background.steady (h : Background w w') : Steady w w' := ⟨h.advances, h.history⟩

/-! ## Issuing a generation and announcing -/

theorem visible_beginQuery (w : World) :
    w.beginQuery.2.visible = { w.visible with generations := w.generations.next.2 } :=
  visible_foldl_wake _ _ _

theorem background_beginQuery (w : World) : Background w w.beginQuery.2 := by
  have h := visible_beginQuery w
  have hg : w.beginQuery.2.generations = w.generations.next.2 := congrArg Visible.generations h
  refine ⟨⟨?_, .inl (congrArg Visible.delivered h)⟩, congrArg Visible.history h,
    congrArg Visible.main h⟩
  rw [hg]
  exact Nat.le_succ _

theorem visible_notify (w : World) (u : EngineUpdate) :
    (w.notify u).visible =
      { w.visible with outbox := if w.listening then w.outbox ++ [u] else w.outbox } := by
  unfold notify
  split <;> rfl

theorem background_notify (w : World) (u : EngineUpdate) : Background w (w.notify u) := by
  have h := visible_notify w u
  exact ⟨.of_eq (congrArg Visible.generations h) (congrArg Visible.delivered h),
    congrArg Visible.history h, congrArg Visible.main h⟩

/-! ## The end of a dispatch -/

/-- The ranking of a dispatch's arrivals, as its end computes it. -/
def ranking (w : World) (e : Execute) : Ranking :=
  merge (e.arrived.map (·.batch)) e.query e.snapshot (w.history.boost e.query.rawText) w.maxResults

/-- The end of a dispatch whose generation is no longer current delivers nothing and changes
nothing visible. -/
theorem finish_of_stale (w : World) (o : Owner) (e : Execute)
    (h : w.generations.isCurrent e.generation = false) :
    (w.finish o e).2 = none ∧ (w.finish o e).1.visible = w.visible := by
  simp [finish, h]
  rfl

/-- The end of a dispatch whose generation is current answers with the cut of its ranking ... -/
theorem finish_of_current (w : World) (o : Owner) (e : Execute)
    (h : w.generations.isCurrent e.generation = true) :
    (w.finish o e).2 =
      some ⟨e.generation, e.query, (w.ranking e).entries, e.arrived.filterMap (·.warning)⟩ := by
  simp [finish, h, ranking]

/-- ... keeps the whole ranking as the delivered list, and announces the cut. -/
theorem visible_finish_of_current (w : World) (o : Owner) (e : Execute)
    (h : w.generations.isCurrent e.generation = true) :
    (w.finish o e).1.visible =
      { w.visible with
        delivered := some ⟨e.generation, e.query, (w.ranking e).full⟩
        outbox := if w.listening then
            w.outbox ++ [.results e.generation e.query (w.ranking e).entries
              (e.arrived.filterMap (·.warning))]
          else w.outbox } := by
  simp only [finish, h, Bool.not_true, Bool.false_eq_true, if_false]
  exact visible_notify _ _

theorem background_finish (w : World) (o : Owner) (e : Execute) :
    Background w (w.finish o e).1 := by
  cases h : w.generations.isCurrent e.generation with
  | false => exact .of_visible (finish_of_stale w o e h).2
  | true =>
    have hv := visible_finish_of_current w o e h
    have hg : (w.finish o e).1.generations = w.generations := congrArg Visible.generations hv
    have hcur := Generations.eq_current_of_isCurrent h
    refine ⟨⟨hg ▸ Nat.le_refl _, .inr ⟨_, congrArg Visible.delivered hv, ?_, ?_⟩⟩,
      congrArg Visible.history hv, congrArg Visible.main hv⟩
    · exact Nat.le_of_eq hcur.symm
    · rw [hg]
      exact Nat.le_of_eq hcur

end World

end Engine

end Launcher

namespace Launcher.Engine.World

variable {w w' w'' : World}

theorem generation_collect (o : Owner) (fuel : Nat) (e : Execute) (w : World) :
    (w.collect o fuel e).2.1.generation = e.generation := by
  induction fuel generalizing e w with
  | zero => rfl
  | succ fuel ih =>
    rw [collect]
    split
    · exact ih _ _
    · rfl
    · rfl

/-- One poll of a dispatch: it starts if it has not, gathers what arrived without changing
anything visible, the dispatches among the tasks or its generation, and ends once its pool is
exhausted. -/
theorem pollExecute_cases (w : World) (o : Owner) (e : Execute) :
    ∃ (w₁ : World) (e₁ : Execute) (done : Bool), w₁.visible = w.visible ∧ TaskFrame w w₁ ∧
      e₁.generation = e.generation ∧ w.pollExecute o e =
        if done then ((w₁.finish o e₁).1, e₁, some (w₁.finish o e₁).2) else (w₁, e₁, none) := by
  obtain ⟨w₀, e₀, hw₀, ht₀, he₀, hs⟩ : ∃ (w₀ : World) (e₀ : Execute), w₀.visible = w.visible ∧
      TaskFrame w w₀ ∧ e₀.generation = e.generation ∧
      (if e.started then (w, e) else w.startExecute o e) = (w₀, e₀) := by
    split
    · exact ⟨w, e, rfl, .refl w, rfl, rfl⟩
    · exact ⟨(w.startExecute o e).1, (w.startExecute o e).2, visible_startExecute w o e,
        taskFrame_startExecute w o e, rfl, rfl⟩
  let c := w₀.collect o (e₀.children.length + 1) e₀
  refine ⟨c.1, c.2.1, c.2.2, (visible_collect o _ e₀ w₀).trans hw₀,
    ht₀.trans (taskFrame_collect o _ e₀ w₀), (generation_collect o _ e₀ w₀).trans he₀, ?_⟩
  unfold pollExecute
  rw [hs]

/-- **A superseded dispatch is never delivered.** A poll of a dispatch whose generation is no
longer current ends, if at all, without an outcome, and changes nothing visible: no list is
delivered and no update is sent. -/
theorem pollExecute_of_stale (w : World) (o : Owner) (e : Execute)
    (h : w.generations.isCurrent e.generation = false) :
    (w.pollExecute o e).1.visible = w.visible ∧ ∀ r, (w.pollExecute o e).2.2 = some r → r = none := by
  obtain ⟨w₁, e₁, done, hw, -, he, hpoll⟩ := pollExecute_cases w o e
  have hg : w₁.generations = w.generations := congrArg Visible.generations hw
  obtain ⟨hnone, hvis⟩ := finish_of_stale w₁ o e₁ (by rw [hg, he]; exact h)
  rw [hpoll]
  cases done with
  | false =>
    simp only [Bool.false_eq_true, if_false]
    exact ⟨hw, fun r hr => by simp at hr⟩
  | true =>
    simp only [if_true]
    exact ⟨hvis.trans hw, fun r hr => (Option.some.inj hr).symm.trans hnone⟩

theorem background_pollExecute (w : World) (o : Owner) (e : Execute) :
    Background w (w.pollExecute o e).1 := by
  obtain ⟨w₁, e₁, done, hw, -, -, hpoll⟩ := pollExecute_cases w o e
  rw [hpoll]
  cases done with
  | false => exact .of_visible hw
  | true => exact (Background.of_visible hw).trans (background_finish w₁ o e₁)

/-- **What a finished dispatch delivers.** A poll that ends a dispatch with an outcome does so
for the generation current at the poll; the delivered list is then that generation's whole
ranking, and the outcome's entries are its cut to the engine's length. -/
theorem pollExecute_delivers (w : World) (o : Owner) (e : Execute) {out : QueryOutcome}
    (h : (w.pollExecute o e).2.2 = some (some out)) :
    out.generation = e.generation ∧ w.generations.isCurrent e.generation = true ∧
      ∃ full, (w.pollExecute o e).1.delivered = some ⟨out.generation, out.query, full⟩ ∧
        out.entries = cutDown full w.maxResults := by
  obtain ⟨w₁, e₁, done, hw, -, he, hpoll⟩ := pollExecute_cases w o e
  have hg : w₁.generations = w.generations := congrArg Visible.generations hw
  have hm : w₁.maxResults = w.maxResults := congrArg Visible.maxResults hw
  rw [hpoll] at h ⊢
  cases done with
  | false => simp at h
  | true =>
    simp only [↓reduceIte, Option.some.injEq] at h ⊢
    cases hc : w₁.generations.isCurrent e₁.generation with
    | false => simp [(finish_of_stale w₁ o e₁ hc).1] at h
    | true =>
      rw [finish_of_current w₁ o e₁ hc, Option.some.injEq] at h
      subst h
      refine ⟨he, by rw [← hg, ← he]; exact hc, (w₁.ranking e₁).full,
        congrArg Visible.delivered (visible_finish_of_current w₁ o e₁ hc), ?_⟩
      rw [← hm]
      rfl

theorem background_runTask (w : World) (id : Nat) : Background w (w.runTask id) := by
  unfold runTask
  split
  · exact .refl w
  · dsimp only
    generalize hw₁ : ({ w with budget := pollBudget }.updateTask id
      fun t => { t with state := .running false }) = w₁
    have h₁ : Background w w₁ := hw₁ ▸ .of_visible rfl
    split
    next e _ =>
      have h₂ := background_pollExecute w₁ (.task id) e
      rcases hp : w₁.pollExecute (.task id) e with ⟨w₂, e₂, _ | r⟩
      all_goals rw [hp] at h₂
      · exact (h₁.trans h₂).trans (.of_visible (by simp))
      · exact (h₁.trans h₂).trans (.of_visible (visible_removeTask _ _))
    next c _ =>
      refine h₁.trans (.of_visible ?_)
      grind [visible_pollCall]

theorem background_runTasks (n : Nat) (w : World) : Background w (w.runTasks n).1 := by
  induction n generalizing w with
  | zero => exact .refl w
  | succ n ih =>
    have h₀ := visible_nextTask w
    rw [runTasks]
    rcases hq : w.nextTask with ⟨_ | id, w₁⟩
    all_goals rw [hq] at h₀
    · exact .of_visible h₀
    · exact ((Background.of_visible h₀).trans (background_runTask w₁ id)).trans (ih _)

/-- The registry is not visible. -/
@[simp] theorem visible_withRegistry (w : World) (r : Registry) :
    { w with registry := r }.visible = w.visible := rfl

theorem background_runStep (w : World) (k : Waker) (id : String) (reload : Bool) :
    Background w (w.runStep k id reload).1 := by
  unfold runStep
  split
  · exact .of_visible (visible_defer w k)
  · dsimp only
    split
    · apply Background.of_visible
      simp [apply_ite]
    · refine (Background.of_visible ?_).trans (background_notify _ _)
      simp [apply_ite]

theorem background_pollBringUp (w : World) (k : Waker) (b : BringUp) :
    Background w (w.pollBringUp k b).1 := by
  cases b with
  | fresh id reload =>
    rw [pollBringUp]
    split
    · exact .refl w
    · rename_i r _
      have h₁ : Background w ({ w with registry := r }.notify (.stateChanged id .initializing)) :=
        (Background.of_visible (visible_withRegistry w r)).trans (background_notify _ _)
      generalize { w with registry := r }.notify (.stateChanged id .initializing) = w₁ at h₁ ⊢
      have h₂ := visible_tryAcquire w₁ id
      dsimp only
      rcases hq : w₁.tryAcquire id with ⟨_ | _, w₂⟩
      all_goals rw [hq] at h₂
      · exact (h₁.trans (.of_visible h₂)).trans (.of_visible (visible_enqueueWaiter w₂ id k))
      · exact (h₁.trans (.of_visible h₂)).trans (background_runStep w₂ k id reload)
  | waiting id reload waiter =>
    rw [pollBringUp]
    split
    · exact (Background.of_visible (visible_settleWaiter w waiter)).trans
        (background_runStep _ k id reload)
    · exact .refl w
  | holding id reload => exact background_runStep w k id reload
  | done id result => exact .refl w

theorem background_pollBringUps (w : World) (bs : List BringUp) :
    Background w (w.pollBringUps bs).1 := by
  induction bs generalizing w with
  | nil => exact .refl w
  | cons b bs ih =>
    rw [pollBringUps]
    have h₁ : Background w (if b.isDone then (w, b) else w.pollBringUp ⟨.main, none⟩ b).1 := by
      split
      · exact .refl w
      · exact background_pollBringUp w _ b
    exact h₁.trans (ih _)

theorem background_collectBringUps (fuel : Nat) (ups : List BringUp) (w : World) :
    Background w (w.collectBringUps fuel ups).1 := by
  induction fuel generalizing ups w with
  | zero => exact .of_visible (visible_wakeOwner w .main)
  | succ fuel ih =>
    rw [collectBringUps]
    split
    all_goals
      rename_i heq
      have h₁ := @rel_pollPool BringUp Unit Background _ _ _ _ _ _ _ _ heq
        (fun h₁ h₂ => h₁.trans h₂) (fun w => .of_visible (visible_wakeOwner w .main))
        (fun w => .of_visible (visible_dequeue w .main))
        (fun w f _ => .of_visible (visible_updatePool w .main f))
        (fun w k b => background_pollBringUp w k b)
    · exact h₁.trans (ih _ _)
    · exact h₁
    · exact h₁

/-! ## The caller's job -/

/-- A poll of the caller's job that leaves the history alone, and after which the job is not a
selection still to be looked at. -/
structure Polled (w w' : World) : Prop extends Steady w w' where
  settled : w'.main.isSelectStart = false

theorem Steady.trans_polled (h₁ : Steady w w') (h₂ : Polled w' w'') : Polled w w'' :=
  ⟨h₁.trans h₂.toSteady, h₂.settled⟩

/-- A poll that ends in the work of the background, with the job set to one past the start of a
selection. -/
theorem Background.polled {w₁ : World} (h : Background w w₁)
    (hg : w'.generations = w₁.generations) (hd : w'.delivered = w₁.delivered)
    (hh : w'.history = w₁.history) (hm : w'.main.isSelectStart = false) : Polled w w' :=
  ⟨⟨h.advances.trans (.of_eq hg hd), hh.trans h.history⟩, hm⟩

theorem polled_pollRun (w : World) (raw : String) (e : Option Execute) :
    Polled w (w.pollRun raw e).1 := by
  obtain ⟨w₁, e₁, h₁, hrun⟩ : ∃ (w₁ : World) (e₁ : Execute), Background w w₁ ∧
      w.pollRun raw e = w₁.pollRun raw (some e₁) := by
    cases e with
    | some e => exact ⟨w, e, .refl w, rfl⟩
    | none => exact ⟨_, _, background_beginQuery w, rfl⟩
  rw [hrun, pollRun]
  have h₂ := background_pollExecute w₁ .main e₁
  rcases hp : w₁.pollExecute .main e₁ with ⟨w₂, e₂, _ | o⟩
  all_goals rw [hp] at h₂
  · exact (h₁.trans h₂).polled rfl rfl rfl rfl
  · exact (h₁.trans h₂).polled rfl rfl rfl rfl

theorem polled_pollSleep (w : World) (ms : Nat) (deadline timer : Option Nat) :
    Polled w (w.pollSleep ms deadline timer).1 := by
  unfold pollSleep
  dsimp only
  have h₁ := visible_pollDelay w ⟨.main, none⟩ (deadline.getD (w.sleepEnd ms)) timer
  rcases hd : w.pollDelay ⟨.main, none⟩ (deadline.getD (w.sleepEnd ms)) timer with
    ⟨_ | _, timer', w₁⟩
  all_goals rw [hd] at h₁
  · exact (Background.of_visible h₁).polled rfl rfl rfl rfl
  · exact (Background.of_visible ((visible_dropTimer? w₁ timer').trans h₁)).polled rfl rfl rfl rfl

theorem polled_pollSelect_holding (w : World) (g : Nat) (p : String) (i : ResultItem) :
    Polled w (w.pollSelect g p i .holding).1 := by
  rw [pollSelect]
  have h₁ := visible_deliverSelection w p i ⟨.main, none⟩
  rcases hd : w.deliverSelection p i ⟨.main, none⟩ with ⟨_ | _, w₁⟩
  all_goals rw [hd] at h₁
  · exact (Background.of_visible h₁).polled rfl rfl rfl rfl
  · exact (Background.of_visible h₁).polled rfl rfl rfl rfl

/-- Remembering a selection changes the engine only when the list last delivered is of the
selected generation, and then only by recording the selection against that list's query text. -/
theorem rememberSelection_cases (w : World) (g : Nat) (p : String) (i : ResultItem) :
    (w.rememberSelection g p i).1 = w ∨
      ∃ d, w.delivered = some d ∧ d.generation = g ∧
        (w.rememberSelection g p i).1 =
          { w with history := (w.history.record w.disk d.query.rawText p i.key 0).store,
                   disk := (w.history.record w.disk d.query.rawText p i.key 0).disk } := by
  unfold rememberSelection
  split
  next d hd =>
    split
    next hg =>
      refine .inr ⟨d, hd, by simpa using hg, ?_⟩
      dsimp only
      split <;> rfl
    next => exact .inl rfl
  next => exact .inl rfl

/-- The first look at a selection remembers it, at most, and leaves the job past its start. -/
theorem pollSelect_start (w : World) (g : Nat) (p : String) (i : ResultItem) :
    ∃ w₁, ((w.rememberSelection g p i).1 = w₁ ∨ w₁ = w) ∧
      Polled w₁ (w.pollSelect g p i .start).1 := by
  rw [pollSelect]
  split
  · exact ⟨w, .inr rfl, (Background.refl w).polled rfl rfl rfl rfl⟩
  · rcases hr : w.rememberSelection g p i with ⟨w₁, _ | err⟩
    all_goals dsimp only
    · refine ⟨w₁, .inl rfl, ?_⟩
      have h₂ := visible_tryAcquire w₁ p
      rcases hq : w₁.tryAcquire p with ⟨_ | _, w₂⟩
      all_goals rw [hq] at h₂
      · exact (Background.of_visible ((visible_enqueueWaiter w₂ p ⟨.main, none⟩).trans h₂)).polled
          rfl rfl rfl rfl
      · exact (Background.of_visible h₂).steady.trans_polled (polled_pollSelect_holding w₂ g p i)
    · exact ⟨w₁, .inl rfl, (Background.refl w₁).polled rfl rfl rfl rfl⟩

/-- Polling bring-ups already listed: in turn, or from the caller's pool. -/
theorem polled_pollStartAll_some (w : World) (ups : List BringUp) :
    Polled w (w.pollStartAll (some ups)).1 := by
  unfold pollStartAll
  dsimp only
  by_cases hc : ups.length ≤ startUpsPolledInTurn
  · simp only [hc, ↓reduceIte]
    split
    · exact (background_pollBringUps w ups).polled rfl rfl rfl rfl
    · exact (background_pollBringUps w ups).polled rfl rfl rfl rfl
  · simp only [hc, ↓reduceIte]
    split
    · exact (background_collectBringUps _ ups w).polled rfl rfl rfl rfl
    · exact (background_collectBringUps _ ups w).polled rfl rfl rfl rfl

theorem polled_pollStartAll (w : World) (ups : Option (List BringUp)) :
    Polled w (w.pollStartAll ups).1 := by
  cases ups with
  | some ups => exact polled_pollStartAll_some w ups
  | none =>
    let fresh := (w.registry.idsInState .unloaded).map (BringUp.fresh · false)
    by_cases hc : fresh.length ≤ startUpsPolledInTurn
    · have hs : w.pollStartAll none = w.pollStartAll (some fresh) := by
        simp only [pollStartAll, fresh, hc, ↓reduceIte]
      rw [hs]
      exact polled_pollStartAll_some w fresh
    · let w₁ : World := { w with pools := w.pools.filter (fun (p : Pool) => p.owner != .main) ++
        [⟨.main, List.range fresh.length, List.range fresh.length⟩] }
      have hs : w.pollStartAll none = w₁.pollStartAll (some fresh) := by
        simp only [pollStartAll, fresh, w₁, hc, ↓reduceIte]
      rw [hs]
      have h₁ : Background w w₁ := .of_visible rfl
      exact h₁.steady.trans_polled (polled_pollStartAll_some w₁ fresh)

theorem polled_pollReload_some (w : World) (id : String) (b : BringUp) :
    Polled w (w.pollReload id (some b)).1 := by
  rw [pollReload]
  have h₁ := background_pollBringUp w ⟨.main, none⟩ b
  rcases hp : w.pollBringUp ⟨.main, none⟩ b with ⟨w₁, _ | _ | _ | ⟨_, _ | _⟩⟩
  all_goals
    rw [hp] at h₁
    exact h₁.polled rfl rfl rfl rfl

theorem polled_pollReload (w : World) (id : String) (b : Option BringUp) :
    Polled w (w.pollReload id b).1 := by
  cases b with
  | some b => exact polled_pollReload_some w id b
  | none =>
    rw [pollReload]
    split
    · exact (Background.refl w).polled rfl rfl rfl rfl
    · rename_i r _
      exact ((Background.of_visible (visible_withRegistry w r)).trans
        (background_notify _ _)).steady.trans_polled (polled_pollReload_some _ id _)

theorem MainJob.eq_of_isSelectStart {m : MainJob} (h : m.isSelectStart = true) :
    ∃ g p i, m = .select g p i .start := by
  unfold MainJob.isSelectStart at h
  split at h
  · exact ⟨_, _, _, rfl⟩
  · cases h

theorem polled_pollMain (w : World) (h : w.main.isSelectStart = false) : Polled w w.pollMain.1 := by
  unfold pollMain
  split
  next hm => exact (Background.refl w).polled rfl rfl rfl (by rw [hm]; rfl)
  next raw e _ => exact polled_pollRun w raw e
  next ms d t _ => exact polled_pollSleep w ms d t
  next g p i stage hm =>
    cases stage with
    | start =>
      rw [hm] at h
      cases h
    | queued x =>
      rw [pollSelect]
      split
      · exact (Background.of_visible (visible_settleWaiter w x)).steady.trans_polled
          (polled_pollSelect_holding _ g p i)
      · exact (Background.refl w).polled rfl rfl rfl (by rw [hm]; rfl)
    | holding => exact polled_pollSelect_holding w g p i
  next ups _ => exact polled_pollStartAll w ups
  next id up _ => exact polled_pollReload w id up

theorem advances_rememberSelection (w : World) (g : Nat) (p : String) (i : ResultItem) :
    Advances w (w.rememberSelection g p i).1 := by
  rcases rememberSelection_cases w g p i with h | ⟨d, -, -, h⟩
  all_goals rw [h]
  · exact .refl w
  · exact .of_eq rfl rfl

theorem advances_pollMain (w : World) : Advances w w.pollMain.1 := by
  cases h : w.main.isSelectStart with
  | false => exact (polled_pollMain w h).advances
  | true =>
    obtain ⟨g, p, i, hm⟩ := MainJob.eq_of_isSelectStart h
    have hpoll : w.pollMain = w.pollSelect g p i .start := by
      unfold pollMain
      rw [hm]
    obtain ⟨w₁, hw₁, hp⟩ := pollSelect_start w g p i
    rw [hpoll]
    rcases hw₁ with rfl | rfl
    · exact (advances_rememberSelection w g p i).trans hp.advances
    · exact hp.advances

/-- The start of a round: the caller's job is polled if it was woken. -/
theorem advances_roundPoll {w : World} {first : Bool} {p : World × Option Finished}
    (h : (if w.mainWoken then
        { w with mainWoken := false, budget := if first then w.budget else pollBudget }.pollMain
      else (w, none)) = p) : Advances w p.1 := by
  subst h
  split
  · refine Advances.trans ?_ (advances_pollMain _)
    exact .of_eq rfl rfl
  · exact .refl w

theorem polled_roundPoll {w : World} {first : Bool} {p : World × Option Finished}
    (hm : w.main.isSelectStart = false)
    (h : (if w.mainWoken then
        { w with mainWoken := false, budget := if first then w.budget else pollBudget }.pollMain
      else (w, none)) = p) : Polled w p.1 := by
  subst h
  split
  · refine Steady.trans_polled ?_ (polled_pollMain _ hm)
    exact ⟨.of_eq rfl rfl, rfl⟩
  · exact ⟨.refl w, hm⟩

theorem background_of_runTasks {n : Nat} {dry : Bool} (h : w.runTasks n = (w', dry)) :
    Background w w' := by
  have hrun := background_runTasks n w
  rwa [h] at hrun

/-- **The loop advances.** Every round of the thread, whatever the caller's job, only moves the
current generation forward and replaces the delivered list only by a newer one. -/
theorem advances_loop (w : World) (first : Bool) (fuel : Nat) :
    Advances w (w.loop first fuel).1 := by
  fun_induction loop w first fuel with
  | case1 w first => exact .of_eq rfl rfl
  | case2 w first n w₁ f hpoll => exact advances_roundPoll hpoll
  | case3 w first n w₁ w₂ hrun hstuck hpoll =>
    exact ((advances_roundPoll hpoll).trans (background_of_runTasks hrun).advances).trans
      (.of_eq rfl rfl)
  | case4 w first n w₁ w₂ hrun hstuck hdef hpoll ih =>
    exact (((advances_roundPoll hpoll).trans (background_of_runTasks hrun).advances).trans
      (.of_visible (visible_park w₂))).trans ih
  | case5 w first n w₁ w₂ hrun hstuck hdef hpoll ih =>
    exact (((advances_roundPoll hpoll).trans (background_of_runTasks hrun).advances).trans
      (.of_visible (visible_parkYield w₂))).trans ih
  | case6 w first n w₁ w₂ hrun hpoll ih =>
    exact (((advances_roundPoll hpoll).trans (background_of_runTasks hrun).advances).trans
      (.of_visible (visible_parkYield w₂))).trans ih

/-- Once the caller's job is past the start of a selection, the loop leaves the history alone:
the job never returns to that start, and nothing else writes the history. -/
theorem steady_loop (w : World) (first : Bool) (fuel : Nat) :
    w.main.isSelectStart = false → Steady w (w.loop first fuel).1 := by
  fun_induction loop w first fuel with
  | case1 w first => exact fun _ => ⟨.of_eq rfl rfl, rfl⟩
  | case2 w first n w₁ f hpoll => exact fun hm => (polled_roundPoll hm hpoll).toSteady
  | case3 w first n w₁ w₂ hrun hstuck hpoll =>
    intro hm
    exact ((polled_roundPoll hm hpoll).toSteady.trans (background_of_runTasks hrun).steady).trans
      ⟨.of_eq rfl rfl, rfl⟩
  | case4 w first n w₁ w₂ hrun hstuck hdef hpoll ih =>
    intro hm
    have h₁ := polled_roundPoll hm hpoll
    have h₂ := (background_of_runTasks hrun).trans (.of_visible (visible_park w₂))
    exact (h₁.toSteady.trans h₂.steady).trans (ih (h₂.main ▸ (h₁.settled : w₁.main.isSelectStart = false)))
  | case5 w first n w₁ w₂ hrun hstuck hdef hpoll ih =>
    intro hm
    have h₁ := polled_roundPoll hm hpoll
    have h₂ := (background_of_runTasks hrun).trans (.of_visible (visible_parkYield w₂))
    exact (h₁.toSteady.trans h₂.steady).trans (ih (h₂.main ▸ (h₁.settled : w₁.main.isSelectStart = false)))
  | case6 w first n w₁ w₂ hrun hpoll ih =>
    intro hm
    have h₁ := polled_roundPoll hm hpoll
    have h₂ := (background_of_runTasks hrun).trans (.of_visible (visible_parkYield w₂))
    exact (h₁.toSteady.trans h₂.steady).trans (ih (h₂.main ▸ (h₁.settled : w₁.main.isSelectStart = false)))

/-- A loop whose first round polls the caller's job leaves the history as that poll left it, once
the poll has taken the job past the start of a selection. -/
theorem history_loop_woken {w : World} {first : Bool} {fuel : Nat} {p : World × Option Finished}
    (hw : w.mainWoken = true)
    (hp : { w with mainWoken := false, budget := if first then w.budget else pollBudget }.pollMain = p)
    (hm : p.1.main.isSelectStart = false) : (w.loop first (fuel + 1)).1.history = p.1.history := by
  rw [loop, if_pos hw, hp]
  obtain ⟨w₁, r⟩ := p
  cases r with
  | some f => rfl
  | none =>
    dsimp only
    rcases hr : w₁.runTasks 61 with ⟨w₂, _ | _⟩
    all_goals
      have h₂ := background_of_runTasks hr
      have hm₂ : w₂.main.isSelectStart = false := h₂.main ▸ hm
      have hrest : ∀ w₃ : World, w₃.visible = w₂.visible →
          (w₃.loop false fuel).1.history = w₁.history := fun w₃ h₃ =>
        have h₃' : Background w₂ w₃ := .of_visible h₃
        (h₃'.steady.trans (steady_loop _ false fuel (by rw [h₃'.main]; exact hm₂))).history.trans
          h₂.history
    · exact hrest _ (visible_parkYield w₂)
    · dsimp only
      split
      · exact h₂.history
      · split
        · exact hrest _ (visible_park w₂)
        · exact hrest _ (visible_parkYield w₂)

/-- **A selection is remembered only against the list of its generation.** A select command
changes the history, if at all, by recording the selection against the query text of the list
delivered when the command came, and only if that list is of the selected generation. -/
theorem history_select (w : World) (g : Nat) (p : String) (i : ResultItem) :
    (w.command (.select g p i)).2.history = w.history ∨
      ∃ d, w.delivered = some d ∧ d.generation = g ∧
        (w.command (.select g p i)).2.history =
          (w.history.record w.disk d.query.rawText p i.key 0).store := by
  let w₀ : World := { w with main := .select g p i .start, mainWoken := true, inside := true }
  let w₁ : World := { w₀ with mainWoken := false, budget := if true then w₀.budget else pollBudget }
  obtain ⟨w₂, hw₂, hpoll⟩ := pollSelect_start w₁ g p i
  have hhist : (w.command (.select g p i)).2.history = w₂.history := by
    have hlimit : roundLimit = 999999 + 1 := rfl
    simp only [command, wait, blockOn, hlimit]
    rw [history_loop_woken rfl (rfl : w₁.pollMain = w₁.pollSelect g p i .start) hpoll.settled]
    exact hpoll.history
  rw [hhist]
  rcases hw₂ with hw₂ | rfl
  · rcases rememberSelection_cases w₁ g p i with h | ⟨d, hd, hg, h⟩
    · exact .inl (by rw [← hw₂, h])
    · exact .inr ⟨d, hd, hg, by rw [← hw₂, h]⟩
  · exact .inl rfl

end Launcher.Engine.World
