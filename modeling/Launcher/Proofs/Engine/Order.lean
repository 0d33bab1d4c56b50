import Mathlib.Data.List.Perm.Subperm
import Mathlib.Logic.Relation
import Launcher.Proofs.Engine.Delivery

/-!
# Lists reach the interface in generation order

A generation's list is delivered and announced at the end of its dispatch, in one step, and only
while it is current. Every generation has exactly one dispatch, held by the caller's job or by
one spawned task, and a dispatch that ends is gone. So a generation is delivered at most once, and
each list delivered is newer than the one before; the lists announced on the update channel follow
in the same order.

* `World.Holds` — the invariant over an explicit list of pending dispatches: they have distinct
  generations, all issued; the current one, if pending, is newer than the list delivered; the
  announced lists are in increasing order, none newer than the list delivered, and the delivered
  list of each is the ranking it was cut from;
* `World.Orderly` — that invariant, over the dispatches actually pending;
* `World.Forward` — how two engines at rest differ: the delivered list is replaced only by a newer
  one, and each list newly announced is newer than the list delivered before;
* `World.keeps_command` — every command of a session keeps the invariant and moves forward;
* `World.lists_announced_in_order` — the lists the interface takes off the channel carry strictly
  increasing generations, over any commands of any session.
-/

namespace Launcher

/-- The list a Results update announces: its generation, query and entries. -/
def EngineUpdate.results? : EngineUpdate → Option (Nat × Query × List ListEntry)
  | .results g q es _ => some (g, q, es)
  | .stateChanged _ _ => none

namespace Engine

/-- The generation of the caller's dispatch, once it has begun one. -/
def MainJob.generation? : MainJob → Option Nat
  | .run _ (some e) => some e.generation
  | _ => none

namespace World

/-- The lists announced in the outbox, oldest first. -/
def announced (w : World) : List (Nat × Query × List ListEntry) :=
  w.outbox.filterMap EngineUpdate.results?

/-- The generation of the list last delivered, or 0 before any. -/
def deliveredGeneration (w : World) : Nat := (w.delivered.map (·.generation)).getD 0

/-- The generations of the dispatches still pending: the caller's, then the spawned ones. -/
def dispatches (w : World) : List Nat := w.main.generation?.toList ++ w.searches.map (·.2)

/-- The delivered list of generation `g`, while it is the one delivered, is for the query `q`, and
`es` is its cut. -/
def Tracks (w : World) (g : Nat) (q : Query) (es : List ListEntry) : Prop :=
  ∀ d, w.delivered = some d → d.generation = g → d.query = q ∧ es = cutDown d.full w.maxResults

/-- The order of lists, over an explicit list `ds` of pending dispatches. -/
structure Holds (ds : List Nat) (w : World) : Prop where
  ids : TaskIds w
  nodup : ds.Nodup
  issued : ∀ g ∈ ds, g ≤ w.generations.current
  delivered_le : w.deliveredGeneration ≤ w.generations.current
  fresh : w.generations.current ∈ ds → w.deliveredGeneration < w.generations.current
  sorted : (w.announced.map (·.1)).Pairwise (· < ·)
  announced_le : ∀ a ∈ w.announced, a.1 ≤ w.deliveredGeneration
  tracked : ∀ a ∈ w.announced, w.Tracks a.1 a.2.1 a.2.2
  ranked : ∀ d, w.delivered = some d →
    ∃ batches snap boost, d.full = (merge batches d.query snap boost w.maxResults).full

/-- The order of lists, over the dispatches actually pending. -/
def Orderly (w : World) : Prop := Holds w.dispatches w

/-- A step that touches neither the generations, the delivered list, the lists announced, the
length of lists nor the dispatches among the tasks. -/
structure Calm (w w' : World) : Prop where
  tasks : TaskFrame w w'
  generations : w'.generations = w.generations
  delivered : w'.delivered = w.delivered
  announced : w'.announced = w.announced
  maxResults : w'.maxResults = w.maxResults

/-- How an engine at rest may differ from an earlier one: the current generation only moves on;
the delivered list is replaced only by a newer one, of a generation current since; each list newly
announced is of such a generation too, and newer than the list delivered before; and a list
already delivered stays tracked. -/
structure Forward (w w' : World) : Prop where
  current : w.generations.current ≤ w'.generations.current
  delivered : w.deliveredGeneration ≤ w'.deliveredGeneration
  replaced : ∀ d, w.delivered = some d →
    ∃ d', w'.delivered = some d' ∧ (d' = d ∨ d.generation < d'.generation)
  fresh : ∀ d', w'.delivered = some d' → w.delivered = some d' ∨ w.generations.current ≤ d'.generation
  announced : ∀ a ∈ w'.announced, a ∈ w.announced ∨
    w.deliveredGeneration < a.1 ∧ w.generations.current ≤ a.1
  tracked : ∀ g q es, w.Tracks g q es → g ≤ w.deliveredGeneration → w'.Tracks g q es

/-- A step between engines at rest: from an orderly engine it reaches an orderly one, forward. -/
def Keeps (w w' : World) : Prop := Orderly w → Orderly w' ∧ Forward w w'

variable {w w' w'' : World} {ds ds' : List Nat}

/-! ## Calm steps -/

namespace Calm

theorem refl (w : World) : Calm w w := ⟨.refl w, rfl, rfl, rfl, rfl⟩

theorem trans (h₁ : Calm w w') (h₂ : Calm w' w'') : Calm w w'' :=
  ⟨h₁.tasks.trans h₂.tasks, h₂.generations.trans h₁.generations, h₂.delivered.trans h₁.delivered,
    h₂.announced.trans h₁.announced, h₂.maxResults.trans h₁.maxResults⟩

theorem of_visible (hv : w'.visible = w.visible) (ht : TaskFrame w w') : Calm w w' :=
  ⟨ht, congrArg Visible.generations hv, congrArg Visible.delivered hv,
    congrArg (List.filterMap EngineUpdate.results?) (congrArg Visible.outbox hv),
    congrArg Visible.maxResults hv⟩

end Calm

/-- Announcing a plugin's state announces no list. -/
theorem calm_notify_stateChanged (id : String) (s : PluginState) :
    Calm w (w.notify (.stateChanged id s)) := by
  refine ⟨taskFrame_notify w _, ?_, ?_, ?_, ?_⟩
  all_goals
    unfold notify
    split <;> simp [announced, EngineUpdate.results?]

/-! ## The invariant -/

namespace Holds

/-- An engine that differs only in its tasks, which keep distinct ids, and in having fewer lists
announced keeps the invariant. -/
theorem of_ledger (h : Holds ds w) (hids : TaskIds w') (hg : w'.generations = w.generations)
    (hd : w'.delivered = w.delivered) (ha : w'.announced.Sublist w.announced)
    (hm : w'.maxResults = w.maxResults) : Holds ds w' :=
  have hdel : w'.deliveredGeneration = w.deliveredGeneration := by simp only [deliveredGeneration, hd]
  have htr : ∀ g q es, w'.Tracks g q es ↔ w.Tracks g q es := by simp only [Tracks, hd, hm, implies_true]
  { ids := hids
    nodup := h.nodup
    issued := hg ▸ h.issued
    delivered_le := hg ▸ hdel ▸ h.delivered_le
    fresh := hg ▸ hdel ▸ h.fresh
    sorted := h.sorted.sublist (ha.map _)
    announced_le := fun a ha' => hdel ▸ h.announced_le a (ha.subset ha')
    tracked := fun a ha' => (htr _ _ _).2 (h.tracked a (ha.subset ha'))
    ranked := fun d hd' => hm ▸ h.ranked d (hd ▸ hd') }

theorem calm (h : Holds ds w) (hc : Calm w w') : Holds ds w' :=
  h.of_ledger (hc.tasks.keep h.ids).1 hc.generations hc.delivered (by rw [hc.announced])
    hc.maxResults

/-- Fewer pending dispatches keep the invariant. -/
theorem subperm (h : Holds ds w) (hs : ds'.Subperm ds) : Holds ds' w where
  ids := h.ids
  nodup := by
    obtain ⟨l, hp, hsub⟩ := hs
    exact hp.nodup_iff.1 (hsub.nodup h.nodup)
  issued := fun g hg => h.issued g (hs.subset hg)
  delivered_le := h.delivered_le
  fresh := fun hc => h.fresh (hs.subset hc)
  sorted := h.sorted
  announced_le := h.announced_le
  tracked := h.tracked
  ranked := h.ranked

end Holds

/-! ## Moving forward -/

namespace Forward

theorem refl (w : World) : Forward w w :=
  ⟨Nat.le_refl _, Nat.le_refl _, fun d hd => ⟨d, hd, .inl rfl⟩, fun _ hd => .inl hd,
    fun _ ha => .inl ha, fun _ _ _ h _ => h⟩

theorem trans (h₁ : Forward w w') (h₂ : Forward w' w'') : Forward w w'' := by
  refine ⟨Nat.le_trans h₁.current h₂.current, Nat.le_trans h₁.delivered h₂.delivered,
    fun d hd => ?_, fun d'' hd'' => ?_, fun a ha => ?_,
    fun g q es ht hg => h₂.tracked g q es (h₁.tracked g q es ht hg) (Nat.le_trans hg h₁.delivered)⟩
  · obtain ⟨d', hd', hd'd⟩ := h₁.replaced d hd
    obtain ⟨d'', hd'', hd''d'⟩ := h₂.replaced d' hd'
    refine ⟨d'', hd'', ?_⟩
    rcases hd'd with rfl | hlt
    · exact hd''d'
    · rcases hd''d' with rfl | hlt'
      · exact .inr hlt
      · exact .inr (Nat.lt_trans hlt hlt')
  · rcases h₂.fresh d'' hd'' with hd' | hle
    · exact h₁.fresh d'' hd'
    · exact .inr (Nat.le_trans h₁.current hle)
  · rcases h₂.announced a ha with ha' | ⟨hlt, hle⟩
    · exact h₁.announced a ha'
    · exact .inr ⟨Nat.lt_of_le_of_lt h₁.delivered hlt, Nat.le_trans h₁.current hle⟩

/-- An engine that differs only in what the order of lists does not read, in a generation issued
since, and in having fewer lists announced. -/
theorem of_ledger (hg : w.generations.current ≤ w'.generations.current)
    (hd : w'.delivered = w.delivered) (ha : w'.announced.Sublist w.announced)
    (hm : w'.maxResults = w.maxResults) : Forward w w' := by
  have hdel : w'.deliveredGeneration = w.deliveredGeneration := by simp only [deliveredGeneration, hd]
  refine ⟨hg, Nat.le_of_eq hdel.symm, fun d hd' => ⟨d, hd.trans hd', .inl rfl⟩,
    fun d hd' => .inl (hd ▸ hd'), fun a ha' => .inl (ha.subset ha'), fun _ _ _ ht _ => ?_⟩
  simpa only [Tracks, hd, hm] using ht

theorem of_calm (h : Calm w w') : Forward w w' :=
  of_ledger (Nat.le_of_eq (by rw [h.generations])) h.delivered (by rw [h.announced]) h.maxResults

end Forward

namespace Keeps

theorem refl (w : World) : Keeps w w := fun h => ⟨h, .refl w⟩

theorem trans (h₁ : Keeps w w') (h₂ : Keeps w' w'') : Keeps w w'' := fun h =>
  have h' := h₁ h
  have h'' := h₂ h'.1
  ⟨h''.1, h'.2.trans h''.2⟩

/-- A calm step keeps the order, unless it drops the caller's dispatch, which keeps it too. -/
theorem of_calm (hc : Calm w w')
    (hm : w'.main.generation? = w.main.generation? ∨ w'.main.generation? = none) : Keeps w w' := by
  intro h
  have hs := (hc.tasks.keep h.ids).2
  refine ⟨(h.calm hc).subperm (List.Sublist.subperm ?_), .of_calm hc⟩
  unfold dispatches
  rw [hs]
  rcases hm with hm | hm
  · rw [hm]
  · rw [hm]
    exact List.sublist_append_right _ _

/-- A step that changes nothing visible and no dispatch keeps the order. -/
theorem of_visible (hv : w'.visible = w.visible) (ht : TaskFrame w w') : Keeps w w' :=
  of_calm (.of_visible hv ht) (.inl (congrArg (·.main.generation?) hv))

end Keeps

/-! ## Issuing a generation, and the end of a dispatch -/

/-- Issuing a generation: the new one is pending nowhere, so a dispatch for it can join. -/
theorem Holds.beginQuery (h : Holds ds w) :
    Holds (w.beginQuery.1 :: ds) w.beginQuery.2 ∧ Forward w w.beginQuery.2 := by
  have hv := visible_beginQuery w
  have hg : w.beginQuery.2.generations.current = w.generations.current + 1 :=
    congrArg (·.generations.current) hv
  have hn : w.beginQuery.1 = w.generations.current + 1 := rfl
  have hc : Calm w { w.beginQuery.2 with generations := w.generations } :=
    ⟨TaskFrame.trans (taskFrame_beginQuery w) (.of_eq rfl rfl), rfl, congrArg Visible.delivered hv,
      congrArg (List.filterMap EngineUpdate.results?) (congrArg Visible.outbox hv),
      congrArg Visible.maxResults hv⟩
  have h' := h.calm hc
  refine ⟨⟨⟨h'.ids.nodup, h'.ids.lt⟩, ?_, ?_, ?_, ?_, h'.sorted, h'.announced_le, h'.tracked,
    h'.ranked⟩, .of_ledger (by omega) hc.delivered
    (by rw [show w.beginQuery.2.announced = w.announced from hc.announced]) hc.maxResults⟩
  · refine List.nodup_cons.2 ⟨fun hmem => ?_, h.nodup⟩
    have := h.issued _ hmem
    omega
  · intro g hmem
    rw [hg]
    rcases List.mem_cons.1 hmem with rfl | hmem
    · exact Nat.le_of_eq hn
    · exact Nat.le_succ_of_le (h.issued g hmem)
  · rw [hg]
    exact Nat.le_succ_of_le h'.delivered_le
  · intro _
    rw [hg]
    exact Nat.lt_succ_of_le h'.delivered_le

theorem finish_delivered (o : Owner) (e : Execute) (hc : w.generations.isCurrent e.generation = true) :
    (w.finish o e).1.delivered = some ⟨e.generation, e.query, (w.ranking e).full⟩ :=
  congrArg Visible.delivered (visible_finish_of_current w o e hc)

theorem finish_announced (o : Owner) (e : Execute) (hc : w.generations.isCurrent e.generation = true) :
    (w.finish o e).1.announced = w.announced ++
      (if w.listening then [(e.generation, e.query, (w.ranking e).entries)] else []) := by
  have ho := congrArg Visible.outbox (visible_finish_of_current w o e hc)
  simp only [announced]
  rw [show (w.finish o e).1.outbox = _ from ho]
  split <;> simp [EngineUpdate.results?]

/-- **The end of a dispatch delivers each generation once.** Ending the dispatch of a pending
generation leaves it pending no more; if it is current, its ranking becomes the delivered list,
newer than the one before, and is announced after every list announced before it. -/
theorem Holds.finish {e : Execute} (h : Holds (e.generation :: ds) w) (o : Owner) :
    Holds ds (w.finish o e).1 ∧ Forward w (w.finish o e).1 := by
  cases hc : w.generations.isCurrent e.generation with
  | false =>
    have hcalm : Calm w (w.finish o e).1 :=
      .of_visible (finish_of_stale w o e hc).2 (taskFrame_finish w o e)
    exact ⟨(h.calm hcalm).subperm (List.sublist_cons_self _ _).subperm, .of_calm hcalm⟩
  | true =>
    have hv := visible_finish_of_current w o e hc
    have hcur := Generations.eq_current_of_isCurrent hc
    have hgen : (w.finish o e).1.generations = w.generations := congrArg Visible.generations hv
    have hmax : (w.finish o e).1.maxResults = w.maxResults := congrArg Visible.maxResults hv
    have hdel : (w.finish o e).1.deliveredGeneration = e.generation := by
      simp [deliveredGeneration, finish_delivered o e hc]
    have hnew : w.deliveredGeneration < e.generation :=
      hcur ▸ h.fresh (hcur ▸ List.mem_cons_self)
    have hold : ∀ a ∈ w.announced, a.1 < e.generation :=
      fun a ha => Nat.lt_of_le_of_lt (h.announced_le a ha) hnew
    have hvac : ∀ g q es, g ≤ w.deliveredGeneration → (w.finish o e).1.Tracks g q es := by
      intro g q es hg d hd hdg
      rw [finish_delivered o e hc, Option.some.injEq] at hd
      subst hd
      simp only at hdg
      omega
    have hann := finish_announced (w := w) o e hc
    have hfresh : ∀ a ∈ (w.finish o e).1.announced, a ∈ w.announced ∨
        a = (e.generation, e.query, (w.ranking e).entries) := by
      intro a ha
      rw [hann, List.mem_append] at ha
      rcases ha with ha | ha
      · exact .inl ha
      · split at ha
        · exact .inr (List.mem_singleton.1 ha)
        · simp at ha
    have hnow : ∀ d, (w.finish o e).1.delivered = some d → d = ⟨e.generation, e.query, (w.ranking e).full⟩ :=
      fun d hd => (Option.some.inj ((finish_delivered o e hc).symm.trans hd)).symm
    refine ⟨⟨(taskFrame_finish w o e).keep h.ids |>.1, (List.nodup_cons.1 h.nodup).2,
      fun g hg => hgen ▸ h.issued g (List.mem_cons_of_mem _ hg), ?_, ?_, ?_, ?_, ?_, ?_⟩, ?_⟩
    · rw [hdel, hgen]
      exact Nat.le_of_eq hcur
    · intro hmem
      rw [hgen, ← hcur] at hmem
      exact absurd hmem (List.nodup_cons.1 h.nodup).1
    · rw [hann, List.map_append, List.pairwise_append]
      refine ⟨h.sorted, ?_, ?_⟩
      · split <;> simp
      · intro a ha b hb
        split at hb
        · simp only [List.map_cons, List.map_nil, List.mem_singleton] at hb
          obtain ⟨a', ha', rfl⟩ := List.mem_map.1 ha
          rw [hb]
          exact hold a' ha'
        · simp at hb
    · intro a ha
      rw [hdel]
      rcases hfresh a ha with ha | rfl
      · exact Nat.le_of_lt (hold a ha)
      · exact Nat.le_refl _
    · intro a ha
      rcases hfresh a ha with ha | rfl
      · exact hvac _ _ _ (h.announced_le a ha)
      · intro d hd _
        rw [hnow d hd]
        exact ⟨rfl, by rw [hmax]; rfl⟩
    · intro d hd
      rw [hnow d hd]
      exact ⟨_, _, _, by rw [hmax]; rfl⟩
    · refine ⟨Nat.le_of_eq (by rw [hgen]), by rw [hdel]; exact Nat.le_of_lt hnew, fun d hd => ?_,
        fun d hd => .inr ?_, fun a ha => ?_, fun g q es _ hg => hvac g q es hg⟩
      · refine ⟨_, finish_delivered o e hc, .inr ?_⟩
        have : d.generation = w.deliveredGeneration := by simp [deliveredGeneration, hd]
        show d.generation < e.generation
        omega
      · rw [hnow d hd]
        exact Nat.le_of_eq hcur.symm
      · rcases hfresh a ha with ha | rfl
        · exact .inl ha
        · exact .inr ⟨hnew, Nat.le_of_eq hcur.symm⟩

theorem finish_main (o : Owner) (e : Execute) : (w.finish o e).1.main = w.main := by
  cases hc : w.generations.isCurrent e.generation with
  | false => exact congrArg Visible.main (finish_of_stale w o e hc).2
  | true => exact congrArg Visible.main (visible_finish_of_current w o e hc)

/-- **A poll of a pending dispatch.** It keeps the dispatch's generation and leaves the caller's
job and the dispatches among the tasks alone; once it ends the dispatch, that generation is
pending no more. -/
theorem Holds.pollExecute {e : Execute} (h : Holds (e.generation :: ds) w) (o : Owner) :
    (w.pollExecute o e).2.1.generation = e.generation ∧ (w.pollExecute o e).1.main = w.main ∧
      (w.pollExecute o e).1.searches = w.searches ∧
      Holds (if (w.pollExecute o e).2.2.isSome then ds else e.generation :: ds)
        (w.pollExecute o e).1 ∧
      Forward w (w.pollExecute o e).1 := by
  obtain ⟨w₁, e₁, done, hw, ht, he, hpoll⟩ := pollExecute_cases w o e
  have hc : Calm w w₁ := .of_visible hw ht
  have h₁ : Holds (e₁.generation :: ds) w₁ := he ▸ h.calm hc
  have hs₁ : w₁.searches = w.searches := (ht.keep h.ids).2
  have hm₁ : w₁.main = w.main := congrArg Visible.main hw
  rw [hpoll]
  cases done with
  | false =>
    simp only [Bool.false_eq_true, if_false, Option.isSome_none]
    exact ⟨he, hm₁, hs₁, he ▸ h₁, .of_calm hc⟩
  | true =>
    simp only [if_true, Option.isSome_some]
    obtain ⟨h₂, hf⟩ := h₁.finish o
    exact ⟨he, (finish_main o e₁).trans hm₁, ((taskFrame_finish w₁ o e₁).keep h₁.ids).2.trans hs₁,
      h₂, (Forward.of_calm hc).trans hf⟩

/-! ## Plugin lifecycles and selections

Bringing a plugin up announces its state, and handing a selection to a plugin writes its log and
maybe the history: no generation, delivered list, list announced or dispatch is touched.
-/

theorem calm_runStep (k : Waker) (id : String) (reload : Bool) :
    Calm w (w.runStep k id reload).1 := by
  unfold runStep
  split
  · exact .of_visible (visible_defer w k) (taskFrame_defer w k)
  · dsimp only
    have h₁ : Calm w ((if reload then w.spend.logCall id fun l => { l with reloads := l.reloads + 1 }
        else w.spend).release id) := by
      refine .of_visible (by simp [apply_ite]) (TaskFrame.trans ?_ (taskFrame_release _ _))
      split
      · exact (taskFrame_spend w).trans (taskFrame_logCall _ _ _)
      · exact taskFrame_spend w
    split
    · exact h₁
    · refine h₁.trans (Calm.trans ?_ (calm_notify_stateChanged _ _))
      exact .of_visible rfl (.of_eq rfl rfl)

theorem calm_pollBringUp (k : Waker) (b : BringUp) : Calm w (w.pollBringUp k b).1 := by
  cases b with
  | fresh id reload =>
    rw [pollBringUp]
    split
    · exact .refl w
    · rename_i r _
      have h₁ : Calm w ({ w with registry := r }.notify (.stateChanged id .initializing)) :=
        (Calm.of_visible rfl (.of_eq rfl rfl) : Calm w { w with registry := r }).trans
          (calm_notify_stateChanged _ _)
      generalize { w with registry := r }.notify (.stateChanged id .initializing) = w₁ at h₁ ⊢
      have h₂ := Calm.of_visible (visible_tryAcquire w₁ id) (taskFrame_tryAcquire w₁ id)
      dsimp only
      rcases hq : w₁.tryAcquire id with ⟨_ | _, w₂⟩
      all_goals rw [hq] at h₂
      · exact (h₁.trans h₂).trans
          (.of_visible (visible_enqueueWaiter w₂ id k) (taskFrame_enqueueWaiter w₂ id k))
      · exact (h₁.trans h₂).trans (calm_runStep k id reload)
  | waiting id reload waiter =>
    rw [pollBringUp]
    split
    · exact (Calm.of_visible (visible_settleWaiter w waiter) (taskFrame_settleWaiter w waiter)).trans
        (calm_runStep k id reload)
    · exact .refl w
  | holding id reload => exact calm_runStep k id reload
  | done id result => exact .refl w

theorem calm_pollBringUps (bs : List BringUp) : Calm w (w.pollBringUps bs).1 := by
  induction bs generalizing w with
  | nil => exact .refl w
  | cons b bs ih =>
    rw [pollBringUps]
    have h₁ : Calm w (if b.isDone then (w, b) else w.pollBringUp ⟨.main, none⟩ b).1 := by
      split
      · exact .refl w
      · exact calm_pollBringUp _ b
    exact h₁.trans ih

theorem calm_collectBringUps (fuel : Nat) (ups : List BringUp) :
    Calm w (w.collectBringUps fuel ups).1 := by
  induction fuel generalizing ups w with
  | zero => exact .of_visible (visible_wakeOwner w .main) (taskFrame_wakeOwner w .main)
  | succ fuel ih =>
    rw [collectBringUps]
    split
    all_goals
      rename_i heq
      have h₁ := @rel_pollPool BringUp Unit Calm _ _ _ _ _ _ _ _ heq
        (fun h₁ h₂ => h₁.trans h₂)
        (fun w => .of_visible (visible_wakeOwner w .main) (taskFrame_wakeOwner w .main))
        (fun w => .of_visible (visible_dequeue w .main) (taskFrame_dequeue w .main))
        (fun w f _ => .of_visible (visible_updatePool w .main f) (.of_eq rfl rfl))
        (fun w k b => calm_pollBringUp k b)
    · exact h₁.trans (ih _)
    · exact h₁
    · exact h₁

theorem calm_rememberSelection (g : Nat) (p : String) (i : ResultItem) :
    Calm w (w.rememberSelection g p i).1 := by
  rcases rememberSelection_cases w g p i with h | ⟨d, -, -, h⟩
  all_goals rw [h]
  · exact .refl w
  · exact ⟨.of_eq rfl rfl, rfl, rfl, rfl, rfl⟩

theorem main_rememberSelection (g : Nat) (p : String) (i : ResultItem) :
    (w.rememberSelection g p i).1.main = w.main := by
  rcases rememberSelection_cases w g p i with h | ⟨d, -, -, h⟩
  all_goals rw [h]

/-! ## Running tasks -/

/-- A task's call ended or still runs: either way its task keeps no dispatch. -/
theorem keeps_updateCall {id : Nat} (hn : ∀ g, (id, g) ∉ w.searches) (f : Task → Task)
    (hf : ∀ t, (f t).id = t.id ∧ (f t).body.generation? = none) :
    Keeps w (w.updateTask id f) :=
  .of_visible rfl (taskFrame_updateTask id f fun x hx hxid =>
    ⟨(hf x).1, by rw [(hf x).2, generation?_eq_none_of_not_mem hn x hx hxid]⟩)

/-- A polled dispatch that is still pending goes back to its task, moved on. -/
theorem keeps_resume {id g : Nat} {e : Execute} (hmem : (id, g) ∈ w.searches)
    (hg : e.generation = g) :
    Keeps w ((w.updateTask id fun t => { t with body := .search e }).afterPoll id) := by
  have ht : TaskFrame w (w.updateTask id fun t => { t with body := .search e }) :=
    .of_taskIds (Nat.le_refl _) fun hids => taskFrame_updateTask id _ fun x hx hxid =>
      ⟨rfl, by rw [hids.generation?_of_mem hmem x hx hxid, ← hg]; rfl⟩
  exact .of_visible (by simp) (ht.trans (taskFrame_afterPoll _ id))

/-- **One task's run keeps the order.** A spawned dispatch is polled with every other dispatch
left alone, and its task is removed once it ends; a plugin call's task runs no dispatch. -/
theorem keeps_runTask (id : Nat) : Keeps w (w.runTask id) := by
  unfold runTask
  split
  · exact .refl w
  · next t ht =>
    dsimp only
    have hf₀ := (TaskFrame.of_eq rfl rfl : TaskFrame w { w with budget := pollBudget }).trans
      (taskFrame_updateState _ id (.running false))
    have hk₁ : Keeps w ({ w with budget := pollBudget }.updateTask id
        fun t => { t with state := .running false }) :=
      .of_visible rfl hf₀
    have hs₁ : ∀ hids : TaskIds w, ({ w with budget := pollBudget }.updateTask id
        fun t => { t with state := .running false }).searches = w.searches := fun hids =>
      (hf₀.keep hids).2
    generalize ({ w with budget := pollBudget }.updateTask id
      fun t => { t with state := .running false }) = w₁ at hk₁ hs₁ ⊢
    split
    · next e hb =>
      intro h
      obtain ⟨h₁, hf₁⟩ := hk₁ h
      have hmem : (id, e.generation) ∈ w₁.searches :=
        (hs₁ h.ids).symm ▸ mem_searches_of_task? ht (by rw [hb]; rfl)
      let rest := w₁.main.generation?.toList ++ (w₁.searches.filter (·.1 != id)).map (·.2)
      have hperm : w₁.dispatches.Perm (e.generation :: rest) :=
        ((h₁.ids.searches_perm hmem).map (·.2)).append_left _ |>.trans List.perm_middle
      obtain ⟨hgen, hmain, hsearch, hholds, hfw⟩ :=
        (h₁.subperm hperm.symm.subperm).pollExecute (.task id)
      rcases hp : w₁.pollExecute (.task id) e with ⟨w₂, e₂, _ | r⟩
      all_goals
        rw [hp] at hgen hmain hsearch hholds hfw
        dsimp only at hgen hmain hsearch hfw
        simp only [Option.isSome_none, Option.isSome_some, Bool.false_eq_true, if_true,
          if_false] at hholds
        dsimp only
      · have h₂ : Orderly w₂ := by
          have hd : w₂.dispatches = w₁.dispatches := by simp only [dispatches, hmain, hsearch]
          unfold Orderly
          rw [hd]
          exact hholds.subperm hperm.subperm
        obtain ⟨h₃, hf₃⟩ := keeps_resume (hsearch ▸ hmem) hgen h₂
        exact ⟨h₃, hf₁.trans (hfw.trans hf₃)⟩
      · refine ⟨?_, hf₁.trans (hfw.trans (.of_ledger (Nat.le_refl _) rfl (.refl _) rfl))⟩
        have hd : (w₂.removeTask id).dispatches = rest := by
          simp only [dispatches, searches_removeTask, hsearch, rest]
          rw [show (w₂.removeTask id).main = w₁.main from hmain]
        unfold Orderly
        rw [hd]
        exact hholds.of_ledger (taskIds_removeTask id hholds.ids) rfl rfl (.refl _) rfl
    · next c hb =>
      intro h
      have h₁ := (hk₁ h).1
      have hn : ∀ g, (id, g) ∉ w₁.searches := (hs₁ h.ids).symm ▸ h.ids.not_mem_searches ht (by rw [hb]; rfl)
      have hk₂ := Keeps.of_visible (visible_pollCall w₁ id c) (taskFrame_pollCall w₁ id c)
      have hs₂ := ((taskFrame_pollCall w₁ id c).keep h₁.ids).2
      rcases hp : w₁.pollCall id c with ⟨w₂, c₂, _ | _⟩
      all_goals
        rw [hp] at hk₂ hs₂
        dsimp only at hk₂ hs₂ ⊢
        have hn₂ : ∀ g, (id, g) ∉ w₂.searches := hs₂.symm ▸ hn
        refine (hk₁.trans (hk₂.trans ?_)) h
      · exact (keeps_updateCall hn₂ (fun t => { t with body := .call c₂ }) fun _ => ⟨rfl, rfl⟩).trans
          (.of_visible (visible_afterPoll _ id) (taskFrame_afterPoll _ id))
      · split
        · exact .of_visible rfl (taskFrame_removeTask id (generation?_eq_none_of_not_mem hn₂))
        · exact keeps_updateCall hn₂ (fun t => { t with body := .call c₂, state := .complete })
            fun _ => ⟨rfl, rfl⟩

end World

end Engine

end Launcher
