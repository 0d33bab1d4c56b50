import Launcher.Proofs.Engine.Exclusion
import Launcher.Proofs.Engine.Steps

/-!
# Calls into one plugin never overlap

Every call into a plugin is made by a holder of its gate: a query call is its own task, which
holds the gate from the moment a dispatch child took it until the call ends; a start-up, a
reload and the handing of a selected result run while the caller's job holds the gate. The gates
are in order (`World.Gated`) for the holders the jobs keep track of, so no two calls into the same
plugin overlap.

* `World.MainTied` — the caller's job waits, if at all, under waiters of its own plugins;
* `World.held_pollBringUp`, `World.held_pollBringUps`, `World.held_collectBringUps` — the
  bring-ups take their gates, run their steps and release them;
* `World.Exclusive` — the gates are in order for the calls under way and the caller's job, and
  every job waits under waiters of its own plugins;
* `World.exclusive_pollMain`, `World.exclusive_runTask`, `World.exclusive_blockOn`,
  `World.exclusive_command` — every step of the engine keeps it;
* `World.Reachable` — the engines a session goes through, step by step, from its start.
-/

namespace Launcher.Engine

namespace World

variable {w w' : World} {m : List String} {p : String}

/-- The caller's job waits, if at all, under waiters of the plugins it waits for. -/
def MainTied (w : World) : MainJob → Prop
  | .select _ p _ (.queued x) => w.Tied p x
  | .startAll (some ups) => ∀ b ∈ ups, w.UpTied b
  | .reload _ (some b) => w.UpTied b
  | _ => True

theorem UpTied.of_ties {b : BringUp} (h : w.UpTied b) (ht : ∀ p x, w.Tied p x → w'.Tied p x) :
    w'.UpTied b := by
  cases b with
  | waiting id r x => exact ht _ _ h
  | _ => trivial

theorem MainTied.of_ties {j : MainJob} (h : w.MainTied j) (ht : ∀ p x, w.Tied p x → w'.Tied p x) :
    w'.MainTied j := by
  cases j with
  | select g p item s =>
    cases s with
    | queued x => exact ht _ _ h
    | _ => trivial
  | startAll ups =>
    cases ups with
    | some ups => exact fun b hb => (h b hb).of_ties ht
    | none => trivial
  | reload id up =>
    cases up with
    | some b => exact UpTied.of_ties h ht
    | none => trivial
  | _ => trivial

/-! ## Bring-ups -/

/-- **A bring-up step** runs while the bring-up holds the gate, and releases it; with no budget
left the bring-up keeps holding it. -/
theorem held_runStep {id : String} (h : Holding (id :: m) w) (k : Waker) (reload : Bool) :
    Holding ((w.runStep k id reload).2.holding?.toList ++ m) (w.runStep k id reload).1 ∧
      Grows w (w.runStep k id reload).1 ∧
      (w.runStep k id reload).1.UpTied (w.runStep k id reload).2 := by
  unfold runStep
  split
  · exact ⟨h.of_gateFrame (gateFrame_defer w k), (gateFrame_defer w k).grows, trivial⟩
  · dsimp only
    have hf : GateFrame w (if reload then w.spend.logCall id fun l => { l with reloads := l.reloads + 1 }
        else w.spend) := by
      split
      · exact (gateFrame_spend w).trans (gateFrame_logCall _ _ _)
      · exact gateFrame_spend w
    have h₁ := held_release (h.of_gateFrame hf)
    have hg₁ := hf.grows.trans (grows_release _ id)
    generalize (if reload then w.spend.logCall id fun l => { l with reloads := l.reloads + 1 }
      else w.spend).release id = w₁ at h₁ hg₁ ⊢
    split
    · exact ⟨h₁, hg₁, trivial⟩
    · next r _ =>
      have hf₂ : ∀ u, GateFrame w₁ ({ w₁ with registry := r }.notify u) := fun u =>
        (gateFrame_registry w₁ r).trans (gateFrame_notify _ u)
      exact ⟨h₁.of_gateFrame (hf₂ _), hg₁.trans (hf₂ _).grows, trivial⟩

/-- **A bring-up's poll** keeps one holder per gate: it takes the gate when it is free or was
handed to its waiter, runs its step and releases it, or queues under a waiter of its plugin. -/
theorem held_pollBringUp {b : BringUp} (h : Holding (b.holding?.toList ++ m) w) (ht : w.UpTied b)
    (k : Waker) :
    Holding ((w.pollBringUp k b).2.holding?.toList ++ m) (w.pollBringUp k b).1 ∧
      Grows w (w.pollBringUp k b).1 ∧ (w.pollBringUp k b).1.UpTied (w.pollBringUp k b).2 := by
  cases b with
  | fresh id reload =>
    rw [pollBringUp]
    split
    · exact ⟨h, .refl w, trivial⟩
    · next r _ =>
      have hf₁ := (gateFrame_registry w r).trans (gateFrame_notify _ (.stateChanged id .initializing))
      have h₁ := (show Holding m w from h).of_gateFrame hf₁
      generalize { w with registry := r }.notify (.stateChanged id .initializing) = w₁ at hf₁ h₁ ⊢
      have h₂ := held_tryAcquire h₁ id
      have hg₂ := hf₁.grows.trans (grows_tryAcquire w₁ id)
      dsimp only
      rcases hq : w₁.tryAcquire id with ⟨_ | _, w₂⟩
      all_goals rw [hq] at h₂ hg₂
      · rw [h₂.2 rfl] at hg₂ ⊢
        obtain ⟨h₃, ht₃⟩ := held_enqueueWaiter h₁ id k
        exact ⟨h₃, hg₂.trans (grows_enqueueWaiter w₁ id k), ht₃⟩
      · obtain ⟨h₃, hg₃, ht₃⟩ := held_runStep (h₂.1 rfl) k reload
        exact ⟨h₃, hg₂.trans hg₃, ht₃⟩
  | waiting id reload x =>
    rw [pollBringUp]
    split
    · next hx =>
      obtain ⟨h₃, hg₃, ht₃⟩ := held_runStep (held_settle_of_isAssigned h hx ht) k reload
      exact ⟨h₃, (grows_settleWaiter w x).trans hg₃, ht₃⟩
    · exact ⟨h, .refl w, ht⟩
  | holding id reload => exact held_runStep h k reload
  | done id result => exact ⟨h, .refl w, trivial⟩

/-- **The bring-ups polled in turn** keep one holder per gate, each holding its own. -/
theorem held_pollBringUps : ∀ (bs : List BringUp) (m : List String) (w : World),
    Holding (bs.filterMap BringUp.holding? ++ m) w → (∀ b ∈ bs, w.UpTied b) →
    Holding ((w.pollBringUps bs).2.filterMap BringUp.holding? ++ m) (w.pollBringUps bs).1 ∧
      Grows w (w.pollBringUps bs).1 ∧ ∀ b ∈ (w.pollBringUps bs).2, (w.pollBringUps bs).1.UpTied b
  | [], _, w, h, _ => ⟨h, .refl w, fun _ hb => by cases hb⟩
  | b :: bs, m, w, h, ht => by
    rw [pollBringUps]
    obtain ⟨h₁, hg₁, ht₁⟩ : Holding ((if b.isDone then (w, b) else w.pollBringUp ⟨.main, none⟩ b).2.holding?.toList ++
        (bs.filterMap BringUp.holding? ++ m)) (if b.isDone then (w, b) else w.pollBringUp ⟨.main, none⟩ b).1 ∧
        Grows w (if b.isDone then (w, b) else w.pollBringUp ⟨.main, none⟩ b).1 ∧
        (if b.isDone then (w, b) else w.pollBringUp ⟨.main, none⟩ b).1.UpTied
          (if b.isDone then (w, b) else w.pollBringUp ⟨.main, none⟩ b).2 := by
      have h₀ : Holding (b.holding?.toList ++ (bs.filterMap BringUp.holding? ++ m)) w := by
        rw [← List.append_assoc]
        cases hb : b.holding? <;> simpa [List.filterMap_cons, hb] using h
      split
      · exact ⟨h₀, .refl w, ht b List.mem_cons_self⟩
      · exact held_pollBringUp h₀ (ht b List.mem_cons_self) _
    generalize (if b.isDone then (w, b) else w.pollBringUp ⟨.main, none⟩ b) = r at h₁ hg₁ ht₁
    obtain ⟨w₁, b₁⟩ := r
    dsimp only at h₁ hg₁ ht₁ ⊢
    have h₁' : Holding (bs.filterMap BringUp.holding? ++ (b₁.holding?.toList ++ m)) w₁ :=
      h₁.perm (by rw [← List.append_assoc, ← List.append_assoc]; exact List.perm_append_comm.append_right m)
    obtain ⟨h₂, hg₂, ht₂⟩ := held_pollBringUps bs _ w₁ h₁'
      (fun b' hb' => (ht b' (List.mem_cons_of_mem b hb')).of_ties fun _ _ hx => hx.grow hg₁)
    refine ⟨h₂.perm ?_, hg₁.trans hg₂, fun b' hb' => ?_⟩
    · rw [List.filterMap_cons]
      cases hb₁ : b₁.holding? with
      | none => simp
      | some q => simp
    · rcases List.mem_cons.1 hb' with rfl | hb'
      · exact ht₁.of_ties fun _ _ hx => hx.grow hg₂
      · exact ht₂ b' hb'

/-- The holds of the bring-ups of a list are the hold of the one at an index, besides the others'. -/
theorem holders_perm_pick {ups : List BringUp} {i : Nat} {b : BringUp} (hb : ups[i]? = some b) :
    (ups.filterMap BringUp.holding?).Perm
      (b.holding?.toList ++ (ups.eraseIdx i).filterMap BringUp.holding?) := by
  obtain ⟨hi, rfl⟩ := List.getElem?_eq_some_iff.1 hb
  have hp := ((List.getElem_cons_eraseIdx_perm hi).filterMap BringUp.holding?).symm
  rw [List.filterMap_cons] at hp
  cases hh : ups[i].holding? <;> simpa [hh] using hp

/-- **One poll of the caller's pool of bring-ups** keeps one holder per gate, bring-up by
bring-up. The pool's step is any that polls a bring-up and reports it once done. -/
theorem held_pollPool_bringUps {w₀ : World} {step : World → Waker → BringUp → BringUp × Option Unit × World}
    (hstep : ∀ w k b, step w k b =
      ((w.pollBringUp k b).2, if (w.pollBringUp k b).2.isDone then some () else none, (w.pollBringUp k b).1))
    (len fuel polled : Nat) (ups : List BringUp) (w : World)
    (h : Holding (ups.filterMap BringUp.holding? ++ m) w ∧ Grows w₀ w ∧ ∀ b ∈ ups, w.UpTied b) :
    Holding ((w.pollPool step .main len fuel polled ups).2.1.filterMap BringUp.holding? ++ m)
        (w.pollPool step .main len fuel polled ups).1 ∧
      Grows w₀ (w.pollPool step .main len fuel polled ups).1 ∧
      ∀ b ∈ (w.pollPool step .main len fuel polled ups).2.1,
        (w.pollPool step .main len fuel polled ups).1.UpTied b := by
  have hframe : ∀ (w w' : World) (ups : List BringUp), GateFrame w w' →
      (Holding (ups.filterMap BringUp.holding? ++ m) w ∧ Grows w₀ w ∧ ∀ b ∈ ups, w.UpTied b) →
      Holding (ups.filterMap BringUp.holding? ++ m) w' ∧ Grows w₀ w' ∧ ∀ b ∈ ups, w'.UpTied b :=
    fun _ _ _ hf h => ⟨h.1.of_gateFrame hf, h.2.1.trans hf.grows,
      fun b hb => (h.2.2 b hb).grow hf.grows⟩
  refine inv_pollPool
    (I := fun w ups => Holding (ups.filterMap BringUp.holding? ++ m) w ∧ Grows w₀ w ∧
      ∀ b ∈ ups, w.UpTied b) step .main len
    (fun w _ h => hframe _ _ _ (gateFrame_wakeOwner w .main) h)
    (fun w _ h => hframe _ _ _ (gateFrame_dequeue w .main) h)
    (fun w _ f h => hframe _ _ _ (gateFrame_updatePool w .main f) h)
    (fun w ups i b k h hb => ?_) fuel polled ups w h
  rw [hstep]
  have hi : i < ups.length := (List.getElem?_eq_some_iff.1 hb).1
  have h₀ : Holding (b.holding?.toList ++ ((ups.eraseIdx i).filterMap BringUp.holding? ++ m)) w :=
    h.1.perm (by rw [← List.append_assoc]; exact (holders_perm_pick hb).append_right m)
  obtain ⟨h₁, hg₁, ht₁⟩ := held_pollBringUp h₀ (h.2.2 b (List.mem_of_getElem? hb)) k
  refine ⟨h₁.perm ?_, h.2.1.trans hg₁, fun b' hb' => ?_⟩
  · rw [← List.append_assoc]
    refine (List.Perm.append_right m ?_)
    have hs : (ups.set i (w.pollBringUp k b).2)[i]? = some (w.pollBringUp k b).2 :=
      List.getElem?_set_self hi
    have hset := holders_perm_pick hs
    rw [List.eraseIdx_set_eq] at hset
    exact hset.symm
  · rcases List.mem_or_eq_of_mem_set hb' with hb' | rfl
    · exact (h.2.2 b' hb').grow hg₁
    · exact ht₁

/-- **The bring-ups in the caller's pool** keep one holder per gate, however many are polled. -/
theorem held_collectBringUps {w₀ : World} : ∀ (fuel : Nat) (ups : List BringUp) (w : World),
    Holding (ups.filterMap BringUp.holding? ++ m) w → Grows w₀ w → (∀ b ∈ ups, w.UpTied b) →
    Holding ((w.collectBringUps fuel ups).2.1.filterMap BringUp.holding? ++ m)
        (w.collectBringUps fuel ups).1 ∧
      Grows w₀ (w.collectBringUps fuel ups).1 ∧
      ∀ b ∈ (w.collectBringUps fuel ups).2.1, (w.collectBringUps fuel ups).1.UpTied b
  | 0, ups, w, h, hg, ht => by
    have hf := gateFrame_wakeOwner w .main
    exact ⟨h.of_gateFrame hf, hg.trans hf.grows, fun b hb => (ht b hb).grow hf.grows⟩
  | fuel + 1, ups, w, h, hg, ht => by
    rw [collectBringUps]
    dsimp only
    split
    all_goals
      rename_i heq
      have hp := held_pollPool_bringUps (fun _ _ _ => rfl) (((w.pool? .main).map (·.live.length)).getD 0)
        (((w.pool? .main).map (·.live.length)).getD 0 + 1) 0 ups w ⟨h, hg, ht⟩
      rw [heq] at hp
    · exact held_collectBringUps fuel _ _ hp.1 hp.2.1 hp.2.2
    · exact hp
    · exact hp

/-! ## The caller's jobs -/

/-- **The gates are in order** for the calls under way and the caller's job, with distinct task
ids; every dispatch's children, and the caller's job, wait under waiters of their own plugins. -/
structure Exclusive (w : World) : Prop where
  serial : Serial w.main.holding w
  main : w.MainTied w.main

theorem Holding.mono {m' : List String} (h : Holding m w) (hc : ∀ q, m'.count q ≤ m.count q) :
    Holding m' w :=
  ⟨h.ids, h.gated.mono fun q => by
    rw [List.count_append, List.count_append]
    exact Nat.add_le_add_left (hc q) _⟩

/-- A job that lets go of every gate it held leaves the gates in order. -/
theorem Serial.release_all (h : Serial m w) : Serial [] w :=
  ⟨h.holding.mono fun _ => Nat.zero_le _, h.tied⟩

/-- Setting the caller's job leaves the waiters alone. -/
theorem Tied.setMain {x : Nat} (h : w.Tied p x) (j : MainJob) : { w with main := j }.Tied p x := h

/-- **A job ends by setting the caller's job anew**: the gates stay in order when the new job holds
what the job's holds were, waits under its own waiters, and keeps a dispatch with tied children. -/
theorem exclusive_setMain {j : MainJob} (h : Serial j.holding w) (ht : w.MainTied j)
    (hd : ∀ e, j.search? = some e → ∀ c ∈ e.children, w.ChildTied c) :
    Exclusive { w with main := j } := by
  refine ⟨⟨⟨⟨h.holding.ids.nodup, h.holding.ids.lt⟩, h.holding.gated.of_eq rfl rfl (Nat.le_refl _)⟩,
    fun o e he => ?_⟩,
    ht.of_ties fun _ _ hx => hx⟩
  cases o with
  | main => exact hd e he
  | task id => exact h.tied (.task id) e he

theorem Exclusive.of_gateFrame (h : Exclusive w) (hf : GateFrame w w') : Exclusive w' := by
  have hs := h.serial.of_gateFrame hf
  rw [← hf.main] at hs
  exact ⟨hs, by rw [hf.main]; exact h.main.of_ties fun _ _ hx => hx.grow hf.grows⟩

/-- **A selection holding its gate** hands the plugin the selected result and releases the gate;
with no budget left it keeps holding it. -/
theorem exclusive_selectHolding (g : Nat) (item : ResultItem) (h : Serial [p] w) :
    Exclusive (w.pollSelect g p item .holding).1 ∧
      ∀ q x, w.Tied q x → (w.pollSelect g p item .holding).1.Tied q x := by
  rw [pollSelect]
  by_cases hd : w.exhausted = true
  · have he : w.deliverSelection p item ⟨.main, none⟩ = (false, w.defer ⟨.main, none⟩) := by
      simp [deliverSelection, hd]
    rw [he]
    dsimp only
    have hf := gateFrame_defer w ⟨.main, none⟩
    exact ⟨exclusive_setMain (j := .select g p item .holding) (h.of_gateFrame hf) trivial
      (fun _ he => by cases he), fun _ _ hx => (hx.grow hf.grows).setMain _⟩
  · have he : w.deliverSelection p item ⟨.main, none⟩ = (true, (w.spend.logCall p fun l =>
        { l with selections := l.selections ++ [item.contextData] }).release p) := by
      simp [deliverSelection, hd]
    rw [he]
    dsimp only
    have hf := (gateFrame_spend w).trans (gateFrame_logCall _ p
      fun l => { l with selections := l.selections ++ [item.contextData] })
    have h₁ : Serial [] _ := ⟨held_release (h.holding.of_gateFrame hf),
      (h.tied.grow hf.grows).grow (grows_release _ p)⟩
    exact ⟨exclusive_setMain (j := .idle) h₁ trivial (fun _ he => by cases he),
      fun _ _ hx => ((hx.grow hf.grows).grow (grows_release _ p)).setMain _⟩

/-- **A selection's poll** keeps the gates in order: it takes the plugin's gate when it is free or
handed to its waiter, and then tells the plugin; otherwise it queues under a waiter of the
plugin, or ends without calling it. -/
theorem exclusive_pollSelect {g : Nat} {item : ResultItem} {s : SelectStage} (h : Exclusive w)
    (hm : w.main = .select g p item s) :
    Exclusive (w.pollSelect g p item s).1 ∧
      ∀ q x, w.Tied q x → (w.pollSelect g p item s).1.Tied q x := by
  have hs := h.serial
  have ht := h.main
  rw [hm] at hs ht
  cases s with
  | start =>
    rw [pollSelect]
    split
    · exact ⟨exclusive_setMain (j := .idle) hs trivial (fun _ he => by cases he),
        fun _ _ hx => hx.setMain _⟩
    have hf := gateFrame_rememberSelection w g p item
    rcases hr : w.rememberSelection g p item with ⟨w₁, _ | e⟩
    all_goals
      rw [hr] at hf
      dsimp only
    · have h₀ := held_tryAcquire (hs.of_gateFrame hf).holding p
      rcases hq : w₁.tryAcquire p with ⟨_ | _, w₂⟩
      all_goals
        rw [hq] at h₀
        dsimp only at h₀
        simp only [Bool.false_eq_true, ↓reduceIte]
      · rw [h₀.2 rfl]
        obtain ⟨h₃, ht₃⟩ := held_enqueueWaiter (hs.of_gateFrame hf).holding p ⟨.main, none⟩
        have hg₃ := hf.grows.trans (grows_enqueueWaiter w₁ p ⟨.main, none⟩)
        exact ⟨exclusive_setMain (j := .select g p item (.queued _)) ⟨h₃, hs.tied.grow hg₃⟩ ht₃
          (fun _ he => by cases he), fun _ _ hx => (hx.grow hg₃).setMain _⟩
      · have hg₂ := hf.grows.trans (grows_tryAcquire w₁ p)
        rw [hq] at hg₂
        obtain ⟨h₃, ht₃⟩ := exclusive_selectHolding g item
          ⟨h₀.1 rfl, hs.tied.grow hg₂⟩
        exact ⟨h₃, fun _ _ hx => ht₃ _ _ (hx.grow hg₂)⟩
    · exact ⟨exclusive_setMain (j := .idle) (hs.of_gateFrame hf) trivial (fun _ he => by cases he),
        fun _ _ hx => (hx.grow hf.grows).setMain _⟩
  | queued x =>
    rw [pollSelect]
    split
    · next hx =>
      have hg := grows_settleWaiter w x
      obtain ⟨h₃, ht₃⟩ := exclusive_selectHolding g item
        ⟨held_settle_of_isAssigned hs.holding hx ht, hs.tied.grow hg⟩
      exact ⟨h₃, fun _ _ hy => ht₃ _ _ (hy.grow hg)⟩
    · exact ⟨h, fun _ _ hy => hy⟩
  | holding => exact exclusive_selectHolding g item hs

/-- **The start-up of the listed plugins** keeps the gates in order: the bring-ups are polled in
turn, or from the caller's pool, each holding its own gate while it runs its step. -/
theorem exclusive_pollStartAll_some {ups : List BringUp}
    (h : Serial (ups.filterMap BringUp.holding?) w) (ht : ∀ b ∈ ups, w.UpTied b) :
    Exclusive (w.pollStartAll (some ups)).1 ∧
      ∀ q x, w.Tied q x → (w.pollStartAll (some ups)).1.Tied q x := by
  have h₀ : Holding (ups.filterMap BringUp.holding? ++ []) w := by simpa using h.holding
  have hwait : ∀ (w₁ : World) (ups₁ : List BringUp),
      Holding (ups₁.filterMap BringUp.holding? ++ []) w₁ → Grows w w₁ →
      (∀ b ∈ ups₁, w₁.UpTied b) → Exclusive { w₁ with main := .startAll (some ups₁) } ∧
        ∀ q x, w.Tied q x → { w₁ with main := .startAll (some ups₁) }.Tied q x :=
    fun w₁ ups₁ h₁ hg₁ ht₁ =>
      have h₁' : Holding (ups₁.filterMap BringUp.holding?) w₁ := by simpa using h₁
      ⟨exclusive_setMain (j := .startAll (some ups₁)) ⟨h₁', h.tied.grow hg₁⟩ ht₁
        (fun _ he => by cases he), fun _ _ hx => (hx.grow hg₁).setMain _⟩
  have hidle : ∀ (w₁ : World) (ups₁ : List BringUp),
      Holding (ups₁.filterMap BringUp.holding? ++ []) w₁ → Grows w w₁ →
      Exclusive { w₁ with main := .idle, pools := w₁.pools.filter (fun (p : Pool) => p.owner != .main) } ∧
        ∀ q x, w.Tied q x →
          { w₁ with main := .idle, pools := w₁.pools.filter (fun (p : Pool) => p.owner != Owner.main) }.Tied q x := by
    intro w₁ ups₁ h₁ hg₁
    have hf := gateFrame_pools w₁ (w₁.pools.filter (fun (p : Pool) => p.owner != .main))
    have hs₁ : Serial [] w₁ := ⟨h₁.mono fun _ => Nat.zero_le _, h.tied.grow hg₁⟩
    exact ⟨exclusive_setMain (j := .idle) (hs₁.of_gateFrame hf) trivial
      (fun _ he => by cases he), fun _ _ hx => ((hx.grow hg₁).grow hf.grows).setMain _⟩
  unfold pollStartAll
  dsimp only
  by_cases hc : ups.length ≤ startUpsPolledInTurn
  · simp only [hc, ↓reduceIte]
    obtain ⟨h₁, hg₁, ht₁⟩ := held_pollBringUps ups [] w h₀ ht
    split
    · exact hidle _ _ h₁ hg₁
    · exact hwait _ _ h₁ hg₁ ht₁
  · simp only [hc, ↓reduceIte]
    obtain ⟨h₁, hg₁, ht₁⟩ := held_collectBringUps (ups.length + 1) ups w h₀ (.refl w) ht
    split
    · exact hidle _ _ h₁ hg₁
    · exact hwait _ _ h₁ hg₁ ht₁

/-- Fresh bring-ups hold no gate. -/
theorem holders_fresh (ids : List String) (reload : Bool) :
    (ids.map (BringUp.fresh · reload)).filterMap BringUp.holding? = [] := by
  simp [List.filterMap_map, Function.comp_def, BringUp.holding?]

/-- **Starting every unloaded plugin** keeps the gates in order; its first poll lists the
plugins, in a pool of the caller when there are too many to poll in turn. -/
theorem exclusive_pollStartAll {ups : Option (List BringUp)} (h : Exclusive w)
    (hm : w.main = .startAll ups) :
    Exclusive (w.pollStartAll ups).1 ∧ ∀ q x, w.Tied q x → (w.pollStartAll ups).1.Tied q x := by
  have hs := h.serial
  have ht := h.main
  rw [hm] at hs ht
  cases ups with
  | some ups => exact exclusive_pollStartAll_some hs ht
  | none =>
    let fresh := (w.registry.idsInState .unloaded).map (BringUp.fresh · false)
    have hs₀ : Serial (fresh.filterMap BringUp.holding?) w := by
      rw [holders_fresh]
      exact hs
    have ht₀ : ∀ b ∈ fresh, w.UpTied b := fun b hb => by
      obtain ⟨id, -, rfl⟩ := List.mem_map.1 hb
      trivial
    by_cases hc : fresh.length ≤ startUpsPolledInTurn
    · have he : w.pollStartAll none = w.pollStartAll (some fresh) := by
        simp only [pollStartAll, fresh, hc, ↓reduceIte]
      rw [he]
      exact exclusive_pollStartAll_some hs₀ ht₀
    · let w₁ : World := { w with pools := w.pools.filter (fun (p : Pool) => p.owner != .main) ++
        [⟨.main, List.range fresh.length, List.range fresh.length⟩] }
      have he : w.pollStartAll none = w₁.pollStartAll (some fresh) := by
        simp only [pollStartAll, fresh, w₁, hc, ↓reduceIte]
      rw [he]
      have hf := gateFrame_pools w (w.pools.filter (fun (p : Pool) => p.owner != .main) ++
        [⟨.main, List.range fresh.length, List.range fresh.length⟩])
      obtain ⟨h₂, ht₂⟩ := exclusive_pollStartAll_some (hs₀.of_gateFrame hf)
        fun b hb => (ht₀ b hb).grow hf.grows
      exact ⟨h₂, fun _ _ hx => ht₂ _ _ (hx.grow hf.grows)⟩

/-- **A reload's bring-up** keeps the gates in order, holding its gate while it runs its step. -/
theorem exclusive_pollReload_some (id : String) (b : BringUp) (h : Serial b.holding?.toList w)
    (ht : w.UpTied b) :
    Exclusive (w.pollReload id (some b)).1 ∧
      ∀ q x, w.Tied q x → (w.pollReload id (some b)).1.Tied q x := by
  rw [pollReload]
  obtain ⟨h₁, hg₁, ht₁⟩ := held_pollBringUp (m := []) (by simpa using h.holding) ht ⟨.main, none⟩
  have hs₁ : Serial ((w.pollBringUp ⟨.main, none⟩ b).2.holding?.toList) (w.pollBringUp ⟨.main, none⟩ b).1 :=
    ⟨by simpa using h₁, h.tied.grow hg₁⟩
  rcases hp : w.pollBringUp ⟨.main, none⟩ b with ⟨w₁, b₁⟩
  rw [hp] at hs₁ hg₁ ht₁
  dsimp only at hs₁ hg₁ ht₁ ⊢
  have hidle : Exclusive { w₁ with main := .idle } ∧
      ∀ q x, w.Tied q x → { w₁ with main := .idle }.Tied q x :=
    ⟨exclusive_setMain (j := .idle) hs₁.release_all trivial (fun _ he => by cases he),
      fun _ _ hx => (hx.grow hg₁).setMain _⟩
  cases b₁ with
  | done _ r => cases r <;> exact hidle
  | _ =>
    exact ⟨exclusive_setMain (j := .reload id (some _)) hs₁ ht₁ (fun _ he => by cases he),
      fun _ _ hx => (hx.grow hg₁).setMain _⟩

/-- **A reload** keeps the gates in order: the plugin is reset and announced, then brought up. -/
theorem exclusive_pollReload {id : String} {b : Option BringUp} (h : Exclusive w)
    (hm : w.main = .reload id b) :
    Exclusive (w.pollReload id b).1 ∧ ∀ q x, w.Tied q x → (w.pollReload id b).1.Tied q x := by
  have hs := h.serial
  have ht := h.main
  rw [hm] at hs ht
  cases b with
  | some b => exact exclusive_pollReload_some id b hs ht
  | none =>
    rw [pollReload]
    split
    · exact ⟨exclusive_setMain (j := .idle) hs trivial (fun _ he => by cases he),
        fun _ _ hx => hx.setMain _⟩
    · next r _ =>
      have hf := (gateFrame_registry w r).trans (gateFrame_notify _ (.stateChanged id .unloaded))
      obtain ⟨h₂, ht₂⟩ := exclusive_pollReload_some id (.fresh id true)
        (hs.of_gateFrame hf) trivial
      exact ⟨h₂, fun _ _ hx => ht₂ _ _ (hx.grow hf.grows)⟩

/-- A sleep of the caller holds no gate. -/
theorem exclusive_pollSleep {ms : Nat} {d t : Option Nat} (h : Exclusive w)
    (hm : w.main = .sleep ms d t) :
    Exclusive (w.pollSleep ms d t).1 ∧ ∀ q x, w.Tied q x → (w.pollSleep ms d t).1.Tied q x := by
  have hs := h.serial
  rw [hm] at hs
  unfold pollSleep
  dsimp only
  have hf := gateFrame_pollDelay w ⟨.main, none⟩ (d.getD (w.sleepEnd ms)) t
  rcases hd : w.pollDelay ⟨.main, none⟩ (d.getD (w.sleepEnd ms)) t with ⟨_ | _, t', w₁⟩
  all_goals
    rw [hd] at hf
    dsimp only at hf ⊢
  · exact ⟨exclusive_setMain (j := .sleep ms _ t') (hs.of_gateFrame hf) trivial
      (fun _ he => by cases he), fun _ _ hx => (hx.grow hf.grows).setMain _⟩
  · have hf₂ := hf.trans (gateFrame_dropTimer? w₁ t')
    exact ⟨exclusive_setMain (j := .idle) (hs.of_gateFrame hf₂) trivial (fun _ he => by cases he),
      fun _ _ hx => (hx.grow hf₂.grows).setMain _⟩

/-- **A poll of the caller's query** keeps the gates in order, and its dispatch's children
tied. -/
theorem exclusive_pollRun_some (raw : String) (e : Execute) (h : Serial [] w)
    (ht : ∀ c ∈ e.children, w.ChildTied c) :
    Exclusive (w.pollRun raw (some e)).1 ∧ ∀ q x, w.Tied q x → (w.pollRun raw (some e)).1.Tied q x := by
  unfold pollRun
  dsimp only
  have hp := gatedPoll_pollExecute (o := .main) h.holding ht
  rcases hq : w.pollExecute .main e with ⟨w₂, e₂, _ | o⟩
  all_goals
    rw [hq] at hp
    dsimp only at hp ⊢
  · exact ⟨exclusive_setMain (j := .run raw (some e₂)) ⟨hp.holding, h.tied.grow hp.grows⟩ trivial
      (fun e' he' => by cases he'; exact hp.tied), fun _ _ hx => (hx.grow hp.grows).setMain _⟩
  · exact ⟨exclusive_setMain (j := .idle) ⟨hp.holding, h.tied.grow hp.grows⟩ trivial
      (fun _ he' => by cases he'), fun _ _ hx => (hx.grow hp.grows).setMain _⟩

/-- **The caller's query** keeps the gates in order: its dispatch begins with a new generation,
and each poll keeps its children tied. -/
theorem exclusive_pollRun {raw : String} {e : Option Execute} (h : Exclusive w)
    (hm : w.main = .run raw e) :
    Exclusive (w.pollRun raw e).1 ∧ ∀ q x, w.Tied q x → (w.pollRun raw e).1.Tied q x := by
  have hs := h.serial
  rw [hm] at hs
  cases e with
  | some e =>
    have hd : w.dispatchOf .main = some e := by rw [dispatchOf, hm]; rfl
    exact exclusive_pollRun_some raw e hs (hs.tied .main e hd)
  | none =>
    have he : w.pollRun raw none =
        w.beginQuery.2.pollRun raw (some { generation := w.beginQuery.1, raw := raw }) := by
      unfold pollRun
      rfl
    rw [he]
    have hf := gateFrame_beginQuery w
    obtain ⟨h₂, ht₂⟩ := exclusive_pollRun_some raw
      { generation := w.beginQuery.1, raw := raw } (hs.of_gateFrame hf) (fun _ hc => by cases hc)
    exact ⟨h₂, fun _ _ hx => ht₂ _ _ (hx.grow hf.grows)⟩

/-- **A poll of the caller's job**, whichever it is, keeps the gates in order. -/
theorem exclusive_pollMain (h : Exclusive w) :
    Exclusive w.pollMain.1 ∧ ∀ q x, w.Tied q x → w.pollMain.1.Tied q x := by
  unfold pollMain
  split
  · exact ⟨h, fun _ _ hx => hx⟩
  · next hm => exact exclusive_pollRun h hm
  · next hm => exact exclusive_pollSleep h hm
  · next hm => exact exclusive_pollSelect h hm
  · next hm => exact exclusive_pollStartAll h hm
  · next hm => exact exclusive_pollReload h hm

/-! ## The engine's steps -/

/-- **A task's run** keeps the gates in order; the caller's job stays as it was. -/
theorem exclusive_runTask (h : Exclusive w) (id : Nat) :
    Exclusive (w.runTask id) ∧ ∀ q x, w.Tied q x → (w.runTask id).Tied q x := by
  obtain ⟨hs, ht⟩ := serial_runTask h.serial id
  have hm := (background_runTask w id).main
  rw [← hm] at hs
  exact ⟨⟨hs, by rw [hm]; exact h.main.of_ties ht⟩, ht⟩

/-- Dropping the caller's job lets go of the gates it held. -/
theorem Exclusive.drop (h : Exclusive w) : Exclusive { w with main := .idle } :=
  exclusive_setMain h.serial.release_all trivial fun _ he => by cases he

theorem main_spawn (b : TaskBody) : (w.spawn b).2.main = w.main :=
  congrArg (·.1) (dispatchView_spawn (w := w) b)

/-- **A new search** holds no gate, and its dispatch has no child yet. -/
theorem exclusive_spawn_search (h : Exclusive w) {e : Execute} (he : e.children = []) :
    Exclusive (w.spawn (.search e)).2 ∧ ∀ q x, w.Tied q x → (w.spawn (.search e)).2.Tied q x := by
  obtain ⟨hg, hw⟩ := gates_spawn (w := w) (.search e)
  have hn : w.nextId ≤ (w.spawn (.search e)).2.nextId := by
    rw [(tasks_spawn (w := w) (.search e)).2]
    exact Nat.le_succ _
  have hm := main_spawn (w := w) (.search e)
  have hties : ∀ q x, w.Tied q x → (w.spawn (.search e)).2.Tied q x :=
    fun _ _ hx => hx.of_waiters hn fun r hr => .inr ⟨r, hw ▸ hr, rfl, rfl⟩
  have hcalls : (w.spawn (.search e)).2.callsUnderWay = w.callsUnderWay := by
    rw [callsUnderWay_spawn]
    simp [TaskBody.holding?]
  refine ⟨⟨⟨⟨taskIds_spawn _ h.serial.holding.ids, ?_⟩, fun o e' he' c hc => ?_⟩, ?_⟩, hties⟩
  · rw [hcalls, hm]
    exact h.serial.holding.gated.of_eq hg hw hn
  · have hc' : w.ChildTied c ∨ c ∈ e.children := by
      cases o with
      | main =>
        rw [dispatchOf, hm] at he'
        exact .inl (h.serial.tied .main e' he' c hc)
      | task t =>
        rw [dispatchOf, task?_spawn] at he'
        cases hx : w.task? t with
        | some x =>
          rw [hx] at he'
          exact .inl (h.serial.tied (.task t) e' (by rw [dispatchOf, hx]; exact he') c hc)
        | none =>
          rw [hx] at he'
          split at he'
          · cases he'
            exact .inr hc
          · cases he'
    rcases hc' with hc' | hc'
    · exact hc'.of_waiters hn fun r hr => .inr ⟨r, hw ▸ hr, rfl, rfl⟩
    · rw [he] at hc'
      cases hc'
  · rw [hm]
    exact h.main.of_ties hties

/-! ## Every step of the engine -/

/-- **A job handed by a command** holds no gate and waits for nothing yet; what the caller held
before is let go. -/
theorem exclusive_hand {c : EngineCommand} {job : MainJob} (h : Exclusive w) (hc : c.job? = some job) :
    Exclusive { w with main := job, mainWoken := true, inside := true } := by
  have h₁ : Exclusive { w with main := job } := by
    cases c <;> cases hc <;>
      exact exclusive_setMain h.serial.release_all trivial fun _ he => by cases he
  exact h₁.of_gateFrame (.of_eq rfl rfl rfl rfl rfl)

/-- A query submitted from outside begins a generation and queues a search with no child. -/
theorem exclusive_submit (h : Exclusive w) (raw : String) : Exclusive (w.submit raw).2 := by
  unfold submit
  have h₁ := h.of_gateFrame (gateFrame_beginQuery w)
  rcases hb : w.beginQuery with ⟨g, w₁⟩
  rw [hb] at h₁
  have h₂ : Exclusive { w₁ with inside := true } := h₁.of_gateFrame (.of_eq rfl rfl rfl rfl rfl)
  exact (exclusive_spawn_search h₂ rfl).1.of_gateFrame (.of_eq rfl rfl rfl rfl rfl)

/-- **A command answered at once** touches no gate, task or waiter; a submitted query queues a
search with no child. -/
theorem exclusive_answer {c : EngineCommand} (h : Exclusive w) (hc : c.job? = none) :
    Exclusive (w.command c).2 := by
  have hframe : ∀ w' : World, GateFrame w w' → Exclusive w' := fun _ hf => h.of_gateFrame hf
  cases c with
  | submit raw => exact exclusive_submit h raw
  | updates => exact hframe _ (.of_eq rfl rfl rfl rfl rfl)
  | showMore g =>
    simp only [command]
    split
    · split <;> exact h
    · exact h
  | history => exact h
  | forget q =>
    simp only [command]
    split <;> exact hframe _ (.of_eq rfl rfl rfl rfl rfl)
  | calls id =>
    simp only [command]
    split
    · split <;> exact h
    · exact h
  | closeUpdates => exact hframe _ (.of_eq rfl rfl rfl rfl rfl)
  | registry c => exact hframe _ (gateFrame_registry w _)
  | run | sleep | select | initializeAll | reload => cases hc

/-- **Every step of the engine keeps the gates in order.** -/
theorem Exclusive.step (h : Exclusive w) (hs : Step w w') : Exclusive w' := by
  cases hs with
  | hand hc => exact exclusive_hand h hc
  | pollMain b =>
    have h₁ : Exclusive { w with mainWoken := false, budget := b } :=
      h.of_gateFrame (.of_eq rfl rfl rfl rfl rfl)
    exact (exclusive_pollMain h₁).1
  | nextTask => exact h.of_gateFrame (gateFrame_nextTask w)
  | runTask id => exact (exclusive_runTask h id).1
  | park => exact h.of_gateFrame (gateFrame_park w)
  | parkYield => exact h.of_gateFrame (gateFrame_parkYield w)
  | drop => exact h.drop
  | leave => exact h.of_gateFrame (.of_eq rfl rfl rfl rfl rfl)
  | answer hc => exact exclusive_answer h hc

/-- **The gates stay in order along any run** from an engine where they are. -/
theorem Reachable.exclusive {w₀ : World} (h₀ : Exclusive w₀) (h : Reachable w₀ w) : Exclusive w := by
  induction h with
  | refl => exact h₀
  | tail _ hs ih => exact ih.step hs

/-- A configured engine has no task, no waiter and no gate taken. -/
theorem exclusive_configured (registry : Registry) (plugins : List (String × ScriptedPlugin))
    (c : Config) (history : HistoryStore) (disk : Disk) :
    Exclusive (configured registry plugins c history disk) := by
  refine ⟨⟨⟨⟨List.nodup_nil, fun _ h => nomatch h⟩, ?_⟩, fun o e he => ?_⟩, trivial⟩
  · refine ⟨List.nodup_nil, (fun _ h => nomatch h), fun p x hx => ?_, fun p => ?_, fun p hp => ?_⟩
    · cases hx
    · simp [handedTo, callsUnderWay, MainJob.holding, configured]
    · simp [handedTo, callsUnderWay, MainJob.holding, configured] at hp
  · cases o <;> cases he

end World

end Launcher.Engine
