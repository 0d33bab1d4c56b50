import Mathlib.Logic.Function.Basic
import Launcher.Generation

/-!
# Generations under many threads

Issuing a generation is not one indivisible act. The coordinator keeps the counter in an atomic
and the live cancellation token behind a lock; a caller takes the lock, adds one to the counter,
swaps a fresh token in and cancels the one it replaces, then releases the lock as it returns. An
observer reads the counter, or a token's flag, at any moment, without the lock. `Generations` is
the one-step view of all this; here the four atomic steps of each caller are interleaved in every
order, threads named by numbers and as many as a run uses, and the one-step view is shown to be
what every caller sees when it returns:

* `Coordinator`, `Coordinator.step`, `Coordinator.Reachable` — the shared state with each
  thread's place in `begin_query`, one thread's next atomic step, and the states that some
  interleaving reaches;
* `Coordinator.Inv` — the invariant: only the lock's holder is inside, the counter counts the
  generations handed out, which are 1, 2, … in the order the lock was taken, and exactly the
  tokens below the live one are cancelled;
* `Coordinator.Reachable.linearized` — in every reachable state the generations were issued in
  lock order, and a caller returning `g` leaves `g` the only current generation and every earlier
  token, and only those, cancelled.

The counter is a natural number: the threads issue fewer than `2^64 - 1` generations, so the
atomic counter never wraps.
-/

namespace Launcher

/-- Where a thread stands in issuing a generation: outside, holding the lock, having taken
generation `g`, or having cancelled the token before `g` and about to release the lock and
return `g`. -/
inductive Issuing where
  | idle
  | locked
  | counted (g : Nat)
  | returning (g : Nat)
  deriving DecidableEq

/-- The coordinator's shared state and each thread's place in it. Tokens are named by the
generation they were made for; token 0 is the one made with the coordinator and never handed
out. `takers` and `issued` only record the history: the threads in the order they took the lock,
and each generation with the thread that took it, in the order of the increments. -/
structure Coordinator where
  counter : Generations := {}
  live : Nat := 0
  cancelled : Nat → Bool := fun _ => false
  holder : Option Nat := none
  threads : Nat → Issuing := fun _ => .idle
  takers : List Nat := []
  issued : List (Nat × Nat) := []

namespace Coordinator

/-- The next atomic step of thread `t`: take the lock if it is free (or keep waiting for it), add
one to the counter, swap in a fresh token and cancel the live one, or release the lock and
return. -/
def step (s : Coordinator) (t : Nat) : Coordinator :=
  match s.threads t with
  | .idle =>
    match s.holder with
    | none =>
      { s with holder := some t, threads := Function.update s.threads t .locked,
               takers := s.takers ++ [t] }
    | some _ => s
  | .locked =>
    let (g, counter) := s.counter.next
    { s with counter := counter, threads := Function.update s.threads t (.counted g),
             issued := s.issued ++ [(t, g)] }
  | .counted g =>
    { s with cancelled := Function.update s.cancelled s.live true, live := g,
             threads := Function.update s.threads t (.returning g) }
  | .returning _ => { s with holder := none, threads := Function.update s.threads t .idle }

/-- The states that some interleaving of the threads' steps reaches from a fresh coordinator. -/
inductive Reachable : Coordinator → Prop
  | init : Reachable {}
  | step {s : Coordinator} (t : Nat) : Reachable s → Reachable (s.step t)

section Steps

variable {s : Coordinator} {t : Nat}

theorem step_idle_free (ht : s.threads t = .idle) (hf : s.holder = none) :
    s.step t = { s with holder := some t, threads := Function.update s.threads t .locked,
                        takers := s.takers ++ [t] } := by
  simp only [step, ht, hf]

theorem step_idle_held {u : Nat} (ht : s.threads t = .idle) (hh : s.holder = some u) :
    s.step t = s := by
  simp only [step, ht, hh]

theorem step_locked (ht : s.threads t = .locked) :
    s.step t = { s with counter := ⟨s.counter.current + 1⟩,
                        threads := Function.update s.threads t (.counted (s.counter.current + 1)),
                        issued := s.issued ++ [(t, s.counter.current + 1)] } := by
  simp only [step, ht, Generations.next]

theorem step_counted {g : Nat} (ht : s.threads t = .counted g) :
    s.step t = { s with cancelled := Function.update s.cancelled s.live true, live := g,
                        threads := Function.update s.threads t (.returning g) } := by
  simp only [step, ht]

theorem step_returning {g : Nat} (ht : s.threads t = .returning g) :
    s.step t = { s with holder := none, threads := Function.update s.threads t .idle } := by
  simp only [step, ht]

end Steps

/-! ## The invariant -/

/-- What holds between the steps of any interleaving. -/
structure Inv (s : Coordinator) : Prop where
  /-- a thread is inside `begin_query` exactly when it holds the lock -/
  holder : ∀ u, s.threads u ≠ .idle ↔ s.holder = some u
  /-- the counter has counted every generation handed out -/
  counter : s.counter.current = s.issued.length
  /-- the generations went out as 1, 2, … -/
  numbered : s.issued.map (·.2) = List.range' 1 s.issued.length
  /-- exactly the tokens below the live one are cancelled -/
  cancelled : ∀ y, s.cancelled y = true ↔ y < s.live
  /-- with the lock free, every thread that took it took a generation, and the newest token
  is live -/
  free : s.holder = none → s.takers = s.issued.map (·.1) ∧ s.live = s.issued.length
  /-- the holder, before it counts, is the last thread to take the lock -/
  locked : ∀ u, s.threads u = .locked →
    s.takers = s.issued.map (·.1) ++ [u] ∧ s.live = s.issued.length
  /-- once it counted, its generation is the newest, and the token before it is still live -/
  counted : ∀ u g, s.threads u = .counted g →
    s.takers = s.issued.map (·.1) ∧ g = s.issued.length ∧ s.live + 1 = g
  /-- once it cancelled, its own token is live -/
  returning : ∀ u g, s.threads u = .returning g →
    s.takers = s.issued.map (·.1) ∧ g = s.issued.length ∧ s.live = g ∧ 0 < g

variable {s : Coordinator} {t : Nat}

theorem inv_init : Inv {} where
  holder u := by simp
  counter := rfl
  numbered := rfl
  cancelled y := by simp
  free _ := ⟨rfl, rfl⟩
  locked u h := by cases h
  counted u g h := by cases h
  returning u g h := by cases h

/-- While one thread holds the lock, every other thread is outside. -/
theorem Inv.idle_of_ne (h : s.Inv) (hh : s.holder = some t) {u : Nat} (hu : u ≠ t) :
    s.threads u = .idle := by
  by_contra hne
  exact hu (Option.some.inj ((h.holder u).1 hne ▸ hh))

/-- With the lock free, every thread is outside. -/
theorem Inv.idle_of_free (h : s.Inv) (hf : s.holder = none) (u : Nat) : s.threads u = .idle := by
  by_contra hne
  rw [(h.holder u).1 hne] at hf
  cases hf

/-- With every other thread outside, a thread is inside after `t` moved exactly when it is `t`. -/
theorem update_ne_idle_iff {f : Nat → Issuing} (hf : ∀ u, u ≠ t → f u = .idle) {p : Issuing}
    (hp : p ≠ .idle) (u : Nat) : Function.update f t p u ≠ .idle ↔ some t = some u := by
  by_cases hut : u = t
  · subst hut
    simp [hp]
  · simp [Function.update_of_ne hut, hf u hut, Ne.symm hut]

/-- With every other thread outside, a thread found inside after `t` moved is `t`, in the phase
`t` moved to. -/
theorem eq_of_update_eq {f : Nat → Issuing} (hf : ∀ u, u ≠ t → f u = .idle) {p q : Issuing}
    (hq : q ≠ .idle) {u : Nat} (hu : Function.update f t p u = q) : u = t ∧ p = q := by
  by_cases hut : u = t
  · subst hut
    exact ⟨rfl, by rwa [Function.update_self] at hu⟩
  · rw [Function.update_of_ne hut, hf u hut] at hu
    exact absurd hu.symm hq

/-- Taking the free lock keeps the invariant. -/
theorem Inv.step_idle_free (h : s.Inv) (ht : s.threads t = .idle) (hf : s.holder = none) :
    (s.step t).Inv := by
  rw [Coordinator.step_idle_free ht hf]
  obtain ⟨htakers, hlive⟩ := h.free hf
  have hout : ∀ u, u ≠ t → s.threads u = .idle := fun u _ => h.idle_of_free hf u
  refine ⟨update_ne_idle_iff hout (by nofun), h.counter, h.numbered, h.cancelled,
    fun hn => (Option.some_ne_none t hn).elim, fun u hu => ?_, fun u g hu => ?_,
    fun u g hu => ?_⟩
  · obtain ⟨rfl, -⟩ := eq_of_update_eq hout (by nofun) hu
    exact ⟨by rw [htakers], hlive⟩
  · exact absurd (eq_of_update_eq hout (by nofun) hu).2 nofun
  · exact absurd (eq_of_update_eq hout (by nofun) hu).2 nofun

/-- Counting keeps the invariant: the holder takes the next number. -/
theorem Inv.step_locked (h : s.Inv) (ht : s.threads t = .locked) : (s.step t).Inv := by
  rw [Coordinator.step_locked ht]
  have hh : s.holder = some t := (h.holder t).1 (by rw [ht]; exact nofun)
  obtain ⟨htakers, hlive⟩ := h.locked t ht
  have hout : ∀ u, u ≠ t → s.threads u = .idle := fun u hu => h.idle_of_ne hh hu
  refine ⟨fun u => (update_ne_idle_iff hout (by nofun) u).trans (by rw [hh]), ?_, ?_, h.cancelled,
    fun hn => (Option.some_ne_none t (hh.symm.trans hn)).elim, fun u hu => ?_,
    fun u g hu => ?_, fun u g hu => ?_⟩
  · simp [h.counter]
  · simp [h.numbered, List.range'_concat, h.counter, Nat.add_comm]
  · exact absurd (eq_of_update_eq hout (by nofun) hu).2 nofun
  · obtain ⟨rfl, hg⟩ := eq_of_update_eq hout (by nofun) hu
    cases hg
    exact ⟨by simp [htakers], by simp [h.counter], by simp [hlive, h.counter]⟩
  · exact absurd (eq_of_update_eq hout (by nofun) hu).2 nofun

/-- Cancelling the live token keeps the invariant: the holder's own token becomes live. -/
theorem Inv.step_counted {g : Nat} (h : s.Inv) (ht : s.threads t = .counted g) :
    (s.step t).Inv := by
  rw [Coordinator.step_counted ht]
  have hh : s.holder = some t := (h.holder t).1 (by rw [ht]; exact nofun)
  obtain ⟨htakers, hg, hlive⟩ := h.counted t g ht
  have hout : ∀ u, u ≠ t → s.threads u = .idle := fun u hu => h.idle_of_ne hh hu
  refine ⟨fun u => (update_ne_idle_iff hout (by nofun) u).trans (by rw [hh]), h.counter, h.numbered,
    fun y => ?_, fun hn => (Option.some_ne_none t (hh.symm.trans hn)).elim, fun u hu => ?_,
    fun u g' hu => ?_, fun u g' hu => ?_⟩
  · show Function.update s.cancelled s.live true y = true ↔ y < g
    rw [Function.update_apply]
    split
    · next hy => simp [hy, ← hlive]
    · next hy =>
      rw [h.cancelled]
      omega
  · exact absurd (eq_of_update_eq hout (by nofun) hu).2 nofun
  · exact absurd (eq_of_update_eq hout (by nofun) hu).2 nofun
  · obtain ⟨rfl, hg'⟩ := eq_of_update_eq hout (by nofun) hu
    cases hg'
    exact ⟨htakers, hg, rfl, by omega⟩

/-- Releasing the lock keeps the invariant: every thread is outside again. -/
theorem Inv.step_returning {g : Nat} (h : s.Inv) (ht : s.threads t = .returning g) :
    (s.step t).Inv := by
  rw [Coordinator.step_returning ht]
  have hh : s.holder = some t := (h.holder t).1 (by rw [ht]; exact nofun)
  obtain ⟨htakers, hg, hlive, -⟩ := h.returning t g ht
  have hidle : ∀ u, Function.update s.threads t Issuing.idle u = .idle := fun u => by
    by_cases hut : u = t
    · rw [hut, Function.update_self]
    · rw [Function.update_of_ne hut, h.idle_of_ne hh hut]
  refine ⟨fun u => ?_, h.counter, h.numbered, h.cancelled, fun _ => ⟨htakers, hlive.trans hg⟩,
    fun u hu => absurd ((hidle u).symm.trans hu) nofun,
    fun u g' hu => absurd ((hidle u).symm.trans hu) nofun,
    fun u g' hu => absurd ((hidle u).symm.trans hu) nofun⟩
  show Function.update s.threads t .idle u ≠ .idle ↔ none = some u
  simp [hidle u]

/-- **Every step keeps the invariant.** -/
theorem Inv.step (h : s.Inv) (t : Nat) : (s.step t).Inv := by
  cases ht : s.threads t with
  | idle =>
    cases hh : s.holder with
    | none => exact h.step_idle_free ht hh
    | some u => rwa [Coordinator.step_idle_held ht hh]
  | locked => exact h.step_locked ht
  | counted g => exact h.step_counted ht
  | returning g => exact h.step_returning ht

/-- Every reachable state keeps the invariant. -/
theorem Reachable.inv (h : s.Reachable) : s.Inv := by
  induction h with
  | init => exact inv_init
  | step t _ ih => exact ih.step t

/-! ## What callers see -/

/-- What every run shows: the generations went out as 1, 2, …, the `k`-th to the `k`-th thread
to take the lock; and a caller that returns `g` leaves `g` the only current generation, with
the tokens' flags as the one-step view has them: every earlier token cancelled, its own not. -/
structure Linearized (s : Coordinator) : Prop where
  numbered : s.issued.map (·.2) = List.range' 1 s.issued.length
  lockOrder : s.issued.map (·.1) <+: s.takers
  returns : ∀ t g, s.threads t = .returning g →
    g = s.issued.length ∧ g ≠ 0 ∧
    (∀ x, (s.step t).counter.isCurrent x = true ↔ x = g) ∧
    (∀ y, (s.step t).cancelled y = (s.step t).counter.isCancelled y) ∧
    ∀ y, 1 ≤ y → y ≤ g → ((s.step t).cancelled y = true ↔ y ≠ g)

/-- The threads that took the lock are those that took a generation, and perhaps the holder. -/
theorem Inv.lockOrder (h : s.Inv) : s.issued.map (·.1) <+: s.takers := by
  cases hh : s.holder with
  | none => exact (h.free hh).1 ▸ List.prefix_refl _
  | some t =>
    have hin : s.threads t ≠ .idle := (h.holder t).2 hh
    cases ht : s.threads t with
    | idle => exact absurd ht hin
    | locked => rw [(h.locked t ht).1]; exact List.prefix_append _ _
    | counted g => exact (h.counted t g ht).1 ▸ List.prefix_refl _
    | returning g => exact (h.returning t g ht).1 ▸ List.prefix_refl _

/-- A caller returning `g` (never 0) leaves the counter at `g` and exactly the tokens below `g`
cancelled. -/
theorem Inv.returns (h : s.Inv) {g : Nat} (ht : s.threads t = .returning g) :
    g = s.issued.length ∧ g ≠ 0 ∧ (s.step t).counter.current = g ∧
      ∀ y, (s.step t).cancelled y = true ↔ y < g := by
  obtain ⟨-, hg, hlive, hpos⟩ := h.returning t g ht
  rw [Coordinator.step_returning ht]
  exact ⟨hg, Nat.pos_iff_ne_zero.1 hpos, h.counter.trans hg.symm,
    fun y => (h.cancelled y).trans (by rw [hlive])⟩

/-- **Generations are a linearizable counter.** However many threads call `begin_query` and
however their steps interleave, the generations go out as 1, 2, …, the `k`-th to the `k`-th
thread to take the lock, so no two are equal; and at every return of a call that got `g`, `g` is
the newest generation, the only current one (never 0), and of the tokens handed out every one
before `g` is cancelled and `g`'s is not, as the one-step `Generations` has it. -/
theorem Reachable.linearized (hs : s.Reachable) : s.Linearized := by
  have h := hs.inv
  refine ⟨h.numbered, h.lockOrder, fun t g ht => ?_⟩
  obtain ⟨hg, hpos, hcur, hcan⟩ := h.returns ht
  refine ⟨hg, hpos, fun x => ?_, fun y => ?_, fun y hy hyg => ?_⟩
  · simp only [Generations.isCurrent, hcur, Bool.and_eq_true, bne_iff_ne, beq_iff_eq]
    constructor
    · rintro ⟨-, rfl⟩
      rfl
    · rintro rfl
      exact ⟨hpos, rfl⟩
  · rw [Generations.isCancelled, hcur]
    cases hy : (s.step t).cancelled y
    · exact (decide_eq_false fun hlt => by rw [(hcan y).2 hlt] at hy; cases hy).symm
    · exact (decide_eq_true ((hcan y).1 hy)).symm
  · rw [hcan]
    omega

/-- Two callers, thread 3 waiting while thread 7 holds the lock: 7 takes generation 1 and
returns, then 3 takes generation 2 and is about to return it. -/
theorem two_callers_linearized :
    let s := (((((((({} : Coordinator).step 7).step 3).step 7).step 7).step 7).step 3).step 3).step 3
    s.Reachable ∧ s.Linearized :=
  have h : Reachable _ :=
    .step 3 (.step 3 (.step 3 (.step 7 (.step 7 (.step 7 (.step 3 (.step 7 .init)))))))
  ⟨h, h.linearized⟩

end Coordinator

end Launcher
