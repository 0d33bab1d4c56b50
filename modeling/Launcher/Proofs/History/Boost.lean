import Mathlib.Tactic.Linarith
import Launcher.History.Options

/-!
# The history bonus curve

A result selected `n` times is lifted by `cap · n / (n + half)`, with the product saturated at the
largest machine word and `half` at least one. Over the whole range of its inputs, a 32-bit count
and half-way count and a 64-bit cap:

* `historyBoost_divisor` — the divisor `n + half` is positive and fits a machine word, so the
  bonus is computed without a division by zero and without an overflow;
* `historyBoost_nonneg`, `historyBoost_lt_cap` — with a positive cap the bonus lies in `[0, cap)`;
* `historyBoost_le_historyBoost` — the bonus grows with the count while `cap · n` fits a word;
* `historyBoost_saturated`, `historyBoost_le_of_saturated` — once it does not, the bonus is the
  largest word over the divisor, which falls as the count grows;
* `historyBoost_curve` — the curve as a whole.
-/

namespace Launcher

/-! ## Saturated products -/

/-- A product that is not negative saturates at the largest word only. -/
theorem saturatingMul_of_nonneg {a b : Int} (h : 0 ≤ a * b) :
    saturatingMul a b = min wordMax (a * b) := by
  simp only [saturatingMul, wordMax, Nat.pow_eq, Nat.reducePow]
  omega

/-- With selections and a positive cap, the bonus is the saturated product over the count plus
the half-way count. -/
theorem historyBoost_of_pos {count : Nat} {cap : Int} (half : Nat) (hn : 0 < count)
    (hc : 0 < cap) :
    historyBoost count cap half =
      min wordMax (cap * count) / ((count + max half 1 : Nat) : Int) := by
  rw [historyBoost, if_neg (by omega),
    saturatingMul_of_nonneg (Int.mul_nonneg (Int.le_of_lt hc) (Int.natCast_nonneg count))]

/-- A product that reaches the largest word has a positive count and a positive cap. -/
theorem pos_of_saturated {count : Nat} {cap : Int} (hsat : wordMax ≤ cap * count) :
    0 < count ∧ 0 < cap := by
  have hw : (0 : Int) < wordMax := by decide
  refine ⟨Nat.pos_of_ne_zero fun h => ?_, Int.lt_of_not_ge fun h => ?_⟩
  · subst h
    simp only [Int.natCast_zero, Int.mul_zero] at hsat
    omega
  · have := Int.mul_nonpos_of_nonpos_of_nonneg h (Int.natCast_nonneg count)
    omega

/-! ## Bounds -/

/-- The divisor is positive and fits a machine word: for 32-bit counts it stays below `2^33`. -/
theorem historyBoost_divisor {count half : Nat} (hcount : count < 2 ^ 32) (hhalf : half < 2 ^ 32) :
    0 < count + max half 1 ∧ ((count + max half 1 : Nat) : Int) ≤ wordMax := by
  refine ⟨by omega, ?_⟩
  simp only [wordMax, Nat.pow_eq, Nat.reducePow] at hcount hhalf ⊢
  omega

/-- The bonus is never negative. -/
theorem historyBoost_nonneg (count : Nat) (cap : Int) (half : Nat) :
    0 ≤ historyBoost count cap half := by
  unfold historyBoost
  split
  · exact Int.le_refl 0
  · apply Int.ediv_nonneg
    · simp only [saturatingMul, wordMax, Nat.pow_eq, Nat.reducePow]
      have : 0 ≤ cap * count := Int.mul_nonneg (by omega) (by omega)
      omega
    · omega

/-- With a positive cap the bonus stays below it, since the divisor exceeds the count. -/
theorem historyBoost_lt_cap (count : Nat) {cap : Int} (half : Nat) (hc : 0 < cap) :
    historyBoost count cap half < cap := by
  rcases Nat.eq_zero_or_pos count with rfl | hn
  · rw [historyBoost, if_pos (.inl rfl)]
    exact hc
  · rw [historyBoost_of_pos half hn hc]
    apply Int.ediv_lt_of_lt_mul (by omega)
    calc min wordMax (cap * count) ≤ cap * count := min_le_right _ _
      _ < cap * ((count + max half 1 : Nat) : Int) := Int.mul_lt_mul_of_pos_left (by omega) hc

/-! ## Growth -/

/-- **The bonus grows with the count**, as long as the cap times the larger count fits a machine
word. -/
theorem historyBoost_le_historyBoost {n n' : Nat} {cap : Int} (half : Nat) (hn : n ≤ n')
    (hsat : cap * n' ≤ wordMax) : historyBoost n cap half ≤ historyBoost n' cap half := by
  by_cases hz : n = 0 ∨ cap ≤ 0
  · rw [historyBoost, if_pos hz]
    exact historyBoost_nonneg n' cap half
  · have hpos : 0 < n ∧ 0 < cap := by omega
    have hz' : ¬(n' = 0 ∨ cap ≤ 0) := by omega
    rw [historyBoost, if_neg hz, historyBoost, if_neg hz']
    have hmul : ∀ k : Nat, k ≤ n' → saturatingMul cap k = cap * k := by
      intro k hk
      have h₁ : 0 ≤ cap * k := Int.mul_nonneg (by omega) (by omega)
      have h₂ : cap * k ≤ cap * n' := Int.mul_le_mul_of_nonneg_left (by omega) (by omega)
      simp only [saturatingMul, wordMax, Nat.pow_eq, Nat.reducePow] at hsat ⊢
      omega
    rw [hmul n hn, hmul n' (Nat.le_refl _)]
    generalize hhalf : max half 1 = h
    have hh : 1 ≤ h := by omega
    have hb : (0 : Int) < ((n + h : Nat) : Int) := by omega
    have hd : (0 : Int) < ((n' + h : Nat) : Int) := by omega
    apply (Int.le_ediv_iff_mul_le hd).2
    have hx := Int.ediv_mul_le (cap * n) (Int.ne_of_gt hb)
    have hcross : cap * n * ((n' + h : Nat) : Int) ≤ cap * n' * ((n + h : Nat) : Int) := by
      have key : cap * n * h ≤ cap * n' * h :=
        Int.mul_le_mul_of_nonneg_right (Int.mul_le_mul_of_nonneg_left (by omega) (by omega))
          (by omega)
      push_cast
      linarith
    apply Int.le_of_mul_le_mul_right _ hb
    calc cap * n / ((n + h : Nat) : Int) * ((n' + h : Nat) : Int) * ((n + h : Nat) : Int)
        = cap * n / ((n + h : Nat) : Int) * ((n + h : Nat) : Int) * ((n' + h : Nat) : Int) := by
          rw [Int.mul_right_comm]
      _ ≤ cap * n * ((n' + h : Nat) : Int) := Int.mul_le_mul_of_nonneg_right hx (Int.le_of_lt hd)
      _ ≤ cap * n' * ((n + h : Nat) : Int) := hcross

/-- Once the product saturates, the bonus is the largest word over the divisor. -/
theorem historyBoost_saturated {count : Nat} {cap : Int} (half : Nat)
    (hsat : wordMax ≤ cap * count) :
    historyBoost count cap half = wordMax / ((count + max half 1 : Nat) : Int) := by
  obtain ⟨hn, hc⟩ := pos_of_saturated hsat
  rw [historyBoost_of_pos half hn hc, min_eq_left hsat]

/-- **Past saturation the bonus falls**: the largest word is divided by a divisor that grows with
the count. -/
theorem historyBoost_le_of_saturated {n n' : Nat} {cap : Int} (half : Nat) (hn : n ≤ n')
    (hsat : wordMax ≤ cap * n) : historyBoost n' cap half ≤ historyBoost n cap half := by
  have hc := (pos_of_saturated hsat).2
  have hsat' : wordMax ≤ cap * n' :=
    Int.le_trans hsat (Int.mul_le_mul_of_nonneg_left (by omega) (Int.le_of_lt hc))
  rw [historyBoost_saturated half hsat, historyBoost_saturated half hsat']
  have hd : (0 : Int) < ((n + max half 1 : Nat) : Int) := by omega
  have hle : ((n + max half 1 : Nat) : Int) ≤ ((n' + max half 1 : Nat) : Int) := by omega
  apply (Int.le_ediv_iff_mul_le hd).2
  calc wordMax / ((n' + max half 1 : Nat) : Int) * ((n + max half 1 : Nat) : Int)
      ≤ wordMax / ((n' + max half 1 : Nat) : Int) * ((n' + max half 1 : Nat) : Int) :=
        Int.mul_le_mul_of_nonneg_left hle (Int.ediv_nonneg (by decide) (by omega))
    _ ≤ wordMax := Int.ediv_mul_le _ (by omega)

/-- With the largest cap and a half-way count of one, a second selection lowers the bonus. -/
example : historyBoost 2 wordMax 1 < historyBoost 1 wordMax 1 := by decide

/-! ## The curve -/

/-- **The bonus curve.** For a 32-bit count and half-way count, the bonus is computed without a
division by zero or an overflow; it is zero without selections or without a positive cap, and
lies in `[0, cap)` for a positive cap; it grows with the count while `cap · count` fits a machine
word, and falls as the count grows once it does not. -/
theorem historyBoost_curve (count half : Nat) (cap : Int) (hcount : count < 2 ^ 32)
    (hhalf : half < 2 ^ 32) :
    (0 < count + max half 1 ∧ ((count + max half 1 : Nat) : Int) ≤ wordMax) ∧
    (count = 0 ∨ cap ≤ 0 → historyBoost count cap half = 0) ∧
    (0 < cap → 0 ≤ historyBoost count cap half ∧ historyBoost count cap half < cap) ∧
    (∀ count', count ≤ count' → cap * count' ≤ wordMax →
      historyBoost count cap half ≤ historyBoost count' cap half) ∧
    (∀ count', count ≤ count' → wordMax ≤ cap * count →
      historyBoost count' cap half ≤ historyBoost count cap half) :=
  ⟨historyBoost_divisor hcount hhalf, fun h => by rw [historyBoost, if_pos h],
    fun hc => ⟨historyBoost_nonneg count cap half, historyBoost_lt_cap count half hc⟩,
    fun _ hn hsat => historyBoost_le_historyBoost half hn hsat,
    fun _ hn hsat => historyBoost_le_of_saturated half hn hsat⟩

/-- The curve at the default cap and half-way count, after three selections. -/
theorem historyBoost_curve_at_defaults :
    (3 < 2 ^ 32 ∧ 3 < 2 ^ 32) ∧
    (0 < 3 + max 3 1 ∧ ((3 + max 3 1 : Nat) : Int) ≤ wordMax) ∧
    (3 = 0 ∨ (300 : Int) ≤ 0 → historyBoost 3 300 3 = 0) ∧
    ((0 : Int) < 300 → 0 ≤ historyBoost 3 300 3 ∧ historyBoost 3 300 3 < 300) ∧
    (∀ count' : Nat, 3 ≤ count' → 300 * (count' : Int) ≤ wordMax →
      historyBoost 3 300 3 ≤ historyBoost count' 300 3) ∧
    (∀ count' : Nat, 3 ≤ count' → wordMax ≤ 300 * ((3 : Nat) : Int) →
      historyBoost count' 300 3 ≤ historyBoost 3 300 3) :=
  ⟨⟨by decide, by decide⟩, historyBoost_curve 3 3 300 (by decide) (by decide)⟩

end Launcher
