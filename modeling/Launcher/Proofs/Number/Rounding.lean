import Mathlib.Algebra.Order.Field.Power
import Mathlib.Algebra.Order.Field.Rat
import Mathlib.Tactic.Linarith
import Mathlib.Tactic.NormNum
import Mathlib.Tactic.FieldSimp
import Mathlib.Tactic.Ring
import Launcher.Number.Binary64

/-!
# Rounding to double precision is monotone

Every operation of `Binary64` rounds one exact ratio to the nearest double. This file gives that
rounding its order properties on non-negative values, through the rational value a double
stands for:

* `Binary64.HasValue x v` — `x` is a non-negative finite double of value `v`;
* `Binary64.floorLog2_spec` — the power of two at or below a ratio;
* `Binary64.nearest_mono` — rounding to a whole number, halves to the even one, is monotone;
* `Binary64.encode_cases`, `Binary64.round_cases` — a positive ratio rounds to `+∞` or to a
  finite double of its kept significand and exponent;
* `Binary64.round_mono`, `Binary64.lt_round_eq_false` — a larger ratio never rounds to a lower
  double;
* `Binary64.ofNat_exact`, `Binary64.le_of_ofNat_hasValue` — whole numbers up to `2^53` are
  doubles, and a larger whole number rounds to no less;
* `Binary64.lt_iff_of_hasValue`, `Binary64.mul_of_hasValue` — the order and the product of
  finite doubles, read through their values.
-/

namespace Launcher.Binary64

/-! ## The binade of a ratio -/

theorem two_zpow_pos (k : Int) : (0 : ℚ) < 2 ^ k := zpow_pos (by norm_num) k

theorem cast_two_pow (n : Nat) : ((Nat.pow 2 n : Nat) : ℚ) = (2 : ℚ) ^ (n : Int) := by
  rw [Nat.pow_eq, zpow_natCast]
  push_cast
  rfl

/-- The test `floorLog2` makes: whether `a / b` reaches `2^k`, in whole numbers. -/
theorem reaches_iff {a b : Nat} (hb : 0 < b) (k : Int) :
    (if k ≥ 0 then a ≥ b * Nat.pow 2 k.toNat else a * Nat.pow 2 (-k).toNat ≥ b) ↔
      (2 : ℚ) ^ k ≤ a / b := by
  have hb' : (0 : ℚ) < b := by exact_mod_cast hb
  rw [le_div_iff₀ hb']
  split
  · rename_i hk
    have hpow : (2 : ℚ) ^ k = ((Nat.pow 2 k.toNat : Nat) : ℚ) := by
      rw [cast_two_pow, Int.toNat_of_nonneg hk]
    rw [hpow, ge_iff_le, ← Nat.cast_mul, Nat.cast_le, Nat.mul_comm]
  · rename_i hk
    have hpow : (2 : ℚ) ^ k = (((Nat.pow 2 (-k).toNat : Nat) : ℚ))⁻¹ := by
      rw [cast_two_pow, Int.toNat_of_nonneg (by omega), zpow_neg, inv_inv]
    have hpos : (0 : ℚ) < ((Nat.pow 2 (-k).toNat : Nat) : ℚ) := by
      rw [cast_two_pow]
      exact two_zpow_pos _
    rw [hpow, ge_iff_le, inv_mul_le_iff₀ hpos, ← Nat.cast_mul, Nat.cast_le, Nat.mul_comm]

/-- **`floorLog2 a b` is the exponent of the power of two at or below `a / b`.** -/
theorem floorLog2_spec {a b : Nat} (ha : 0 < a) (hb : 0 < b) :
    (2 : ℚ) ^ floorLog2 a b ≤ a / b ∧ (a : ℚ) / b < 2 ^ (floorLog2 a b + 1) := by
  have ha' : (0 : ℚ) < a := by exact_mod_cast ha
  have hb' : (0 : ℚ) < b := by exact_mod_cast hb
  have hla : (2 : ℚ) ^ (a.log2 : Int) ≤ a := by
    rw [zpow_natCast]
    exact_mod_cast Nat.log2_self_le (by omega)
  have hua : (a : ℚ) < 2 ^ ((a.log2 : Int) + 1) := by
    rw [← Nat.cast_succ, zpow_natCast]
    exact_mod_cast Nat.lt_log2_self
  have hlb : (2 : ℚ) ^ (b.log2 : Int) ≤ b := by
    rw [zpow_natCast]
    exact_mod_cast Nat.log2_self_le (by omega)
  have hub : (b : ℚ) < 2 ^ ((b.log2 : Int) + 1) := by
    rw [← Nat.cast_succ, zpow_natCast]
    exact_mod_cast Nat.lt_log2_self
  set k : Int := (a.log2 : Int) - b.log2 with hk
  have h2 : (2 : ℚ) ≠ 0 := by norm_num
  have hupper : (a : ℚ) / b < 2 ^ (k + 1) := by
    rw [div_lt_iff₀ hb']
    calc (a : ℚ) < 2 ^ ((a.log2 : Int) + 1) := hua
      _ = 2 ^ (k + 1) * 2 ^ (b.log2 : Int) := by rw [← zpow_add₀ h2]; congr 1; omega
      _ ≤ 2 ^ (k + 1) * b := by gcongr
  have hlower : (2 : ℚ) ^ (k - 1) < a / b := by
    rw [lt_div_iff₀ hb']
    calc (2 : ℚ) ^ (k - 1) * b < 2 ^ (k - 1) * 2 ^ ((b.log2 : Int) + 1) := by
          gcongr
      _ = 2 ^ (a.log2 : Int) := by rw [← zpow_add₀ h2]; congr 1; omega
      _ ≤ a := hla
  unfold floorLog2
  simp only [← hk]
  by_cases hreach : (2 : ℚ) ^ k ≤ a / b
  · rw [if_pos ((reaches_iff hb k).2 hreach)]
    exact ⟨hreach, hupper⟩
  · rw [if_neg fun h => hreach ((reaches_iff hb k).1 h), sub_add_cancel]
    exact ⟨hlower.le, lt_of_not_ge hreach⟩

/-- A larger ratio has a binade no lower. -/
theorem floorLog2_mono {a b c d : Nat} (ha : 0 < a) (hb : 0 < b) (hc : 0 < c) (hd : 0 < d)
    (h : (a : ℚ) / b ≤ c / d) : floorLog2 a b ≤ floorLog2 c d := by
  have h₁ := (floorLog2_spec ha hb).1
  have h₂ := (floorLog2_spec hc hd).2
  have hlt : (2 : ℚ) ^ floorLog2 a b < 2 ^ (floorLog2 c d + 1) := by linarith
  have := (zpow_lt_zpow_iff_right₀ (by norm_num : (1 : ℚ) < 2)).1 hlt
  omega

/-! ## Rounding to a whole number -/

/-- The whole number nearest to `n / d`, a half going to the even neighbour. -/
def nearest (n d : Nat) : Nat := roundHalfEven (n / d) (n % d) d

theorem nearest_le (n d : Nat) : nearest n d ≤ n / d + 1 := by
  unfold nearest roundHalfEven
  split_ifs <;> omega

theorem le_nearest (n d : Nat) : n / d ≤ nearest n d := by
  unfold nearest roundHalfEven
  split_ifs <;> omega

/-- A whole number is its own nearest. -/
theorem nearest_mul_self (n : Nat) {d : Nat} (hd : 0 < d) : nearest (n * d) d = n := by
  unfold nearest roundHalfEven
  rw [Nat.mul_div_cancel n hd, Nat.mul_mod_left]
  split_ifs <;> omega

/-- The floor of a ratio is monotone, the ratios compared crosswise. -/
theorem div_le_div_of_cross {n₁ d₁ n₂ d₂ : Nat} (hd₁ : 0 < d₁) (hd₂ : 0 < d₂)
    (h : n₁ * d₂ ≤ n₂ * d₁) : n₁ / d₁ ≤ n₂ / d₂ := by
  by_contra hlt
  have hfloor : d₁ * (n₁ / d₁) ≤ n₁ := Nat.mul_div_le n₁ d₁
  have hceil : n₂ < d₂ * (n₂ / d₂ + 1) := Nat.lt_mul_div_succ n₂ hd₂
  have hstep : d₂ * (n₂ / d₂ + 1) ≤ d₂ * (n₁ / d₁) := Nat.mul_le_mul_left _ (by omega)
  nlinarith

/-- **Rounding to a whole number is monotone**, the ratios compared crosswise. -/
theorem nearest_mono {n₁ d₁ n₂ d₂ : Nat} (hd₁ : 0 < d₁) (hd₂ : 0 < d₂) (h : n₁ * d₂ ≤ n₂ * d₁) :
    nearest n₁ d₁ ≤ nearest n₂ d₂ := by
  have hf := div_le_div_of_cross hd₁ hd₂ h
  rcases Nat.lt_or_eq_of_le hf with hlt | heq
  · calc nearest n₁ d₁ ≤ n₁ / d₁ + 1 := nearest_le _ _
      _ ≤ n₂ / d₂ := hlt
      _ ≤ nearest n₂ d₂ := le_nearest _ _
  · have e₁ := Nat.div_add_mod n₁ d₁
    have e₂ := Nat.div_add_mod n₂ d₂
    have hr₁ := Nat.mod_lt n₁ hd₁
    have hr₂ := Nat.mod_lt n₂ hd₂
    rw [← heq] at e₂
    have hr : (n₁ % d₁) * d₂ ≤ (n₂ % d₂) * d₁ := by nlinarith only [e₁, e₂, h]
    have past : d₁ < 2 * (n₁ % d₁) → d₂ < 2 * (n₂ % d₂) := fun h₁ => by
      nlinarith only [h₁, hr, hd₁, hd₂]
    have half : d₁ ≤ 2 * (n₁ % d₁) → d₂ ≤ 2 * (n₂ % d₂) := fun h₁ => by
      nlinarith only [h₁, hr, hd₁, hd₂]
    unfold nearest roundHalfEven
    rw [← heq]
    split_ifs <;> omega

/-! ## The significand a rounding keeps -/

/-- The exponent of the last bit that rounding `a / b` keeps: 52 bits below the leading one, and
never below the subnormal spacing `2^-1074`. -/
def keptExponent (a b : Nat) : Int := max (floorLog2 a b - 52) (-1074)

/-- The numerator of `a / 2^e`. -/
def scaledNum (a : Nat) (e : Int) : Nat := if e ≥ 0 then a else a * Nat.pow 2 (-e).toNat

/-- The denominator of `1 / (b · 2^e)`. -/
def scaledDen (b : Nat) (e : Int) : Nat := if e ≥ 0 then b * Nat.pow 2 e.toNat else b

/-- The significand rounding `a / b` keeps, before a carry. -/
def significand (a b : Nat) : Nat :=
  nearest (scaledNum a (keptExponent a b)) (scaledDen b (keptExponent a b))

/-- A significand and exponent, once a carry into a 54th bit is moved into the exponent. -/
def carry (m : Nat) (e : Int) : Nat × Int :=
  if m = Nat.pow 2 53 then (Nat.pow 2 52, e + 1) else (m, e)

/-- A significand and exponent written as a double of the given sign. -/
def encode (negative : Bool) (p : Nat × Int) : Binary64 :=
  if p.2 > 971 then infinity negative
  else if p.1 < Nat.pow 2 52 then ofFields negative 0 p.1
  else ofFields negative (p.2 + 1075).toNat (p.1 - Nat.pow 2 52)

/-- `round` in its steps: the exponent, the significand, the carry, the encoding. -/
theorem round_eq (negative : Bool) {a b : Nat} (ha : a ≠ 0) (hb : b ≠ 0) :
    round negative a b = encode negative (carry (significand a b) (keptExponent a b)) := by
  unfold round
  simp only [ha, hb, or_self, if_false]
  rfl

theorem scaledDen_pos {b : Nat} (hb : 0 < b) (e : Int) : 0 < scaledDen b e := by
  unfold scaledDen
  split
  · exact Nat.mul_pos hb (by rw [Nat.pow_eq]; positivity)
  · exact hb

theorem scaled_div (a : Nat) {b : Nat} (hb : 0 < b) (e : Int) :
    (scaledNum a e : ℚ) / scaledDen b e = a / b / 2 ^ e := by
  have hb' : (b : ℚ) ≠ 0 := by exact_mod_cast hb.ne'
  unfold scaledNum scaledDen
  split
  · rename_i he
    rw [Nat.cast_mul, cast_two_pow, Int.toNat_of_nonneg he, div_div]
  · rename_i he
    rw [Nat.cast_mul, cast_two_pow, Int.toNat_of_nonneg (by omega), zpow_neg]
    ring

theorem floorLog2_le_keptExponent (a b : Nat) : floorLog2 a b - 52 ≤ keptExponent a b :=
  le_max_left _ _

theorem keptExponent_ge (a b : Nat) : -1074 ≤ keptExponent a b := le_max_right _ _

theorem keptExponent_eq {a b : Nat} (h : -1074 < keptExponent a b) :
    keptExponent a b = floorLog2 a b - 52 := by
  unfold keptExponent at h ⊢
  omega

theorem keptExponent_mono {a b c d : Nat} (ha : 0 < a) (hb : 0 < b) (hc : 0 < c) (hd : 0 < d)
    (h : (a : ℚ) / b ≤ c / d) : keptExponent a b ≤ keptExponent c d :=
  max_le_max (by have := floorLog2_mono ha hb hc hd h; omega) le_rfl

/-- Below the kept exponent, `a / b` has fewer than 54 bits. -/
theorem scaled_lt {a b : Nat} (ha : 0 < a) (hb : 0 < b) :
    scaledNum a (keptExponent a b) < Nat.pow 2 53 * scaledDen b (keptExponent a b) := by
  have hden : (0 : ℚ) < scaledDen b (keptExponent a b) := by exact_mod_cast scaledDen_pos hb _
  have hupper := (floorLog2_spec ha hb).2
  have hle := floorLog2_le_keptExponent a b
  have hq :
      (scaledNum a (keptExponent a b) : ℚ) / scaledDen b (keptExponent a b) < 2 ^ (53 : Int) := by
    rw [scaled_div a hb, div_lt_iff₀ (two_zpow_pos _), ← zpow_add₀ (by norm_num)]
    calc (a : ℚ) / b < 2 ^ (floorLog2 a b + 1) := hupper
      _ ≤ 2 ^ ((53 : Int) + keptExponent a b) :=
        zpow_le_zpow_right₀ (by norm_num) (by omega)
  rw [div_lt_iff₀ hden] at hq
  rw [Nat.pow_eq]
  exact_mod_cast hq

/-- Above the subnormal range, `a / b` has at least 53 bits above the kept exponent. -/
theorem scaled_ge {a b : Nat} (ha : 0 < a) (hb : 0 < b) (he : -1074 < keptExponent a b) :
    Nat.pow 2 52 * scaledDen b (keptExponent a b) ≤ scaledNum a (keptExponent a b) := by
  have hden : (0 : ℚ) < scaledDen b (keptExponent a b) := by exact_mod_cast scaledDen_pos hb _
  have hlower := (floorLog2_spec ha hb).1
  have hq : (2 : ℚ) ^ (52 : Int) ≤
      (scaledNum a (keptExponent a b) : ℚ) / scaledDen b (keptExponent a b) := by
    rw [scaled_div a hb, le_div_iff₀ (two_zpow_pos _), ← zpow_add₀ (by norm_num),
      keptExponent_eq he]
    calc (2 : ℚ) ^ ((52 : Int) + (floorLog2 a b - 52)) = 2 ^ floorLog2 a b := by congr 1; omega
      _ ≤ a / b := hlower
  rw [le_div_iff₀ hden] at hq
  rw [Nat.pow_eq]
  exact_mod_cast hq

theorem significand_le {a b : Nat} (ha : 0 < a) (hb : 0 < b) : significand a b ≤ Nat.pow 2 53 := by
  have hden := scaledDen_pos hb (keptExponent a b)
  have hfloor : scaledNum a (keptExponent a b) / scaledDen b (keptExponent a b) < Nat.pow 2 53 :=
    (Nat.div_lt_iff_lt_mul hden).2 (scaled_lt ha hb)
  have := nearest_le (scaledNum a (keptExponent a b)) (scaledDen b (keptExponent a b))
  unfold significand
  omega

theorem le_significand {a b : Nat} (ha : 0 < a) (hb : 0 < b) (he : -1074 < keptExponent a b) :
    Nat.pow 2 52 ≤ significand a b := by
  have hden := scaledDen_pos hb (keptExponent a b)
  have hfloor : Nat.pow 2 52 ≤ scaledNum a (keptExponent a b) / scaledDen b (keptExponent a b) :=
    (Nat.le_div_iff_mul_le hden).2 (scaled_ge ha hb he)
  exact hfloor.trans (le_nearest _ _)

/-! ## What a rounding gives -/

/-- `x` is a non-negative finite double of value `v`. -/
def HasValue (x : Binary64) (v : ℚ) : Prop := ∃ m e, x.view = .finite false m e ∧ v = m * 2 ^ e

theorem HasValue.unique {x : Binary64} {v w : ℚ} (hv : x.HasValue v) (hw : x.HasValue w) :
    v = w := by
  obtain ⟨m, e, hx, rfl⟩ := hv
  obtain ⟨m', e', hx', rfl⟩ := hw
  rw [hx] at hx'
  cases hx'
  rfl

theorem view_infinity : (infinity false).view = .infinite false := by decide

/-- The fields of a non-negative pattern read back. -/
theorem view_ofFields {e f : Nat} (he : e < 2047) (hf : f < Nat.pow 2 52) :
    (ofFields false e f).view =
      if e = 0 then .finite false f (-1074)
      else .finite false (Nat.pow 2 52 + f) ((e : Int) - 1075) := by
  rw [Nat.pow_eq] at hf ⊢
  have hbits : (ofFields false e f).bits.toNat = e * 2 ^ 52 + f := by
    simp only [ofFields, Bool.false_eq_true, if_false, Nat.zero_add, Nat.pow_eq,
      UInt64.toNat_ofNat']
    exact Nat.mod_eq_of_lt (by omega)
  have hexp : (ofFields false e f).exponentField = e := by
    rw [exponentField, hbits, Nat.pow_eq, Nat.pow_eq, Nat.add_comm,
      Nat.add_mul_div_right _ _ (by omega), Nat.div_eq_of_lt hf, Nat.zero_add]
    exact Nat.mod_eq_of_lt (by omega)
  have hfrac : (ofFields false e f).fractionField = f := by
    rw [fractionField, hbits, Nat.pow_eq, Nat.add_comm, Nat.add_mul_mod_self_right]
    exact Nat.mod_eq_of_lt hf
  have hneg : (ofFields false e f).negative = false := by
    rw [negative, hbits, Nat.pow_eq]
    simp only [decide_eq_false_iff_not, not_le]
    omega
  have hfinite : e ≠ 2047 := by omega
  simp only [view, hexp, hfrac, hneg, Nat.pow_eq, hfinite, if_false]

/-- The exponent a rounding of `a / b` ends with, once a carry is moved into it. -/
def finalExponent (a b : Nat) : Int := (carry (significand a b) (keptExponent a b)).2

theorem finalExponent_eq_of_carry {a b : Nat} (h : significand a b = Nat.pow 2 53) :
    finalExponent a b = keptExponent a b + 1 := by
  simp [finalExponent, carry, h]

theorem finalExponent_eq_of_not_carry {a b : Nat} (h : significand a b ≠ Nat.pow 2 53) :
    finalExponent a b = keptExponent a b := by
  simp [finalExponent, carry, h]

/-- **Encoding a significand and exponent** gives `+∞` past the largest exponent, and otherwise
a double of their value, for a significand below `2^53` whose exponent is at least the lowest
one, and is the lowest one when the significand is below `2^52`. -/
theorem encode_cases {m : Nat} {e : Int} (hm : m < Nat.pow 2 53) (he : -1074 ≤ e)
    (hsub : m < Nat.pow 2 52 → e = -1074) :
    ((encode false (m, e)).view = .infinite false ∧ 971 < e) ∨
      (e ≤ 971 ∧ (encode false (m, e)).HasValue (m * 2 ^ e)) := by
  unfold encode
  dsimp only
  by_cases hinf : 971 < e
  · exact .inl ⟨by rw [if_pos hinf]; exact view_infinity, hinf⟩
  · refine .inr ⟨by omega, ?_⟩
    rw [if_neg hinf]
    by_cases hs : m < Nat.pow 2 52
    · rw [if_pos hs, hsub hs]
      exact ⟨m, -1074, by rw [view_ofFields (by decide) hs, if_pos rfl], rfl⟩
    · rw [if_neg hs]
      have hlt : m - Nat.pow 2 52 < Nat.pow 2 52 := by
        rw [Nat.pow_eq] at hm hs ⊢
        omega
      have hm' : Nat.pow 2 52 + (m - Nat.pow 2 52) = m := by
        rw [Nat.pow_eq] at hs ⊢
        omega
      have he' : (((e + 1075).toNat : Nat) : Int) - 1075 = e := by omega
      exact ⟨m, e, by rw [view_ofFields (by omega) hlt, if_neg (by omega), hm', he'], rfl⟩

/-- **A positive ratio rounds to `+∞` or to a finite double**, its significand times two to its
kept exponent; the exponent it ends with decides which. -/
theorem round_cases {a b : Nat} (ha : 0 < a) (hb : 0 < b) :
    ((round false a b).view = .infinite false ∧ 971 < finalExponent a b) ∨
      (finalExponent a b ≤ 971 ∧
        (round false a b).HasValue (significand a b * 2 ^ keptExponent a b)) := by
  rw [round_eq false ha.ne' hb.ne']
  have hle := significand_le ha hb
  have hge := keptExponent_ge a b
  by_cases hcarry : significand a b = Nat.pow 2 53
  · have hp : carry (significand a b) (keptExponent a b) =
        (Nat.pow 2 52, keptExponent a b + 1) := if_pos hcarry
    have hval : ((Nat.pow 2 52 : Nat) : ℚ) * 2 ^ (keptExponent a b + 1) =
        significand a b * 2 ^ keptExponent a b := by
      rw [hcarry, cast_two_pow, cast_two_pow, ← zpow_add₀ (by norm_num),
        ← zpow_add₀ (by norm_num)]
      congr 1
      omega
    rw [hp, finalExponent_eq_of_carry hcarry, ← hval]
    exact encode_cases (by decide) (by omega) fun h => absurd h (lt_irrefl _)
  · have hp : carry (significand a b) (keptExponent a b) = (significand a b, keptExponent a b) :=
      if_neg hcarry
    rw [hp, finalExponent_eq_of_not_carry hcarry]
    refine encode_cases (lt_of_le_of_ne hle hcarry) hge fun hsub => ?_
    by_contra hne
    have := le_significand ha hb (by omega)
    omega

/-! ## Rounding is monotone -/

theorem finalExponent_le (a b : Nat) : finalExponent a b ≤ keptExponent a b + 1 := by
  by_cases h : significand a b = Nat.pow 2 53
  · rw [finalExponent_eq_of_carry h]
  · rw [finalExponent_eq_of_not_carry h]
    omega

theorem le_finalExponent (a b : Nat) : keptExponent a b ≤ finalExponent a b := by
  by_cases h : significand a b = Nat.pow 2 53
  · rw [finalExponent_eq_of_carry h]
    omega
  · rw [finalExponent_eq_of_not_carry h]

/-- Two ratios scaled by one power of two compare as the ratios do. -/
theorem scaled_cross {a b c d : Nat} (hb : 0 < b) (hd : 0 < d) (h : (a : ℚ) / b ≤ c / d)
    (e : Int) : scaledNum a e * scaledDen d e ≤ scaledNum c e * scaledDen b e := by
  have hq : (scaledNum a e : ℚ) / scaledDen b e ≤ scaledNum c e / scaledDen d e := by
    rw [scaled_div a hb, scaled_div c hd]
    exact div_le_div_of_nonneg_right h (two_zpow_pos e).le
  rw [div_le_div_iff₀ (by exact_mod_cast scaledDen_pos hb e) (by exact_mod_cast scaledDen_pos hd e)]
    at hq
  exact_mod_cast hq

/-- At one kept exponent, a larger ratio keeps a significand no smaller. -/
theorem significand_mono {a b c d : Nat} (hb : 0 < b) (hd : 0 < d) (h : (a : ℚ) / b ≤ c / d)
    (he : keptExponent a b = keptExponent c d) : significand a b ≤ significand c d := by
  unfold significand
  rw [he]
  exact nearest_mono (scaledDen_pos hb _) (scaledDen_pos hd _) (scaled_cross hb hd h _)

/-- A larger ratio ends with an exponent no lower, and its significand and exponent stand for a
value no lower. -/
theorem rounded_mono {a b c d : Nat} (ha : 0 < a) (hb : 0 < b) (hc : 0 < c) (hd : 0 < d)
    (h : (a : ℚ) / b ≤ c / d) :
    finalExponent a b ≤ finalExponent c d ∧
      (significand a b : ℚ) * 2 ^ keptExponent a b ≤ significand c d * 2 ^ keptExponent c d := by
  have hke := keptExponent_mono ha hb hc hd h
  rcases lt_or_eq_of_le hke with hlt | heq
  · have hfull := le_significand hc hd (by have := keptExponent_ge a b; omega)
    have hsig := significand_le ha hb
    refine ⟨by linarith [finalExponent_le a b, le_finalExponent c d], ?_⟩
    have h2 : (2 : ℚ) ≠ 0 := by norm_num
    calc (significand a b : ℚ) * 2 ^ keptExponent a b
        ≤ ((Nat.pow 2 53 : Nat) : ℚ) * 2 ^ keptExponent a b := by
          gcongr
      _ = ((Nat.pow 2 52 : Nat) : ℚ) * 2 ^ (keptExponent a b + 1) := by
          rw [cast_two_pow, cast_two_pow, ← zpow_add₀ h2, ← zpow_add₀ h2]
          congr 1
          omega
      _ ≤ ((Nat.pow 2 52 : Nat) : ℚ) * 2 ^ keptExponent c d := by
          gcongr
          · norm_num
          · omega
      _ ≤ (significand c d : ℚ) * 2 ^ keptExponent c d := by
          gcongr
  · have hs := significand_mono hb hd h heq
    refine ⟨?_, ?_⟩
    · by_cases hcarry : significand a b = Nat.pow 2 53
      · have : significand c d = Nat.pow 2 53 := le_antisymm (significand_le hc hd) (hcarry ▸ hs)
        rw [finalExponent_eq_of_carry hcarry, finalExponent_eq_of_carry this, heq]
      · rw [finalExponent_eq_of_not_carry hcarry, heq]
        exact le_finalExponent c d
    · rw [heq]
      gcongr

/-- **Rounding is monotone**: when a ratio rounds to a finite double, every positive ratio
below it rounds to a finite double no larger. -/
theorem round_mono {a b c d : Nat} (ha : 0 < a) (hb : 0 < b) (hc : 0 < c) (hd : 0 < d)
    (h : (a : ℚ) / b ≤ c / d) {v : ℚ} (hv : (round false c d).HasValue v) :
    ∃ w, (round false a b).HasValue w ∧ w ≤ v := by
  have hfin : finalExponent c d ≤ 971 ∧
      (round false c d).HasValue (significand c d * 2 ^ keptExponent c d) := by
    rcases round_cases hc hd with ⟨hinf, -⟩ | hfin
    · obtain ⟨m, e, hview, -⟩ := hv
      rw [hinf] at hview
      cases hview
    · exact hfin
  obtain ⟨hexp, hval⟩ := rounded_mono ha hb hc hd h
  rw [hv.unique hfin.2]
  rcases round_cases ha hb with ⟨-, hinf⟩ | ⟨-, hw⟩
  · omega
  · exact ⟨_, hw, hval⟩

/-! ## Whole numbers -/

/-- A ratio that is a whole multiple of two to its kept exponent is kept exactly. -/
theorem significand_value_of_exact {a b N : Nat} (hb : 0 < b)
    (hN : scaledNum a (keptExponent a b) = N * scaledDen b (keptExponent a b)) :
    (significand a b : ℚ) * 2 ^ keptExponent a b = a / b := by
  have hden := scaledDen_pos hb (keptExponent a b)
  have hsig : significand a b = N := by
    unfold significand
    rw [hN]
    exact nearest_mul_self N hden
  have hq := scaled_div a hb (keptExponent a b)
  rw [hN, Nat.cast_mul, mul_div_assoc, div_self (by exact_mod_cast hden.ne'), mul_one] at hq
  rw [hsig, hq, div_mul_cancel₀ _ (two_zpow_pos _).ne']

theorem scaledDen_one {e : Int} (he : e ≤ 0) : scaledDen 1 e = 1 := by
  unfold scaledDen
  split
  · rename_i h
    rw [show e.toNat = 0 by omega]
  · rfl

/-- A whole number up to `2^53` lies in a binade no higher than the 53rd. -/
theorem floorLog2_le_of_le {n : Nat} (hpos : 0 < n) (hn : n ≤ Nat.pow 2 53) :
    floorLog2 n 1 ≤ 53 := by
  have h := (floorLog2_spec hpos Nat.one_pos).1
  have h53 : ((Nat.pow 2 53 : Nat) : ℚ) = 2 ^ (53 : Int) := cast_two_pow 53
  have hn' : (n : ℚ) / 1 ≤ 2 ^ (53 : Int) := by
    rw [div_one, ← h53]
    exact_mod_cast hn
  exact (zpow_le_zpow_iff_right₀ (by norm_num : (1 : ℚ) < 2)).1 (h.trans hn')

/-- A whole number up to `2^53` is a whole multiple of two to its kept exponent: the exponent is
at most zero, or one for `2^53` itself. -/
theorem scaled_exact {n : Nat} (hpos : 0 < n) (hn : n ≤ Nat.pow 2 53) :
    ∃ N, scaledNum n (keptExponent n 1) = N * scaledDen 1 (keptExponent n 1) := by
  have hk := floorLog2_le_of_le hpos hn
  by_cases he : keptExponent n 1 ≤ 0
  · exact ⟨scaledNum n (keptExponent n 1), by rw [scaledDen_one he, Nat.mul_one]⟩
  · have hkey := keptExponent_eq (a := n) (b := 1) (by omega)
    have he1 : keptExponent n 1 = 1 := by omega
    have hlow := (floorLog2_spec hpos Nat.one_pos).1
    have h53 : ((Nat.pow 2 53 : Nat) : ℚ) = 2 ^ (53 : Int) := cast_two_pow 53
    rw [show floorLog2 n 1 = 53 by omega, Nat.cast_one, div_one, ← h53] at hlow
    have hn53 : n = Nat.pow 2 53 := le_antisymm hn (by exact_mod_cast hlow)
    refine ⟨Nat.pow 2 52, ?_⟩
    rw [he1, hn53]
    decide

/-- **Whole numbers up to `2^53` are doubles.** -/
theorem ofNat_exact {n : Nat} (hn : n ≤ Nat.pow 2 53) : (ofNat n).HasValue n := by
  rcases Nat.eq_zero_or_pos n with rfl | hpos
  · exact ⟨0, -1074, by decide, by simp⟩
  obtain ⟨N, hN⟩ := scaled_exact hpos hn
  have hvalue := significand_value_of_exact Nat.one_pos hN
  rw [Nat.cast_one, div_one] at hvalue
  rcases round_cases hpos Nat.one_pos with ⟨-, hinf⟩ | ⟨-, hv⟩
  · have := finalExponent_le n 1
    have := keptExponent_eq (a := n) (b := 1)
    have := floorLog2_le_of_le hpos hn
    unfold keptExponent at *
    omega
  · rw [hvalue] at hv
    exact hv

/-- **A whole number rounds to no less than any whole number below it up to `2^53`**, which is
itself exact. -/
theorem le_of_ofNat_hasValue {L n : Nat} (hL : L ≤ Nat.pow 2 53) (hL0 : 0 < L) (hLn : L ≤ n)
    {v : ℚ} (hv : (ofNat n).HasValue v) : (L : ℚ) ≤ v := by
  have hle : (L : ℚ) / (1 : Nat) ≤ (n : ℚ) / (1 : Nat) := by
    rw [Nat.cast_one, div_one, div_one]
    exact_mod_cast hLn
  obtain ⟨w, hw, hwle⟩ := round_mono hL0 Nat.one_pos (by omega) Nat.one_pos hle hv
  rw [← (ofNat_exact hL).unique hw] at hwle
  exact hwle

/-! ## Order and product through values -/

theorem negative_of_view {x : Binary64} {n : Bool} {m : Nat} {e : Int}
    (h : x.view = .finite n m e) : x.negative = n := by
  unfold view at h
  simp only at h
  split_ifs at h <;> cases h <;> rfl

theorem negative_of_view_infinite {x : Binary64} {n : Bool} (h : x.view = .infinite n) :
    x.negative = n := by
  unfold view at h
  simp only at h
  split_ifs at h
  cases h
  rfl

theorem ratio_snd_pos (m : Nat) (e : Int) : 0 < (ratio m e).2 := by
  unfold ratio
  split
  · exact Nat.one_pos
  · rw [Nat.pow_eq]
    positivity

theorem ratio_div (m : Nat) (e : Int) : ((ratio m e).1 : ℚ) / (ratio m e).2 = m * 2 ^ e := by
  unfold ratio
  split
  · rename_i he
    rw [Nat.cast_one, div_one, Nat.cast_mul, cast_two_pow, Int.toNat_of_nonneg he]
  · rename_i he
    rw [cast_two_pow, Int.toNat_of_nonneg (by omega), zpow_neg, div_eq_mul_inv, inv_inv]

/-- **The order of finite doubles is the order of their values.** -/
theorem lt_iff_of_hasValue {x y : Binary64} {v w : ℚ} (hx : x.HasValue v) (hy : y.HasValue w) :
    lt x y = true ↔ v < w := by
  obtain ⟨m₁, e₁, hx, rfl⟩ := hx
  obtain ⟨m₂, e₂, hy, rfl⟩ := hy
  have hb₁ : (0 : ℚ) < (ratio m₁ e₁).2 := by exact_mod_cast ratio_snd_pos m₁ e₁
  have hb₂ : (0 : ℚ) < (ratio m₂ e₂).2 := by exact_mod_cast ratio_snd_pos m₂ e₂
  unfold lt
  rw [hx, hy]
  change decide ((ratio m₁ e₁).1 * (ratio m₂ e₂).2 < (ratio m₂ e₂).1 * (ratio m₁ e₁).2) = true ↔ _
  rw [decide_eq_true_iff, ← ratio_div m₁ e₁, ← ratio_div m₂ e₂, div_lt_div_iff₀ hb₁ hb₂]
  exact_mod_cast Iff.rfl

/-- Nothing is above `+∞`. -/
theorem lt_of_infinite {x : Binary64} (hx : x.view = .infinite false) (y : Binary64) :
    lt x y = false := by
  unfold lt
  rw [hx]
  cases y.view <;> rfl

/-- **Rounding keeps order**: a positive ratio never rounds below the rounding of a smaller
one. -/
theorem lt_round_eq_false {a b c d : Nat} (ha : 0 < a) (hb : 0 < b) (hc : 0 < c) (hd : 0 < d)
    (h : (a : ℚ) / b ≤ c / d) : lt (round false c d) (round false a b) = false := by
  rcases round_cases hc hd with ⟨hinf, -⟩ | ⟨-, hM⟩
  · exact lt_of_infinite hinf _
  · obtain ⟨w, hw, hwle⟩ := round_mono ha hb hc hd h hM
    cases hlt : lt (round false c d) (round false a b) with
    | false => rfl
    | true => exact absurd ((lt_iff_of_hasValue hM hw).1 hlt) (not_lt.2 hwle)

/-- **The product of finite doubles is their exact product rounded.** -/
theorem mul_of_hasValue {x y : Binary64} {v w : ℚ} (hx : x.HasValue v) (hy : y.HasValue w) :
    ∃ A B, 0 < B ∧ mul x y = round false A B ∧ (A : ℚ) / B = v * w := by
  obtain ⟨m₁, e₁, hx, rfl⟩ := hx
  obtain ⟨m₂, e₂, hy, rfl⟩ := hy
  refine ⟨(ratio m₁ e₁).1 * (ratio m₂ e₂).1, (ratio m₁ e₁).2 * (ratio m₂ e₂).2,
    Nat.mul_pos (ratio_snd_pos _ _) (ratio_snd_pos _ _), ?_, ?_⟩
  · unfold mul
    rw [hx, hy, negative_of_view hx, negative_of_view hy]
    rfl
  · rw [Nat.cast_mul, Nat.cast_mul, mul_div_mul_comm, ratio_div, ratio_div]

/-- A positive finite double times `+∞` is `+∞`. -/
theorem mul_infinite {x y : Binary64} {v : ℚ} (hx : x.HasValue v) (hv : 0 < v)
    (hy : y.view = .infinite false) : (mul x y).view = .infinite false := by
  obtain ⟨m, e, hx, rfl⟩ := hx
  have hm : m ≠ 0 := by
    rintro rfl
    simp at hv
  unfold mul
  rw [hx, hy, negative_of_view hx, negative_of_view_infinite hy]
  simp only [hm, if_false]
  exact view_infinity

/-- `+∞` times a positive finite double, or times `+∞`, is `+∞`. -/
theorem infinite_mul {x y : Binary64} (hx : x.view = .infinite false)
    (hy : y.view = .infinite false ∨ ∃ w, y.HasValue w ∧ 0 < w) :
    (mul x y).view = .infinite false := by
  rcases hy with hy | ⟨w, ⟨m, e, hy, rfl⟩, hw⟩
  · unfold mul
    rw [hx, hy, negative_of_view_infinite hx, negative_of_view_infinite hy]
    exact view_infinity
  · have hm : m ≠ 0 := by
      rintro rfl
      simp at hw
    unfold mul
    rw [hx, hy, negative_of_view_infinite hx, negative_of_view hy]
    simp only [hm, if_false]
    exact view_infinity

end Launcher.Binary64
