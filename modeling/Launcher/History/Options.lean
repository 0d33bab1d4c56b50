import Launcher.Number.Binary64

/-!
# History options

How much history is kept and how strongly it lifts results:

* `HistoryOptions` — capacity, the boost's ceiling and half-way count, and the journal's
  compaction threshold (a double, as configured);
* `HistoryOptions.normalized` — a threshold that is not a number becomes the default 2, and one
  below 1.5 is raised to 1.5, so a selection never forces a full rewrite;
* `historyBoost` — `cap · n / (n + half)`: zero without selections, rising with each one and
  levelling off below the cap (`historyBoost_le_cap`).
-/

namespace Launcher

/-- The default compaction threshold, 2. -/
def defaultCompactThreshold : Binary64 := Binary64.ofNat 2

/-- The lowest compaction threshold accepted, 1.5. -/
def minCompactThreshold : Binary64 := Binary64.round false 3 2

/-- How much history is kept and how it is weighed. -/
structure HistoryOptions where
  capacity : Nat := 1000
  boostCap : Int := 300
  boostHalfCount : Nat := 3
  compactThreshold : Binary64 := defaultCompactThreshold
  deriving Inhabited

namespace HistoryOptions

/-- Options with a usable compaction threshold. -/
def normalized (o : HistoryOptions) : HistoryOptions :=
  { o with
    compactThreshold :=
      if o.compactThreshold.isNaN then defaultCompactThreshold
      else o.compactThreshold.atLeast minCompactThreshold }

/-- The number of entries actually kept: at least one. -/
def slots (o : HistoryOptions) : Nat := max o.capacity 1

end HistoryOptions

/-- The largest signed 64-bit value, where products saturate. -/
def wordMax : Int := Nat.pow 2 63 - 1

/-- Multiply two signed 64-bit values, stopping at the largest or smallest one. -/
def saturatingMul (a b : Int) : Int := max (-(Nat.pow 2 63)) (min wordMax (a * b))

/-- Add two signed 64-bit values, stopping at the largest or smallest one. -/
def saturatingAdd (a b : Int) : Int := max (-(Nat.pow 2 63)) (min wordMax (a + b))

/-- The ranking bonus of a result selected `count` times: `cap · count / (count + half)` with
the product saturated, zero without selections or without a positive cap. -/
def historyBoost (count : Nat) (cap : Int) (half : Nat) : Int :=
  if count = 0 ∨ cap ≤ 0 then 0
  else saturatingMul cap count / (count + max half 1 : Nat)

/-- The bonus never exceeds the cap. -/
theorem historyBoost_le_cap (count : Nat) (cap : Int) (half : Nat) (h : 0 ≤ cap) :
    historyBoost count cap half ≤ cap := by
  unfold historyBoost
  split
  · exact h
  · rename_i hc
    have hn : 0 < count := by omega
    have hd : (0 : Int) < ((count + max half 1 : Nat) : Int) := by omega
    have hm : 0 ≤ cap * count := Int.mul_nonneg h (by omega)
    have hp : saturatingMul cap count ≤ cap * count := by
      unfold saturatingMul wordMax; omega
    have hq : cap * count / ((count + max half 1 : Nat) : Int) ≤ cap := by
      apply Int.ediv_le_of_le_mul hd
      have : (count : Int) ≤ ((count + max half 1 : Nat) : Int) := by omega
      exact Int.mul_le_mul_of_nonneg_left this h
    exact Int.le_trans (Int.ediv_le_ediv hd hp) hq

end Launcher
