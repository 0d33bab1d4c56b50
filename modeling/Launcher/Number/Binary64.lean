/-!
# Double-precision numbers by their bit pattern

Config thresholds are IEEE 754 binary64 values. They are kept as their 64-bit pattern and every
operation the program needs is done in exact `Nat` arithmetic, so no runtime float stands between
a statement and its proof:

* `Binary64.view` — a pattern read as NaN, a signed infinity or a signed `m · 2^e`;
* `Binary64.round` — the double nearest to a non-negative ratio, ties to even, overflow to
  infinity, gradual underflow below `2^-1022`;
* `Binary64.add`, `Binary64.mul`, `Binary64.div`, `Binary64.lt` — the correctly rounded sum,
  product and quotient and the ordering, as IEEE 754 defines them;
* `Binary64.ofNat` — a whole number rounded to the nearest double.
-/

namespace Launcher

/-- A double-precision number, by its IEEE 754 bit pattern. -/
structure Binary64 where
  /-- the sign bit, the eleven exponent bits and the 52 fraction bits -/
  bits : UInt64
  deriving DecidableEq, Inhabited

namespace Binary64

/-- What a bit pattern stands for: NaN, an infinity, or `±m · 2^e` with `m < 2^53`. -/
inductive View where
  | nan
  | infinite (negative : Bool)
  | finite (negative : Bool) (m : Nat) (e : Int)
  deriving DecidableEq, Inhabited

/-- The sign bit. -/
def negative (x : Binary64) : Bool := x.bits.toNat ≥ Nat.pow 2 63

/-- The eleven exponent bits as a number. -/
def exponentField (x : Binary64) : Nat := (x.bits.toNat / Nat.pow 2 52) % Nat.pow 2 11

/-- The 52 fraction bits as a number. -/
def fractionField (x : Binary64) : Nat := x.bits.toNat % Nat.pow 2 52

/-- A pattern read as a number: the all-ones exponent marks infinities (fraction zero) and NaNs,
the zero exponent marks subnormals `f · 2^-1074`, and every other exponent `E` stands for
`(2^52 + f) · 2^(E - 1075)`. -/
def view (x : Binary64) : View :=
  let e := x.exponentField
  let f := x.fractionField
  if e = 2047 then (if f = 0 then .infinite x.negative else .nan)
  else if e = 0 then .finite x.negative f (-1074)
  else .finite x.negative (Nat.pow 2 52 + f) ((e : Int) - 1075)

/-- The pattern of a sign, an exponent field and a fraction field. -/
def ofFields (negative : Bool) (e f : Nat) : Binary64 :=
  ⟨UInt64.ofNat ((if negative then Nat.pow 2 63 else 0) + e * Nat.pow 2 52 + f)⟩

/-- The quiet NaN that arithmetic produces. -/
def nan : Binary64 := ofFields false 2047 (Nat.pow 2 51)

/-- Infinity of the given sign. -/
def infinity (negative : Bool) : Binary64 := ofFields negative 2047 0

/-- Zero of the given sign. -/
def zero (negative : Bool) : Binary64 := ofFields negative 0 0

/-- The same number with the sign bit flipped. -/
def neg (x : Binary64) : Binary64 := ⟨x.bits ^^^ UInt64.ofNat (Nat.pow 2 63)⟩

/-- Whether a pattern is a NaN. -/
def isNaN (x : Binary64) : Bool := x.view == .nan

/-- Whether a pattern is neither NaN nor infinite. -/
def isFinite (x : Binary64) : Bool :=
  match x.view with
  | .finite .. => true
  | _ => false

/-- `floor (log2 (a / b))` for positive `a` and `b`. -/
def floorLog2 (a b : Nat) : Int :=
  let k : Int := (Nat.log2 a : Int) - Nat.log2 b
  let reaches := if k ≥ 0 then a ≥ b * Nat.pow 2 k.toNat else a * Nat.pow 2 (-k).toNat ≥ b
  if reaches then k else k - 1

/-- Round the quotient `q + r / d` (with `r < d`) to a whole number, a half going to the even
neighbour. -/
def roundHalfEven (q r d : Nat) : Nat :=
  if 2 * r > d then q + 1
  else if 2 * r < d then q
  else if q % 2 = 0 then q else q + 1

/-- The double nearest to `a / b` (for `b > 0`), with the given sign: the significand keeps 53
bits, ties go to the even significand, values from `2^1024` on (after rounding) become infinite,
and below `2^-1022` the spacing stays `2^-1074`. -/
def round (negative : Bool) (a b : Nat) : Binary64 :=
  if a = 0 ∨ b = 0 then zero negative else
  let e : Int := max (floorLog2 a b - 52) (-1074)
  -- `a / b = (q + r / d) · 2^e`
  let num := if e ≥ 0 then a else a * Nat.pow 2 (-e).toNat
  let den := if e ≥ 0 then b * Nat.pow 2 e.toNat else b
  let m := roundHalfEven (num / den) (num % den) den
  -- rounding up may carry into a 54th bit
  let (m, e) := if m = Nat.pow 2 53 then (Nat.pow 2 52, e + 1) else (m, e)
  if e > 971 then infinity negative
  else if m < Nat.pow 2 52 then ofFields negative 0 m
  else ofFields negative (e + 1075).toNat (m - Nat.pow 2 52)

/-- The double nearest to a whole number. -/
def ofNat (n : Nat) : Binary64 := round false n 1

/-- A finite value as a signed ratio `numerator / denominator` of whole numbers. -/
def ratio (m : Nat) (e : Int) : Nat × Nat :=
  if e ≥ 0 then (m * Nat.pow 2 e.toNat, 1) else (m, Nat.pow 2 (-e).toNat)

/-- The IEEE product, rounded to nearest. -/
def mul (x y : Binary64) : Binary64 :=
  let s := x.negative != y.negative
  match x.view, y.view with
  | .nan, _ => nan
  | _, .nan => nan
  | .infinite _, .finite _ m _ => if m = 0 then nan else infinity s
  | .finite _ m _, .infinite _ => if m = 0 then nan else infinity s
  | .infinite _, .infinite _ => infinity s
  | .finite _ m1 e1, .finite _ m2 e2 =>
    let (a1, b1) := ratio m1 e1
    let (a2, b2) := ratio m2 e2
    round s (a1 * a2) (b1 * b2)

/-- The IEEE sum, rounded to nearest: the exact sum of the two values rounded once; a sum of
opposite infinities is NaN, and an exact zero from values of opposite signs is `+0`. -/
def add (x y : Binary64) : Binary64 :=
  match x.view, y.view with
  | .nan, _ => nan
  | _, .nan => nan
  | .infinite n1, .infinite n2 => if n1 == n2 then infinity n1 else nan
  | .infinite n, .finite .. => infinity n
  | .finite .., .infinite n => infinity n
  | .finite n1 m1 e1, .finite n2 m2 e2 =>
    let (a1, b1) := ratio m1 e1
    let (a2, b2) := ratio m2 e2
    let l := a1 * b2
    let r := a2 * b1
    if n1 == n2 then round n1 (l + r) (b1 * b2)
    else if l = r then zero false
    else if l > r then round n1 (l - r) (b1 * b2)
    else round n2 (r - l) (b1 * b2)

/-- The IEEE quotient, rounded to nearest. -/
def div (x y : Binary64) : Binary64 :=
  let s := x.negative != y.negative
  match x.view, y.view with
  | .nan, _ => nan
  | _, .nan => nan
  | .infinite _, .infinite _ => nan
  | .infinite _, .finite _ _ _ => infinity s
  | .finite _ _ _, .infinite _ => zero s
  | .finite _ m1 e1, .finite _ m2 e2 =>
    if m2 = 0 then (if m1 = 0 then nan else infinity s) else
    let (a1, b1) := ratio m1 e1
    let (a2, b2) := ratio m2 e2
    round s (a1 * b2) (b1 * a2)

/-- The order of two finite values given as signed ratios. -/
def ratioLt (n1 : Bool) (a1 b1 : Nat) (n2 : Bool) (a2 b2 : Nat) : Bool :=
  let l := a1 * b2
  let r := a2 * b1
  match n1, n2 with
  | false, false => l < r
  | true, true => r < l
  | true, false => !(l == 0 && r == 0)
  | false, true => false

/-- IEEE "less than": false whenever a NaN is involved, and the two zeros are equal. -/
def lt (x y : Binary64) : Bool :=
  match x.view, y.view with
  | .nan, _ => false
  | _, .nan => false
  | .infinite n1, .infinite n2 => n1 && !n2
  | .infinite n1, .finite .. => n1
  | .finite .., .infinite n2 => !n2
  | .finite n1 m1 e1, .finite n2 m2 e2 =>
    let (a1, b1) := ratio m1 e1
    let (a2, b2) := ratio m2 e2
    ratioLt n1 a1 b1 n2 a2 b2

/-- IEEE equality: NaN equals nothing, and the two zeros are equal. -/
def eqv (x y : Binary64) : Bool :=
  !x.isNaN && !y.isNaN && !lt x y && !lt y x

/-- The larger of two numbers, for a left operand that is not NaN: the right one when the left
is below it. -/
def atLeast (x floor : Binary64) : Binary64 := if lt x floor then floor else x

end Binary64

end Launcher
