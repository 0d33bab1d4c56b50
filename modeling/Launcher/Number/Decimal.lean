import Launcher.Number.Binary64

/-!
# Decimal text of doubles

Two printed forms of a double share one digit rule and differ in layout:

* `Binary64.shortest` — the fewest significant decimal digits that round back to the same double,
  the nearer of two candidates of that length when both qualify;
* `Layout` — where a printer switches to exponent notation, whether a whole number keeps `.0`,
  and how the exponent is marked; `Layout.json` is the form of JSON documents and error texts,
  `Layout.plain` never uses an exponent;
* `Binary64.scaled` — how the JSON reader turns a significand and a decimal exponent into a
  double: the significand rounded once, then multiplied or divided by one rounded power of ten.
-/

namespace Launcher

namespace Binary64

/-- Number of decimal digits of a whole number (one for zero). -/
def decimalLength (n : Nat) : Nat := (Nat.toDigits 10 n).length

/-- `floor (log10 (a / b))` for positive `a` and `b`. -/
def floorLog10 (a b : Nat) : Int :=
  let p : Int := (decimalLength a : Int) - decimalLength b
  let reaches := if p ≥ 0 then a ≥ b * Nat.pow 10 p.toNat else a * Nat.pow 10 (-p).toNat ≥ b
  if reaches then p else p - 1

/-- Compare `d · 10^k` with `x · 2^s`. -/
def compareScaled (d : Nat) (k : Int) (x : Nat) (s : Int) : Ordering :=
  let l := d * Nat.pow 10 (max k 0).toNat * Nat.pow 2 (max (-s) 0).toNat
  let r := x * Nat.pow 2 (max s 0).toNat * Nat.pow 10 (max (-k) 0).toNat
  compare l r

/-- Digits and exponent with no trailing zero in the digits. -/
def stripZeros : Nat → Int → Nat → Nat × Int
  | d, k, 0 => (d, k)
  | d, k, fuel + 1 => if d ≠ 0 ∧ d % 10 = 0 then stripZeros (d / 10) (k + 1) fuel else (d, k)

/-- The shortest decimal `d · 10^k` that rounds to the positive double `m · 2^e` (`m > 0`).

The doubles' rounding interval around `m · 2^e` reaches half a spacing to either side (a quarter
below a power of two, where the spacing below halves) and includes its ends exactly when `m` is
even. For 1, 2, … 17 digits, the two neighbours of the value on that decimal grid are tried: the
first length with a neighbour inside wins, the nearer neighbour when both are, and the one with
the even last digit on a tie. Seventeen digits always suffice. -/
def shortest (m : Nat) (e : Int) : Nat × Int :=
  let s := e - 2
  let x := 4 * m
  let lowGap := if m = Nat.pow 2 52 ∧ e > -1074 then 1 else 2
  let lo := x - lowGap
  let hi := x + 2
  let closed := m % 2 = 0
  let inside (d : Nat) (k : Int) : Bool :=
    match compareScaled d k lo s, compareScaled d k hi s with
    | .gt, .lt => true
    | .eq, _ => closed
    | _, .eq => closed
    | _, _ => false
  let (vn, vd) := ratio x s
  let p := floorLog10 vn vd
  let rec search : Nat → Nat → Nat × Int
    | 0, _ => (0, 0)
    | fuel + 1, n =>
      let k := p - n + 1
      let below := if k ≥ 0 then vn / (vd * Nat.pow 10 k.toNat) else vn * Nat.pow 10 (-k).toNat / vd
      let above := below + 1
      match inside below k, inside above k with
      | true, true =>
        -- distance of each neighbour from the value, on the common grid
        let gapBelow := vn * Nat.pow 10 (max (-k) 0).toNat - below * vd * Nat.pow 10 (max k 0).toNat
        let gapAbove := above * vd * Nat.pow 10 (max k 0).toNat - vn * Nat.pow 10 (max (-k) 0).toNat
        if gapBelow < gapAbove then (below, k)
        else if gapAbove < gapBelow then (above, k)
        else if below % 2 = 0 then (below, k) else (above, k)
      | true, false => (below, k)
      | false, true => (above, k)
      | false, false => search fuel (n + 1)
  let (d, k) := search 17 1
  stripZeros d k 20

/-- Where a printer places the decimal point and whether it writes an exponent. -/
structure Layout where
  /-- `x · 10^kk` with `10^(kk-1) ≤ x < 10^kk` is written without exponent for
  `lowest < kk ≤ highest` -/
  lowest : Int
  /-- see `lowest` -/
  highest : Int
  /-- whether a whole number written without exponent ends in `.0` -/
  pointZero : Bool
  /-- the mark written before a non-negative exponent -/
  plusMark : String
  /-- the text of zero (without sign) -/
  zeroText : String
  /-- the texts of NaN and of a positive infinity -/
  nanText : String
  /-- see `nanText` -/
  infText : String

/-- JSON documents and the number shown in decoding errors: positional from `1e-5` up to below
`1e16`, whole numbers keep `.0`, exponents carry a sign (`1e-7`, `1.8446744073709552e+19`). -/
def Layout.json : Layout :=
  { lowest := -5, highest := 16, pointZero := true, plusMark := "+", zeroText := "0.0",
    nanText := "NaN", infText := "inf" }

/-- The plain form used in messages: never an exponent, no `.0` on whole numbers
(`0.0000001`, `1000000000000000000000`, `-0`). -/
def Layout.plain : Layout :=
  { lowest := -100000, highest := 100000, pointZero := false, plusMark := "",
    zeroText := "0", nanText := "NaN", infText := "inf" }

/-- `n` copies of `0`. -/
def zeros (n : Nat) : String := String.ofList (List.replicate n '0')

/-- The digits `d · 10^k` (with `d > 0`) laid out by `layout`, without sign. -/
def Layout.digits (layout : Layout) (d : Nat) (k : Int) : String :=
  let ds := Nat.toDigits 10 d
  let len : Int := ds.length
  let kk := len + k
  if layout.lowest < kk ∧ kk ≤ layout.highest then
    if k ≥ 0 then
      String.ofList ds ++ zeros k.toNat ++ (if layout.pointZero then ".0" else "")
    else if kk > 0 then
      String.ofList (ds.take kk.toNat) ++ "." ++ String.ofList (ds.drop kk.toNat)
    else
      "0." ++ zeros (-kk).toNat ++ String.ofList ds
  else
    let mantissa :=
      match ds with
      | [] => ""
      | [c] => String.singleton c
      | c :: rest => String.singleton c ++ "." ++ String.ofList rest
    let x := kk - 1
    mantissa ++ "e" ++ (if x < 0 then "-" else layout.plusMark) ++ toString x.natAbs

/-- A double written in `layout`. -/
def Layout.render (layout : Layout) (x : Binary64) : String :=
  match x.view with
  | .nan => layout.nanText
  | .infinite n => (if n then "-" else "") ++ layout.infText
  | .finite n m e =>
    let sign := if n then "-" else ""
    if m = 0 then sign ++ layout.zeroText
    else
      let (d, k) := shortest m e
      sign ++ layout.digits d k

/-- The double nearest to `10^k`. -/
def powerOfTen (k : Nat) : Binary64 := round false (Nat.pow 10 k) 1

/-- The JSON reader's value of `significand · 10^exponent` (`significand < 2^64`): the significand
is rounded to a double once, then multiplied by the double nearest `10^exponent` or divided by the
one nearest `10^-exponent`. Exponents beyond `±308` divide by `1e308` first; a product that
overflows, or a positive exponent beyond 308 with a non-zero significand, is out of range
(`none`). After two divisions by `1e308` any significand is zero, which bounds the loop. -/
def scaled (negative : Bool) (significand : Nat) (exponent : Int) : Option Binary64 :=
  let rec go : Nat → Binary64 → Int → Option Binary64
    | 0, f, _ => some f
    | fuel + 1, f, ex =>
      if ex.natAbs ≤ 308 then
        let pow := powerOfTen ex.natAbs
        if ex ≥ 0 then
          let g := mul f pow
          if g.isFinite then some g else none
        else some (div f pow)
      else if f.view == .finite false 0 (-1074) then some f
      else if ex ≥ 0 then none
      else go fuel (div f (powerOfTen 308)) (ex + 308)
  (go 4 (ofNat significand) exponent).map fun f => if negative then f.neg else f

end Binary64

end Launcher
