import Launcher.Number.Binary64

/-!
# Similar names

When a command line names a subcommand or an option that does not exist, the closest existing
names are suggested. Closeness is the Jaro similarity of the two names,

  `sim = (m / |a| + m / |b| + (m - t) / m) / 3`,

where `m` counts the characters of `a` that match an equal, not yet matched character of `b`
at most `max |a| |b| / 2 - 1` positions away, and `t` is half the number of matched pairs that
appear in a different order. A name is suggested when `sim > 0.7`, where `sim` is computed
in doubles, each division and sum rounded: a similarity of exactly `7/10` can land on either
side of the bar, so the comparison is made on those rounded values and not on the fraction.

* `Jaro` — the three counts `m`, `t` and the lengths; `Jaro.score` the rounded similarity;
* `similar` — every candidate above the bar, least similar first;
* `suggestion` — the most similar candidate above the bar; of equally similar ones, the last.
-/

namespace Launcher.Cli

/-- The counts behind a Jaro similarity. -/
structure Jaro where
  matched : Nat
  transpositions : Nat
  left : Nat
  right : Nat
  deriving DecidableEq, Inhabited

/-- The first index in `[lo, hi)` of `b` whose character is `c` and not yet taken. -/
def freeMatch (c : Char) (lo hi : Nat) (b : List Char) (taken : List Bool) : Option Nat :=
  ((List.range hi).drop lo).find? fun j => b.getD j ' ' == c && !taken.getD j true

/-- Match every character of `a` against `b` in turn: which positions of `a` and of `b` took
part in a match. -/
def matchAll (a b : List Char) (range : Nat) : List Bool × List Bool :=
  let (flagsA, flagsB) := a.zipIdx.foldl (fun (fa, fb) (c, i) =>
    match freeMatch c (i - range) (min b.length (i + range + 1)) b fb with
    | some j => (fa ++ [true], fb.set j true)
    | none => (fa ++ [false], fb)) (([] : List Bool), List.replicate b.length false)
  (flagsA, flagsB)

/-- The characters at the marked positions, in order. -/
def marked (cs : List Char) (flags : List Bool) : List Char :=
  (cs.zip flags).filterMap fun (c, f) => if f then some c else none

/-- The counts of the similarity of two names. -/
def Jaro.of (a b : String) : Jaro :=
  let a := a.toList
  let b := b.toList
  let range := max a.length b.length / 2 - 1
  let (fa, fb) := matchAll a b range
  let ma := marked a fa
  let mb := marked b fb
  { matched := ma.length,
    transpositions := ((ma.zip mb).filter fun (x, y) => x != y).length / 2,
    left := a.length, right := b.length }

/-- The similarity as a double, computed the way the formula reads with every step rounded:
`((m / |a| + m / |b|) + (m - t) / m) / 3`. Two empty names score 1, and an empty name
against a non-empty one, or two names without a match, score 0. -/
def Jaro.score (j : Jaro) : Binary64 :=
  if j.left == 0 && j.right == 0 then Binary64.ofNat 1
  else if j.left == 0 || j.right == 0 || j.matched == 0 then Binary64.ofNat 0
  else
    let m := Binary64.ofNat j.matched
    let x := Binary64.div m (Binary64.ofNat j.left)
    let y := Binary64.div m (Binary64.ofNat j.right)
    let z := Binary64.div (Binary64.ofNat (j.matched - j.transpositions)) m
    Binary64.div (Binary64.add (Binary64.add x y) z) (Binary64.ofNat 3)

/-- The bar a similarity has to pass: the double nearest to `0.7`. -/
def similarityBar : Binary64 := Binary64.round false 7 10

/-- Whether a similarity is above the bar. Rounding decides the ties: a similarity of exactly
`7/10` mostly rounds to just above the bar, so it counts as close. -/
def Jaro.close (j : Jaro) : Bool := Binary64.lt similarityBar j.score

/-- The candidates close enough to a name, least similar first; equally similar candidates keep
their order. -/
def similar (name : String) (candidates : List String) : List String :=
  let close := candidates.filterMap fun c =>
    let j := Jaro.of name c
    if j.close then some (c, j.score) else none
  (close.mergeSort fun p q => !Binary64.lt q.2 p.2).map (·.1)

/-- The candidate most similar to a name, if any is close enough; of equally similar ones the
later wins. -/
def suggestion (name : String) (candidates : List String) : Option String :=
  (similar name candidates).getLast?

end Launcher.Cli
