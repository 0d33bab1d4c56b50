import Launcher.Number.Decimal

/-!
# JSON documents

Requests, journal lines and config files are JSON. A document is kept as the reader saw it:

* `Number` — a numeral classified the way the reader does: a whole number below `2^64`, a negative
  whole number from `-2^63`, or anything else as a double;
* `Value` — null, booleans, numbers, strings, arrays, and objects as lists of key/value pairs in
  document order, repeated keys included;
* `Value.settle` — the sorted view of a document, where each object holds every key once (the
  last occurrence wins) in increasing key order; documents embedded in requests are seen this way.
-/

namespace Launcher.Json

/-- A JSON numeral as the reader classifies it. -/
inductive Number where
  /-- a whole number from `0` to `2^64 - 1` -/
  | nat (n : Nat)
  /-- a negative whole number from `-2^63` -/
  | neg (n : Int)
  /-- any other numeral, rounded to a double -/
  | real (x : Binary64)
  deriving DecidableEq, Inhabited

/-- A JSON document. Objects keep their pairs in document order, repeated keys included. -/
inductive Value where
  | null
  | bool (b : Bool)
  | number (n : Number)
  | string (s : String)
  | array (items : List Value)
  | object (entries : List (String × Value))
  deriving Inhabited

namespace Value

/-- A whole number as a document: non-negative ones as `nat`, negative ones as `neg`. -/
def ofInt (i : Int) : Value := if i ≥ 0 then .number (.nat i.toNat) else .number (.neg i)

/-- A natural number as a document. -/
def ofNat (n : Nat) : Value := .number (.nat n)

/-- A string or null. -/
def ofOption (s : Option String) : Value :=
  match s with
  | some t => .string t
  | none => .null

/-- The value of the last pair with key `key`. -/
def lookup (entries : List (String × Value)) (key : String) : Option Value :=
  (entries.reverse.find? (·.1 == key)).map (·.2)

/-- The value stored under `key` in an object (the last one when the key repeats). -/
def field? (v : Value) (key : String) : Option Value :=
  match v with
  | .object entries => lookup entries key
  | _ => none

/-- Insert a pair into a key-sorted list holding each key once, replacing an equal key. -/
def insertSorted (kv : String × Value) : List (String × Value) → List (String × Value)
  | [] => [kv]
  | (k, w) :: rest =>
    if kv.1 < k then kv :: (k, w) :: rest
    else if kv.1 == k then kv :: rest
    else (k, w) :: insertSorted kv rest

mutual
/-- The sorted view of a document: every object holds each key once, the last occurrence
winning, in increasing key order. -/
def settle : Value → Value
  | .array items => .array (settleItems items)
  | .object entries => .object (settleEntries entries [])
  | v => v

/-- `settle` on each item. -/
def settleItems : List Value → List Value
  | [] => []
  | v :: rest => settle v :: settleItems rest

/-- Insert each pair, settled, into the sorted accumulator. -/
def settleEntries : List (String × Value) → List (String × Value) → List (String × Value)
  | [], acc => acc
  | (k, v) :: rest, acc => settleEntries rest (insertSorted (k, settle v) acc)
end

end Value

end Launcher.Json
