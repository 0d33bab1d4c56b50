import Launcher.Json.Write
import Launcher.Text.Quoted

/-!
# Shapes of typed documents

The program's records travel as JSON. A `Shape` says what a document must look like to stand for
a value of one of its types, and `Shape.decode` checks a document against it:

* scalars (`text`, `flag`, `whole` of a given width, `real`), any document (`any`), a possibly
  null value (`maybe`), a list (`list`);
* `record` — an object whose known keys each appear at most once, required fields present,
  missing optional ones filled with their default, unknown keys ignored; an array is also read
  positionally; a record may pass all its unknown keys on to a `flat` part;
* `tagged` — an object whose `tag` key names the variant, the other keys forming the variant's
  content (an array holds the tag first).

The keys a record passes on to its `flat` part, and a variant's content, are read from a buffer
of what was already parsed. A tag read from a buffer may also be a variant's position (`0` for the
first). A buffered array must be used up: a record read from it by position with elements to spare
fails with `invalid length 3, expected 2 elements in sequence`, and so does a variant without
content that is given any (`expected 0 elements`), where an array read directly reports `fewer
elements in array`.

A successful check returns the document in *canonical form*: records list every field in
declared order, defaults included, which is what the typed readers of each record build from.
Failures are described with the wording users see (`missing field `id``, `invalid type: null,
expected a string`, …).
-/

namespace Launcher.Json

/-- Whole-number types and their ranges. -/
inductive Width where
  | i64 | u64 | u32 | usize
  deriving DecidableEq, Inhabited

/-- The name of a width in messages. -/
def Width.name : Width → String
  | .i64 => "i64"
  | .u64 => "u64"
  | .u32 => "u32"
  | .usize => "usize"

/-- Whether a whole number fits a width. -/
def Width.fits (w : Width) (i : Int) : Bool :=
  match w with
  | .i64 => -(Nat.pow 2 63) ≤ i && i < Nat.pow 2 63
  | .u64 | .usize => 0 ≤ i && i < Nat.pow 2 64
  | .u32 => 0 ≤ i && i < Nat.pow 2 32

/-- What a document must look like. Fields of a record are `(name, shape, default)`, where a
missing default makes the field required. Variants of a tagged union are `(name, content)`, where
no content means the variant carries nothing. -/
inductive Shape where
  | text (expecting : String)
  | flag
  | whole (width : Width)
  | real
  | any
  | maybe (inner : Shape)
  | list (item : Shape)
  | record (expecting : String) (fields : List (String × Shape × Option Value))
      (flat : Option Shape)
  | tagged (name : String) (tag : String) (variants : List (String × Option Shape))
  deriving Inhabited

/-- How a document is described when it is not what was expected. -/
def Value.unexpected : Value → String
  | .null => "null"
  | .bool b => s!"boolean `{b}`"
  | .number (.nat n) => s!"integer `{n}`"
  | .number (.neg n) => s!"integer `{n}`"
  | .number (.real x) => s!"floating point `{Binary64.Layout.json.render x}`"
  | .string s => "string " ++ Text.quoted s
  | .array _ => "sequence"
  | .object _ => "map"

/-- The message for a document of the wrong kind. -/
def invalidType (v : Value) (expecting : String) : String :=
  s!"invalid type: {v.unexpected}, expected {expecting}"

/-- The message for a whole number out of range. -/
def invalidValue (n : Int) (expecting : String) : String :=
  s!"invalid value: integer `{n}`, expected {expecting}"

/-- The message for a missing field. -/
def missingField (name : String) : String := s!"missing field `{name}`"

/-- The message for a repeated field. -/
def duplicateField (name : String) : String := s!"duplicate field `{name}`"

/-- The list of variant names in an unknown-variant message. -/
def oneOf (names : List String) : String :=
  match names with
  | [] => "nothing"
  | [a] => s!"`{a}`"
  | [a, b] => s!"`{a}` or `{b}`"
  | _ => "one of " ++ ", ".intercalate (names.map fun n => s!"`{n}`")

/-- The message for a tag that names no variant. -/
def unknownVariant (name : String) (names : List String) : String :=
  if names.isEmpty then s!"unknown variant `{name}`, there are no variants"
  else s!"unknown variant `{name}`, expected {oneOf names}"

/-- The expectation of a record read from `n` positions. -/
def withElements (expecting : String) (n : Nat) : String :=
  if n = 1 then s!"{expecting} with 1 element" else s!"{expecting} with {n} elements"

/-- The message for a list of the wrong length. -/
def invalidLength (n : Nat) (expecting : String) : String :=
  s!"invalid length {n}, expected {expecting}"

/-- The expectation of a buffered array of which `n` elements were used. -/
def inSequence (n : Nat) : String :=
  if n = 1 then "1 element in sequence" else s!"{n} elements in sequence"

/-- The message for an array with elements left over: `used` of them were read, and a buffered
array counts what was used where a direct one asks for fewer. -/
def leftOver (buffered : Bool) (used extra : Nat) : String :=
  invalidLength (used + extra) (if buffered then inSequence used else "fewer elements in array")

/-- What a shape expects, in messages. -/
def Shape.expecting : Shape → String
  | .text e => e
  | .flag => "a boolean"
  | .whole w => w.name
  | .real => "f64"
  | .any => "any valid JSON value"
  | .maybe _ => "option"
  | .list _ => "a sequence"
  | .record e _ _ => e
  | .tagged n _ _ => s!"internally tagged enum {n}"

/-- Read a whole number of a width. -/
def decodeWhole (w : Width) (v : Value) : Except String Value :=
  match v with
  | .number (.nat n) => if w.fits n then .ok v else .error (invalidValue n w.name)
  | .number (.neg n) => if w.fits n then .ok v else .error (invalidValue n w.name)
  | _ => .error (invalidType v w.name)

/-- Read a double; whole numbers are rounded to the nearest double. -/
def decodeReal (v : Value) : Except String Value :=
  match v with
  | .number (.nat n) => .ok (.number (.real (Binary64.ofNat n)))
  | .number (.neg n) => .ok (.number (.real (Binary64.ofNat n.natAbs).neg))
  | .number (.real _) => .ok v
  | _ => .error (invalidType v "f64")

/-- The variant names of a tagged union. -/
def variantNames (variants : List (String × Option Shape)) : List String := variants.map (·.1)

/-- Read the tag of a tagged union: a string naming one of its variants or, when the tag comes
from a buffer, also a whole number giving a variant's position. -/
def decodeTag (buffered : Bool) (variants : List (String × Option Shape)) (v : Value) :
    Except String (String × Option Shape) :=
  match v with
  | .string s =>
    match variants.find? (·.1 == s) with
    | some (name, content) => .ok (name, content)
    | none => .error (unknownVariant s (variantNames variants))
  | .number (.nat n) =>
    if buffered then
      match variants[n]? with
      | some (name, content) => .ok (name, content)
      | none => .error (invalidValue n s!"variant index 0 <= i < {variants.length}")
    else .error (invalidType v "variant identifier")
  | _ => .error (invalidType v "variant identifier")

/-- Split the pairs of a tagged object into its tag value and the other pairs, refusing a
repeated tag. -/
def splitTag (tag : String) :
    List (String × Value) → Option Value → List (String × Value) →
      Except String (Option Value × List (String × Value))
  | [], found, acc => .ok (found, acc.reverse)
  | (k, v) :: rest, found, acc =>
    if k == tag then
      match found with
      | some _ => .error (duplicateField tag)
      | none => splitTag tag rest (some v) acc
    else splitTag tag rest found ((k, v) :: acc)

mutual
/-- Check a document against a shape and return it in canonical form; `buffered` says whether
the document was read from a buffer (a variant's content or a record's flattened keys). -/
def decodeWith : Nat → Bool → Shape → Value → Except String Value
  | 0, _, _, _ => .error "shape nested too deeply"
  | _ + 1, _, .text e, v =>
    match v with
    | .string _ => .ok v
    | _ => .error (invalidType v e)
  | _ + 1, _, .flag, v =>
    match v with
    | .bool _ => .ok v
    | _ => .error (invalidType v "a boolean")
  | _ + 1, _, .whole w, v => decodeWhole w v
  | _ + 1, _, .real, v => decodeReal v
  | _ + 1, _, .any, v => .ok v
  | fuel + 1, buffered, .maybe inner, v =>
    match v with
    | .null => .ok .null
    | _ => decodeWith fuel buffered inner v
  | fuel + 1, buffered, .list item, v =>
    match v with
    | .array items => (decodeItems fuel buffered item items).map .array
    | _ => .error (invalidType v "a sequence")
  | fuel + 1, buffered, .record e fields flat, v =>
    match v with
    | .object entries => decodeRecord fuel buffered fields flat entries
    | .array items =>
      match flat with
      | some _ => .error (invalidType v e)
      | none => decodePositional fuel buffered e fields fields.length 0 items []
    | _ => .error (invalidType v e)
  | fuel + 1, buffered, .tagged name tag variants, v =>
    match v with
    | .object entries =>
      match splitTag tag entries none [] with
      | .error m => .error m
      | .ok (none, _) => .error (missingField tag)
      | .ok (some t, rest) =>
        match decodeTag buffered variants t with
        | .error m => .error m
        | .ok (vname, content) =>
          match content with
          | none => .ok (.object [(tag, .string vname)])
          | some s =>
            match decodeWith fuel true s (.object rest) with
            | .ok (.object fs) => .ok (.object ((tag, .string vname) :: fs))
            | .ok other => .ok other
            | .error m => .error m
    | .array [] => .error (missingField tag)
    | .array (t :: rest) =>
      match decodeTag buffered variants t with
      | .error m => .error m
      | .ok (vname, content) =>
        match content with
        | none =>
          if rest.isEmpty then .ok (.object [(tag, .string vname)])
          else .error (leftOver true 0 rest.length)
        | some s =>
          match decodeWith fuel true s (.array rest) with
          | .ok (.object fs) => .ok (.object ((tag, .string vname) :: fs))
          | .ok other => .ok other
          | .error m => .error m
    | _ => .error (invalidType v s!"internally tagged enum {name}")

/-- Check each item of a list. -/
def decodeItems (fuel : Nat) (buffered : Bool) (item : Shape) : List Value → Except String (List Value)
  | [] => .ok []
  | v :: rest => do
    let w ← decodeWith fuel buffered item v
    let ws ← decodeItems fuel buffered item rest
    return w :: ws

/-- Check the pairs of an object against a record's fields. -/
def decodeRecord (fuel : Nat) (buffered : Bool) (fields : List (String × Shape × Option Value))
    (flat : Option Shape) (entries : List (String × Value)) : Except String Value := do
  let (found, others) ← collectFields fuel buffered fields entries [] []
  let values ← fillFields fields found
  match flat with
  | none => return .object values
  | some s =>
    match ← decodeWith fuel true s (.object others) with
    | .object more => return .object (values ++ more)
    | other => return other

/-- Walk the pairs in order: a known key is checked (once only), an unknown one is kept aside. -/
def collectFields (fuel : Nat) (buffered : Bool) (fields : List (String × Shape × Option Value)) :
    List (String × Value) → List (String × Value) → List (String × Value) →
      Except String (List (String × Value) × List (String × Value))
  | [], found, others => .ok (found, others.reverse)
  | (k, v) :: rest, found, others =>
    match fields.find? (·.1 == k) with
    | some (_, s, _) =>
      if (found.find? (·.1 == k)).isSome then .error (duplicateField k)
      else match decodeWith fuel buffered s v with
        | .ok w => collectFields fuel buffered fields rest ((k, w) :: found) others
        | .error m => .error m
    | none => collectFields fuel buffered fields rest found ((k, v) :: others)

/-- Every field in declared order: its checked value, or its default, or a missing-field
failure for the first required field that is absent. -/
def fillFields : List (String × Shape × Option Value) → List (String × Value) →
    Except String (List (String × Value))
  | [], _ => .ok []
  | (name, _, dflt) :: rest, found => do
    let v ← match found.find? (·.1 == name), dflt with
      | some (_, w), _ => pure w
      | none, some d => pure d
      | none, none => throw (missingField name)
    let vs ← fillFields rest found
    return (name, v) :: vs

/-- Read a record from an array, field by field in declared order. -/
def decodePositional (fuel : Nat) (buffered : Bool) (expecting : String) :
    List (String × Shape × Option Value) → Nat → Nat → List Value → List (String × Value) →
      Except String Value
  | [], _, _, [], acc => .ok (.object acc.reverse)
  | [], _, used, extra, _ => .error (leftOver buffered used extra.length)
  | (name, s, dflt) :: rest, n, used, items, acc =>
    match items with
    | v :: more =>
      match decodeWith fuel buffered s v with
      | .ok w => decodePositional fuel buffered expecting rest n (used + 1) more ((name, w) :: acc)
      | .error m => .error m
    | [] =>
      match dflt with
      | some d => decodePositional fuel buffered expecting rest n used [] ((name, d) :: acc)
      | none => .error (invalidLength used (withElements expecting n))
end

mutual
/-- How many levels a shape nests. -/
def Shape.depth : Shape → Nat
  | .maybe inner => inner.depth + 1
  | .list item => item.depth + 1
  | .record _ fields flat => max (fieldsDepth fields) (optionDepth flat) + 1
  | .tagged _ _ variants => variantsDepth variants + 1
  | _ => 1

/-- The deepest field shape. -/
def fieldsDepth : List (String × Shape × Option Value) → Nat
  | [] => 0
  | (_, s, _) :: rest => max s.depth (fieldsDepth rest)

/-- The depth of an optional shape. -/
def optionDepth : Option Shape → Nat
  | none => 0
  | some s => s.depth

/-- The deepest variant content. -/
def variantsDepth : List (String × Option Shape) → Nat
  | [] => 0
  | (_, c) :: rest => max (optionDepth c) (variantsDepth rest)
end

/-- Check a document against a shape and return it in canonical form. -/
def Shape.decode (s : Shape) (v : Value) : Except String Value := decodeWith (s.depth + 1) false s v

end Launcher.Json

namespace Launcher.Json.Value

/-! ## Reading canonical documents

A checked document lists every field of its record, so the typed readers below look a field up
and take its value; the fallbacks are never used on checked documents. -/

/-- The value of a field (null when absent). -/
def get (v : Value) (key : String) : Value := (v.field? key).getD .null

/-- A string field. -/
def textAt (v : Value) (key : String) : String :=
  match v.get key with
  | .string s => s
  | _ => ""

/-- A string field that may be null. -/
def optTextAt (v : Value) (key : String) : Option String :=
  match v.get key with
  | .string s => some s
  | _ => none

/-- A boolean field. -/
def flagAt (v : Value) (key : String) : Bool :=
  match v.get key with
  | .bool b => b
  | _ => false

/-- A whole-number field. -/
def intAt (v : Value) (key : String) : Int :=
  match v.get key with
  | .number (.nat n) => n
  | .number (.neg n) => n
  | _ => 0

/-- A non-negative whole-number field. -/
def natAt (v : Value) (key : String) : Nat :=
  match v.get key with
  | .number (.nat n) => n
  | _ => 0

/-- A double field. -/
def realAt (v : Value) (key : String) : Binary64 :=
  match v.get key with
  | .number (.real x) => x
  | _ => Binary64.zero false

/-- A list field. -/
def itemsAt (v : Value) (key : String) : List Value :=
  match v.get key with
  | .array xs => xs
  | _ => []

end Launcher.Json.Value
