import Launcher.Json.Read
import Launcher.Json.Shape

/-!
# Reading typed documents straight from text

A configuration file is read in one pass, the shape steering the reader: each value is checked
against its expected shape as soon as it has been read, so the first problem *in text order* is
the one reported, with its line and column. Where a value is rejected decides the position:

* a scalar of the wrong kind or range — right after it;
* an array or object where something else was expected — in front of its bracket;
* a missing field — after the closing brace of its object;
* a repeated field — after its key and the blanks that follow.

Values under unknown keys are skipped: only their syntax is checked (`skipValue`), so a number
too large for a double is no error there, and a comma before a closing bracket reads as a
missing value.

`Shape.readText` returns the same canonical document as `Shape.decode` on success.
-/

namespace Launcher.Json

/-- Skip the rest of a numeral after its optional minus sign, checking only its syntax. -/
def skipNumber (cs : List Char) : Except Failure (List Char) :=
  let afterWhole (cs : List Char) : Except Failure (List Char) :=
    let exponent (cs : List Char) : Except Failure (List Char) :=
      let cs := match cs with
        | '+' :: rest | '-' :: rest => rest
        | _ => cs
      match cs with
      | c :: rest =>
        if (digitValue c).isSome then .ok (skipDigits rest) else .error (Fault.invalidNumber.past c rest)
      | [] => .error (Fault.invalidNumber.at [])
    match cs with
    | '.' :: rest =>
      match rest with
      | c :: _ =>
        if (digitValue c).isSome then
          match skipDigits rest with
          | 'e' :: more | 'E' :: more => exponent more
          | other => .ok other
        else .error (Fault.invalidNumber.before rest)
      | [] => .error (Fault.invalidNumber.before [])
    | 'e' :: rest | 'E' :: rest => exponent rest
    | _ => .ok cs
  match cs with
  | '0' :: rest =>
    match rest with
    | d :: _ => if (digitValue d).isSome then .error (Fault.invalidNumber.before rest) else afterWhole rest
    | [] => afterWhole []
  | c :: rest =>
    if (digitValue c).isSome then afterWhole (skipDigits rest) else .error (Fault.invalidNumber.past c rest)
  | [] => .error (Fault.invalidNumber.at [])

/-- Skip the rest of a string after its opening quote: escapes must be well formed, but the
code points they name are not checked; a control character is refused where it stands. -/
def skipStringChars : Nat → List Char → Except Failure (List Char)
  | 0, _ => .error (Fault.eofInString.at [])
  | _ + 1, [] => .error (Fault.eofInString.at [])
  | fuel + 1, c :: rest =>
    if c = '"' then .ok rest
    else if c = '\\' then
      match rest with
      | [] => .error (Fault.eofInString.at [])
      | 'u' :: more =>
        match readHex4 more with
        | .ok (_, more) => skipStringChars fuel more
        | .error f => .error f
      | e :: more =>
        if e = '"' ∨ e = '\\' ∨ e = '/' ∨ e = 'b' ∨ e = 'f' ∨ e = 'n' ∨ e = 'r' ∨ e = 't' then
          skipStringChars fuel more
        else .error (Fault.invalidEscape.past e more)
    else if c.toNat < 32 then .error (Fault.controlCharacter.at (c :: rest))
    else skipStringChars fuel rest

mutual
/-- Skip one document, checking only its syntax; arrays and objects may nest to any depth. -/
def skipValue : Nat → List Char → Except Failure (List Char)
  | 0, cs => .error (Fault.eofInValue.before cs)
  | fuel + 1, cs =>
    match skipBlank cs with
    | [] => .error (Fault.eofInValue.before [])
    | c :: rest =>
      if c = 'n' then readIdent ['u', 'l', 'l'] rest
      else if c = 't' then readIdent ['r', 'u', 'e'] rest
      else if c = 'f' then readIdent ['a', 'l', 's', 'e'] rest
      else if c = '-' then skipNumber rest
      else if (digitValue c).isSome then skipNumber (c :: rest)
      else if c = '"' then skipStringChars (rest.length + 1) rest
      else if c = '[' then
        match skipBlank rest with
        | ']' :: more => .ok more
        | [] => .error (Fault.eofInList.before [])
        | _ => skipItems fuel rest
      else if c = '{' then
        match skipBlank rest with
        | '}' :: more => .ok more
        | [] => .error (Fault.eofInObject.before [])
        | _ => skipEntries fuel rest
      else .error (Fault.expectedValue.before (c :: rest))

/-- Skip the items of an array from its first item, up to and including `]`. -/
def skipItems : Nat → List Char → Except Failure (List Char)
  | 0, cs => .error (Fault.eofInList.before cs)
  | fuel + 1, cs =>
    match skipValue fuel cs with
    | .error f => .error f
    | .ok rest =>
      match skipBlank rest with
      | ',' :: more => skipItems fuel more
      | ']' :: more => .ok more
      | [] => .error (Fault.eofInList.before [])
      | other => .error (Fault.expectedCommaOrBracket.before other)

/-- Skip the pairs of an object from its first key, up to and including `}`. -/
def skipEntries : Nat → List Char → Except Failure (List Char)
  | 0, cs => .error (Fault.eofInObject.before cs)
  | fuel + 1, cs =>
    match skipBlank cs with
    | [] => .error (Fault.eofInObject.before [])
    | '"' :: rest =>
      match skipStringChars (rest.length + 1) rest with
      | .error f => .error f
      | .ok rest =>
        match skipBlank rest with
        | ':' :: more =>
          match skipValue fuel more with
          | .error f => .error f
          | .ok rest =>
            match skipBlank rest with
            | ',' :: more => skipEntries fuel more
            | '}' :: more => .ok more
            | [] => .error (Fault.eofInObject.before [])
            | other => .error (Fault.expectedCommaOrBrace.before other)
        | [] => .error (Fault.eofInObject.before [])
        | other => .error (Fault.expectedColon.before other)
    | other => .error (Fault.keyNotString.before other)
end

/-- A failure of kind: the value read does not fit the expectation; `rest` is what follows it. -/
def mismatch (message : String) (rest : List Char) : Failure := ⟨message, rest, false, 0⟩

/-- The failure for a value of the wrong kind at the start of `cs` (blanks already skipped):
scalars are read first and the failure stands after them, brackets are not taken. -/
def wrongKind (expecting : String) (cs : List Char) : Failure :=
  match cs with
  | [] => Fault.eofInValue.before []
  | c :: rest =>
    let after (r : Step Value) : Failure :=
      match r with
      | .ok (v, rest) => mismatch (invalidType v expecting) rest
      | .error f => f
    if c = 'n' then after ((readIdent ['u', 'l', 'l'] rest).map fun r => (.null, r))
    else if c = 't' then after ((readIdent ['r', 'u', 'e'] rest).map fun r => (.bool true, r))
    else if c = 'f' then after ((readIdent ['a', 'l', 's', 'e'] rest).map fun r => (.bool false, r))
    else if c = '-' then after ((readNumber true rest).map fun (n, r) => (.number n, r))
    else if (digitValue c).isSome then after ((readNumber false cs).map fun (n, r) => (.number n, r))
    else if c = '"' then after ((readString rest).map fun (s, r) => (.string s, r))
    else if c = '[' then mismatch (invalidType (.array []) expecting) cs
    else if c = '{' then mismatch (invalidType (.object []) expecting) cs
    else Fault.expectedValue.before cs

/-- The input after an object that failed inside: blanks, then its closing brace if that is
next. The failure stands there. -/
def pastClose (close : Char) (cs : List Char) : List Char :=
  match skipBlank cs with
  | c :: rest => if c = close then rest else c :: rest
  | [] => []

/-- A scalar checked as it is read. -/
def readScalar (shape : Shape) (cs : List Char) : Step Value :=
  match shape, cs with
  | .text _, '"' :: rest =>
    match readString rest with
    | .ok (s, rest) => .ok (.string s, rest)
    | .error f => .error f
  | .text e, _ => .error (wrongKind e cs)
  | .flag, 't' :: rest =>
    (readIdent ['r', 'u', 'e'] rest).map fun r => (.bool true, r)
  | .flag, 'f' :: rest =>
    (readIdent ['a', 'l', 's', 'e'] rest).map fun r => (.bool false, r)
  | .flag, _ => .error (wrongKind "a boolean" cs)
  | s, c :: rest =>
    if c = '-' ∨ (digitValue c).isSome then
      let number := if c = '-' then readNumber true rest else readNumber false cs
      match number with
      | .error f => .error f
      | .ok (n, rest) =>
        let check := match s with
          | .whole w => decodeWhole w (.number n)
          | .real => decodeReal (.number n)
          | _ => .ok (.number n)
        match check with
        | .ok v => .ok (v, rest)
        | .error m => .error (mismatch m rest)
    else .error (wrongKind s.expecting cs)
  | s, [] => .error (wrongKind s.expecting [])

mutual
/-- Read one value of a shape at the given remaining depth. -/
def readShaped : Nat → Nat → Shape → List Char → Step Value
  | 0, _, _, cs => .error (Fault.eofInValue.before cs)
  | fuel + 1, depth, shape, cs =>
    let cs := skipBlank cs
    match shape with
    | .any => readValue depth cs
    | .maybe inner =>
      match cs with
      | 'n' :: rest => (readIdent ['u', 'l', 'l'] rest).map fun r => (.null, r)
      | _ => readShaped fuel depth inner cs
    | .list item =>
      match cs with
      | '[' :: rest =>
        if depth ≤ 1 then .error (Fault.tooDeep.before cs)
        else readList fuel (depth - 1) item true [] rest
      | [] => .error (Fault.eofInValue.before [])
      | _ => .error (wrongKind "a sequence" cs)
    | .record e fields _ =>
      match cs with
      | '{' :: rest =>
        if depth ≤ 1 then .error (Fault.tooDeep.before cs)
        else
          match readFields fuel (depth - 1) fields true [] rest with
          | .error f => .error f
          | .ok (found, rest) =>
            match fillFields fields found with
            | .ok values => .ok (.object values, rest)
            | .error m => .error (mismatch m rest)
      | '[' :: rest =>
        if depth ≤ 1 then .error (Fault.tooDeep.before cs)
        else readPositional fuel (depth - 1) e fields fields.length 0 [] rest
      | [] => .error (Fault.eofInValue.before [])
      | _ => .error (wrongKind e cs)
    | .tagged .. =>
      match readValue depth cs with
      | .error f => .error f
      | .ok (v, rest) =>
        match shape.decode v with
        | .ok w => .ok (w, rest)
        | .error m => .error (mismatch m rest)
    | s => readScalar s cs

/-- Read the items of a list after `[`, up to and including `]`; `acc` holds the items read so
far, reversed. -/
def readList : Nat → Nat → Shape → Bool → List Value → List Char → Step Value
  | 0, _, _, _, _, cs => .error (Fault.eofInList.before cs)
  | fuel + 1, depth, item, first, acc, cs =>
    match skipBlank cs with
    | ']' :: rest => .ok (.array acc.reverse, rest)
    | [] => .error (Fault.eofInList.before [])
    | ',' :: rest =>
      if first then
        match readShaped fuel depth item (',' :: rest) with
        | .error f => .error f
        | .ok (v, rest) => readList fuel depth item false (v :: acc) rest
      else
        match skipBlank rest with
        | ']' :: _ => .error (Fault.trailingComma.before (skipBlank rest))
        | [] => .error (Fault.eofInValue.before [])
        | more =>
          match readShaped fuel depth item more with
          | .error f => .error f
          | .ok (v, rest) => readList fuel depth item false (v :: acc) rest
    | c :: rest =>
      if first then
        match readShaped fuel depth item (c :: rest) with
        | .error f => .error f
        | .ok (v, rest) => readList fuel depth item false (v :: acc) rest
      else .error (Fault.expectedCommaOrBracket.before (c :: rest))

/-- Read the pairs of a record's object after `{`, up to and including `}`: known fields are
checked against their shapes (once each), unknown ones skipped. `found` holds the fields read so
far. -/
def readFields : Nat → Nat → List (String × Shape × Option Value) → Bool → List (String × Value) →
    List Char → Except Failure (List (String × Value) × List Char)
  | 0, _, _, _, _, cs => .error (Fault.eofInObject.before cs)
  | fuel + 1, depth, fields, first, found, cs =>
    let key : Except Failure (Option (List Char)) :=
      match skipBlank cs with
      | '}' :: _ => .ok none
      | [] => .error (Fault.eofInObject.before [])
      | ',' :: rest =>
        if first then .ok (some (',' :: rest)) else .ok (some (skipBlank rest))
      | c :: rest =>
        if first then .ok (some (c :: rest)) else .error (Fault.expectedCommaOrBrace.before (c :: rest))
    match key with
    | .error f => .error f
    | .ok none =>
      match skipBlank cs with
      | _ :: rest => .ok (found, rest)
      | [] => .ok (found, [])
    | .ok (some cs') =>
      match cs' with
      | '"' :: afterQuote =>
        match readString afterQuote with
        | .error f => .error f
        | .ok (k, rest) =>
          let colon : Except Failure (List Char) :=
            match skipBlank rest with
            | ':' :: more => .ok more
            | [] => .error (Fault.eofInObject.before [])
            | other => .error (Fault.expectedColon.before other)
          match fields.find? (·.1 == k) with
          | some (_, s, _) =>
            if (found.find? (·.1 == k)).isSome then .error (mismatch (duplicateField k) (pastClose '}' rest))
            else
              match colon with
              | .error f => .error f
              | .ok more =>
                match readShaped fuel depth s more with
                | .error f => .error f
                | .ok (v, rest) => readFields fuel depth fields false ((k, v) :: found) rest
          | none =>
            match colon with
            | .error f => .error f
            | .ok more =>
              match skipValue (more.length + 1) more with
              | .error f => .error f
              | .ok rest => readFields fuel depth fields false found rest
      | '}' :: _ => .error (Fault.trailingComma.before cs')
      | [] => .error (Fault.eofInValue.before [])
      | other => .error (Fault.keyNotString.before other)

/-- Read a record from an array after `[`, field by field in declared order, up to and
including `]`. -/
def readPositional : Nat → Nat → String → List (String × Shape × Option Value) → Nat → Nat →
    List (String × Value) → List Char → Step Value
  | 0, _, _, _, _, _, _, cs => .error (Fault.eofInList.before cs)
  | fuel + 1, depth, e, fields, n, used, acc, cs =>
    match fields with
    | [] =>
      match skipBlank cs with
      | ']' :: rest => .ok (.object acc.reverse, rest)
      | ',' :: rest =>
        match skipBlank rest with
        | ']' :: _ => .error (Fault.trailingComma.before (skipBlank rest))
        | other => .error (Fault.trailingCharacters.before other)
      | [] => .error (Fault.eofInList.before [])
      | other => .error (Fault.trailingCharacters.before other)
    | (name, s, dflt) :: rest =>
      let next : Except Failure (Option (List Char)) :=
        match skipBlank cs with
        | ']' :: _ => .ok none
        | [] => .error (Fault.eofInList.before [])
        | ',' :: more =>
          if used = 0 then .ok (some (',' :: more))
          else
            match skipBlank more with
            | ']' :: _ => .error (Fault.trailingComma.before (skipBlank more))
            | [] => .error (Fault.eofInValue.before [])
            | other => .ok (some other)
        | c :: more =>
          if used = 0 then .ok (some (c :: more))
          else .error (Fault.expectedCommaOrBracket.before (c :: more))
      match next with
      | .error f => .error f
      | .ok none =>
        match dflt with
        | some d => readPositional fuel depth e rest n used ((name, d) :: acc) cs
        | none => .error (mismatch (invalidLength used (withElements e n)) (pastClose ']' cs))
      | .ok (some more) =>
        match readShaped fuel depth s more with
        | .error f => .error f
        | .ok (v, after) => readPositional fuel depth e rest n (used + 1) ((name, v) :: acc) after
end

/-- Read a whole text holding one document of a shape; blanks may surround it. Failures carry
their line and column. -/
def Shape.readText (shape : Shape) (text : String) : Except String Value :=
  let cs := text.toList
  let fuel := (cs.length + 2) * (shape.depth + 2)
  match readShaped fuel depthLimit shape cs with
  | .error f => .error (f.render cs)
  | .ok (v, rest) =>
    match skipBlank rest with
    | [] => .ok v
    | other => .error ((Fault.trailingCharacters.before other).render cs)

end Launcher.Json
