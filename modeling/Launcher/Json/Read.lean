import Launcher.Json.Value

/-!
# Reading JSON text

The reader follows the JSON grammar strictly and stops at the first fault, reporting where it
stood as a line and a column (columns count UTF-8 bytes):

* `Fault` — the kinds of malformed text, each with its message (`expected value`,
  `trailing comma`, `number out of range`, …);
* `Failure` — a message with the unread input at the point of failure; `Failure.render` adds
  ` at line L column C`;
* `readNumber`, `readString`, `readValue` — the grammar, over the characters still unread;
  numerals are classified as in `Number` (see `Binary64.scaled` for fractions and exponents);
  `itemStep` and `entryStep` read one element of a list where one is due, as `readItems` and
  `readEntries` do;
* `Value.parse` — a whole text holding one document, blanks allowed around it. Nesting deeper than
  127 arrays or objects is refused.
-/

namespace Launcher.Json

/-- The kinds of malformed JSON text. -/
inductive Fault where
  | eofInList | eofInObject | eofInString | eofInValue
  | expectedColon | expectedCommaOrBracket | expectedCommaOrBrace | expectedIdent
  | expectedValue | invalidEscape | invalidNumber | numberOutOfRange
  | controlCharacter | keyNotString | loneSurrogate
  | trailingComma | trailingCharacters | unexpectedEndOfEscape | tooDeep
  deriving DecidableEq, Inhabited

/-- The message of a fault. -/
def Fault.message : Fault → String
  | .eofInList => "EOF while parsing a list"
  | .eofInObject => "EOF while parsing an object"
  | .eofInString => "EOF while parsing a string"
  | .eofInValue => "EOF while parsing a value"
  | .expectedColon => "expected `:`"
  | .expectedCommaOrBracket => "expected `,` or `]`"
  | .expectedCommaOrBrace => "expected `,` or `\x7d`"
  | .expectedIdent => "expected ident"
  | .expectedValue => "expected value"
  | .invalidEscape => "invalid escape"
  | .invalidNumber => "invalid number"
  | .numberOutOfRange => "number out of range"
  | .controlCharacter => "control character (\\u0000-\\u001F) found while parsing a string"
  | .keyNotString => "key must be a string"
  | .loneSurrogate => "lone leading surrogate in hex escape"
  | .trailingComma => "trailing comma"
  | .trailingCharacters => "trailing characters"
  | .unexpectedEndOfEscape => "unexpected end of hex escape"
  | .tooDeep => "recursion limit exceeded"

/-- Why reading stopped, and where: `rest` is the unread input, `ahead` says that the
position also counts the next byte (the reader had looked at it without taking it), and `inside`
counts the bytes already taken of the first character of `rest` (a reader that takes a fixed
number of bytes may stop in the middle of a character). -/
structure Failure where
  message : String
  rest : List Char
  ahead : Bool
  inside : Nat
  deriving Inhabited

/-- A fault found when `rest` is unread. -/
def Fault.at (f : Fault) (rest : List Char) : Failure := ⟨f.message, rest, false, 0⟩

/-- A fault found while looking at the first character of `rest`. -/
def Fault.before (f : Fault) (rest : List Char) : Failure := ⟨f.message, rest, true, 0⟩

/-- A fault found on taking the first byte of `c`, the character before `rest`: the reader works
on bytes, so the position counts one byte of `c` whatever its width. -/
def Fault.past (f : Fault) (c : Char) (rest : List Char) : Failure :=
  if c.utf8Size = 1 then ⟨f.message, rest, false, 0⟩ else ⟨f.message, c :: rest, false, 1⟩

/-- A fault found `bytes` bytes into the first character of `rest`. -/
def Fault.within (f : Fault) (rest : List Char) (bytes : Nat) : Failure :=
  ⟨f.message, rest, false, bytes⟩

/-- The input left after taking `n` bytes, with the bytes taken of its first character when
the count ends inside one. -/
def dropBytes : Nat → List Char → List Char × Nat
  | n, c :: rest => if c.utf8Size ≤ n then dropBytes (n - c.utf8Size) rest else (c :: rest, n)
  | n, [] => ([], n)

/-- Line and column (in bytes) after reading `cs`, starting from line 1 column 0. -/
def advance : Nat × Nat → List Char → Nat × Nat
  | pos, [] => pos
  | (line, _), '\n' :: rest => advance (line + 1, 0) rest
  | (line, col), c :: rest => advance (line, col + c.utf8Size) rest

/-- Line and column of a failure in `input`. -/
def Failure.position (input : List Char) (f : Failure) : Nat × Nat :=
  let (line, col) := advance (1, 0) (input.take (input.length - f.rest.length))
  match f.ahead, f.rest with
  | true, '\n' :: _ => (line + 1, 0)
  | true, _ :: _ => (line, col + 1)
  | _, _ => (line, col + f.inside)

/-- The message of a failure with its position in `input`. -/
def Failure.render (input : List Char) (f : Failure) : String :=
  let (line, col) := f.position input
  s!"{f.message} at line {line} column {col}"

/-- A reading step: a result and the input left, or a failure. -/
abbrev Step (α : Type) := Except Failure (α × List Char)

/-- The input after leading JSON blanks (space, line feed, tab, carriage return). -/
def skipBlank : List Char → List Char
  | ' ' :: rest => skipBlank rest
  | '\n' :: rest => skipBlank rest
  | '\t' :: rest => skipBlank rest
  | '\r' :: rest => skipBlank rest
  | cs => cs

/-- The value of a decimal digit. -/
def digitValue (c : Char) : Option Nat :=
  if '0' ≤ c ∧ c ≤ '9' then some (c.toNat - 48) else none

/-- The value of a hex digit, either case. -/
def hexValue (c : Char) : Option Nat :=
  if '0' ≤ c ∧ c ≤ '9' then some (c.toNat - 48)
  else if 'a' ≤ c ∧ c ≤ 'f' then some (c.toNat - 87)
  else if 'A' ≤ c ∧ c ≤ 'F' then some (c.toNat - 55)
  else none

/-- Read the rest of a literal (`null`, `true`, `false`) after its first letter. -/
def readIdent : List Char → List Char → Except Failure (List Char)
  | [], cs => .ok cs
  | _ :: _, [] => .error (Fault.eofInValue.at [])
  | e :: es, c :: rest => if c = e then readIdent es rest else .error (Fault.expectedIdent.past c rest)

/-- Whether `10 · n + d` would exceed the largest value `limit`. -/
def overflows (n d limit : Nat) : Bool := n ≥ limit / 10 && (n > limit / 10 || d > limit % 10)

/-- The largest 64-bit unsigned value. -/
def u64Max : Nat := Nat.pow 2 64 - 1

/-- The largest 32-bit signed value, the bound on written exponents. -/
def i32Max : Int := Nat.pow 2 31 - 1

/-- Clamp to the 32-bit signed range. -/
def clampI32 (i : Int) : Int := max (-(Nat.pow 2 31)) (min i32Max i)

/-- A double from its parts, or the out-of-range fault at `rest`. -/
def scaledOrFault (negative : Bool) (significand : Nat) (exponent : Int) (rest : List Char) :
    Step Number :=
  match Binary64.scaled negative significand exponent with
  | some x => .ok (.real x, rest)
  | none => .error (Fault.numberOutOfRange.at rest)

/-- Skip digits. -/
def skipDigits : List Char → List Char
  | c :: rest => if (digitValue c).isSome then skipDigits rest else c :: rest
  | [] => []

/-- Read the digits of an exponent after `e` and its sign, then build the double. -/
def readExponentDigits (negative : Bool) (significand : Nat) (start : Int) (positive : Bool)
    (exp : Nat) : List Char → Step Number
  | c :: rest =>
    match digitValue c with
    | some d =>
      if overflows exp d i32Max.toNat then
        if significand ≠ 0 ∧ positive then .error (Fault.numberOutOfRange.at rest)
        else .ok (.real (if negative then Binary64.zero true else Binary64.zero false),
                  skipDigits rest)
      else readExponentDigits negative significand start positive (10 * exp + d) rest
    | none => finish (c :: rest)
  | [] => finish []
where
  finish (rest : List Char) : Step Number :=
    let final := clampI32 (if positive then start + exp else start - exp)
    scaledOrFault negative significand final rest

/-- Read an exponent: `e` or `E`, an optional sign, then at least one digit. -/
def readExponent (negative : Bool) (significand : Nat) (start : Int) (cs : List Char) :
    Step Number :=
  let cs := cs.drop 1
  let (positive, cs) :=
    match cs with
    | '+' :: rest => (true, rest)
    | '-' :: rest => (false, rest)
    | _ => (true, cs)
  match cs with
  | [] => .error (Fault.eofInValue.at [])
  | c :: rest =>
    match digitValue c with
    | some d => readExponentDigits negative significand start positive d rest
    | none => .error (Fault.invalidNumber.past c rest)

/-- After the digits of a fraction (or a skipped overflow), an exponent or the end. -/
def afterFraction (negative : Bool) (significand : Nat) (exponent : Int) (cs : List Char) :
    Step Number :=
  match cs with
  | 'e' :: _ | 'E' :: _ => readExponent negative significand exponent cs
  | _ => scaledOrFault negative significand exponent cs

/-- Read the digits after a decimal point; `count` digits were taken into the significand. -/
def readFraction (negative : Bool) (significand : Nat) (exponent : Int) (count : Nat) :
    List Char → Step Number
  | c :: rest =>
    match digitValue c with
    | some d =>
      if overflows significand d u64Max then
        afterFraction negative significand exponent (skipDigits (c :: rest))
      else readFraction negative (10 * significand + d) (exponent - 1) (count + 1) rest
    | none => finishFraction (c :: rest)
  | [] => finishFraction []
where
  finishFraction (cs : List Char) : Step Number :=
    if count = 0 then
      match cs with
      | [] => .error (Fault.eofInValue.before [])
      | _ => .error (Fault.invalidNumber.before cs)
    else afterFraction negative significand exponent cs

/-- After the whole part of a numeral: a fraction, an exponent, or a whole number. -/
def afterWhole (negative : Bool) (significand : Nat) (exponent : Int) (long : Bool)
    (cs : List Char) : Step Number :=
  match cs with
  | '.' :: rest => readFraction negative significand exponent 0 rest
  | 'e' :: _ | 'E' :: _ => readExponent negative significand exponent cs
  | _ =>
    if long then scaledOrFault negative significand exponent cs
    else if !negative then .ok (.nat significand, cs)
    else if significand ≠ 0 ∧ significand ≤ Nat.pow 2 63 then .ok (.neg (-(significand : Int)), cs)
    else .ok (.real (Binary64.ofNat significand).neg, cs)

/-- Digits beyond 64 bits only scale the kept significand by ten each. -/
def readLong (negative : Bool) (significand : Nat) (exponent : Int) : List Char → Step Number
  | c :: rest =>
    if (digitValue c).isSome then readLong negative significand (exponent + 1) rest
    else afterWhole negative significand exponent true (c :: rest)
  | [] => afterWhole negative significand exponent true []

/-- Read the digits of a whole part that started with `1`–`9`. -/
def readWhole (negative : Bool) (significand : Nat) : List Char → Step Number
  | c :: rest =>
    match digitValue c with
    | some d =>
      if overflows significand d u64Max then readLong negative significand 0 (c :: rest)
      else readWhole negative (10 * significand + d) rest
    | none => afterWhole negative significand 0 false (c :: rest)
  | [] => afterWhole negative significand 0 false []

/-- Read a numeral after its optional minus sign. -/
def readNumber (negative : Bool) : List Char → Step Number
  | [] => .error (Fault.eofInValue.at [])
  | c :: rest =>
    if c = '0' then
      match rest with
      | d :: _ => if (digitValue d).isSome then .error (Fault.invalidNumber.before rest)
                  else afterWhole negative 0 0 false rest
      | [] => afterWhole negative 0 0 false []
    else match digitValue c with
      | some d => readWhole negative d rest
      | none => .error (Fault.invalidNumber.past c rest)

/-- Read four hex digits of a `\u` escape. The reader takes four bytes before it looks at them,
so fewer than four bytes left is the end of input, and four bytes that are not hex digits are
reported just after them, even when they end inside a character. -/
def readHex4 (cs : List Char) : Except Failure (Nat × List Char) :=
  let bytes := (cs.take 4).foldl (fun n c => n + c.utf8Size) 0
  if bytes < 4 then .error (Fault.eofInString.at []) else
  let invalid := let (rest, inside) := dropBytes 4 cs; Fault.invalidEscape.within rest inside
  match cs with
  | a :: b :: c :: d :: rest =>
    match hexValue a, hexValue b, hexValue c, hexValue d with
    | some x, some y, some z, some w => .ok (((x * 16 + y) * 16 + z) * 16 + w, rest)
    | _, _, _, _ => .error invalid
  | _ => .error invalid

/-- Read a `\u` escape: a code point outside the surrogates, or a high surrogate followed by a
`\u` escape of a low surrogate. -/
def readUnicode (cs : List Char) : Except Failure (Char × List Char) := do
  let (n, rest) ← readHex4 cs
  if 0xDC00 ≤ n ∧ n ≤ 0xDFFF then throw (Fault.loneSurrogate.at rest)
  if n < 0xD800 ∨ n > 0xDBFF then return (Char.ofNat n, rest)
  match rest with
  | [] => throw (Fault.eofInString.at [])
  | '\\' :: rest =>
    match rest with
    | [] => throw (Fault.eofInString.at [])
    | 'u' :: rest =>
      let (m, rest) ← readHex4 rest
      if m < 0xDC00 ∨ m > 0xDFFF then throw (Fault.loneSurrogate.at rest)
      return (Char.ofNat (((n - 0xD800) * 1024 + (m - 0xDC00)) + 0x10000), rest)
    | c :: rest => throw (Fault.unexpectedEndOfEscape.past c rest)
  | c :: rest => throw (Fault.unexpectedEndOfEscape.past c rest)

/-- Read an escape after its backslash. -/
def readEscape : List Char → Except Failure (Char × List Char)
  | [] => .error (Fault.eofInString.at [])
  | c :: rest =>
    if c = '"' then .ok ('"', rest)
    else if c = '\\' then .ok ('\\', rest)
    else if c = '/' then .ok ('/', rest)
    else if c = 'b' then .ok ('\x08', rest)
    else if c = 'f' then .ok ('\x0c', rest)
    else if c = 'n' then .ok ('\n', rest)
    else if c = 'r' then .ok ('\r', rest)
    else if c = 't' then .ok ('\t', rest)
    else if c = 'u' then readUnicode rest
    else .error (Fault.invalidEscape.past c rest)

/-- Read the characters of a string up to its closing quote (the opening one already read);
`acc` holds the characters read so far, reversed. Every round reads at least one character, so
`fuel` above the input's length is never exhausted. -/
def readStringChars : Nat → List Char → List Char → Step String
  | 0, _, _ => .error (Fault.eofInString.at [])
  | _ + 1, _, [] => .error (Fault.eofInString.at [])
  | fuel + 1, acc, c :: rest =>
    if c = '"' then .ok (String.ofList acc.reverse, rest)
    else if c = '\\' then
      match readEscape rest with
      | .ok (e, rest') => readStringChars fuel (e :: acc) rest'
      | .error f => .error f
    else if c.toNat < 32 then .error (Fault.controlCharacter.at rest)
    else readStringChars fuel (c :: acc) rest

/-- Read a string after its opening quote. -/
def readString (cs : List Char) : Step String := readStringChars (cs.length + 1) [] cs

/-- How deep arrays and objects may nest: the 128th level is refused. -/
def depthLimit : Nat := 128

mutual
/-- Read one document at the given remaining depth (blanks before it are skipped). -/
def readValue (depth : Nat) (cs : List Char) : Step Value :=
  match skipBlank cs with
  | [] => .error (Fault.eofInValue.before [])
  | c :: rest =>
    if c = 'n' then (readIdent ['u', 'l', 'l'] rest).map fun r => (.null, r)
    else if c = 't' then (readIdent ['r', 'u', 'e'] rest).map fun r => (.bool true, r)
    else if c = 'f' then (readIdent ['a', 'l', 's', 'e'] rest).map fun r => (.bool false, r)
    else if c = '-' then (readNumber true rest).map fun (n, r) => (.number n, r)
    else if (digitValue c).isSome then (readNumber false (c :: rest)).map fun (n, r) => (.number n, r)
    else if c = '"' then (readString rest).map fun (s, r) => (.string s, r)
    else if c = '[' then
      match depth with
      | 0 | 1 => .error (Fault.tooDeep.before (c :: rest))
      | d + 2 => readItems (d + 1) (rest.length + 1) true [] rest
    else if c = '{' then
      match depth with
      | 0 | 1 => .error (Fault.tooDeep.before (c :: rest))
      | d + 2 => readEntries (d + 1) (rest.length + 1) true [] rest
    else .error (Fault.expectedValue.before (c :: rest))
termination_by (depth, 0)

/-- Read the items of an array after `[`, up to and including `]`; `acc` holds the items read so
far, reversed. -/
def readItems (depth fuel : Nat) (first : Bool) (acc : List Value) (cs : List Char) :
    Step Value :=
  match fuel with
  | 0 => .error (Fault.eofInList.before [])
  | fuel + 1 =>
    let next : Except Failure (List Char) :=
      match skipBlank cs with
      | [] => .error (Fault.eofInList.before [])
      | ']' :: rest => .ok (']' :: rest)
      | ',' :: rest => if first then .error (Fault.expectedValue.before (',' :: rest))
                       else .ok (skipBlank rest)
      | c :: rest => if first then .ok (c :: rest)
                     else .error (Fault.expectedCommaOrBracket.before (c :: rest))
    match next with
    | .error f => .error f
    | .ok cs' =>
      match skipBlank cs, cs' with
      | ']' :: rest, _ => .ok (.array acc.reverse, rest)
      | _, ']' :: _ => .error (Fault.trailingComma.before cs')
      | _, [] => .error (Fault.eofInValue.before [])
      | _, _ =>
        match readValue depth cs' with
        | .error f => .error f
        | .ok (v, rest) => readItems depth fuel false (v :: acc) rest
termination_by (depth, fuel + 1)

/-- Read the pairs of an object after `{`, up to and including `}`; `acc` holds the pairs read
so far, reversed. -/
def readEntries (depth fuel : Nat) (first : Bool) (acc : List (String × Value))
    (cs : List Char) : Step Value :=
  match fuel with
  | 0 => .error (Fault.eofInObject.before [])
  | fuel + 1 =>
    let next : Except Failure (List Char) :=
      match skipBlank cs with
      | [] => .error (Fault.eofInObject.before [])
      | '}' :: rest => .ok ('}' :: rest)
      | ',' :: rest => if first then .error (Fault.keyNotString.before (',' :: rest))
                       else .ok (skipBlank rest)
      | c :: rest => if first then .ok (c :: rest)
                     else .error (Fault.expectedCommaOrBrace.before (c :: rest))
    match next with
    | .error f => .error f
    | .ok cs' =>
      match skipBlank cs, cs' with
      | '}' :: rest, _ => .ok (.object acc.reverse, rest)
      | _, '}' :: _ => .error (Fault.trailingComma.before cs')
      | _, [] => .error (Fault.eofInValue.before [])
      | _, '"' :: afterQuote =>
        match readString afterQuote with
        | .error f => .error f
        | .ok (key, rest) =>
          match skipBlank rest with
          | ':' :: rest =>
            match readValue depth rest with
            | .error f => .error f
            | .ok (v, rest) => readEntries depth fuel false ((key, v) :: acc) rest
          | [] => .error (Fault.eofInObject.before [])
          | other => .error (Fault.expectedColon.before other)
      | _, other => .error (Fault.keyNotString.before other)
termination_by (depth, fuel + 1)
end

/-- Read an array's next item where one is due, then the rest of the array. -/
def itemStep (depth fuel : Nat) (acc : List Value) (cs : List Char) : Step Value :=
  match cs with
  | [] => .error (Fault.eofInValue.before [])
  | c :: rest =>
    if c = ']' then .error (Fault.trailingComma.before (c :: rest))
    else
      match readValue depth (c :: rest) with
      | .error f => .error f
      | .ok (v, rest) => readItems depth fuel false (v :: acc) rest

/-- Read an object's next pair where one is due, then the rest of the object. -/
def entryStep (depth fuel : Nat) (acc : List (String × Value)) (cs : List Char) : Step Value :=
  match cs with
  | [] => .error (Fault.eofInValue.before [])
  | c :: afterQuote =>
    if c = '}' then .error (Fault.trailingComma.before (c :: afterQuote))
    else if c = '"' then
      match readString afterQuote with
      | .error f => .error f
      | .ok (key, rest) =>
        match skipBlank rest with
        | ':' :: rest =>
          match readValue depth rest with
          | .error f => .error f
          | .ok (v, rest) => readEntries depth fuel false ((key, v) :: acc) rest
        | [] => .error (Fault.eofInObject.before [])
        | other => .error (Fault.expectedColon.before other)
    else .error (Fault.keyNotString.before (c :: afterQuote))

/-- Read a whole text holding exactly one document, with blanks allowed around it. -/
def Value.parse (text : String) : Except Failure Value := do
  let (v, rest) ← readValue depthLimit text.toList
  match skipBlank rest with
  | [] => return v
  | other => throw (Fault.trailingCharacters.before other)

/-- Read a whole text, rendering a failure with its position. -/
def Value.parseText (text : String) : Except String Value :=
  (Value.parse text).mapError (·.render text.toList)

end Launcher.Json
