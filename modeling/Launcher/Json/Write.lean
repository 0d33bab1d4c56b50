import Launcher.Json.Value

/-!
# Writing JSON

The journal, the config file and every answer are written by these printers:

* `escapeChar`, `quote` — a string between double quotes, with the quote, the backslash and
  control characters escaped (`\n`, `\t`, `\r`, `\b`, `\f`, else `\u00XX` in lowercase hex) and
  every other character, non-ASCII included, written as is;
* `Number.render` — whole numbers in decimal, doubles in `Binary64.Layout.json` (a non-finite
  double is written as `null`);
* `Value.compact` — no blank anywhere; `Value.pretty` — two-space indentation, `": "` between key
  and value, empty arrays and objects as `[]` and `{}`.
-/

namespace Launcher.Json

/-- The hex digit of a number below 16, in lowercase. -/
def hexDigit (n : Nat) : Char :=
  if n < 10 then Char.ofNat (48 + n) else Char.ofNat (87 + n)

/-- How one character is written inside a JSON string. -/
def escapeChar (c : Char) : List Char :=
  if c = '"' then ['\\', '"']
  else if c = '\\' then ['\\', '\\']
  else if c = '\n' then ['\\', 'n']
  else if c = '\t' then ['\\', 't']
  else if c = '\r' then ['\\', 'r']
  else if c = '\x08' then ['\\', 'b']
  else if c = '\x0c' then ['\\', 'f']
  else if c.toNat < 32 then ['\\', 'u', '0', '0', hexDigit (c.toNat / 16), hexDigit (c.toNat % 16)]
  else [c]

/-- The characters of a string written between quotes. -/
def quoteChars (cs : List Char) : List Char := '"' :: (cs.flatMap escapeChar ++ ['"'])

/-- A string written as a JSON string literal. -/
def quote (s : String) : String := String.ofList (quoteChars s.toList)

/-- A numeral as written in a document. -/
def Number.render : Number → String
  | .nat n => toString n
  | .neg n => toString n
  | .real x => if x.isFinite then Binary64.Layout.json.render x else "null"

namespace Value

mutual
/-- A document written without any blank. -/
def compact : Value → String
  | .null => "null"
  | .bool b => if b then "true" else "false"
  | .number n => n.render
  | .string s => quote s
  | .array items => "[" ++ compactItems items ++ "]"
  | .object entries => "\x7b" ++ compactEntries entries ++ "\x7d"

/-- Items separated by commas. -/
def compactItems : List Value → String
  | [] => ""
  | [v] => compact v
  | v :: rest => compact v ++ "," ++ compactItems rest

/-- Pairs `"key":value` separated by commas. -/
def compactEntries : List (String × Value) → String
  | [] => ""
  | [(k, v)] => quote k ++ ":" ++ compact v
  | (k, v) :: rest => quote k ++ ":" ++ compact v ++ "," ++ compactEntries rest
end

/-- Indentation of `depth` levels of two blanks. -/
def indent (depth : Nat) : String := String.ofList (List.replicate (2 * depth) ' ')

mutual
/-- A document written with one item or pair per line, indented two blanks per level. -/
def pretty (depth : Nat) : Value → String
  | .array [] => "[]"
  | .object [] => "\x7b\x7d"
  | .array items => "[" ++ prettyItems (depth + 1) items ++ "\n" ++ indent depth ++ "]"
  | .object entries =>
    "\x7b" ++ prettyEntries (depth + 1) entries ++ "\n" ++ indent depth ++ "\x7d"
  | v => compact v

/-- Items, each on its own line. -/
def prettyItems (depth : Nat) : List Value → String
  | [] => ""
  | [v] => "\n" ++ indent depth ++ pretty depth v
  | v :: rest => "\n" ++ indent depth ++ pretty depth v ++ "," ++ prettyItems depth rest

/-- Pairs, each on its own line. -/
def prettyEntries (depth : Nat) : List (String × Value) → String
  | [] => ""
  | [(k, v)] => "\n" ++ indent depth ++ quote k ++ ": " ++ pretty depth v
  | (k, v) :: rest =>
    "\n" ++ indent depth ++ quote k ++ ": " ++ pretty depth v ++ "," ++ prettyEntries depth rest
end

end Value

end Launcher.Json
