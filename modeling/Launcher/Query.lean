import Launcher.Json.Shape
import Launcher.Text.Blank

/-!
# Queries

A query is the raw text the user typed, the action keyword it was scoped to (empty when none),
and the search text after the keyword:

* `Query.parse` — the first blank-delimited token of the trimmed text scopes the query when it is
  one of the known keywords (and not the wildcard); the search is then the trimmed rest, and
  otherwise the whole trimmed text;
* `Query.terms`, `Query.firstTerm`, `Query.afterFirstTerm` — the words of the search text, its
  first word, and everything after the first word, trimmed.
-/

namespace Launcher

open Json Text

/-- A parsed request. -/
structure Query where
  rawText : String
  actionKeyword : String := ""
  search : String := ""
  deriving DecidableEq, Inhabited

namespace Query

/-- Whether the query is scoped to an action keyword. -/
def isScoped (q : Query) : Bool := !q.actionKeyword.isEmpty

/-- The words of the search text. -/
def terms (q : Query) : List String := words q.search

/-- The first word of the search text, or empty. -/
def firstTerm (q : Query) : String := q.terms.headD ""

/-- The search text after its first word, trimmed: empty when the search is one word. -/
def afterFirstTerm (q : Query) : String :=
  let s := dropBlanks q.search.toList
  let (_, rest) := breakAtBlank s
  if rest.isEmpty then "" else trim (String.ofList rest)

/-- Parse raw text against the known keywords. -/
def parse (raw : String) (keywords : List String) : Query :=
  let text := trim raw
  let (token, rest) := breakAtBlank text.toList
  let tok := String.ofList token
  if !tok.isEmpty && tok != "*" && keywords.contains tok then
    { rawText := raw, actionKeyword := tok, search := trim (String.ofList rest) }
  else { rawText := raw, actionKeyword := "", search := text }

/-- The document shape of a query. -/
def shape : Shape :=
  .record "struct Query"
    [("rawText", .text "a string", none),
     ("actionKeyword", .text "a string", some (.string "")),
     ("search", .text "a string", some (.string ""))] none

/-- A query from its checked document. -/
def ofCanonical (v : Value) : Query :=
  { rawText := v.textAt "rawText", actionKeyword := v.textAt "actionKeyword",
    search := v.textAt "search" }

/-- Read a query from a document. -/
def decode (v : Value) : Except String Query := (shape.decode v).map ofCanonical

/-- The document form of a query. -/
def toJson (q : Query) : Value :=
  .object [("rawText", .string q.rawText), ("actionKeyword", .string q.actionKeyword),
    ("search", .string q.search)]

end Query

end Launcher
