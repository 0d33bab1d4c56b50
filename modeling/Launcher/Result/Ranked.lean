import Launcher.Result.Item

/-!
# Ranked lists

After ranking, each item carries its plugin, its final score and the text to show as the
completed query. The list shown to the user is made of `ListEntry` rows: ranked results, and at
most one marker saying how many rows were cut.
-/

namespace Launcher

open Json

/-- A result after ranking. -/
structure RankedResult where
  pluginId : String
  item : ResultItem
  finalScore : Int
  queryTextDisplay : String
  deriving Inhabited

/-- One row of the final list. -/
inductive ListEntry where
  | result (r : RankedResult)
  | truncated (preCount postCount : Nat)
  deriving Inhabited

namespace RankedResult

/-- The fields of a ranked result. -/
def fields : List (String × Shape × Option Value) :=
  [("pluginId", .text "a string", none), ("item", ResultItem.shape, none),
   ("finalScore", .whole .i64, none), ("queryTextDisplay", .text "a string", none)]

/-- The document shape of a ranked result. -/
def shape : Shape := .record "struct RankedResult" fields none

/-- A ranked result from its checked document. -/
def ofCanonical (v : Value) : RankedResult :=
  { pluginId := v.textAt "pluginId", item := ResultItem.ofCanonical (v.get "item"),
    finalScore := v.intAt "finalScore", queryTextDisplay := v.textAt "queryTextDisplay" }

/-- Read a ranked result from a document. -/
def decode (v : Value) : Except String RankedResult := (shape.decode v).map ofCanonical

/-- The pairs of a ranked result's document. -/
def pairs (r : RankedResult) : List (String × Value) :=
  [("pluginId", .string r.pluginId), ("item", r.item.toJson), ("finalScore", .ofInt r.finalScore),
   ("queryTextDisplay", .string r.queryTextDisplay)]

/-- The document form of a ranked result. -/
def toJson (r : RankedResult) : Value := .object r.pairs

end RankedResult

namespace ListEntry

/-- The document shape of a row, tagged by `type`. -/
def shape : Shape :=
  .tagged "ListEntry" "type"
    [("result", some RankedResult.shape),
     ("truncated", some (.record "struct variant ListEntry::Truncated"
        [("preCount", .whole .usize, none), ("postCount", .whole .usize, none)] none))]

/-- A row from its checked document. -/
def ofCanonical (v : Value) : ListEntry :=
  if v.textAt "type" == "truncated" then .truncated (v.natAt "preCount") (v.natAt "postCount")
  else .result (RankedResult.ofCanonical v)

/-- Read a row from a document. -/
def decode (v : Value) : Except String ListEntry := (shape.decode v).map ofCanonical

/-- The document form of a row. -/
def toJson : ListEntry → Value
  | .result r => .object (("type", .string "result") :: r.pairs)
  | .truncated pre post =>
    .object [("type", .string "truncated"), ("preCount", .ofNat pre), ("postCount", .ofNat post)]

/-- The ranked result of a row, if it is one. -/
def result? : ListEntry → Option RankedResult
  | .result r => some r
  | .truncated .. => none

/-- Whether a row is the truncation marker. -/
def isMarker : ListEntry → Bool
  | .truncated .. => true
  | .result _ => false

end ListEntry

end Launcher
