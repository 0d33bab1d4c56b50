import Launcher.Result.Item
import Launcher.Json.Read
import Launcher.Json.Write

/-!
# History entries and journal records

A history entry says how often, and when last, a result was picked for a query text. The
journal that keeps history on disk is a sequence of records, one per line:

* `select` — an entry's new state after a selection;
* `forget` — every entry of a query text was dropped.

`JournalRecord.line` writes a record as one compact line with its keys in a fixed order, and
`JournalRecord.ofLine?` reads one back; a line that is not a record reads as `none`.
-/

namespace Launcher

open Json

/-- How often and when last a result was picked for a query text. -/
structure HistoryEntry where
  queryText : String
  pluginId : String
  resultKey : ResultKey
  selectionCount : Nat
  lastSelectedAt : Nat
  deriving DecidableEq, Inhabited

/-- What identifies an entry: the query text and the result's identity. -/
structure SelectionKey where
  queryText : String
  identity : ResultIdentity
  deriving DecidableEq, Inhabited

namespace HistoryEntry

/-- The key of an entry. -/
def key (e : HistoryEntry) : SelectionKey := ⟨e.queryText, ⟨e.pluginId, e.resultKey⟩⟩

/-- The fields of an entry's document. -/
def fields : List (String × Shape × Option Value) :=
  [("queryText", .text "a string", none), ("pluginId", .text "a string", none),
   ("resultKey", ResultKey.shape, none), ("selectionCount", .whole .u32, none),
   ("lastSelectedAt", .whole .u64, none)]

/-- The document shape of an entry. -/
def shape : Shape := .record "struct HistoryEntry" fields none

/-- An entry from its checked document. -/
def ofCanonical (v : Value) : HistoryEntry :=
  { queryText := v.textAt "queryText", pluginId := v.textAt "pluginId",
    resultKey := ResultKey.ofCanonical (v.get "resultKey"),
    selectionCount := v.natAt "selectionCount", lastSelectedAt := v.natAt "lastSelectedAt" }

/-- Read an entry from a document. -/
def decode (v : Value) : Except String HistoryEntry := (shape.decode v).map ofCanonical

/-- The pairs of an entry's document, in journal order. -/
def pairs (e : HistoryEntry) : List (String × Value) :=
  [("queryText", .string e.queryText), ("pluginId", .string e.pluginId),
   ("resultKey", e.resultKey.toJson), ("selectionCount", .ofNat e.selectionCount),
   ("lastSelectedAt", .ofNat e.lastSelectedAt)]

/-- The document form of an entry. -/
def toJson (e : HistoryEntry) : Value := .object e.pairs

end HistoryEntry

/-- One line of the history journal. -/
inductive JournalRecord where
  | select (e : HistoryEntry)
  | forget (queryText : String)
  deriving DecidableEq, Inhabited

namespace JournalRecord

/-- The document shape of a record, tagged by `op`. -/
def shape : Shape :=
  .tagged "JournalRecord" "op"
    [("select", some HistoryEntry.shape),
     ("forget", some (.record "struct variant JournalRecord::Forget"
        [("queryText", .text "a string", none)] none))]

/-- A record from its checked document. -/
def ofCanonical (v : Value) : JournalRecord :=
  if v.textAt "op" == "forget" then .forget (v.textAt "queryText")
  else .select (HistoryEntry.ofCanonical v)

/-- The document form of a record, with `op` first. -/
def toJson : JournalRecord → Value
  | .select e => .object (("op", .string "select") :: e.pairs)
  | .forget q => .object [("op", .string "forget"), ("queryText", .string q)]

/-- A record as one compact line, without its line break. -/
def line (r : JournalRecord) : String := r.toJson.compact

/-- Read a record from one line of text; repeated keys are refused. -/
def ofLine? (text : String) : Option JournalRecord :=
  match Value.parse text with
  | .ok v =>
    match shape.decode v with
    | .ok c => some (ofCanonical c)
    | .error _ => none
  | .error _ => none

end JournalRecord

end Launcher
