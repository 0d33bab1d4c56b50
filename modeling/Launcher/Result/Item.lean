import Launcher.Json.Shape

/-!
# Result items

A plugin answers a query with items:

* `ResultItem` — title, subtitle, icon, base score, an optional text to show as the completed
  query, and opaque context data handed back on selection;
* `ResultKey` — title and subtitle, which identify an item within one plugin's answer;
* `ResultIdentity` — the plugin id with the key, which identifies an item across plugins and is
  what history remembers.
-/

namespace Launcher

open Json

/-- Title and subtitle: an item's identity within one plugin. -/
structure ResultKey where
  title : String
  subTitle : String := ""
  deriving DecidableEq, Inhabited

/-- One candidate produced by a plugin. -/
structure ResultItem where
  title : String
  subTitle : String := ""
  icoPath : Option String := none
  score : Int := 0
  queryTextDisplay : Option String := none
  contextData : Value := .null
  deriving Inhabited

/-- Plugin id and key: an item's identity across plugins. -/
structure ResultIdentity where
  pluginId : String
  key : ResultKey
  deriving DecidableEq, Inhabited

namespace ResultKey

/-- The fields of a key. -/
def fields : List (String × Shape × Option Value) :=
  [("title", .text "a string", none), ("subTitle", .text "a string", some (.string ""))]

/-- The document shape of a key. -/
def shape : Shape := .record "struct ResultKey" fields none

/-- A key from its checked document. -/
def ofCanonical (v : Value) : ResultKey := { title := v.textAt "title", subTitle := v.textAt "subTitle" }

/-- Read a key from a document. -/
def decode (v : Value) : Except String ResultKey := (shape.decode v).map ofCanonical

/-- The pairs of a key's document. -/
def pairs (k : ResultKey) : List (String × Value) :=
  [("title", .string k.title), ("subTitle", .string k.subTitle)]

/-- The document form of a key. -/
def toJson (k : ResultKey) : Value := .object k.pairs

end ResultKey

namespace ResultItem

/-- An item with a title and subtitle and everything else at its default. -/
def new (title subTitle : String) : ResultItem := { title := title, subTitle := subTitle }

/-- The key of an item. -/
def key (i : ResultItem) : ResultKey := { title := i.title, subTitle := i.subTitle }

/-- The identity of an item answered by a plugin. -/
def identity (i : ResultItem) (pluginId : String) : ResultIdentity := ⟨pluginId, i.key⟩

/-- The document shape of an item. -/
def shape : Shape :=
  .record "struct ResultItem"
    [("title", .text "a string", none),
     ("subTitle", .text "a string", some (.string "")),
     ("icoPath", .maybe (.text "a string"), some .null),
     ("score", .whole .i64, some (.ofNat 0)),
     ("queryTextDisplay", .maybe (.text "a string"), some .null),
     ("contextData", .any, some .null)] none

/-- An item from its checked document. -/
def ofCanonical (v : Value) : ResultItem :=
  { title := v.textAt "title", subTitle := v.textAt "subTitle", icoPath := v.optTextAt "icoPath",
    score := v.intAt "score", queryTextDisplay := v.optTextAt "queryTextDisplay",
    contextData := v.get "contextData" }

/-- Read an item from a document. -/
def decode (v : Value) : Except String ResultItem := (shape.decode v).map ofCanonical

/-- The document form of an item: icon and display text only when set, context data only when
not null. -/
def toJson (i : ResultItem) : Value :=
  .object ([("title", .string i.title), ("subTitle", .string i.subTitle)] ++
    (match i.icoPath with | some p => [("icoPath", .string p)] | none => []) ++
    [("score", .ofInt i.score)] ++
    (match i.queryTextDisplay with | some t => [("queryTextDisplay", .string t)] | none => []) ++
    (match i.contextData with | .null => [] | d => [("contextData", d)]))

end ResultItem

namespace ResultIdentity

/-- The document shape of an identity: the plugin id, with the key's fields beside it. -/
def shape : Shape :=
  .record "struct ResultIdentity" [("pluginId", .text "a string", none)]
    (some (.record "struct ResultKey" ResultKey.fields none))

/-- An identity from its checked document. -/
def ofCanonical (v : Value) : ResultIdentity := ⟨v.textAt "pluginId", ResultKey.ofCanonical v⟩

/-- Read an identity from a document. -/
def decode (v : Value) : Except String ResultIdentity := (shape.decode v).map ofCanonical

/-- The document form of an identity. -/
def toJson (i : ResultIdentity) : Value := .object (("pluginId", .string i.pluginId) :: i.key.pairs)

end ResultIdentity

end Launcher
