import Launcher.Json.Read

/-!
# Unknown keys in a configuration file

Misspelt keys are silently ignored when a configuration is read, so they are reported
separately. `unknownKeys` walks a document, keys in text order, and names every key that the
configuration does not know, as a path such as `search.maxResult` or `plugins[2].typo`:
sections recurse, the plugin table recurses into each element, and anything that is not an
object where one is expected contributes nothing. A text that is not JSON has no unknown keys.
-/

namespace Launcher

open Json

/-- The keys a part of the configuration knows: plain fields, nested sections, and tables whose
elements have keys of their own. -/
inductive KeySet where
  | node (fields : List String) (sections : List (String × KeySet)) (tables : List (String × KeySet))

/-- The keys of a plugin entry. -/
def pluginKeys : KeySet := .node ["id", "actionKeyword", "isGlobal", "weightBoost", "disabled"] [] []

/-- The keys of the whole configuration. -/
def configKeys : KeySet :=
  .node []
    [("search", .node ["maxResults", "pluginTimeoutMs", "skipEmptyGlobalQuery"] [] []),
     ("history", .node ["capacity", "boostCap", "boostHalfCount", "compactThreshold"] [] [])]
    [("plugins", pluginKeys)]

/-- A path below a prefix. -/
def keyPath (pre key : String) : String := if pre.isEmpty then key else pre ++ "." ++ key

/-- The unknown keys below a part of a document, given how deep the key sets still nest. -/
def unknownBelow : Nat → KeySet → String → Value → List String
  | 0, _, _, _ => []
  | fuel + 1, .node fields sections tables, pre, v =>
    match v with
    | .object entries =>
      entries.flatMap fun (k, child) =>
        let path := keyPath pre k
        match sections.lookup k with
        | some inner => unknownBelow fuel inner path child
        | none =>
          match tables.lookup k with
          | some inner =>
            match child with
            | .array items =>
              (items.zipIdx.flatMap fun (item, i) => unknownBelow fuel inner s!"{path}[{i}]" item)
            | _ => []
          | none => if fields.contains k then [] else [path]
    | _ => []

/-- The unknown keys of a configuration text, keys in text order. -/
def unknownKeys (text : String) : List String :=
  match Value.parse text with
  | .ok v => unknownBelow 3 configKeys "" v.settle
  | .error _ => []

end Launcher
