import Launcher.Config.Basic
import Launcher.Number.Decimal

/-!
# Problems in a configuration

`Config.problems` lists what is inconsistent in a configuration, in this order:

* every plugin id configured again after its first entry;
* every scoped keyword claimed by more than one enabled plugin, by keyword in text order, with
  the claiming ids in table order;
* every plugin that no query can reach (enabled, not global, no scoped keyword);
* a compaction threshold that is not a number or is below 1.5, with the value used instead.
-/

namespace Launcher

namespace Config

/-- The ids configured again after their first entry, one per repeat, in table order. -/
def repeatedIds (plugins : List PluginSettings) : List String :=
  (plugins.foldl (fun (seen, out) p =>
    if seen.contains p.id then (seen, p.id :: out) else (p.id :: seen, out)) ([], [])).2.reverse

/-- Add a claim to the keyword table, kept sorted by keyword. -/
def addClaim (keyword id : String) : List (String × List String) → List (String × List String)
  | [] => [(keyword, [id])]
  | (k, ids) :: rest =>
    if keyword < k then (keyword, [id]) :: (k, ids) :: rest
    else if keyword == k then (k, ids ++ [id]) :: rest
    else (k, ids) :: addClaim keyword id rest

/-- The scoped keywords of the enabled plugins, sorted, with the ids claiming each. -/
def claims (plugins : List PluginSettings) : List (String × List String) :=
  plugins.foldl (fun table p =>
    if p.disabled then table
    else match p.metadata.scopedKeyword with
      | some k => addClaim k p.id table
      | none => table) []

/-- What is inconsistent in a configuration. -/
def problems (c : Config) : List String :=
  let repeated := (repeatedIds c.plugins).map fun id => s!"plugin '{id}' is configured more than once"
  let shared := ((claims c.plugins).filter (·.2.length > 1)).map fun (k, ids) =>
    s!"action keyword '{k}' is claimed by " ++ ", ".intercalate ids
  let unreachable := (c.plugins.filter (·.metadata.inaccessible)).map fun p =>
    s!"plugin '{p.id}' is not accessible: not global and has no action keyword"
  let t := c.history.compactThreshold
  let threshold :=
    if t.isNaN || Binary64.lt t minCompactThreshold then
      let shown := Binary64.Layout.plain.render t
      let used := Binary64.Layout.plain.render c.options.compactThreshold
      [s!"history compactThreshold {shown} is too low; using {used}"]
    else []
  repeated ++ shared ++ unreachable ++ threshold

end Config

end Launcher
