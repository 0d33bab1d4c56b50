import Launcher.Query
import Launcher.Plugin.Metadata

/-!
# Routing

Which plugins receive a query:

* a disabled plugin receives nothing;
* when empty queries are skipped, an unscoped query with empty search text reaches nobody;
* a global plugin receives everything else;
* a keyword plugin receives only queries scoped to its keyword.

An unmatched keyword never falls back to the search text, so such a query reaches global plugins
only. `isTarget_disabled` and `isTarget_global` state the first and third rules.
-/

namespace Launcher

/-- How queries are sent to plugins. -/
structure DispatchOptions where
  /-- time allowed to each plugin, in milliseconds -/
  pluginTimeoutMs : Nat := 1000
  /-- whether global plugins are spared empty queries -/
  skipEmptyGlobalQuery : Bool := true
  deriving DecidableEq, Inhabited

/-- Whether a plugin with this metadata receives the query. -/
def isTarget (m : PluginMetadata) (q : Query) (o : DispatchOptions) : Bool :=
  if m.disabled then false
  else if o.skipEmptyGlobalQuery && !q.isScoped && q.search.isEmpty then false
  else if m.isGlobal then true
  else q.isScoped && m.scopedKeyword == some q.actionKeyword

/-- A disabled plugin is never a target. -/
theorem isTarget_disabled (m : PluginMetadata) (q : Query) (o : DispatchOptions)
    (h : m.disabled = true) : isTarget m q o = false := by
  simp [isTarget, h]

/-- An enabled global plugin receives every query that is not skipped as empty. -/
theorem isTarget_global (m : PluginMetadata) (q : Query) (o : DispatchOptions)
    (hd : m.disabled = false) (hg : m.isGlobal = true)
    (hs : (o.skipEmptyGlobalQuery && !q.isScoped && q.search.isEmpty) = false) :
    isTarget m q o = true := by
  simp [isTarget, hd, hg, hs]

end Launcher
