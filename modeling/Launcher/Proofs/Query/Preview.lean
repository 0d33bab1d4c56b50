import Launcher.Cli.Commands
import Launcher.Session.Engine
import Launcher.Proofs.Query.Routing
import Launcher.Proofs.Registry.Settings

/-!
# The routing preview

The command line previews where a text would go from the configuration alone: it reads the text
against the scoped keywords of the configured, enabled plugins and lists the configured plugins
that take it. The engine routes from its registry, whose metadata the configuration overrode and
whose order it adopted. When the configuration names every registered plugin once and all of
them are ready, the two agree:

* `Registry.Entry.route` — what routing reads of an entry: its id, whether it is enabled and
  ready, whether it is global, and its scoped keyword;
* `parse_eq_of_routes`, `targets_eq_of_routes` — two registries whose entries read alike, in
  order, read every text alike and send it to plugins of the same ids;
* `routes_applySettings` — a registry configured by settings that name each of its plugins once
  reads, entry by entry, as the settings' own metadata, in the settings' order;
* `routePlan_fst`, `routePlan_snd` — the preview routes as a registry of the configured plugins,
  all ready;
* `route_preview_matches_engine` — so the preview prints the engine's query and targets.
-/

namespace Launcher

open Text

/-- What routing reads of a plugin. -/
structure RouteView where
  id : String
  enabled : Bool
  ready : Bool
  isGlobal : Bool
  keyword : Option String
  deriving DecidableEq

namespace RouteView

/-- Whether a text addresses the plugin, as `PluginMetadata.addressedBy` decides it. -/
def takes (v : RouteView) (raw : String) (o : DispatchOptions) : Bool :=
  (v.isGlobal && (trim raw != "" || !o.skipEmptyGlobalQuery)) ||
    (v.keyword.isSome && v.keyword == (words raw).head?)

/-- The target a text makes of the plugin, if it takes the text: its id and global flag. -/
def target? (v : RouteView) (raw : String) (o : DispatchOptions) : Option (String × Bool) :=
  if v.enabled && v.ready && v.takes raw o then some (v.id, v.isGlobal) else none

end RouteView

namespace Registry

/-- What routing reads of an entry. -/
def Entry.route (e : Entry) : RouteView :=
  ⟨e.metadata.id, !e.metadata.disabled, e.state.isReady, e.metadata.isGlobal,
    e.metadata.scopedKeyword⟩

/-- Whether a text addresses an entry, read off its routing view. -/
theorem Entry.takes_route (e : Entry) (raw : String) (o : DispatchOptions) :
    e.route.takes raw o = e.metadata.addressedBy raw o := by
  simp only [RouteView.takes, Entry.route, PluginMetadata.addressedBy]

/-- The target an entry makes: its id and global flag, when it is enabled, ready and addressed. -/
theorem Entry.target?_route (e : Entry) (raw : String) (o : DispatchOptions) :
    e.route.target? raw o =
      if !e.metadata.disabled && e.state.isReady && e.metadata.addressedBy raw o then
        some (e.metadata.id, e.metadata.isGlobal)
      else none := by
  have ht := Entry.takes_route e raw o
  unfold RouteView.target?
  by_cases h : (!e.metadata.disabled && e.state.isReady && e.metadata.addressedBy raw o) = true
  · rw [if_pos h, if_pos (by rw [ht]; exact h)]
    rfl
  · rw [if_neg h, if_neg (by rw [ht]; exact h)]

/-! ## Routing reads only the routing view -/

/-- The snapshot's keywords, read off the entries' routing views. -/
theorem mem_keywords_iff_route (r : Registry) (k : String) :
    k ∈ r.snapshot.keywords ↔
      ∃ v ∈ r.entries.map Entry.route, v.enabled = true ∧ v.keyword = some k := by
  rw [mem_keywords_snapshot]
  simp [Entry.route]

/-- Reading a text depends only on which keywords are known. -/
theorem parse_congr {K₁ K₂ : List String} (h : ∀ k, k ∈ K₁ ↔ k ∈ K₂) (raw : String) :
    Query.parse raw K₁ = Query.parse raw K₂ := by
  have hc : ∀ t, K₁.contains t = K₂.contains t := fun t => by
    rw [Bool.eq_iff_iff, List.contains_iff_mem, List.contains_iff_mem]
    exact h t
  simp only [Query.parse, hc]

/-- Two registries whose entries read alike read every text alike. -/
theorem parse_eq_of_routes {r₁ r₂ : Registry}
    (h : r₁.entries.map Entry.route = r₂.entries.map Entry.route) (raw : String) :
    r₁.snapshot.parse raw = r₂.snapshot.parse raw :=
  parse_congr (fun k => by rw [mem_keywords_iff_route, mem_keywords_iff_route, h]) raw

/-- The routed plugins' ids and global flags, read off the entries' routing views. -/
theorem routed_map_target (r : Registry) (raw : String) (o : DispatchOptions) :
    (r.routed raw o).map (fun p => (p.metadata.id, p.metadata.isGlobal)) =
      (r.entries.map Entry.route).filterMap fun v => v.target? raw o := by
  rw [routed, List.map_filterMap, List.filterMap_map, ← List.zipIdx_map_fst 0 r.entries,
    List.filterMap_map, List.zipIdx_map_fst]
  apply List.filterMap_congr
  rintro ⟨e, i⟩ -
  simp only [Function.comp_apply, Entry.target?_route]
  split <;> rfl

/-- Two registries whose entries read alike send every text to plugins of the same ids, in the
same order. -/
theorem targets_eq_of_routes {r₁ r₂ : Registry}
    (h : r₁.entries.map Entry.route = r₂.entries.map Entry.route) (raw : String)
    (o : DispatchOptions) :
    (r₁.snapshot.targets (r₁.snapshot.parse raw) o).map
        (fun p => (p.metadata.id, p.metadata.isGlobal)) =
      (r₂.snapshot.targets (r₂.snapshot.parse raw) o).map
        (fun p => (p.metadata.id, p.metadata.isGlobal)) := by
  rw [targets_parse, targets_parse, routed_map_target, routed_map_target, h]

/-! ## Configured registries -/

section Settings

variable {S : List PluginSettings}

/-- An entry overridden by its setting reads as the setting's own metadata. -/
theorem route_overridden (m : PluginMetadata) (p : PluginSettings) (hid : p.id = m.id) :
    Entry.route ⟨overridden m p, .ready⟩ = Entry.route ⟨p.metadata, .ready⟩ := by
  simp only [Entry.route, overridden, PluginSettings.metadata, PluginMetadata.new,
    PluginMetadata.scopedKeyword, hid]
  rfl

/-- **A configured registry reads as its settings.** Settings that name each plugin of a
registry of ready plugins once, and nothing else, leave a registry whose entries read, one by
one, as the settings' own metadata, in the settings' order. -/
theorem routes_applySettings (hS : (S.map (·.id)).Nodup) {r : Registry}
    (hids : r.ids.Perm (S.map (·.id))) (hready : ∀ e ∈ r.entries, e.state = .ready) :
    (r.applySettings S).entries.map Entry.route =
      S.map fun p => Entry.route ⟨p.metadata, .ready⟩ := by
  let le : Entry → Entry → Bool := fun a b => decide (rankIn S a.metadata.id ≤ rankIn S b.metadata.id)
  have hsorted : ((r.entries.map (Entry.configure S)).mergeSort le).Pairwise
      fun a b => le a b = true :=
    List.pairwise_mergeSort (fun a b c hab hbc => by simp only [le, decide_eq_true_eq] at *; omega)
      (fun a b => by simp only [le, Bool.or_eq_true, decide_eq_true_eq]; omega) _
  have hmem_sorted : ∀ x, x ∈ (r.applySettings S).entries ↔ ∃ e ∈ r.entries, Entry.configure S e = x :=
    fun x => ((List.mergeSort_perm _ le).mem_iff).trans List.mem_map
  have hconf : ∀ e ∈ r.entries, ∃ p ∈ S, p.id = e.metadata.id ∧
      (Entry.configure S e).route = Entry.route ⟨p.metadata, .ready⟩ := by
    intro e he
    obtain ⟨p, hp, hid⟩ := List.mem_map.1 (hids.mem_iff.1 (List.mem_map.2 ⟨e, he, rfl⟩))
    refine ⟨p, hp, hid, ?_⟩
    rw [configure_of_mem hS hp hid, ← route_overridden e.metadata p hid, hready e he]
  have hperm : ((r.applySettings S).entries.map Entry.route).Perm
      (S.map fun p => Entry.route ⟨p.metadata, .ready⟩) := by
    have hn₁ : ((r.applySettings S).entries.map Entry.route).Nodup := by
      refine List.Nodup.of_map RouteView.id ?_
      rw [List.map_map]
      exact ((ids_applySettings S).trans hids).nodup_iff.2 hS
    have hn₂ : (S.map fun p => Entry.route ⟨p.metadata, .ready⟩).Nodup := by
      refine List.Nodup.of_map RouteView.id ?_
      rw [List.map_map]
      exact hS
    rw [List.perm_ext_iff_of_nodup hn₁ hn₂]
    intro v
    simp only [List.mem_map, hmem_sorted]
    constructor
    · rintro ⟨_, ⟨e, he, rfl⟩, rfl⟩
      obtain ⟨p, hp, -, hv⟩ := hconf e he
      exact ⟨p, hp, hv.symm⟩
    · rintro ⟨p, hp, rfl⟩
      obtain ⟨e, he, hid⟩ := List.mem_map.1 (hids.mem_iff.2 (List.mem_map.2 ⟨p, hp, rfl⟩))
      obtain ⟨p', hp', hid', hv⟩ := hconf e he
      have hpp : p' = p := List.inj_on_of_nodup_map hS hp' hp (hid'.trans hid)
      exact ⟨_, ⟨e, he, rfl⟩, hpp ▸ hv⟩
  refine @List.Perm.eq_of_pairwise _ (fun a b => rankIn S a.id ≤ rankIn S b.id) _ _ ?_ ?_ ?_ hperm
  · intro a b ha hb hab hba
    have hid : a.id = b.id := by
      have hr : rankIn S a.id = rankIn S b.id := by omega
      refine eq_of_rankIn_eq ?_ ?_ hr
      · have := (hperm.map RouteView.id).mem_iff.1 (List.mem_map.2 ⟨a, ha, rfl⟩)
        simpa [List.map_map, Entry.route, PluginSettings.metadata, PluginMetadata.new] using this
      · simpa [Entry.route, PluginSettings.metadata, PluginMetadata.new] using
          (List.mem_map.2 ⟨b, hb, rfl⟩ : b.id ∈ _)
    obtain ⟨p, hp, rfl⟩ := List.mem_map.1 hb
    obtain ⟨p', hp', ha'⟩ := List.mem_map.1 (hperm.mem_iff.1 ha)
    subst ha'
    have hpp : p' = p := List.inj_on_of_nodup_map hS hp' hp hid
    rw [hpp]
  · rw [List.pairwise_map]
    exact hsorted.imp fun h => by simpa [le, Entry.route, id_configure] using h
  · rw [List.pairwise_map]
    exact (List.pairwise_map.1 (pairwise_rankIn hS)).imp Nat.le_of_lt

end Settings

end Registry

/-! ## The preview -/

namespace Cli

open Registry

/-- The registry the preview routes as: every configured plugin, ready, in configuration order. -/
def previewRegistry (c : Config) : Registry :=
  ⟨c.plugins.map fun p => ⟨p.metadata, .ready⟩⟩

/-- The preview's keywords are those of its registry. -/
theorem previewKeywords_eq (c : Config) :
    previewKeywords (c.plugins.map PluginSettings.metadata) = (previewRegistry c).snapshot.keywords := by
  simp only [previewKeywords, previewRegistry, Registry.snapshot, List.foldl_map]
  refine congrArg (fun f => List.foldl f [] c.plugins) (funext fun ks => funext fun p => ?_)
  cases p.metadata.disabled <;> cases p.metadata.scopedKeyword <;> simp

/-- The preview reads a text as its registry does. -/
theorem routePlan_fst (c : Config) (text : String) :
    (routePlan c text).1 = (previewRegistry c).snapshot.parse text := by
  simp only [routePlan, Snapshot.parse, previewKeywords_eq]

/-- The preview sends a text to the plugins its registry does. -/
theorem routePlan_snd (c : Config) (text : String) :
    (routePlan c text).2.map (fun m => (m.id, m.isGlobal)) =
      ((previewRegistry c).snapshot.targets ((previewRegistry c).snapshot.parse text)
        c.dispatchOptions).map fun p => (p.metadata.id, p.metadata.isGlobal) := by
  rw [targets_parse, routed_map_target]
  simp only [routePlan, previewKeywords_eq, ← List.filterMap_eq_filter, List.map_filterMap,
    List.filterMap_map]
  conv => rhs; simp only [previewRegistry, List.filterMap_map]
  apply List.filterMap_congr
  intro p hp
  simp only [Function.comp_apply, Entry.target?_route, Option.guard]
  cases hd : p.metadata.disabled with
  | true => simp [isTarget_disabled _ _ _ hd]
  | false =>
    have he : (⟨p.metadata, .ready⟩ : Entry) ∈ (previewRegistry c).entries :=
      List.mem_map.2 ⟨p, hp, rfl⟩
    have ht := isTarget_parse (previewRegistry c) he hd text c.dispatchOptions
    rw [Snapshot.parse] at ht
    simp [ht, PluginState.isReady]


/-- **The routing preview agrees with the engine.** Take a configuration that names each of its
plugins once, and an engine made from it over a registry of exactly those plugins, all ready.
For every text, the query the preview prints is the one the engine reads, the target ids it
lists are, in order, those of the engine's targets, and its whole report is the engine's. -/
theorem route_preview_matches_engine (c : Config) (registry : Registry)
    (plugins : List (String × Engine.ScriptedPlugin)) (history : HistoryStore) (disk : Disk)
    (hc : (c.plugins.map (·.id)).Nodup) (hids : registry.ids.Perm (c.plugins.map (·.id)))
    (hready : ∀ e ∈ registry.entries, e.state = .ready) (text : String) :
    let w := Engine.World.configured registry plugins c history disk
    let q := w.registry.snapshot.parse text
    let targets := w.registry.snapshot.targets q w.options
    (routePlan c text).1 = q ∧
    (routePlan c text).2.map (·.id) = targets.map (·.metadata.id) ∧
    routeLines c text =
      routeReport q w.options (targets.map fun p => (p.metadata.id, p.metadata.isGlobal)) := by
  intro w q targets
  have hroutes : (registry.applySettings c.plugins).entries.map Entry.route =
      (previewRegistry c).entries.map Entry.route := by
    rw [routes_applySettings hc hids hready, previewRegistry, List.map_map]
    rfl
  have hq : (routePlan c text).1 = q :=
    (routePlan_fst c text).trans (parse_eq_of_routes hroutes text).symm
  have ht : (routePlan c text).2.map (fun m => (m.id, m.isGlobal)) =
      targets.map fun p => (p.metadata.id, p.metadata.isGlobal) :=
    (routePlan_snd c text).trans (targets_eq_of_routes hroutes text c.dispatchOptions).symm
  refine ⟨hq, ?_, ?_⟩
  · have := congrArg (List.map Prod.fst) ht
    simpa only [List.map_map, Function.comp_def] using this
  · rw [routeLines, hq, ht]
    rfl

/-- Two configured plugins, registered in the other order: one addressed by a keyword, one
global. -/
theorem route_preview_two_plugins :
    let c : Config :=
      { plugins := [{ id := "calc", actionKeyword := " = " }, { id := "files", isGlobal := true }] }
    let registry : Registry := ⟨[⟨{ id := "files" }, .ready⟩, ⟨{ id := "calc" }, .ready⟩]⟩
    let w := Engine.World.configured registry [] c (HistoryStore.inMemory {}) Disk.fresh
    let q := w.registry.snapshot.parse "= 1+1"
    let targets := w.registry.snapshot.targets q w.options
    (c.plugins.map (·.id)).Nodup ∧ registry.ids.Perm (c.plugins.map (·.id)) ∧
    (∀ e ∈ registry.entries, e.state = .ready) ∧
    (routePlan c "= 1+1").1 = q ∧
    (routePlan c "= 1+1").2.map (·.id) = targets.map (·.metadata.id) ∧
    routeLines c "= 1+1" =
      routeReport q w.options (targets.map fun p => (p.metadata.id, p.metadata.isGlobal)) := by
  intro c registry w q targets
  have hc : (c.plugins.map (·.id)).Nodup := by decide
  have hids : registry.ids.Perm (c.plugins.map (·.id)) := List.Perm.swap _ _ _
  have hready : ∀ e ∈ registry.entries, e.state = .ready := by decide
  exact ⟨hc, hids, hready,
    route_preview_matches_engine c registry [] (HistoryStore.inMemory {}) Disk.fresh hc hids hready
      "= 1+1"⟩

end Cli

end Launcher
