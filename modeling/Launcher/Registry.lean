import Launcher.Error
import Launcher.Plugin.Settings
import Launcher.Routing
import Launcher.Text.Quoted

/-!
# The plugin registry

The registry holds every installed plugin's metadata and lifecycle state, in configuration
order:

* `Registry.register` installs a plugin as unloaded, refusing a second plugin with the same id;
* `Registry.moveTo` walks the lifecycle, refusing moves that `Stage.canMove` forbids and leaving
  the state unchanged then;
* the setters change one plugin's metadata;
* `Registry.applySettings` pushes configured overrides into the registry and adopts the
  configuration's order: configured plugins first, in the order of their first setting, then the
  others in their old order;
* `Registry.snapshot` is the view a query works on: the enabled, ready plugins with their
  position among all entries, and the scoped keywords of every enabled plugin, sorted and without
  repeats.
-/

namespace Launcher

/-- One installed plugin. -/
structure Registry.Entry where
  metadata : PluginMetadata
  state : PluginState
  deriving Inhabited

/-- Installed plugins in configuration order. -/
structure Registry where
  entries : List Registry.Entry := []
  deriving Inhabited

/-- A ready, enabled plugin as one query sees it, with its position among all entries. -/
structure Listed where
  metadata : PluginMetadata
  order : Nat
  deriving Inhabited

/-- The plugins and keywords one query works on. -/
structure Snapshot where
  plugins : List Listed := []
  keywords : List String := []
  deriving Inhabited

namespace Registry

/-- The entry of an id. -/
def find? (r : Registry) (id : String) : Option Entry := r.entries.find? (·.metadata.id == id)

/-- Install a plugin as unloaded. -/
def register (r : Registry) (m : PluginMetadata) : Except Error Registry :=
  if r.entries.any (·.metadata.id == m.id) then .error (.duplicatePlugin m.id)
  else .ok { entries := r.entries ++ [⟨m, .unloaded⟩] }

/-- Every plugin's metadata, disabled ones included. -/
def list (r : Registry) : List PluginMetadata := r.entries.map (·.metadata)

/-- The metadata of an id. -/
def metadata? (r : Registry) (id : String) : Option PluginMetadata := (r.find? id).map (·.metadata)

/-- The state of an id. -/
def state? (r : Registry) (id : String) : Option PluginState := (r.find? id).map (·.state)

/-- The ids whose state is exactly the given one. -/
def idsInState (r : Registry) (s : PluginState) : List String :=
  (r.entries.filter (·.state == s)).map (·.metadata.id)

/-- The enabled plugins that no query can reach. -/
def inaccessible (r : Registry) : List String :=
  (r.entries.filter (·.metadata.inaccessible)).map (·.metadata.id)

/-- Change the entry of an id, or fail when there is none. -/
def modify (r : Registry) (id : String) (f : Entry → Except Error Entry) : Except Error Registry :=
  if r.entries.any (·.metadata.id == id) then do
    let entries ← r.entries.mapM fun e => if e.metadata.id == id then f e else pure e
    return { entries := entries }
  else .error (.unknownPlugin id)

/-- Change the metadata of an id. -/
def updateMetadata (r : Registry) (id : String) (f : PluginMetadata → PluginMetadata) :
    Except Error Registry :=
  r.modify id fun e => pure { e with metadata := f e.metadata }

/-- Enable or disable a plugin. -/
def setEnabled (r : Registry) (id : String) (enabled : Bool) : Except Error Registry :=
  r.updateMetadata id fun m => { m with disabled := !enabled }

/-- Make a plugin global or not. -/
def setGlobal (r : Registry) (id : String) (global : Bool) : Except Error Registry :=
  r.updateMetadata id fun m => { m with isGlobal := global }

/-- Set a plugin's action keyword, trimmed. -/
def setActionKeyword (r : Registry) (id : String) (keyword : String) : Except Error Registry :=
  r.updateMetadata id fun m => { m with actionKeyword := Text.trim keyword }

/-- Set a plugin's weight boost. -/
def setWeightBoost (r : Registry) (id : String) (boost : Int) : Except Error Registry :=
  r.updateMetadata id fun m => { m with weightBoost := boost }

/-- Move a plugin to a new lifecycle state, if the lifecycle allows it. -/
def moveTo (r : Registry) (id : String) (s : PluginState) : Except Error Registry :=
  r.modify id fun e =>
    if e.state.stage.canMove s.stage then pure { e with state := s }
    else .error (.invalidTransition id e.state.stage s.stage)

/-- `unloaded → initializing` -/
def beginInitialize (r : Registry) (id : String) : Except Error Registry := r.moveTo id .initializing

/-- `initializing → ready` -/
def markReady (r : Registry) (id : String) : Except Error Registry := r.moveTo id .ready

/-- `initializing | ready → failed` -/
def markFailed (r : Registry) (id : String) (error : String) : Except Error Registry :=
  r.moveTo id (.failed error)

/-- `ready | failed → unloaded`, the first step of a reload. -/
def reset (r : Registry) (id : String) : Except Error Registry := r.moveTo id .unloaded

/-- The position of the first setting for an id, or the number of settings when none names it. -/
def rankIn (settings : List PluginSettings) (id : String) : Nat :=
  (settings.findIdx? (·.id == id)).getD settings.length

/-- Metadata with a setting's overrides: keyword (trimmed), global flag, boost, disabled flag. -/
def overridden (m : PluginMetadata) (s : PluginSettings) : PluginMetadata :=
  { m with
    actionKeyword := Text.trim s.actionKeyword
    isGlobal := s.isGlobal
    weightBoost := s.weightBoost
    disabled := s.disabled }

/-- An entry with the overrides of every setting for its id applied in turn. -/
def Entry.configure (settings : List PluginSettings) (e : Entry) : Entry :=
  settings.foldl (fun e s =>
    if s.id == e.metadata.id then { e with metadata := overridden e.metadata s } else e) e

/-- Apply configured overrides and adopt the configuration's order; the sort is stable, so the
plugins without settings keep their relative order behind the configured ones. -/
def applySettings (r : Registry) (settings : List PluginSettings) : Registry :=
  let configured := r.entries.map (Entry.configure settings)
  { entries := configured.mergeSort (fun a b =>
      rankIn settings a.metadata.id ≤ rankIn settings b.metadata.id) }

/-- Insert a text into a sorted list without repeats. -/
def insertKeyword (k : String) : List String → List String
  | [] => [k]
  | x :: xs => if k < x then k :: x :: xs else if k == x then x :: xs else x :: insertKeyword k xs

/-- The view one query works on. -/
def snapshot (r : Registry) : Snapshot :=
  let indexed := r.entries.zipIdx
  { plugins := indexed.filterMap (fun (e, i) =>
      if !e.metadata.disabled && e.state.isReady then some ⟨e.metadata, i⟩ else none)
    keywords := r.entries.foldl (fun ks e =>
      if e.metadata.disabled then ks
      else match e.metadata.scopedKeyword with
        | some k => insertKeyword k ks
        | none => ks) [] }

end Registry

namespace Snapshot

/-- The listed plugin of an id. -/
def get? (s : Snapshot) (id : String) : Option Listed := s.plugins.find? (·.metadata.id == id)

/-- The plugins that receive a query, in configuration order. -/
def targets (s : Snapshot) (q : Query) (o : DispatchOptions) : List Listed :=
  s.plugins.filter fun p => isTarget p.metadata q o

/-- Parse raw text against the snapshot's keywords. -/
def parse (s : Snapshot) (raw : String) : Query := Query.parse raw s.keywords

end Snapshot

/-- A text field in the debugging layout: quoted with escapes. -/
def debugText (s : String) : String := Text.quoted s

/-- An optional text in the debugging layout. -/
def debugOption : Option String → String
  | some s => s!"Some({debugText s})"
  | none => "None"

/-- Metadata in the debugging layout, with snake_case field names. -/
def PluginMetadata.debugText (m : PluginMetadata) : String :=
  "PluginMetadata \x7b id: " ++ Launcher.debugText m.id ++ ", name: " ++ Launcher.debugText m.name ++
    ", action_keyword: " ++ Launcher.debugText m.actionKeyword ++
    ", is_global: " ++ toString m.isGlobal ++ ", weight_boost: " ++ toString m.weightBoost ++
    ", disabled: " ++ toString m.disabled ++ ", directory: " ++ debugOption m.directory ++
    ", icon_path_light: " ++ debugOption m.iconPathLight ++
    ", icon_path_dark: " ++ debugOption m.iconPathDark ++ " \x7d"

/-- A listed plugin in the debugging layout; the handle and gate are elided. -/
def Listed.debugText (p : Listed) : String :=
  "RegisteredPlugin \x7b metadata: " ++ p.metadata.debugText ++ ", order: " ++ toString p.order ++
    ", .. \x7d"

end Launcher
