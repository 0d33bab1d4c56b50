import Launcher.Registry
import Launcher.History.Options
import Launcher.Result.Ranked

/-!
# Ranking

One generation's answers are merged into the list the user sees:

* `displayText` — the text that replaces the query when the user accepts a result: the plugin's
  own non-empty text, else `keyword title` for a plugin addressed through its keyword, else the
  title;
* `merge` — every result is scored `score + weight boost + history boost` (saturating), the
  results are ordered by score, highest first, and the list is cut to `maxResults` with a marker
  that says how many there were.

The outcome does not depend on the order in which batches arrived: batches are put in
configuration order first (ties by plugin id), and both sorts are stable, so equal scores keep
configuration order and then each plugin's own order.
-/

namespace Launcher

/-- The results of one plugin for one query. -/
structure Batch where
  pluginId : String
  results : List ResultItem
  deriving Inhabited

/-- The merged list of one generation. -/
structure Ranking where
  /-- what the user sees: the top results, and a marker when the list was cut -/
  entries : List ListEntry
  /-- every scored result in order, kept for showing more -/
  full : List RankedResult
  deriving Inhabited

/-- The largest machine word, where plugins missing from the snapshot are ordered. -/
def lastOrder : Nat := Nat.pow 2 64 - 1

/-- The text that replaces the query when a result is accepted. -/
def displayText (item : ResultItem) (m : Option PluginMetadata) (q : Query) : String :=
  match item.queryTextDisplay with
  | some t => if !t.isEmpty then t else fallback
  | none => fallback
where
  /-- Without text from the plugin: `keyword title` when addressed through the keyword. -/
  fallback : String :=
    if q.isScoped && (m.bind PluginMetadata.scopedKeyword) == some q.actionKeyword then
      q.actionKeyword ++ " " ++ item.title
    else item.title

/-- The position of a plugin in the snapshot, last when absent. -/
def Snapshot.orderOf (s : Snapshot) (id : String) : Nat :=
  match s.get? id with
  | some p => p.order
  | none => lastOrder

/-- Batches in configuration order, ties by plugin id. -/
def orderBatches (s : Snapshot) (batches : List Batch) : List Batch :=
  batches.mergeSort fun a b =>
    let oa := s.orderOf a.pluginId
    let ob := s.orderOf b.pluginId
    oa < ob || (oa == ob && decide (a.pluginId ≤ b.pluginId))

/-- Score the results of one batch. -/
def scoreBatch (s : Snapshot) (q : Query) (boost : ResultIdentity → Int) (b : Batch) :
    List RankedResult :=
  let m := (s.get? b.pluginId).map (·.metadata)
  let weight := (m.map (·.weightBoost)).getD 0
  b.results.map fun item =>
    { pluginId := b.pluginId, item := item,
      finalScore := saturatingAdd (saturatingAdd item.score weight) (boost (item.identity b.pluginId)),
      queryTextDisplay := displayText item m q }

/-- The results ordered by final score, highest first, keeping the order of equal scores. -/
def byScore (rs : List RankedResult) : List RankedResult :=
  rs.mergeSort fun a b => b.finalScore ≤ a.finalScore

/-- The shown list: at most `maxResults` results (all when it is zero) and, when some were cut,
a marker with the total and the number shown. -/
def cutDown (full : List RankedResult) (maxResults : Nat) : List ListEntry :=
  let total := full.length
  let shown := (if maxResults == 0 then full else full.take maxResults).map ListEntry.result
  if maxResults > 0 && total > maxResults then shown ++ [.truncated total maxResults] else shown

/-- Score, order and cut one generation's batches. `boost` is the history bonus of a result for
the query's raw text. -/
def merge (batches : List Batch) (q : Query) (s : Snapshot) (boost : ResultIdentity → Int)
    (maxResults : Nat) : Ranking :=
  let full := byScore ((orderBatches s batches).flatMap (scoreBatch s q boost))
  { entries := cutDown full maxResults, full := full }

/-- A list was cut exactly when it ends in the marker. -/
def Ranking.isTruncated (r : Ranking) : Bool :=
  match r.entries.getLast? with
  | some e => e.isMarker
  | none => false

/-- No more results are shown than asked for. -/
theorem length_cutDown_le (full : List RankedResult) (n : Nat) (h : 0 < n) :
    (cutDown full n).length ≤ n + 1 := by
  unfold cutDown
  have hn : (n == 0) = false := by
    cases n with
    | zero => omega
    | succ k => rfl
  have htake : (full.take n).length ≤ n := List.length_take_le n full
  simp only [hn, Bool.false_eq_true, if_false]
  split
  · simp only [List.length_append, List.length_map, List.length_singleton]
    omega
  · simp only [List.length_map]
    omega

end Launcher
