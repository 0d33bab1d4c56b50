import Launcher.History.Entry

/-!
# Recency lists

History keeps a bounded number of entries ordered by last selection. A `Recency` list holds
them most recent first, with at most `slots` of them:

* `Recency.put` — store an entry as the most recent, replacing the entry of the same key, and
  drop the least recent one when the list is full;
* `Recency.find?` — the entry of a key, without changing the order;
* `Recency.dropQuery` — remove every entry of a query text.

`put` keeps the bound (`length_put_le`).
-/

namespace Launcher

/-- Entries most recent first, at most `slots` of them. -/
structure Recency where
  slots : Nat
  entries : List HistoryEntry := []
  deriving Inhabited

namespace Recency

/-- An empty list with room for `slots` entries. -/
def empty (slots : Nat) : Recency := { slots := slots }

/-- The entry of a key. -/
def find? (r : Recency) (k : SelectionKey) : Option HistoryEntry :=
  r.entries.find? (·.key == k)

/-- The number of entries. -/
def size (r : Recency) : Nat := r.entries.length

/-- Store an entry as the most recent one. -/
def put (r : Recency) (e : HistoryEntry) : Recency :=
  let others := r.entries.filter (·.key != e.key)
  { r with entries := e :: others.take (r.slots - 1) }

/-- Remove every entry of a query text, and say how many there were. -/
def dropQuery (r : Recency) (q : String) : Nat × Recency :=
  let kept := r.entries.filter (·.queryText != q)
  (r.entries.length - kept.length, { r with entries := kept })

/-- A stored entry is the most recent one. -/
theorem put_head (r : Recency) (e : HistoryEntry) : (r.put e).entries.head? = some e := rfl

/-- The list never grows beyond its slots, once it has one. -/
theorem length_put_le (r : Recency) (e : HistoryEntry) (h : 0 < r.slots) :
    (r.put e).size ≤ r.slots := by
  simp only [put, size, List.length_cons, List.length_take]
  omega

end Recency

end Launcher
