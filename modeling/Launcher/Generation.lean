/-!
# Query generations

Every submitted query gets a fresh generation number, 1, 2, …; issuing one cancels the one
before it. Work still running for an older generation may finish, but its output is rejected,
since only the newest generation is current.

* `Generations.next` — issue the next generation;
* `Generations.isCurrent` — never true for 0 or before any query;
* `Generations.isCancelled` — a generation is cancelled once a newer one was issued.
-/

namespace Launcher

/-- The generations issued so far. -/
structure Generations where
  current : Nat := 0
  deriving DecidableEq, Inhabited

namespace Generations

/-- Issue the next generation, cancelling the one before it. -/
def next (g : Generations) : Nat × Generations := (g.current + 1, ⟨g.current + 1⟩)

/-- Whether a generation is the newest one issued. -/
def isCurrent (g : Generations) (n : Nat) : Bool := n != 0 && g.current == n

/-- Whether a generation has been superseded by a newer one. -/
def isCancelled (g : Generations) (n : Nat) : Bool := n < g.current

/-- A new generation is current. -/
theorem isCurrent_next (g : Generations) : g.next.2.isCurrent g.next.1 = true := by
  simp [next, isCurrent]

/-- Issuing a generation cancels every older one. -/
theorem isCancelled_next (g : Generations) (n : Nat) (h : n ≤ g.current) :
    g.next.2.isCancelled n = true := by
  show decide (n < g.current + 1) = true
  exact decide_eq_true (by omega)

end Generations

end Launcher
