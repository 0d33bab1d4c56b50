import Launcher.Generation
import Launcher.Session.Reply

/-!
# Generation sessions

Commands on one generation counter: issue a generation, ask whether a generation is current,
and ask about the token of the `i`-th issued generation (0-based): whether it is still current,
and whether it was cancelled.
-/

namespace Launcher

open Json

/-- A command on the generation counter. -/
inductive GenerationCommand where
  | next
  | isCurrent (generation : Nat)
  | tokenCurrent (index : Nat)
  | tokenCancelled (index : Nat)
  deriving Inhabited

namespace GenerationCommand

/-- Run one command. -/
def run (g : Generations) : GenerationCommand → Reply × Generations
  | .next => let (n, g) := g.next; (.ok (.ofNat n), g)
  | .isCurrent n => (.ok (.bool (g.isCurrent n)), g)
  | .tokenCurrent i =>
    if i < g.current then (.ok (.bool (g.isCurrent (i + 1))), g) else (.refused "no such token", g)
  | .tokenCancelled i =>
    if i < g.current then (.ok (.bool (g.isCancelled (i + 1))), g) else (.refused "no such token", g)

/-- Run commands in turn on a fresh counter. -/
def runAll (cs : List GenerationCommand) : List Reply :=
  (cs.foldl (fun (g, out) c => let (r, g) := run g c; (g, r :: out)) (({} : Generations), [])).2.reverse

end GenerationCommand

end Launcher
