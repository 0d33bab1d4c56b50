import Launcher.Query
import Launcher.Result.Item

/-!
# Scripted plugins

The engine drives plugins through four calls: answering a query, one-time start-up, reloading,
and handling a selected result. A `ScriptedPlugin` decides each of them in advance:

* how a query is answered (`AnswerMode`): fixed results, an echo of the search text before them,
  an error (optionally wrapped in an outer context), or a crash;
* how long a query call takes on the engine's clock (`delayMs`);
* how start-up, reload and selection end (`StepEnd`).

A plugin that implements only queries (`minimal`) succeeds at every other call. The engine keeps
a `CallLog` of what it asked each logging plugin: the search texts, the context data of selected
results, and the number of reloads.
-/

namespace Launcher.Engine

open Json

/-- How a call other than a query ends. -/
inductive StepEnd where
  | ok
  | fail (message : String)
  | crash
  deriving DecidableEq, Inhabited

/-- How a plugin answers queries. -/
inductive AnswerMode where
  | fixed | echo | fail | failInContext | crash | minimal
  deriving DecidableEq, Inhabited

/-- What a query call produced. -/
inductive Answer where
  | items (results : List ResultItem)
  | fault (message : String)
  | crash
  deriving Inhabited

/-- A plugin whose every call is decided in advance. -/
structure ScriptedPlugin where
  mode : AnswerMode := .fixed
  results : List ResultItem := []
  message : String := "plugin error"
  delayMs : Nat := 0
  init : StepEnd := .ok
  reload : StepEnd := .ok
  select : StepEnd := .ok
  /-- whether the plugin keeps a log of the calls it receives -/
  logged : Bool := true
  deriving Inhabited

/-- What the engine asked a plugin. -/
structure CallLog where
  searches : List String := []
  selections : List Value := []
  reloads : Nat := 0
  deriving Inhabited

namespace ScriptedPlugin

/-- A plugin that answers every query with nothing and keeps no log. -/
def inert : ScriptedPlugin := { logged := false }

/-- The answer to a query. -/
def answer (p : ScriptedPlugin) (q : Query) : Answer :=
  match p.mode with
  | .fixed | .minimal => .items p.results
  | .echo => .items ({ title := "echo " ++ q.search, subTitle := q.actionKeyword } :: p.results)
  | .fail => .fault p.message
  | .failInContext => .fault ("outer context: " ++ p.message)
  | .crash => .crash

/-- How start-up ends; a query-only plugin always succeeds. -/
def initEnd (p : ScriptedPlugin) : StepEnd := if p.mode == .minimal then .ok else p.init

/-- How a reload ends; a query-only plugin always succeeds. -/
def reloadEnd (p : ScriptedPlugin) : StepEnd := if p.mode == .minimal then .ok else p.reload

end ScriptedPlugin

end Launcher.Engine
