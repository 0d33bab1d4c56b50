import Mathlib.Logic.Relation
import Launcher.Proofs.Engine.Delivery

/-!
# The end of a query on many threads

On the engine's own thread, the end of a query — from the check that its generation is still
current once its dispatch is over, to the list sent to the interface — runs without a pause, and
`World.finish` takes it as one step. The engine may as well be shared by threads that run at the
same time; then that end is a row of atomic steps, and the steps of other threads fall between
them. The query checks its generation, ranks its arrivals under the history's lock, takes the
delivered lock, checks its generation again under it, stores its list, releases the lock, and only
then sends the list. Issuing a generation, which takes the coordinator's own lock, is one atomic
step here: that it behaves as one is `Coordinator.Reachable.linearized`. Showing more reads the
generation, then the delivered list under its lock; a selection reads the delivered list's query
text under that lock, then records it in the history under the history's lock.

* `Parallel` — the state the threads share, and each thread's place (`Tail`, `Peek`, `Pick`);
* `Parallel.Step`, `Parallel.Reachable` — one atomic step of some thread (or a new thread, or a
  dispatch that ends with any arrivals), and the states that some interleaving reaches;
* `Parallel.Inv` — the invariant: generations are issued once each, the lock's holder is the one
  thread between taking and releasing it, and every list delivered, sent, shown or selected from
  is the one a query of its generation ranked and stored;
* `Parallel.stale_lists_never_delivered` — over every interleaving, the delivered list is only
  replaced by a newer one, a query superseded before its check under the lock answers nothing and
  sends nothing, showing more answers only with the whole ranking of its generation's query, and
  the history records a selection only against that query's text;
* `Parallel.older_list_sent_after_newer` — but the channel may carry lists out of order: a query
  that released the lock and has not yet sent its list can be overtaken by a newer one.
-/

namespace Launcher.Engine

/-- The warnings of a dispatch's arrivals, in the order they arrived. -/
def Execute.warnings (e : Execute) : List PluginWarning := e.arrived.filterMap (·.warning)

/-- The ranking of a dispatch's arrivals, with the bonuses a history gives for its query text. -/
def Execute.ranking (e : Execute) (h : HistoryStore) (maxResults : Nat) : Ranking :=
  merge (e.arrived.map (·.batch)) e.query e.snapshot (h.boost e.query.rawText) maxResults

/-- Where a query stands: dispatching, then at each atomic step of its end — the first check,
ranking with the history it then reads, taking the delivered lock, the check under it, storing its
list, releasing the lock and sending the list. It ends delivered, having answered its outcome, or
dropped, having answered nothing. -/
inductive Tail where
  | dispatching
  | gathered
  | ranking
  | ranked (h : HistoryStore)
  | locked (h : HistoryStore)
  | storing (h : HistoryStore)
  | stored (h : HistoryStore)
  | sending (h : HistoryStore)
  | delivered (h : HistoryStore)
  | dropped

namespace Tail

/-- Between taking the delivered lock and releasing it. -/
def holds : Tail → Bool
  | .locked _ | .storing _ | .stored _ => true
  | _ => false

/-- Not yet past the check under the lock. -/
def unchecked : Tail → Bool
  | .dispatching | .gathered | .ranking | .ranked _ | .locked _ => true
  | _ => false

/-- The history a query ranked with, once it stored its list. -/
def stored? : Tail → Option HistoryStore
  | .stored h | .sending h | .delivered h => some h
  | _ => none

end Tail

/-- Where a request to show more stands: its check of the generation, the read of the delivered
list under its lock, and its answer. -/
inductive Peek where
  | start
  | checked
  | answered (full : Option (List RankedResult))

/-- Where a selection stands: the read of the delivered list's query text under its lock, and
the record of the selection against that text, when there is one. -/
inductive Pick where
  | start
  | read (text : Option String)
  | recorded

/-- A thread: a query with its dispatch record, a request to show more of a generation, or a
selection from a generation's list. -/
inductive Thread where
  | query (e : Execute) (stage : Tail)
  | showMore (generation : Nat) (stage : Peek)
  | select (generation : Nat) (plugin : String) (item : ResultItem) (stage : Pick)

namespace Thread

/-- The generation of a query. -/
def generation? : Thread → Option Nat
  | .query e _ => some e.generation
  | _ => none

/-- Whether a query holds the delivered lock. -/
def holds : Thread → Bool
  | .query _ st => st.holds
  | _ => false

/-- Whether a query is about to store its list. -/
def storing : Thread → Bool
  | .query _ (.storing _) => true
  | _ => false

/-- A query that stored its list, with the history it ranked with. -/
def stored? : Thread → Option (Execute × HistoryStore)
  | .query e st => st.stored?.map (e, ·)
  | _ => none

/-- A query that sent its list, with the history it ranked with. -/
def sent? : Thread → Option (Execute × HistoryStore)
  | .query e (.delivered h) => some (e, h)
  | _ => none

/-- A request to show more that answered a list, with its generation. -/
def shown? : Thread → Option (Nat × List RankedResult)
  | .showMore g (.answered (some full)) => some (g, full)
  | _ => none

/-- A selection that read a query text, with its generation. -/
def picked? : Thread → Option (Nat × String)
  | .select g _ _ (.read (some text)) => some (g, text)
  | _ => none

/-- A step of one thread that keeps what the invariant reads of the threads around it: a query
stays a query of the same generation, and a list stored or sent stays so. -/
structure Quiet (t t' : Thread) : Prop where
  generation : t'.generation? = t.generation?
  stored : t.stored? = none ∨ t'.stored? = t.stored?
  sent : t.sent? = none ∨ t'.sent? = t.sent?

end Thread

/-- What the threads share: the generations issued, the delivered list, the thread holding its
lock, the history and its disk, the update channel and whether the interface still listens, the
list length, and the threads, each named by its place. -/
structure Parallel where
  generations : Generations := {}
  delivered : Option Delivered := none
  holder : Option Nat := none
  history : HistoryStore
  disk : Disk := Disk.fresh
  sent : List EngineUpdate := []
  listening : Bool := true
  maxResults : Nat := 25
  threads : List Thread := []

namespace Parallel

/-- An engine that has begun no query. -/
def fresh (h : HistoryStore) (d : Disk) (maxResults : Nat) : Parallel :=
  { history := h, disk := d, maxResults := maxResults }

/-- Change the thread at a place. -/
def setThread (s : Parallel) (i : Nat) (t : Thread) : Parallel :=
  { s with threads := s.threads.set i t }

/-- Start a thread. -/
def spawn (s : Parallel) (t : Thread) : Parallel := { s with threads := s.threads ++ [t] }

/-- Send an update, unless the interface stopped listening. -/
def send (s : Parallel) (u : EngineUpdate) : Parallel :=
  if s.listening then { s with sent := s.sent ++ [u] } else s

/-- Submit or run a query: the next generation is issued, cancelling the one before it, and the
query's thread starts its dispatch. -/
def begin (s : Parallel) (raw : String) : Parallel :=
  let (g, gens) := s.generations.next
  { s with generations := gens }.spawn (.query { generation := g, raw := raw } .dispatching)

theorem begin_eq (s : Parallel) (raw : String) :
    s.begin raw = { s with generations := ⟨s.generations.current + 1⟩ }.spawn
      (.query { generation := s.generations.current + 1, raw := raw } .dispatching) := rfl

/-- The list of a generation, when it is the one delivered. -/
def deliveredOf (s : Parallel) (g : Nat) : Option Delivered :=
  s.delivered.filter (·.generation == g)

/-- The next atomic step of the query at place `i`. One waiting for the lock while another thread
holds it stays where it is; so does one still dispatching, whose dispatch ends by `Step.gather`. -/
def stepQuery (s : Parallel) (i : Nat) (e : Execute) : Tail → Parallel
  | .dispatching => s
  | .gathered =>
    if s.generations.isCurrent e.generation then s.setThread i (.query e .ranking)
    else s.setThread i (.query e .dropped)
  | .ranking => s.setThread i (.query e (.ranked s.history))
  | .ranked h =>
    match s.holder with
    | none => { s.setThread i (.query e (.locked h)) with holder := some i }
    | some _ => s
  | .locked h =>
    if s.generations.isCurrent e.generation then s.setThread i (.query e (.storing h))
    else { s.setThread i (.query e .dropped) with holder := none }
  | .storing h =>
    { s.setThread i (.query e (.stored h)) with
      delivered := some ⟨e.generation, e.query, (e.ranking h s.maxResults).full⟩ }
  | .stored h => { s.setThread i (.query e (.sending h)) with holder := none }
  | .sending h =>
    (s.setThread i (.query e (.delivered h))).send
      (.results e.generation e.query (e.ranking h s.maxResults).entries e.warnings)
  | .delivered _ => s
  | .dropped => s

/-- The next atomic step of the request to show more at place `i`. -/
def stepShowMore (s : Parallel) (i g : Nat) : Peek → Parallel
  | .start =>
    if s.generations.isCurrent g then s.setThread i (.showMore g .checked)
    else s.setThread i (.showMore g (.answered none))
  | .checked =>
    match s.holder with
    | none => s.setThread i (.showMore g (.answered ((s.deliveredOf g).map (·.full))))
    | some _ => s
  | .answered _ => s

/-- The next atomic step of the selection at place `i`. -/
def stepSelect (s : Parallel) (i g : Nat) (p : String) (item : ResultItem) : Pick → Parallel
  | .start =>
    match s.holder with
    | none => s.setThread i (.select g p item (.read ((s.deliveredOf g).map (·.query.rawText))))
    | some _ => s
  | .read (some text) =>
    let o := s.history.record s.disk text p item.key 0
    { s.setThread i (.select g p item .recorded) with history := o.store, disk := o.disk }
  | .read none => s.setThread i (.select g p item .recorded)
  | .recorded => s

/-- The next atomic step of the thread at place `i`. -/
def advance (s : Parallel) (i : Nat) : Parallel :=
  match s.threads[i]? with
  | some (.query e stage) => s.stepQuery i e stage
  | some (.showMore g stage) => s.stepShowMore i g stage
  | some (.select g p item stage) => s.stepSelect i g p item stage
  | none => s

/-- **One step of the shared engine**: a query begins; a dispatch ends, with whatever snapshot,
query and arrivals; a thread takes its next atomic step; a request to show more or a selection
begins; or the interface stops listening. -/
inductive Step : Parallel → Parallel → Prop
  | begin (s : Parallel) (raw : String) : Step s (s.begin raw)
  | gather {s : Parallel} {i : Nat} {e : Execute} (e' : Execute)
      (hi : s.threads[i]? = some (.query e .dispatching)) (hg : e'.generation = e.generation) :
      Step s (s.setThread i (.query e' .gathered))
  | advance (s : Parallel) (i : Nat) : Step s (s.advance i)
  | showMore (s : Parallel) (g : Nat) : Step s (s.spawn (.showMore g .start))
  | select (s : Parallel) (g : Nat) (p : String) (item : ResultItem) :
      Step s (s.spawn (.select g p item .start))
  | close (s : Parallel) : Step s { s with listening := false }

/-- The states that some interleaving of steps reaches from `s₀`. -/
def Reachable (s₀ s : Parallel) : Prop := Relation.ReflTransGen Step s₀ s

/-! ## Threads in place -/

section Places

variable {s : Parallel} {i j : Nat} {t t' u : Thread}

theorem getElem?_setThread_ne (h : j ≠ i) : (s.setThread i t).threads[j]? = s.threads[j]? :=
  List.getElem?_set_ne (Ne.symm h)

theorem getElem?_setThread_self (h : s.threads[i]? = some t) :
    (s.setThread i t').threads[i]? = some t' :=
  List.getElem?_set_self (List.getElem?_eq_some_iff.1 h).1

/-- A thread after one changed is the one changed, or was there before. -/
theorem getElem?_setThread (h : (s.setThread i t').threads[j]? = some u) :
    (j = i ∧ u = t') ∨ (j ≠ i ∧ s.threads[j]? = some u) := by
  by_cases hj : j = i
  · subst hj
    rw [setThread, List.getElem?_set_self', Option.map_eq_map, Option.map_eq_some_iff] at h
    obtain ⟨-, -, rfl⟩ := h
    exact .inl ⟨rfl, rfl⟩
  · exact .inr ⟨hj, by rwa [getElem?_setThread_ne hj] at h⟩

/-- A thread after one started is the one started, or was there before. -/
theorem getElem?_spawn (h : (s.spawn t').threads[j]? = some u) :
    (j = s.threads.length ∧ u = t') ∨ (j < s.threads.length ∧ s.threads[j]? = some u) := by
  rcases Nat.lt_or_ge j s.threads.length with hj | hj
  · exact .inr ⟨hj, by rwa [spawn, List.getElem?_append_left hj] at h⟩
  · rw [spawn, List.getElem?_append_right hj, List.getElem?_singleton] at h
    split_ifs at h with h₀
    cases h
    exact .inl ⟨by omega, rfl⟩

theorem getElem?_spawn_of_lt (h : j < s.threads.length) : (s.spawn t).threads[j]? = s.threads[j]? :=
  List.getElem?_append_left h

theorem getElem?_spawn_length : (s.spawn t).threads[s.threads.length]? = some t :=
  List.getElem?_concat_length

theorem getElem?_begin_of_lt {raw : String} (h : j < s.threads.length) :
    (s.begin raw).threads[j]? = s.threads[j]? :=
  List.getElem?_append_left h

theorem send_of_listening {u : EngineUpdate} (h : s.listening = true) :
    s.send u = { s with sent := s.sent ++ [u] } := by
  rw [Parallel.send, if_pos h]

@[simp] theorem send_delivered (u : EngineUpdate) : (s.send u).delivered = s.delivered := by
  unfold Parallel.send
  split <;> rfl

@[simp] theorem send_history (u : EngineUpdate) : (s.send u).history = s.history := by
  unfold Parallel.send
  split <;> rfl

@[simp] theorem send_threads (u : EngineUpdate) : (s.send u).threads = s.threads := by
  unfold Parallel.send
  split <;> rfl

theorem mem_sent_send {v : EngineUpdate} {u : EngineUpdate} (h : u ∈ (s.send v).sent) :
    u ∈ s.sent ∨ u = v := by
  unfold send at h
  split at h
  · simpa using h
  · exact .inl h

end Places

/-! ## Queries that stored their lists -/

/-- A query of record `e` stored its list, ranked with the history `h`. -/
def Stores (s : Parallel) (e : Execute) (h : HistoryStore) : Prop :=
  ∃ (i : Nat) (t : Thread), s.threads[i]? = some t ∧ t.stored? = some (e, h)

/-- A query of record `e` sent its list, ranked with the history `h`. -/
def Sends (s : Parallel) (e : Execute) (h : HistoryStore) : Prop :=
  ∃ (i : Nat) (t : Thread), s.threads[i]? = some t ∧ t.sent? = some (e, h)

section Kept

variable {s : Parallel} {i : Nat} {t t' : Thread} {e : Execute} {h : HistoryStore}

/-- A list stored stays stored while the thread that changes keeps what it stored, if anything. -/
theorem Stores.setThread (hs : s.Stores e h) (hi : s.threads[i]? = some t)
    (ht : t.stored? = none ∨ t'.stored? = t.stored?) : (s.setThread i t').Stores e h := by
  obtain ⟨j, u, hj, hu⟩ := hs
  by_cases hji : j = i
  · subst hji
    rw [hi, Option.some.injEq] at hj
    subst hj
    rcases ht with ht | ht
    · rw [ht] at hu
      cases hu
    · exact ⟨j, t', getElem?_setThread_self hi, ht.trans hu⟩
  · exact ⟨j, u, by rwa [getElem?_setThread_ne hji], hu⟩

theorem Sends.setThread (hs : s.Sends e h) (hi : s.threads[i]? = some t)
    (ht : t.sent? = none ∨ t'.sent? = t.sent?) : (s.setThread i t').Sends e h := by
  obtain ⟨j, u, hj, hu⟩ := hs
  by_cases hji : j = i
  · subst hji
    rw [hi, Option.some.injEq] at hj
    subst hj
    rcases ht with ht | ht
    · rw [ht] at hu
      cases hu
    · exact ⟨j, t', getElem?_setThread_self hi, ht.trans hu⟩
  · exact ⟨j, u, by rwa [getElem?_setThread_ne hji], hu⟩

theorem Stores.spawn (hs : s.Stores e h) (t : Thread) : (s.spawn t).Stores e h := by
  obtain ⟨j, u, hj, hu⟩ := hs
  exact ⟨j, u, by rwa [getElem?_spawn_of_lt (List.getElem?_eq_some_iff.1 hj).1], hu⟩

theorem Sends.spawn (hs : s.Sends e h) (t : Thread) : (s.spawn t).Sends e h := by
  obtain ⟨j, u, hj, hu⟩ := hs
  exact ⟨j, u, by rwa [getElem?_spawn_of_lt (List.getElem?_eq_some_iff.1 hj).1], hu⟩

end Kept

/-! ## The invariant -/

/-- What holds between the steps of every interleaving. -/
structure Inv (s : Parallel) : Prop where
  /-- every query's generation was issued, and none is 0 -/
  issued : ∀ (i : Nat) (t : Thread) g, s.threads[i]? = some t → t.generation? = some g →
    0 < g ∧ g ≤ s.generations.current
  /-- no two queries share a generation -/
  distinct : ∀ (i j : Nat) (t t' : Thread) g, s.threads[i]? = some t → s.threads[j]? = some t' →
    t.generation? = some g → t'.generation? = some g → i = j
  /-- the lock is held by exactly the query between taking and releasing it -/
  holder : ∀ i, s.holder = some i ↔ ∃ t : Thread, s.threads[i]? = some t ∧ t.holds = true
  /-- a query about to store finds the delivered list no newer than its own generation -/
  storing : ∀ (i : Nat) (t : Thread) g d, s.threads[i]? = some t → t.storing = true → t.generation? = some g →
    s.delivered = some d → d.generation ≤ g
  /-- the delivered list is the whole ranking of a query that stored it -/
  delivered : ∀ d, s.delivered = some d →
    ∃ e h, s.Stores e h ∧ d = ⟨e.generation, e.query, (e.ranking h s.maxResults).full⟩
  /-- a list sent is the cut ranking, and the warnings, of a query that sent it -/
  sent : ∀ g q es ws, EngineUpdate.results g q es ws ∈ s.sent → ∃ e h, s.Sends e h ∧
    g = e.generation ∧ q = e.query ∧ es = (e.ranking h s.maxResults).entries ∧ ws = e.warnings
  /-- a list shown is the whole ranking its generation's query stored -/
  shown : ∀ (j : Nat) (t : Thread) g full, s.threads[j]? = some t → t.shown? = some (g, full) →
    ∃ e h, s.Stores e h ∧ e.generation = g ∧ full = (e.ranking h s.maxResults).full
  /-- a text read for a selection is that of its generation's query, which stored its list -/
  picked : ∀ (j : Nat) (t : Thread) g text, s.threads[j]? = some t → t.picked? = some (g, text) →
    ∃ e h, s.Stores e h ∧ e.generation = g ∧ text = e.query.rawText

section Invariant

variable {s s' : Parallel} {i : Nat} {t t' : Thread}

theorem inv_fresh (h : HistoryStore) (d : Disk) (m : Nat) : Inv (fresh h d m) where
  issued _ _ _ hi := by simp [fresh] at hi
  distinct _ _ _ _ _ hi := by simp [fresh] at hi
  holder _ := by simp [fresh]
  storing _ _ _ _ hi := by simp [fresh] at hi
  delivered _ hd := by simp [fresh] at hd
  sent _ _ _ _ hu := by simp [fresh] at hu
  shown _ _ _ _ hi := by simp [fresh] at hi
  picked _ _ _ _ hi := by simp [fresh] at hi

/-- The invariant reads neither the history, nor the disk, nor whether the interface listens. -/
theorem Inv.congr (hs : Inv s) (hg : s'.generations = s.generations) (hd : s'.delivered = s.delivered)
    (hh : s'.holder = s.holder) (hsent : s'.sent = s.sent) (hm : s'.maxResults = s.maxResults)
    (ht : s'.threads = s.threads) : Inv s' := by
  have hst : ∀ e h, s.Stores e h → s'.Stores e h := fun e h hs => by rwa [Stores, ht]
  have hse : ∀ e h, s.Sends e h → s'.Sends e h := fun e h hs => by rwa [Sends, ht]
  refine ⟨?_, ?_, ?_, ?_, ?_, ?_, ?_, ?_⟩
  · rw [ht, hg]
    exact hs.issued
  · rw [ht]
    exact hs.distinct
  · rw [ht, hh]
    exact hs.holder
  · rw [ht, hd]
    exact hs.storing
  · intro d hd'
    rw [hd] at hd'
    obtain ⟨e, h, he, rfl⟩ := hs.delivered d hd'
    exact ⟨e, h, hst e h he, by rw [hm]⟩
  · intro g q es ws hu
    rw [hsent] at hu
    obtain ⟨e, h, he, rfl, rfl, rfl, rfl⟩ := hs.sent g q es ws hu
    exact ⟨e, h, hse e h he, rfl, rfl, by rw [hm], rfl⟩
  · intro j u g full hj hu
    rw [ht] at hj
    obtain ⟨e, h, he, rfl, rfl⟩ := hs.shown j u g full hj hu
    exact ⟨e, h, hst e h he, rfl, by rw [hm]⟩
  · intro j u g text hj hu
    rw [ht] at hj
    obtain ⟨e, h, he, rfl, rfl⟩ := hs.picked j u g text hj hu
    exact ⟨e, h, hst e h he, rfl, rfl⟩

/-- **A step of one thread keeps the invariant** when the lock's holder afterwards is the thread
that holds it, a thread that comes to store finds the delivered list no newer than its own, and a
request or selection that comes to read a list reads the one its generation's query stored. -/
theorem Inv.setThread (hs : Inv s) (hi : s.threads[i]? = some t) (t' : Thread)
    (holder : Option Nat) (hq : t.Quiet t')
    (hh : ∀ j, holder = some j ↔ ∃ u, (s.setThread i t').threads[j]? = some u ∧ u.holds = true)
    (hst : ∀ g d, t'.storing = true → t'.generation? = some g → s.delivered = some d →
      d.generation ≤ g)
    (hshown : ∀ g full, t'.shown? = some (g, full) →
      ∃ e h, s.Stores e h ∧ e.generation = g ∧ full = (e.ranking h s.maxResults).full)
    (hpicked : ∀ g text, t'.picked? = some (g, text) →
      ∃ e h, s.Stores e h ∧ e.generation = g ∧ text = e.query.rawText) :
    Inv { s.setThread i t' with holder := holder } := by
  have hst' : ∀ e h, s.Stores e h → (s.setThread i t').Stores e h :=
    fun e h he => he.setThread hi hq.stored
  have hse : ∀ e h, s.Sends e h → (s.setThread i t').Sends e h :=
    fun e h he => he.setThread hi hq.sent
  have hold : ∀ j u, (s.setThread i t').threads[j]? = some u →
      (j = i ∧ u = t') ∨ s.threads[j]? = some u := fun j u hj =>
    (getElem?_setThread hj).imp id fun h => h.2
  have hgen : ∀ j (u : Thread) g, (s.setThread i t').threads[j]? = some u →
      u.generation? = some g → ∃ v : Thread, s.threads[j]? = some v ∧ v.generation? = some g :=
      fun j u g hj hg => by
    rcases hold j u hj with ⟨hji, hut⟩ | hj
    · rw [hut] at hg
      exact ⟨t, hji ▸ hi, hq.generation ▸ hg⟩
    · exact ⟨u, hj, hg⟩
  refine ⟨fun j u g hj hg => ?_, fun j k u u' g hj hk hg hg' => ?_, hh,
    fun j u g d hj hu hg hd => ?_, fun d hd => ?_, fun g q es ws hu => ?_, fun j u g full hj hu => ?_,
    fun j u g text hj hu => ?_⟩
  · obtain ⟨v, hv, hvg⟩ := hgen j u g hj hg
    exact hs.issued j v g hv hvg
  · obtain ⟨v, hv, hvg⟩ := hgen j u g hj hg
    obtain ⟨v', hv', hvg'⟩ := hgen k u' g hk hg'
    exact hs.distinct j k v v' g hv hv' hvg hvg'
  · rcases hold j u hj with ⟨-, hut⟩ | hj
    · rw [hut] at hu hg
      exact hst g d hu hg hd
    · exact hs.storing j u g d hj hu hg hd
  · obtain ⟨e, h, he, rfl⟩ := hs.delivered d hd
    exact ⟨e, h, hst' e h he, rfl⟩
  · obtain ⟨e, h, he, rfl, rfl, rfl, rfl⟩ := hs.sent g q es ws hu
    exact ⟨e, h, hse e h he, rfl, rfl, rfl, rfl⟩
  · rcases hold j u hj with ⟨-, hut⟩ | hj
    · rw [hut] at hu
      obtain ⟨e, h, he, rfl, rfl⟩ := hshown g full hu
      exact ⟨e, h, hst' e h he, rfl, rfl⟩
    · obtain ⟨e, h, he, rfl, rfl⟩ := hs.shown j u g full hj hu
      exact ⟨e, h, hst' e h he, rfl, rfl⟩
  · rcases hold j u hj with ⟨-, hut⟩ | hj
    · rw [hut] at hu
      obtain ⟨e, h, he, rfl, rfl⟩ := hpicked g text hu
      exact ⟨e, h, hst' e h he, rfl, rfl⟩
    · obtain ⟨e, h, he, rfl, rfl⟩ := hs.picked j u g text hj hu
      exact ⟨e, h, hst' e h he, rfl, rfl⟩

/-- The holder is unchanged by a step that neither takes nor releases the lock. -/
theorem holder_setThread (hs : Inv s) (hi : s.threads[i]? = some t) (hh : t'.holds = t.holds)
    (j : Nat) : s.holder = some j ↔
      ∃ u, (s.setThread i t').threads[j]? = some u ∧ u.holds = true := by
  rw [hs.holder j]
  by_cases hji : j = i
  · subst hji
    rw [getElem?_setThread_self hi, hi]
    simp [hh]
  · rw [getElem?_setThread_ne hji]

/-- **A quiet step** — no lock taken or released, no list stored, shown or read — keeps the
invariant. -/
theorem Inv.setThread_quiet (hs : Inv s) (hi : s.threads[i]? = some t) (t' : Thread)
    (hq : t.Quiet t') (hh : t'.holds = t.holds) (hst : t'.storing = false)
    (hsh : t'.shown? = none) (hp : t'.picked? = none) : Inv (s.setThread i t') :=
  hs.setThread hi t' s.holder hq (holder_setThread hs hi hh) (by simp [hst]) (by simp [hsh])
    (by simp [hp])

/-- **Starting a thread keeps the invariant** when it holds no lock, stores and reads nothing,
and a query's generation was issued and is no other query's. -/
theorem Inv.spawn (hs : Inv s) (t : Thread)
    (hg : ∀ g, t.generation? = some g → (0 < g ∧ g ≤ s.generations.current) ∧
      ∀ (j : Nat) (u : Thread), s.threads[j]? = some u → u.generation? ≠ some g)
    (hh : t.holds = false) (hst : t.storing = false) (hsh : t.shown? = none)
    (hp : t.picked? = none) : Inv (s.spawn t) := by
  have hstores : ∀ e h, s.Stores e h → (s.spawn t).Stores e h := fun e h he => he.spawn t
  refine ⟨fun j u g hj hu => ?_, fun j k u u' g hj hk hu hu' => ?_, fun j => ?_,
    fun j u g d hj hu hg' hd => ?_, fun d hd => ?_, fun g q es ws hu => ?_,
    fun j u g full hj hu => ?_, fun j u g text hj hu => ?_⟩
  · rcases getElem?_spawn hj with ⟨-, rfl⟩ | ⟨-, hj⟩
    · exact (hg g hu).1
    · exact hs.issued j u g hj hu
  · rcases getElem?_spawn hj with ⟨hjn, hut⟩ | ⟨-, hj₀⟩
    · subst hut
      rcases getElem?_spawn hk with ⟨hkn, -⟩ | ⟨-, hk₀⟩
      · exact hjn.trans hkn.symm
      · exact absurd hu' ((hg g hu).2 k u' hk₀)
    · rcases getElem?_spawn hk with ⟨-, hut⟩ | ⟨-, hk₀⟩
      · subst hut
        exact absurd hu ((hg g hu').2 j u hj₀)
      · exact hs.distinct j k u u' g hj₀ hk₀ hu hu'
  · show s.holder = some j ↔ _
    rw [hs.holder j]
    constructor
    · rintro ⟨u, hj, hu⟩
      exact ⟨u, by rwa [getElem?_spawn_of_lt (List.getElem?_eq_some_iff.1 hj).1], hu⟩
    · rintro ⟨u, hj, hu⟩
      rcases getElem?_spawn hj with ⟨-, rfl⟩ | ⟨-, hj⟩
      · rw [hh] at hu
        cases hu
      · exact ⟨u, hj, hu⟩
  · rcases getElem?_spawn hj with ⟨-, rfl⟩ | ⟨-, hj⟩
    · rw [hst] at hu
      cases hu
    · exact hs.storing j u g d hj hu hg' hd
  · obtain ⟨e, h, he, rfl⟩ := hs.delivered d hd
    exact ⟨e, h, hstores e h he, rfl⟩
  · obtain ⟨e, h, he, rfl, rfl, rfl, rfl⟩ := hs.sent g q es ws hu
    exact ⟨e, h, he.spawn t, rfl, rfl, rfl, rfl⟩
  · rcases getElem?_spawn hj with ⟨-, rfl⟩ | ⟨-, hj⟩
    · rw [hsh] at hu
      cases hu
    · obtain ⟨e, h, he, rfl, rfl⟩ := hs.shown j u g full hj hu
      exact ⟨e, h, hstores e h he, rfl, rfl⟩
  · rcases getElem?_spawn hj with ⟨-, rfl⟩ | ⟨-, hj⟩
    · rw [hp] at hu
      cases hu
    · obtain ⟨e, h, he, rfl, rfl⟩ := hs.picked j u g text hj hu
      exact ⟨e, h, hstores e h he, rfl, rfl⟩

/-- **Beginning a query keeps the invariant**: its generation is new. -/
theorem Inv.begin (hs : Inv s) (raw : String) : Inv (s.begin raw) := by
  have hnext : Inv { s with generations := s.generations.next.2 } :=
    { hs with
      issued := fun j u g hj hu => by
        obtain ⟨h₀, h₁⟩ := hs.issued j u g hj hu
        exact ⟨h₀, Nat.le_succ_of_le h₁⟩ }
  refine hnext.spawn _ (fun g hg => ⟨?_, fun j u hj hu => ?_⟩) rfl rfl rfl rfl
  · cases hg
    exact ⟨Nat.succ_pos _, Nat.le_refl _⟩
  · cases hg
    have := (hs.issued j u _ hj hu).2
    dsimp only at this
    omega

/-- **Storing a list keeps the invariant**, once the query that stores it holds its record and
no thread is about to store. -/
theorem Inv.deliver (hs : Inv s) {e : Execute} {h : HistoryStore} (he : s.Stores e h)
    (hnone : ∀ (j : Nat) (u : Thread), s.threads[j]? = some u → u.storing = false) :
    Inv { s with delivered := some ⟨e.generation, e.query, (e.ranking h s.maxResults).full⟩ } :=
  { hs with
    storing := fun j u _ _ hj hu => by
      rw [hnone j u hj] at hu
      cases hu
    delivered := fun d hd => by
      cases hd
      exact ⟨e, h, he, rfl⟩ }

/-- **Sending a list keeps the invariant**, once the query that sends it holds its record. -/
theorem Inv.send (hs : Inv s) {e : Execute} {h : HistoryStore} (he : s.Sends e h) :
    Inv (s.send (.results e.generation e.query (e.ranking h s.maxResults).entries e.warnings)) := by
  unfold Parallel.send
  split
  · refine { hs with sent := fun g q es ws hu => ?_ }
    rcases List.mem_append.1 hu with hu | hu
    · exact hs.sent g q es ws hu
    · cases List.mem_singleton.1 hu
      exact ⟨e, h, he, rfl, rfl, rfl, rfl⟩
  · exact hs

theorem deliveredOf_eq_some {g : Nat} {d : Delivered} :
    s.deliveredOf g = some d ↔ s.delivered = some d ∧ d.generation = g := by
  simp [deliveredOf, Option.filter_eq_some_iff]

/-- A list read for a generation, when there is one, is the whole ranking its query stored. -/
theorem Inv.deliveredOf (hs : Inv s) {g : Nat} {d : Delivered} (hd : s.deliveredOf g = some d) :
    ∃ e h, s.Stores e h ∧ e.generation = g ∧ d = ⟨g, e.query, (e.ranking h s.maxResults).full⟩ := by
  obtain ⟨hd', hg⟩ := deliveredOf_eq_some.1 hd
  obtain ⟨e, h, he, rfl⟩ := hs.delivered d hd'
  exact ⟨e, h, he, hg, by rw [← hg]⟩

/-- Taking the free lock makes the thread that takes it the holder. -/
theorem holder_take (hs : Inv s) (hi : s.threads[i]? = some t) (hfree : s.holder = none)
    (ht' : t'.holds = true) (j : Nat) :
    some i = some j ↔ ∃ u, (s.setThread i t').threads[j]? = some u ∧ u.holds = true := by
  constructor
  · intro h
    rw [← Option.some.inj h]
    exact ⟨t', getElem?_setThread_self hi, ht'⟩
  · rintro ⟨u, hj, hu⟩
    rcases getElem?_setThread hj with ⟨hji, -⟩ | ⟨-, hj⟩
    · rw [hji]
    · have h₁ := (hs.holder j).2 ⟨u, hj, hu⟩
      rw [hfree] at h₁
      cases h₁

/-- Releasing the lock leaves it free. -/
theorem holder_release (hs : Inv s) (hi : s.threads[i]? = some t) (ht : t.holds = true)
    (ht' : t'.holds = false) (j : Nat) :
    (none : Option Nat) = some j ↔
      ∃ u, (s.setThread i t').threads[j]? = some u ∧ u.holds = true := by
  constructor
  · intro h
    cases h
  · rintro ⟨u, hj, hu⟩
    rcases getElem?_setThread hj with ⟨-, hut⟩ | ⟨hji, hj⟩
    · rw [hut, ht'] at hu
      cases hu
    · have h₁ := (hs.holder j).2 ⟨u, hj, hu⟩
      have h₂ := (hs.holder i).2 ⟨t, hi, ht⟩
      rw [h₁] at h₂
      exact absurd (Option.some.inj h₂) hji

/-- Only the holder is about to store. -/
theorem Inv.holds_of_storing (hs : Inv s) {j : Nat} {u : Thread} (hj : s.threads[j]? = some u)
    (hu : u.storing = true) : s.holder = some j := by
  refine (hs.holder j).2 ⟨u, hj, ?_⟩
  match u, hu with
  | .query _ (.storing _), _ => rfl

/-- **One step of a query keeps the invariant.** -/
theorem Inv.query_step (hs : Inv s) {e : Execute} {st : Tail}
    (hi : s.threads[i]? = some (.query e st)) : Inv (s.stepQuery i e st) := by
  cases st with
  | dispatching => exact hs
  | gathered =>
    simp only [Parallel.stepQuery]
    split
    · exact hs.setThread_quiet hi (.query e .ranking) ⟨rfl, .inl rfl, .inl rfl⟩ rfl rfl rfl rfl
    · exact hs.setThread_quiet hi (.query e .dropped) ⟨rfl, .inl rfl, .inl rfl⟩ rfl rfl rfl rfl
  | ranking =>
    exact hs.setThread_quiet hi (.query e (.ranked s.history)) ⟨rfl, .inl rfl, .inl rfl⟩ rfl rfl
      rfl rfl
  | ranked h =>
    simp only [Parallel.stepQuery]
    split
    · rename_i hfree
      exact hs.setThread hi (.query e (.locked h)) (some i) ⟨rfl, .inl rfl, .inl rfl⟩
        (holder_take hs hi hfree rfl) (by simp [Thread.storing]) (by simp [Thread.shown?])
        (by simp [Thread.picked?])
    · exact hs
  | locked h =>
    simp only [Parallel.stepQuery]
    split
    · rename_i hcur
      refine hs.setThread hi (.query e (.storing h)) s.holder ⟨rfl, .inl rfl, .inl rfl⟩
        (holder_setThread hs hi rfl) (fun g d _ hg hd => ?_) (by simp [Thread.shown?])
        (by simp [Thread.picked?])
      cases hg
      obtain ⟨e', h', ⟨j, u, hj, hu⟩, rfl⟩ := hs.delivered d hd
      have hu' : u.generation? = some e'.generation := by
        match u, hu with
        | .query _ (.stored _), rfl | .query _ (.sending _), rfl
        | .query _ (.delivered _), rfl => rfl
      show e'.generation ≤ e.generation
      rw [Generations.eq_current_of_isCurrent hcur]
      exact (hs.issued j u _ hj hu').2
    · exact hs.setThread hi (.query e .dropped) none ⟨rfl, .inl rfl, .inl rfl⟩
        (holder_release hs hi rfl rfl) (by simp [Thread.storing]) (by simp [Thread.shown?])
        (by simp [Thread.picked?])
  | storing h =>
    have h₁ := hs.setThread_quiet hi (.query e (.stored h)) ⟨rfl, .inl rfl, .inl rfl⟩ rfl rfl rfl
      rfl
    refine h₁.deliver ⟨i, _, getElem?_setThread_self hi, rfl⟩ fun j u hj => ?_
    rcases getElem?_setThread hj with ⟨-, rfl⟩ | ⟨hji, hj⟩
    · rfl
    · cases hu : u.storing
      · rfl
      · have h₂ := hs.holds_of_storing hj hu
        rw [hs.holds_of_storing hi rfl] at h₂
        exact absurd (Option.some.inj h₂).symm hji
  | stored h =>
    exact hs.setThread hi (.query e (.sending h)) none ⟨rfl, .inr rfl, .inl rfl⟩
      (holder_release hs hi rfl rfl) (by simp [Thread.storing]) (by simp [Thread.shown?])
      (by simp [Thread.picked?])
  | sending h =>
    exact (hs.setThread_quiet hi (.query e (.delivered h)) ⟨rfl, .inr rfl, .inl rfl⟩ rfl rfl rfl
      rfl).send ⟨i, _, getElem?_setThread_self hi, rfl⟩
  | delivered h => exact hs
  | dropped => exact hs

/-- **One step of a request to show more keeps the invariant.** -/
theorem Inv.showMore_step (hs : Inv s) {g : Nat} {st : Peek}
    (hi : s.threads[i]? = some (.showMore g st)) : Inv (s.stepShowMore i g st) := by
  cases st with
  | start =>
    simp only [Parallel.stepShowMore]
    split
    · exact hs.setThread_quiet hi (.showMore g .checked) ⟨rfl, .inl rfl, .inl rfl⟩ rfl rfl rfl rfl
    · exact hs.setThread_quiet hi (.showMore g (.answered none)) ⟨rfl, .inl rfl, .inl rfl⟩ rfl rfl
        rfl rfl
  | checked =>
    simp only [Parallel.stepShowMore]
    split
    · refine hs.setThread hi (.showMore g (.answered ((s.deliveredOf g).map (·.full)))) s.holder
        ⟨rfl, .inl rfl, .inl rfl⟩ (holder_setThread hs hi rfl) (by simp [Thread.storing])
        (fun g' full hf => ?_)
        (by simp [Thread.picked?])
      cases hd : s.deliveredOf g with
      | none => simp [hd, Thread.shown?] at hf
      | some d =>
        simp only [hd, Option.map_some, Thread.shown?, Option.some.injEq, Prod.mk.injEq] at hf
        obtain ⟨rfl, rfl⟩ := hf
        obtain ⟨e, h, he, hg, rfl⟩ := hs.deliveredOf hd
        exact ⟨e, h, he, hg, rfl⟩
    · exact hs
  | answered _ => exact hs

/-- **One step of a selection keeps the invariant.** -/
theorem Inv.select_step (hs : Inv s) {g : Nat} {p : String} {item : ResultItem} {st : Pick}
    (hi : s.threads[i]? = some (.select g p item st)) : Inv (s.stepSelect i g p item st) := by
  cases st with
  | start =>
    simp only [Parallel.stepSelect]
    split
    · refine hs.setThread hi
        (.select g p item (.read ((s.deliveredOf g).map (·.query.rawText)))) s.holder
        ⟨rfl, .inl rfl, .inl rfl⟩ (holder_setThread hs hi rfl) (by simp [Thread.storing])
        (by simp [Thread.shown?]) (fun g' text hr => ?_)
      cases hd : s.deliveredOf g with
      | none => simp [hd, Thread.picked?] at hr
      | some d =>
        simp only [hd, Option.map_some, Thread.picked?, Option.some.injEq, Prod.mk.injEq] at hr
        obtain ⟨rfl, rfl⟩ := hr
        obtain ⟨e, h, he, hg, rfl⟩ := hs.deliveredOf hd
        exact ⟨e, h, he, hg, rfl⟩
    · exact hs
  | read text =>
    cases text with
    | none =>
      exact hs.setThread_quiet hi (.select g p item .recorded) ⟨rfl, .inl rfl, .inl rfl⟩ rfl rfl rfl
        rfl
    | some text =>
      exact (hs.setThread_quiet hi (.select g p item .recorded) ⟨rfl, .inl rfl, .inl rfl⟩ rfl rfl
        rfl rfl).congr rfl rfl rfl rfl rfl rfl
  | recorded => exact hs

/-- **Every step keeps the invariant.** -/
theorem Inv.step (hs : Inv s) (h : Step s s') : Inv s' := by
  cases h with
  | begin raw => exact hs.begin raw
  | gather e' hi hg =>
    exact hs.setThread_quiet hi (.query e' .gathered) ⟨by simp [Thread.generation?, hg], .inl rfl,
      .inl rfl⟩ rfl rfl rfl rfl
  | advance i =>
    unfold Parallel.advance
    split
    · exact hs.query_step ‹_›
    · exact hs.showMore_step ‹_›
    · exact hs.select_step ‹_›
    · exact hs
  | showMore g => exact hs.spawn _ (by simp [Thread.generation?]) rfl rfl rfl rfl
  | select g p item => exact hs.spawn _ (by simp [Thread.generation?]) rfl rfl rfl rfl
  | close => exact hs.congr rfl rfl rfl rfl rfl rfl

theorem Reachable.inv {s₀ : Parallel} (h₀ : Inv s₀) (h : Reachable s₀ s) : Inv s := by
  induction h with
  | refl => exact h₀
  | tail _ hst ih => exact ih.step hst

end Invariant

/-! ## What a step of one thread leaves alone -/

/-- What a step of the thread at `i` leaves as it was: the generations, the list length, and
every other thread. -/
structure Frame (i : Nat) (s s' : Parallel) : Prop where
  generations : s'.generations = s.generations
  maxResults : s'.maxResults = s.maxResults
  threads : ∀ j, j ≠ i → s'.threads[j]? = s.threads[j]?

section Frames

variable {s : Parallel} {i : Nat} {t : Thread}

theorem advance_query {e : Execute} {st : Tail} (h : s.threads[i]? = some (.query e st)) :
    s.advance i = s.stepQuery i e st := by
  simp only [Parallel.advance, h]

theorem advance_showMore {g : Nat} {st : Peek} (h : s.threads[i]? = some (.showMore g st)) :
    s.advance i = s.stepShowMore i g st := by
  simp only [Parallel.advance, h]

theorem advance_select {g : Nat} {p : String} {item : ResultItem} {st : Pick}
    (h : s.threads[i]? = some (.select g p item st)) :
    s.advance i = s.stepSelect i g p item st := by
  simp only [Parallel.advance, h]

/-- A query's step leaves it a query of the same record. -/
theorem query_stepQuery {e : Execute} {st : Tail} (h : s.threads[i]? = some (.query e st)) :
    ∃ st', (s.stepQuery i e st).threads[i]? = some (.query e st') := by
  cases st with
  | dispatching | delivered _ | dropped => exact ⟨_, h⟩
  | gathered | locked _ =>
    simp only [Parallel.stepQuery]
    split
    · exact ⟨_, getElem?_setThread_self h⟩
    · exact ⟨_, getElem?_setThread_self h⟩
  | ranked _ =>
    simp only [Parallel.stepQuery]
    split
    · exact ⟨_, getElem?_setThread_self h⟩
    · exact ⟨_, h⟩
  | ranking | storing _ | stored _ => exact ⟨_, getElem?_setThread_self h⟩
  | sending _ =>
    simp only [Parallel.stepQuery, send_threads]
    exact ⟨_, getElem?_setThread_self h⟩

/-- A selection's step leaves it a selection of the same generation, plugin and item. -/
theorem select_stepSelect {g : Nat} {p : String} {item : ResultItem} {st : Pick}
    (h : s.threads[i]? = some (.select g p item st)) :
    ∃ st', (s.stepSelect i g p item st).threads[i]? = some (.select g p item st') := by
  cases st with
  | start =>
    simp only [Parallel.stepSelect]
    split
    · exact ⟨_, getElem?_setThread_self h⟩
    · exact ⟨_, h⟩
  | read text =>
    cases text with
    | none | some _ => exact ⟨_, getElem?_setThread_self h⟩
  | recorded => exact ⟨_, h⟩

theorem Frame.refl (s : Parallel) (i : Nat) : Frame i s s := ⟨rfl, rfl, fun _ _ => rfl⟩

theorem Frame.setThread (s : Parallel) (i : Nat) (t : Thread) : Frame i s (s.setThread i t) :=
  ⟨rfl, rfl, fun _ hj => getElem?_setThread_ne hj⟩

theorem Frame.send {s' : Parallel} (h : Frame i s s') (u : EngineUpdate) : Frame i s (s'.send u) := by
  unfold Parallel.send
  split
  · exact ⟨h.generations, h.maxResults, h.threads⟩
  · exact h

theorem Frame.stepQuery (e : Execute) (st : Tail) : Frame i s (s.stepQuery i e st) := by
  cases st with
  | dispatching | delivered _ | dropped => exact .refl s i
  | gathered =>
    simp only [Parallel.stepQuery]
    split
    · exact .setThread s i _
    · exact .setThread s i _
  | ranking => exact .setThread s i _
  | ranked h =>
    simp only [Parallel.stepQuery]
    split
    · exact ⟨rfl, rfl, fun _ hj => getElem?_setThread_ne hj⟩
    · exact .refl s i
  | locked h =>
    simp only [Parallel.stepQuery]
    split
    · exact .setThread s i _
    · exact ⟨rfl, rfl, fun _ hj => getElem?_setThread_ne hj⟩
  | storing h | stored h => exact ⟨rfl, rfl, fun _ hj => getElem?_setThread_ne hj⟩
  | sending h => exact (Frame.setThread s i _).send _

theorem Frame.stepShowMore (g : Nat) (st : Peek) : Frame i s (s.stepShowMore i g st) := by
  cases st with
  | start =>
    simp only [Parallel.stepShowMore]
    split
    · exact .setThread s i _
    · exact .setThread s i _
  | checked =>
    simp only [Parallel.stepShowMore]
    split
    · exact .setThread s i _
    · exact .refl s i
  | answered _ => exact .refl s i

theorem Frame.stepSelect (g : Nat) (p : String) (item : ResultItem) (st : Pick) :
    Frame i s (s.stepSelect i g p item st) := by
  cases st with
  | start =>
    simp only [Parallel.stepSelect]
    split
    · exact .setThread s i _
    · exact .refl s i
  | read text =>
    cases text with
    | none => exact .setThread s i _
    | some text => exact ⟨rfl, rfl, fun _ hj => getElem?_setThread_ne hj⟩
  | recorded => exact .refl s i

/-- **A thread's step changes no other thread**, nor the generations or the list length. -/
theorem Frame.advance (s : Parallel) (i : Nat) : Frame i s (s.advance i) := by
  unfold Parallel.advance
  split
  · exact .stepQuery _ _
  · exact .stepShowMore _ _
  · exact .stepSelect _ _ _ _
  · exact .refl s i

/-- In a step, a thread stays as it was, takes its own next step, or ends its dispatch. -/
theorem thread_step {s' : Parallel} {j : Nat} (h : Step s s') (hj : s.threads[j]? = some t) :
    s'.threads[j]? = some t ∨ s' = s.advance j ∨
      ∃ e e', t = .query e .dispatching ∧ e'.generation = e.generation ∧
        s'.threads[j]? = some (.query e' .gathered) := by
  have hlt : j < s.threads.length := (List.getElem?_eq_some_iff.1 hj).1
  cases h with
  | begin raw => exact .inl ((getElem?_begin_of_lt hlt).trans hj)
  | gather e' hi hg =>
    rename_i k e
    by_cases hjk : j = k
    · rw [← hjk, hj, Option.some.injEq] at hi
      exact .inr (.inr ⟨e, e', hi, hg, by rw [hjk, getElem?_setThread_self (hjk ▸ hj)]⟩)
    · exact .inl (by rw [getElem?_setThread_ne hjk, hj])
  | advance k =>
    by_cases hjk : j = k
    · exact .inr (.inl (by rw [hjk]))
    · exact .inl (by rw [(Frame.advance s k).threads j hjk, hj])
  | showMore g => exact .inl (by rw [getElem?_spawn_of_lt hlt, hj])
  | select g p item => exact .inl (by rw [getElem?_spawn_of_lt hlt, hj])
  | close => exact .inl hj

/-- The current generation never moves back. -/
theorem current_step {s' : Parallel} (h : Step s s') :
    s.generations.current ≤ s'.generations.current := by
  cases h with
  | begin raw => exact Nat.le_succ _
  | gather e' hi hg => exact Nat.le_refl _
  | advance k => exact Nat.le_of_eq (congrArg Generations.current (Frame.advance s k).generations.symm)
  | showMore g | select g p item | close => exact Nat.le_refl _

/-- A step of a query replaces the delivered list only when it stores its own. -/
theorem delivered_stepQuery (s : Parallel) (i : Nat) (e : Execute) (st : Tail) :
    (s.stepQuery i e st).delivered = s.delivered ∨ ∃ h, st = .storing h ∧
      (s.stepQuery i e st).delivered = some ⟨e.generation, e.query, (e.ranking h s.maxResults).full⟩ := by
  cases st with
  | storing h => exact .inr ⟨h, rfl, rfl⟩
  | gathered | ranked _ | locked _ =>
    left
    simp only [Parallel.stepQuery]
    split <;> rfl
  | sending h => exact .inl (send_delivered _)
  | dispatching | ranking | stored _ | delivered _ | dropped => exact .inl rfl

theorem delivered_stepShowMore (s : Parallel) (i g : Nat) (st : Peek) :
    (s.stepShowMore i g st).delivered = s.delivered := by
  cases st with
  | start | checked =>
    simp only [Parallel.stepShowMore]
    split <;> rfl
  | answered _ => rfl

theorem delivered_stepSelect (s : Parallel) (i g : Nat) (p : String) (item : ResultItem)
    (st : Pick) :
    (s.stepSelect i g p item st).delivered = s.delivered := by
  cases st with
  | start =>
    simp only [Parallel.stepSelect]
    split <;> rfl
  | read text => cases text <;> rfl
  | recorded => rfl

theorem history_stepQuery (s : Parallel) (i : Nat) (e : Execute) (st : Tail) :
    (s.stepQuery i e st).history = s.history := by
  cases st with
  | gathered | ranked _ | locked _ =>
    simp only [Parallel.stepQuery]
    split <;> rfl
  | sending h => exact send_history _
  | dispatching | ranking | storing _ | stored _ | delivered _ | dropped => rfl

theorem history_stepShowMore (s : Parallel) (i g : Nat) (st : Peek) :
    (s.stepShowMore i g st).history = s.history := by
  cases st with
  | start | checked =>
    simp only [Parallel.stepShowMore]
    split <;> rfl
  | answered _ => rfl

/-- A thread after a step was there before it, or is one just started, at its first step. -/
theorem thread_step_rev {s' : Parallel} {j : Nat} {u : Thread} (h : Step s s')
    (hj : s'.threads[j]? = some u) :
    (∃ t, s.threads[j]? = some t) ∨ (∃ e, u = .query e .dispatching) ∨
      (∃ g, u = .showMore g .start) ∨ ∃ g p item, u = .select g p item .start := by
  cases h with
  | begin raw =>
    rw [begin_eq] at hj
    rcases getElem?_spawn hj with ⟨-, rfl⟩ | ⟨-, hj⟩
    · exact .inr (.inl ⟨_, rfl⟩)
    · exact .inl ⟨u, hj⟩
  | gather e' hi hg =>
    rename_i k e
    by_cases hjk : j = k
    · exact .inl ⟨_, hjk ▸ hi⟩
    · exact .inl ⟨u, by rwa [getElem?_setThread_ne hjk] at hj⟩
  | advance k =>
    by_cases hjk : j = k
    · rw [hjk] at hj ⊢
      cases hk : s.threads[k]? with
      | some t => exact .inl ⟨t, rfl⟩
      | none =>
        simp only [Parallel.advance, hk] at hj
        cases hj
    · exact .inl ⟨u, by rwa [(Frame.advance s k).threads j hjk] at hj⟩
  | showMore g =>
    rcases getElem?_spawn hj with ⟨-, rfl⟩ | ⟨-, hj⟩
    · exact .inr (.inr (.inl ⟨g, rfl⟩))
    · exact .inl ⟨u, hj⟩
  | select g p item =>
    rcases getElem?_spawn hj with ⟨-, rfl⟩ | ⟨-, hj⟩
    · exact .inr (.inr (.inr ⟨g, p, item, rfl⟩))
    · exact .inl ⟨u, hj⟩
  | close => exact .inl ⟨u, hj⟩

end Frames

/-! ## Stale lists -/

section Stale

variable {s s' : Parallel} {i j g : Nat}

/-- **The delivered list is only replaced by one of a generation no older.** -/
theorem Inv.delivered_step (hs : Inv s) (h : Step s s') {d : Delivered}
    (hd : s.delivered = some d) : ∃ d', s'.delivered = some d' ∧ d.generation ≤ d'.generation := by
  cases h with
  | advance k =>
    unfold Parallel.advance
    split
    · rename_i e st hk
      rcases delivered_stepQuery s k e st with he | ⟨h, rfl, he⟩
      · exact ⟨d, he ▸ hd, Nat.le_refl _⟩
      · exact ⟨_, he, hs.storing k _ e.generation d hk rfl rfl hd⟩
    · exact ⟨d, (delivered_stepShowMore s k _ _).trans hd, Nat.le_refl _⟩
    · exact ⟨d, (delivered_stepSelect s k _ _ _ _).trans hd, Nat.le_refl _⟩
    · exact ⟨d, hd, Nat.le_refl _⟩
  | begin raw | gather e' hk hg | showMore g | select g p item | close =>
    exact ⟨d, hd, Nat.le_refl _⟩

/-- A query that will answer nothing: its generation is superseded, and it is not yet past the
check under the lock, or already dropped. -/
def Doomed (s : Parallel) (i g : Nat) : Prop :=
  s.generations.isCancelled g = true ∧ ∃ e st, s.threads[i]? = some (.query e st) ∧
    e.generation = g ∧ (st.unchecked = true ∨ st = .dropped)

theorem isCurrent_of_isCancelled {gens : Generations} (h : gens.isCancelled g = true) :
    gens.isCurrent g = false := by
  simp only [Generations.isCancelled, decide_eq_true_eq] at h
  simp only [Generations.isCurrent, Bool.and_eq_false_iff, bne_eq_false_iff_eq, beq_eq_false_iff_ne]
  omega

/-- **A doomed query stays doomed**: a superseded generation is never current again, so both
checks turn it away. -/
theorem Doomed.step (hd : s.Doomed i g) (h : Step s s') : s'.Doomed i g := by
  obtain ⟨hc, e, st, hi, rfl, hst⟩ := hd
  have hc' : s'.generations.isCancelled e.generation = true := by
    have hle := current_step h
    simp only [Generations.isCancelled, decide_eq_true_eq] at hc ⊢
    omega
  refine ⟨hc', ?_⟩
  rcases thread_step h hi with hi' | rfl | ⟨e₀, e', he, hg, hi'⟩
  · exact ⟨e, st, hi', rfl, hst⟩
  · have hcur := isCurrent_of_isCancelled hc
    simp only [Parallel.advance, hi]
    cases st with
    | dispatching | dropped => exact ⟨e, _, hi, rfl, hst⟩
    | gathered =>
      simp only [Parallel.stepQuery, hcur]
      exact ⟨e, _, getElem?_setThread_self hi, rfl, .inr rfl⟩
    | ranking => exact ⟨e, _, getElem?_setThread_self hi, rfl, .inl rfl⟩
    | ranked h =>
      simp only [Parallel.stepQuery]
      split
      · exact ⟨e, _, getElem?_setThread_self hi, rfl, .inl rfl⟩
      · exact ⟨e, _, hi, rfl, hst⟩
    | locked h =>
      simp only [Parallel.stepQuery, hcur]
      exact ⟨e, _, getElem?_setThread_self hi, rfl, .inr rfl⟩
    | storing _ | stored _ | sending _ | delivered _ => simp [Tail.unchecked] at hst
  · cases he
    exact ⟨e', .gathered, hi', hg, .inl rfl⟩

theorem Doomed.reachable (hd : s.Doomed i g) (h : Reachable s s') : s'.Doomed i g := by
  induction h with
  | refl => exact hd
  | tail _ hst ih => exact ih.step hst

/-- A doomed query has sent no list: only a query sends the list of its generation. -/
theorem Inv.not_sent_of_doomed (hs : Inv s) (hd : s.Doomed i g) (q : Query)
    (es : List ListEntry) (ws : List PluginWarning) : EngineUpdate.results g q es ws ∉ s.sent := by
  intro hu
  obtain ⟨e, h, ⟨j, u, hj, hu'⟩, rfl, -, -, -⟩ := hs.sent g q es ws hu
  obtain ⟨-, e', st, hi, hg, hst⟩ := hd
  have hgu : u.generation? = some e.generation := by
    match u, hu' with
    | .query _ (.delivered _), rfl => rfl
  have hji := hs.distinct j i u (.query e' st) e.generation hj hi hgu (by rw [← hg]; rfl)
  rw [hji, hi, Option.some.injEq] at hj
  subst hj
  rcases hst with hst | rfl
  · cases st <;> simp_all [Tail.unchecked, Thread.sent?]
  · simp [Thread.sent?] at hu'

/-- A request to show more passes its check only while its generation is current. -/
theorem checked_step (h : Step s s') (hj : s.threads[j]? = some (.showMore g .start))
    (hj' : s'.threads[j]? = some (.showMore g .checked)) : s.generations.isCurrent g = true := by
  rcases thread_step h hj with hj'' | rfl | ⟨e, e', he, -, -⟩
  · rw [hj'] at hj''
    cases hj''
  · simp only [Parallel.advance, hj, Parallel.stepShowMore] at hj'
    split at hj'
    · assumption
    · rw [getElem?_setThread_self hj] at hj'
      cases hj'
  · cases he

/-- A request to show more answers a list only by its read after the check. -/
theorem answered_step {full : List RankedResult} (h : Step s s')
    (hj' : s'.threads[j]? = some (.showMore g (.answered (some full)))) :
    s.threads[j]? = some (.showMore g .checked) ∨
      s.threads[j]? = some (.showMore g (.answered (some full))) := by
  rcases thread_step_rev h hj' with ⟨t, hj⟩ | ⟨e, he⟩ | ⟨g', he⟩ | ⟨g', p, item, he⟩
  · rcases thread_step h hj with hj'' | rfl | ⟨e, e', rfl, -, hj''⟩
    · rw [hj'] at hj''
      cases hj''
      exact .inr hj
    · cases t with
      | query e st =>
        obtain ⟨st', hst⟩ := query_stepQuery hj
        rw [advance_query hj, hst] at hj'
        cases hj'
      | showMore g' st =>
        rw [advance_showMore hj] at hj'
        cases st with
        | start =>
          simp only [Parallel.stepShowMore] at hj'
          split at hj' <;> simp [getElem?_setThread_self hj] at hj'
        | checked =>
          simp only [Parallel.stepShowMore] at hj'
          split at hj'
          · rw [getElem?_setThread_self hj] at hj'
            simp only [Option.some.injEq, Thread.showMore.injEq] at hj'
            rw [← hj'.1]
            exact .inl hj
          · rw [hj] at hj'
            cases hj'
        | answered x =>
          simp only [Parallel.stepShowMore, hj] at hj'
          rw [← hj']
          exact .inr hj
      | select g' p item st =>
        obtain ⟨st', hst⟩ := select_stepSelect hj
        rw [advance_select hj, hst] at hj'
        cases hj'
    · rw [hj'] at hj''
      cases hj''
  · cases he
  · cases he
  · cases he

/-- **The history changes only by recording a selection against the query text of the list its
generation's query stored.** -/
theorem Inv.history_step (hs : Inv s) (h : Step s s') :
    s'.history = s.history ∨ ∃ (j g : Nat) (p : String) (item : ResultItem) (text : String)
      (e : Execute) (hr : HistoryStore),
      s.threads[j]? = some (.select g p item (.read (some text))) ∧ s.Stores e hr ∧
      e.generation = g ∧ text = e.query.rawText ∧
      s'.history = (s.history.record s.disk text p item.key 0).store := by
  cases h with
  | advance k =>
    cases hk : s.threads[k]? with
    | none => exact .inl (by simp only [Parallel.advance, hk])
    | some t =>
      cases t with
      | query e st => exact .inl (by rw [advance_query hk, history_stepQuery])
      | showMore g st => exact .inl (by rw [advance_showMore hk, history_stepShowMore])
      | select g p item st =>
        rw [advance_select hk]
        cases st with
        | start =>
          left
          simp only [Parallel.stepSelect]
          split <;> rfl
        | read text =>
          cases text with
          | none => exact .inl rfl
          | some text =>
            obtain ⟨e, hr, he, hg, rfl⟩ := hs.picked k _ g text hk rfl
            exact .inr ⟨k, g, p, item, _, e, hr, hk, he, hg, rfl, rfl⟩
        | recorded => exact .inl rfl
  | begin raw | gather e' hk hg | showMore g | select g p item | close => exact .inl rfl

/-- The list length never changes. -/
theorem maxResults_step (h : Step s s') : s'.maxResults = s.maxResults := by
  cases h with
  | advance k => exact (Frame.advance s k).maxResults
  | begin raw | gather e' hk hg | showMore g | select g p item | close => rfl

theorem Reachable.maxResults (h : Reachable s s') : s'.maxResults = s.maxResults := by
  induction h with
  | refl => rfl
  | tail _ hst ih => exact (maxResults_step hst).trans ih

/-- **Stale lists are never delivered**, over every interleaving of queries with requests to show
more and selections, from an engine that has begun no query:
* the delivered list is only replaced by one of a generation no older;
* a query superseded before its check under the lock never gets past it, whatever runs after, and
  no list of its generation is ever sent;
* a request to show more passes its check only while its generation is current, and answers a list
  only by its read after the check: the whole ranking a query of its generation stored, of which the
  rows of that query's cut list are the first, and all of it unless the cut ends in the marker;
* the history changes only by recording a selection against the query text of the list its
  generation's query stored. -/
theorem stale_lists_never_delivered (h₀ : HistoryStore) (d₀ : Disk) (m : Nat) :
    (∀ (s s' : Parallel) (d : Delivered), Reachable (fresh h₀ d₀ m) s → Step s s' → s.delivered = some d →
      ∃ d', s'.delivered = some d' ∧ d.generation ≤ d'.generation) ∧
    (∀ (s s' : Parallel) (i : Nat) (e : Execute) (st : Tail), Reachable (fresh h₀ d₀ m) s →
      s.threads[i]? = some (.query e st) →
      st.unchecked = true → s.generations.isCancelled e.generation = true → Reachable s s' →
      (∃ e' st', s'.threads[i]? = some (.query e' st') ∧ e'.generation = e.generation ∧
        (st'.unchecked = true ∨ st' = .dropped)) ∧
      ∀ q es ws, EngineUpdate.results e.generation q es ws ∉ s'.sent) ∧
    (∀ (s s' : Parallel) (j g : Nat), Step s s' → s.threads[j]? = some (.showMore g .start) →
      s'.threads[j]? = some (.showMore g .checked) → s.generations.isCurrent g = true) ∧
    (∀ (s s' : Parallel) (j g : Nat) (full : List RankedResult), Step s s' →
      s'.threads[j]? = some (.showMore g (.answered (some full))) →
      s.threads[j]? = some (.showMore g .checked) ∨
        s.threads[j]? = some (.showMore g (.answered (some full)))) ∧
    (∀ (s : Parallel) (j g : Nat) (full : List RankedResult), Reachable (fresh h₀ d₀ m) s →
      s.threads[j]? = some (.showMore g (.answered (some full))) →
      ∃ e h, s.Stores e h ∧ e.generation = g ∧ full = (e.ranking h m).full ∧
        ((e.ranking h m).entries.filterMap ListEntry.result?).IsPrefix full ∧
        ((e.ranking h m).entries.getLast?.map ListEntry.isMarker = some true ∨
          (e.ranking h m).entries.filterMap ListEntry.result? = full)) ∧
    (∀ s s' : Parallel, Reachable (fresh h₀ d₀ m) s → Step s s' → s'.history = s.history ∨
      ∃ (j g : Nat) (p : String) (item : ResultItem) (text : String) (e : Execute)
        (hr : HistoryStore), s.threads[j]? = some (.select g p item (.read (some text))) ∧
        s.Stores e hr ∧ e.generation = g ∧ text = e.query.rawText ∧
        s'.history = (s.history.record s.disk text p item.key 0).store) := by
  have hinv : ∀ {s}, Reachable (fresh h₀ d₀ m) s → Inv s := fun hr => hr.inv (inv_fresh h₀ d₀ m)
  refine ⟨fun s s' d hr hst hd => (hinv hr).delivered_step hst hd,
    fun s s' i e st hr hi hu hc hr' => ?_, fun s s' j g hst hj hj' => checked_step hst hj hj',
    fun s s' j g full hst hj' => answered_step hst hj', fun s j g full hr hj => ?_,
    fun s s' hr hst => (hinv hr).history_step hst⟩
  · have hd : s'.Doomed i e.generation := Doomed.reachable ⟨hc, e, st, hi, rfl, .inl hu⟩ hr'
    obtain ⟨e', st', hi', hg, hst'⟩ := hd.2
    exact ⟨⟨e', st', hi', hg, hst'⟩, (hinv (hr.trans hr')).not_sent_of_doomed hd⟩
  · obtain ⟨e, h, he, hg, rfl⟩ := (hinv hr).shown j _ g full hj rfl
    have hm : s.maxResults = m := hr.maxResults
    rw [hm]
    exact ⟨e, h, he, hg, rfl, rows_cutDown _ _⟩

end Stale

/-! ## A query's end, uninterrupted -/

section Alone

variable {s : Parallel} {i : Nat} {e : Execute}

theorem Reachable.advance (s : Parallel) (i : Nat) : Reachable s (s.advance i) :=
  .single (.advance s i)

/-- **A query's end, with nothing between its steps**, up to the send: a query whose dispatch is
over, while its generation is current and the lock is free, ranks with the history, stores its
whole ranking and releases the lock. -/
theorem Reachable.ready (hi : s.threads[i]? = some (.query e .gathered))
    (hcur : s.generations.isCurrent e.generation = true) (hfree : s.holder = none) :
    Reachable s { s.setThread i (.query e (.sending s.history)) with
      delivered := some ⟨e.generation, e.query, (e.ranking s.history s.maxResults).full⟩ } := by
  obtain ⟨hlen, hi'⟩ := List.getElem?_eq_some_iff.mp hi
  have r := (Reachable.advance s i).trans <| (Reachable.advance _ i).trans <|
    (Reachable.advance _ i).trans <| (Reachable.advance _ i).trans <| (Reachable.advance _ i).trans <|
    Reachable.advance _ i
  convert r using 1
  simp [Parallel.Reachable, Parallel.advance, Parallel.stepQuery, Parallel.setThread, hi', hcur,
    hfree, hlen]

/-- Then it sends its cut list: run alone, the end of a query is what the engine's own thread does
in one step. -/
theorem Reachable.alone (hi : s.threads[i]? = some (.query e .gathered))
    (hcur : s.generations.isCurrent e.generation = true) (hfree : s.holder = none) :
    Reachable s ({ s.setThread i (.query e (.delivered s.history)) with
      delivered := some ⟨e.generation, e.query, (e.ranking s.history s.maxResults).full⟩ }.send
        (.results e.generation e.query (e.ranking s.history s.maxResults).entries e.warnings)) := by
  have hi' : ({ s.setThread i (.query e (.sending s.history)) with
      delivered := some ⟨e.generation, e.query, (e.ranking s.history s.maxResults).full⟩ } :
        Parallel).threads[i]? = some (.query e (.sending s.history)) := getElem?_setThread_self hi
  have r := (Reachable.ready hi hcur hfree).tail (.advance _ i)
  rw [advance_query hi'] at r
  simp only [Parallel.stepQuery, Parallel.setThread, List.set_set] at r
  exact r

/-- **A newer list can reach the interface first.** A query that stored its list and released the
lock, but has yet to send it, can be overtaken: a newer query begins, ends its dispatch, runs its
whole end and sends its list, and only then is the older list sent. -/
theorem Reachable.overtaken {h : HistoryStore} (hi : s.threads[i]? = some (.query e (.sending h)))
    (hfree : s.holder = none) (hl : s.listening = true) (raw : String) :
    ∃ s', Reachable s s' ∧ ∃ q es ws, s'.sent = s.sent ++
      [.results (s.generations.current + 1) q es ws,
        .results e.generation e.query (e.ranking h s.maxResults).entries e.warnings] := by
  let e₀ : Execute := { generation := s.generations.current + 1, raw := raw }
  have hlen : i < s.threads.length := (List.getElem?_eq_some_iff.1 hi).1
  have hn : (s.begin raw).threads[s.threads.length]? = some (.query e₀ .dispatching) := by
    rw [begin_eq]
    exact getElem?_spawn_length
  have r₂ : Reachable s ((s.begin raw).setThread s.threads.length (.query e₀ .gathered)) :=
    .tail (.single (.begin s raw)) (.gather e₀ hn rfl)
  have hn' : ((s.begin raw).setThread s.threads.length (.query e₀ .gathered)).threads[s.threads.length]? =
      some (.query e₀ .gathered) := getElem?_setThread_self hn
  have r₃ := Reachable.alone hn'
    (by simp [begin_eq, Parallel.setThread, Parallel.spawn, Generations.isCurrent, e₀])
    (by simpa [begin_eq, Parallel.setThread, Parallel.spawn] using hfree)
  refine ⟨_, r₂.trans (r₃.tail (.advance _ i)), ?_⟩
  simp [Parallel.advance, Parallel.stepQuery, Parallel.send, Parallel.setThread, begin_eq,
    Parallel.spawn, hl, List.getElem?_append_left hlen, hi, e₀]

/-- **The interface can receive an older list after a newer one**, from any engine that has begun
no query: the first query stores its list and releases the lock, then a second begins and sends
its list before the first sends its own. -/
theorem older_list_sent_after_newer (h : HistoryStore) (d : Disk) (m : Nat) :
    ∃ s, Reachable (fresh h d m) s ∧ ∃ (q₁ q₂ : Query) (es₁ es₂ : List ListEntry)
      (ws₁ ws₂ : List PluginWarning), s.sent = [.results 2 q₂ es₂ ws₂, .results 1 q₁ es₁ ws₁] := by
  let e₁ : Execute := { generation := 1, raw := "" }
  have h₁ : ((fresh h d m).begin "").threads[0]? = some (.query e₁ .dispatching) := rfl
  have h₂ : (((fresh h d m).begin "").setThread 0 (.query e₁ .gathered)).threads[0]? =
      some (.query e₁ .gathered) := getElem?_setThread_self h₁
  have r₂ : Reachable (fresh h d m) (((fresh h d m).begin "").setThread 0 (.query e₁ .gathered)) :=
    .tail (.single (.begin _ "")) (.gather e₁ h₁ rfl)
  obtain ⟨s₃, r₃, hs₃⟩ : ∃ s₃, Reachable _ s₃ ∧ s₃ = _ := ⟨_, Reachable.ready h₂ rfl rfl, rfl⟩
  have h₃ : s₃.threads[0]? = some (.query e₁ (.sending h)) := by
    rw [hs₃]
    exact getElem?_setThread_self h₂
  obtain ⟨s, r, q, es, ws, hs⟩ := Reachable.overtaken h₃ (by rw [hs₃]; rfl) (by rw [hs₃]; rfl) ""
  rw [hs₃] at hs
  exact ⟨s, r₂.trans (r₃.trans r), _, q, _, es, _, ws, hs⟩

end Alone

end Parallel

end Launcher.Engine
