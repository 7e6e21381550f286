import TripleQuery.Session.Basic
/-!
# Running a session

A session works on a stack of tasks. The task on top is taken off and carried out; the tasks it
leads to go on top in its place, so that everything a task causes is over before the next one
begins. A command may call back into searches, whose callbacks are commands again, to any depth. A
run ends when no task is left (`Session.run`); it is given a number of tasks it may carry out at
most.

Runs compose (`Session.run_append`), a run that has ended needs no more tasks (`Session.run_of_le`),
and what every task keeps, a run keeps (`Session.run_preserves`).
-/

namespace TripleQuery

/-- What a session has to do next. -/
inductive Task where
  /-- An order from the work of a search. -/
  | order (o : Order)
  /-- A command. -/
  | command (c : Command)
  /-- Report the answer of the command that was run inside a callback. -/
  | acted
  /-- Call somebody who waits for a document. -/
  | call (c : Callback) (o : FetchOutcome)
  /-- Give up on calling somebody. -/
  | discard (c : Callback)
  /-- Deliver until nothing is on the queue, and perhaps answer with the number of deliveries. -/
  | pump (delivered : Nat) (announce : Bool)
  /-- Answer the command. -/
  | reply (r : Reply)
  /-- A search was started by name: keep its handle and answer with it. -/
  | started (name : String) (search : Id)
  /-- A search was started for a receiver: keep its handle and answer with it. -/
  | opened (name : String) (search : Id)
  /-- A search whose caller does not wait has come as far as it could: answer with its matches. -/
  | collected (search : Id)
  /-- The engine was replaced: answer with the settings of the engine that is there by now. -/
  | configured
  /-- A call that uses the source of documents is over. Its answer stands, whatever else the end of
  the call brings about. -/
  | leave
  /-- A call that uses the library inside an eager source is over. -/
  | leaveLibrary
deriving Inhabited

/-- Run commands inside a callback, reporting the answer of each. -/
def Task.perform (cs : List Command) : List Task :=
  cs.flatMap fun c => [.command c, .acted]

namespace Session

/-! ## The source of documents -/

/-- Let go of the source if nothing refers to it any more. Those who wait for documents are given
up. -/
def collect (s : Session) : Session × List Task :=
  match s.source with
  | none => (s, [])
  | some source =>
    if s.isReachable || s.deliverers ≠ 0 then (s, [])
    else ({ s with source := none }, source.allWatchers.map .discard)

/-- Carry out tasks during which the source is in use. -/
def inUse (s : Session) (tasks : List Task) : Session × List Task :=
  ({ s with users := s.users + 1 }, tasks ++ [.leave])

/-- Carry out tasks during which a library is in use. Only an eager source is more than its library.
-/
def usingLibrary (s : Session) (eager : Bool) (tasks : List Task) : Session × List Task :=
  if eager then ({ s with deliverers := s.deliverers + 1 }, tasks ++ [.leaveLibrary])
  else s.inUse tasks

/-- A call is over. What the session answers stays the same, whatever else that brings about. -/
def leaving (s : Session) : Session × List Task :=
  let (s', tasks) := s.collect
  (s', tasks ++ [.reply s.reply])

/-- Deliver the oldest request of a library, if there is one, calling those who waited. -/
def deliverNext (s : Session) : Option (Session × FetchOutcome × List Task) :=
  match s.source with
  | some (.library eager l) =>
    (l.deliver s.graph).map fun d =>
      ({ s with graph := d.graph, source := some (.library eager d.library) },
        d.outcome, d.watchers.map fun c => .call c d.outcome)
  | _ => none

/-- Ask the source for a document. -/
def request (s : Session) (document : String) : Session × List Task :=
  match s.source with
  | some (.library eager l) =>
    ({ s with source := some (.library eager (l.request document)) },
      if eager then [.pump 0 false] else [])
  | some (.scripted src) => ({ s with source := some (.scripted (src.request document)) }, [])
  | none => (s, [])

/-- Have somebody called once a document is there. -/
def watch (s : Session) (document : String) (c : Callback) : Session × List Task :=
  match s.source with
  | some (.library eager l) =>
    let (l, outcome) := l.watch document c
    ({ s with source := some (.library eager l) },
      match outcome with
      | some o => [.call c o]
      | none => [])
  | some (.scripted src) =>
    match src.mode with
    | .hold => ({ s with source := some (.scripted (src.keep document c)) }, [])
    | .fire => (s, [.call c ⟨document, none, 0⟩])
    | .drop => (s, [.discard c])
  | none => (s, [.discard c])

/-! ## Searches -/

/-- Take over the outcome of the work of searches. -/
def proceed (s : Session) (p : Searches × List Order) : Session × List Task :=
  ({ s with searches := p.1 }, p.2.map .order)

/-- Tell the listener of a search of a match. -/
def tell (s : Session) (search : Id) (m : Bindings) : Session × List Task :=
  match s.listeners[search]? with
  | some (.script name onMatch onDone) =>
    ({ s.emit (.found name m) with
        listeners := s.listeners.insert search (.script name onMatch.tail onDone) },
      Task.perform (onMatch.head?.getD []))
  | some (.collector found result) =>
    ({ s with listeners := s.listeners.insert search (.collector (m :: found) result) }, [])
  | some (.channel pending result) =>
    ({ s with listeners := s.listeners.insert search (.channel (m :: pending) result) }, [])
  | none => (s, [])

/-- Tell the listener of a search that it is done. -/
def conclude (s : Session) (search : Id) (result : Except QueryError SearchSummary) :
    Session × List Task :=
  match s.listeners[search]? with
  | some (.script name _ onDone) => (s.emit (.done name result), Task.perform onDone)
  | some (.collector found _) =>
    ({ s with listeners := s.listeners.insert search (.collector found (some result)) }, [])
  | some (.channel pending _) =>
    ({ s with listeners := s.listeners.insert search (.channel pending (.arrived result)) }, [])
  | none => (s, [])

/-- Carry out an order from the work of a search. -/
def obey (s : Session) : Order → Session × List Task
  | .job j => s.proceed (s.searches.run s.surroundings j)
  | .enterSource => ({ s with users := s.users + 1 }, [])
  | .leaveSource => (s, [.leave])
  | .request document => s.request document
  | .watch document ticket => s.watch document (.resume ticket)
  | .deliver search m => s.tell search m
  | .finish search result => s.conclude search result

/-- Start a search for a listener, unless the pattern makes no sense. The tasks in `after` are
carried out when it has come as far as it can for now. -/
def launch (s : Session) (p : Pattern) (listener : Listener) (after : Id → Task) :
    Session × List Task :=
  match s.engine with
  | none => (s.answer .noEngine, [])
  | some e =>
    match p.validate with
    | .error err => (s.answer (.failed err), [])
    | .ok () =>
      let (searches, search, job) := s.searches.launch e.config e.linked p
      let s :=
        { s with searches := searches, listeners := s.listeners.insert search listener }
      let tasks := [.order (.job job), after search]
      if e.linked then s.inUse tasks else (s, tasks)

/-- The answer for a caller who does not wait: all matches if the search is done, and otherwise the
search is cancelled. -/
def collected (s : Session) (search : Id) : Session :=
  match s.listeners[search]? with
  | some (.collector found (some (.ok _))) => s.answer (.results found.reverse)
  | some (.collector _ (some (.error e))) => s.answer (.failed e)
  | _ =>
    let s := { s with searches := s.searches.update search .cancel }
    s.answer (.failed (.suspended ((s.searches.searches[search]?.map (·.matchCount)).getD 0)))

/-- Answer with the messages that are there for a receiver, and take them. -/
def receive (s : Session) (name : String) : Session :=
  match s.receivers[name]? with
  | none => s.answer .noSearch
  | some search =>
    match s.listeners[search]? with
    | some (.channel pending result) =>
      let result' := match result with
        | .waiting => .waiting
        | _ => .taken
      { s with
        listeners := s.listeners.insert search (.channel [] result')
        reply := .received pending.reverse result }
    | _ => s.answer .noSearch

/-- Change a search by name and answer with its handle. -/
def withSearch (s : Session) (name : String) (change : Search → Search) : Session :=
  match s.search? name with
  | none => s.answer .noSearch
  | some search =>
    let s := { s with searches := s.searches.update search change }
    s.answer (s.handleReply search)

/-! ## Callbacks -/

/-- Call somebody who waits for a document. -/
def call (s : Session) (o : FetchOutcome) : Callback → Session × List Task
  | .resume ticket => s.proceed (s.searches.resume ticket)
  | .notify tag andThen => (s.emit (.available tag o), Task.perform andThen)

/-- Give up on calling somebody. -/
def giveUp (s : Session) : Callback → Session × List Task
  | .resume ticket => s.proceed (s.searches.discard ticket)
  | .notify _ _ => (s, [])

/-! ## Commands -/

/-- Carry out a command to a library. -/
def commandLibrary (s : Session) (eager : Bool) (l : Library Callback) :
    LibraryCommand → Session × List Task
  | .publish document ss =>
    ({ s with source := some (.library eager (l.publish document ss)), reply := .done }, [])
  | .failWith document reason =>
    ({ s with source := some (.library eager (l.failWith document reason)), reply := .done }, [])
  | .refresh document =>
    ({ s with source := some (.library eager (l.refresh document)), reply := .done }, [])
  | .status => (s.answer (.library l.queue.length l.log s.graph.size), [])
  | .deliver =>
    match s.deliverNext with
    | none => (s.answer (.delivered none), [])
    | some (s, o, tasks) => s.usingLibrary eager (tasks ++ [.reply (.delivered (some o))])
  | .runPending => s.usingLibrary eager [.pump 0 true]

/-- Carry out a command to a scripted source. -/
def commandScript (s : Session) (src : ScriptedSource Callback) :
    ScriptCommand → Session × List Task
  | .setState document st =>
    ({ s with source := some (.scripted (src.setState document st)), reply := .done }, [])
  | .held => (s.answer (.held (src.held.map (·.1)) src.log), [])
  | .fire i error =>
    match src.take i with
    | none => (s.answer .notHeld, [])
    | some (src, document, c) =>
      { s with source := some (.scripted src) }.inUse
        [.call c ⟨document, error, 0⟩, .reply (.fired document)]
  | .discard i =>
    match src.take i with
    | none => (s.answer .notHeld, [])
    | some (src, document, c) =>
      { s with source := some (.scripted src) }.inUse
        [.discard c, .reply (.discarded document)]

/-- Let go of something, and answer whether it was there. -/
def dropping (s : Session) (wasThere : Bool) : Session × List Task :=
  let (s, tasks) := s.collect
  (s, tasks ++ [.reply (.dropped wasThere)])

/-- Carry out a command. -/
def command (s : Session) : Command → Session × List Task
  | .edit e => (s.edit e, [])
  | .inspect q => (s.answer (q.answer s.graph), [])
  | .library c =>
    match s.library? with
    | none => (s.answer .noSource, [])
    | some (eager, l) => s.commandLibrary eager l c
  | .script c =>
    match s.scripted? with
    | none => (s.answer .noSource, [])
    | some src => s.commandScript src c
  | .request document =>
    if s.owned then
      let (s, tasks) := s.request document
      s.inUse (tasks ++ [.reply .done])
    else (s.answer .noSource, [])
  | .state document =>
    match s.owned, s.source with
    | true, some source => (s.answer (.state (source.state document)), [])
    | _, _ => (s.answer .noSource, [])
  | .onAvailable document tag andThen =>
    if s.owned then
      let (s, tasks) := s.watch document (.notify tag andThen)
      s.inUse (tasks ++ [.reply .done])
    else (s.answer .noSource, [])
  | .configure config =>
    let (s, tasks) := { s with engine := some ⟨config, s.owned⟩ }.collect
    (s, tasks ++ [.configured])
  | .search name p onMatch onDone => s.launch p (.script name onMatch onDone) (.started name)
  | .searchAll p => s.launch p (.collector [] none) .collected
  | .searchUnreadable => (s.answer (if s.engine.isSome then .unreadable else .noEngine), [])
  | .searchChannel name p => s.launch p (.channel [] .waiting) (.opened name)
  | .receive name => (s.receive name, [])
  | .dropReceiver name =>
    ({ s with receivers := s.receivers.erase name, reply := .dropped (s.receivers.contains name) },
      [])
  | .handle name => (s.withSearch name id, [])
  | .cancel name => (s.withSearch name .cancel, [])
  | .stop name => (s.withSearch name .stop, [])
  | .dropEngine => { s with engine := none }.dropping s.engine.isSome
  | .dropSource => { s with owned := false }.dropping s.owned

/-! ## Tasks -/

/-- Carry out one task. -/
def exec (s : Session) : Task → Session × List Task
  | .order o => s.obey o
  | .command c => s.command c
  | .acted => (s.emit (.acted s.reply), [])
  | .call c o => s.call o c
  | .discard c => s.giveUp c
  | .pump n announce =>
    match s.deliverNext with
    | none => (if announce then s.answer (.deliveredAll n) else s, [])
    | some (s, _, tasks) => (s, tasks ++ [.pump (n + 1) announce])
  | .reply r => (s.answer r, [])
  | .started name search =>
    ({ s with handles := s.handles.insert name search, reply := s.handleReply search }, [])
  | .opened name search =>
    ({ s with receivers := s.receivers.insert name search, reply := s.handleReply search }, [])
  | .collected search => (s.collected search, [])
  | .configured =>
    match s.engine with
    | some e => (s.answer (.configured e.config s.graph.size), [])
    | none => (s.answer .noEngine, [])
  | .leave => { s with users := s.users - 1 }.leaving
  | .leaveLibrary => { s with deliverers := s.deliverers - 1 }.leaving

/-- Carry out all tasks of a stack, if that takes no more than the given number of them. -/
def run : Nat → List Task → Session → Option Session
  | _, [], s => some s
  | 0, _ :: _, _ => none
  | fuel + 1, task :: stack, s =>
    let (s, tasks) := s.exec task
    run fuel (tasks ++ stack) s

/-! ## What holds of runs -/

@[simp] theorem run_nil (fuel : Nat) (s : Session) : run fuel [] s = some s := by
  cases fuel <;> rfl

theorem run_cons (fuel : Nat) (task : Task) (stack : List Task) (s : Session) :
    run (fuel + 1) (task :: stack) s = run fuel ((s.exec task).2 ++ stack) (s.exec task).1 := rfl

/-- **What every task keeps, a run keeps.** The property may speak of the tasks that are left. -/
theorem run_preserves {P : Session → List Task → Prop}
    (step : ∀ s task stack, P s (task :: stack) →
      P (s.exec task).1 ((s.exec task).2 ++ stack))
    {fuel : Nat} {stack : List Task} {s t : Session} (start : P s stack)
    (h : run fuel stack s = some t) : P t [] := by
  induction fuel generalizing stack s with
  | zero =>
    cases stack with
    | nil => simp only [run_nil, Option.some.injEq] at h; exact h ▸ start
    | cons task stack => simp [run] at h
  | succ fuel ih =>
    cases stack with
    | nil => simp only [run_nil, Option.some.injEq] at h; exact h ▸ start
    | cons task stack => exact ih (step s task stack start) (run_cons .. ▸ h)

/-- **A run that has come to its end needs no more tasks**, however many it may carry out. -/
theorem run_of_le {fuel more : Nat} (hle : fuel ≤ more) {stack : List Task} {s t : Session}
    (h : run fuel stack s = some t) : run more stack s = some t := by
  induction fuel generalizing more stack s with
  | zero =>
    cases stack with
    | nil => simpa using h
    | cons task stack => simp [run] at h
  | succ fuel ih =>
    cases stack with
    | nil => simpa using h
    | cons task stack =>
      obtain ⟨more, rfl⟩ := Nat.exists_eq_add_one_of_ne_zero
        (Nat.ne_of_gt (Nat.lt_of_lt_of_le fuel.succ_pos hle))
      exact ih (Nat.le_of_succ_le_succ hle) (run_cons .. ▸ h)

/-- **A run that ends is the run of its first tasks, followed by that of the others.** The others
see what the first ones have left behind. -/
theorem run_append {fuel rest : Nat} {first later : List Task} {s mid t : Session}
    (h : run fuel first s = some mid) (h' : run rest later mid = some t) :
    run (fuel + rest) (first ++ later) s = some t := by
  induction fuel generalizing first s with
  | zero =>
    cases first with
    | nil => simp_all
    | cons task first => simp [run] at h
  | succ fuel ih =>
    cases first with
    | nil =>
      simp only [run_nil, Option.some.injEq] at h
      subst h
      exact run_of_le (Nat.le_add_left ..) h'
    | cons task first =>
      rw [Nat.succ_add, List.cons_append, run_cons, ← List.append_assoc]
      exact ih (run_cons .. ▸ h)

/-! ## Commands one after the other -/

/-- Carry out a command and all it causes. The answer comes with the events reported meanwhile. -/
def perform (fuel : Nat) (s : Session) (c : Command) : Option (Session × Reply × List Event) :=
  (run fuel [.command c] { s with events := #[] }).map fun s => (s, s.reply, s.events.toList)

/-- Carry out commands one after the other. -/
def performAll (fuel : Nat) : Session → List Command → Option (List (Reply × List Event))
  | _, [] => some []
  | s, c :: cs => do
    let (s, reply, events) ← s.perform fuel c
    let rest ← performAll fuel s cs
    return (reply, events) :: rest

end Session

end TripleQuery
