import TripleQuery.Session.Command
/-!
# Sessions

A session has one store, at most one source of documents, an engine with the settings for new
searches, and the searches that were started. The source can be reached as long as the session or
the engine refers to it or a call that uses it is in progress (`Session.isReachable`); a search
refers to it only while it lasts. When the source goes away, those who wait for documents are given
up, and their searches go on without it. A delivery from an eager source is a call to the library
inside: the library and those who wait in it stay for its duration, but searches do not reach the
source through it.
-/

namespace TripleQuery

/-- What new searches are started with. -/
structure Engine where
  config : SearchConfig := {}
  /-- Whether the engine refers to the session's source of documents. -/
  linked : Bool := false
deriving Inhabited

/-- A store, a source of documents, and the searches on them. -/
structure Session where
  graph : Graph := .empty
  /-- The source of documents, as long as it lives. -/
  source : Option Source := none
  /-- Whether the session itself refers to the source. -/
  owned : Bool := false
  engine : Option Engine := some {}
  /-- How many calls in progress use the source. -/
  users : Nat := 0
  /-- How many calls in progress use only the library inside an eager source. -/
  deliverers : Nat := 0
  searches : Searches := {}
  /-- Who is told of the matches and the end of each search. -/
  listeners : Std.ExtTreeMap Id Listener := ∅
  /-- The searches that were started by name. -/
  handles : Std.ExtTreeMap String Id := ∅
  /-- The searches that leave their matches for a receiver, by name. -/
  receivers : Std.ExtTreeMap String Id := ∅
  /-- What was reported since the last command. -/
  events : Array Event := #[]
  /-- The answer to the command that was finished last. -/
  reply : Reply := .done

namespace Session

/-- A session over a store with the given source and settings. -/
def start (g : Graph) (source : Option Source) (config : SearchConfig) : Session :=
  { graph := g
    source := source
    owned := source.isSome
    engine := some ⟨config, source.isSome⟩ }

/-- Whether somebody refers to the source, so that searches reach it. -/
def isReachable (s : Session) : Bool :=
  s.owned || s.engine.any (·.linked) || s.users ≠ 0

/-- What a job of a search can see. -/
def surroundings (s : Session) : Surroundings :=
  ⟨s.graph, if s.isReachable then s.source.map Source.state else none⟩

/-- Answer a command. -/
def answer (s : Session) (r : Reply) : Session :=
  { s with reply := r }

/-- Report something. -/
def emit (s : Session) (e : Event) : Session :=
  { s with events := s.events.push e }

/-- The library that the session refers to, and whether it is eager. -/
def library? (s : Session) : Option (Bool × Library Callback) :=
  match s.owned, s.source with
  | true, some (.library eager l) => some (eager, l)
  | _, _ => none

/-- The scripted source that the session refers to. -/
def scripted? (s : Session) : Option (ScriptedSource Callback) :=
  match s.owned, s.source with
  | true, some (.scripted src) => some src
  | _, _ => none

/-- The search of a name. Searches that were started with callbacks go before those with a receiver.
-/
def search? (s : Session) (name : String) : Option Id :=
  s.handles[name]? <|> s.receivers[name]?

/-- What the handle of a search shows. -/
def handleReply (s : Session) (search : Id) : Reply :=
  match s.searches.searches[search]? with
  | some x => .handle x.finished x.stopped x.matchCount
  | none => .noSearch

/-- Change the store. -/
def edit (s : Session) : StoreEdit → Session
  | .add st =>
    let g := s.graph.add st
    { s with graph := g, reply := .added (g.size ≠ s.graph.size) g.size g.generation }
  | .extend ss =>
    let g := s.graph.addAll ss
    { s with graph := g, reply := .extended g.size g.generation }
  | .equate a b =>
    match s.graph.equate a b with
    | .ok (g, keep) =>
      { s with graph := g, reply := .merged keep g.generation g.redirections.length }
    | .error e => s.answer (.notMerged e)

end Session

end TripleQuery
