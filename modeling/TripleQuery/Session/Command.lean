import TripleQuery.Session.Reply
import TripleQuery.Search.Work
import TripleQuery.Fetch.Library
import TripleQuery.Fetch.Scripted
/-!
# Commands and callbacks

The commands of a session, and what can be called back: a parked path of a search, or a list of
commands to be run once a document is available. A search carries the commands to be run at each of
its matches and when it is done.
-/

namespace TripleQuery

/-- A change of the store. -/
inductive StoreEdit where
  | add (s : Statement)
  | extend (ss : List Statement)
  | equate (a b : Term)
deriving Inhabited

/-- A command to a library of documents. -/
inductive LibraryCommand where
  | publish (document : String) (ss : List Statement)
  | failWith (document reason : String)
  | refresh (document : String)
  | status
  | deliver
  | runPending
deriving Inhabited

/-- A command to a scripted source of documents. -/
inductive ScriptCommand where
  | setState (document : String) (st : FetchState)
  | held
  | fire (i : Nat) (error : Option String)
  | discard (i : Nat)
deriving Inhabited

/-- A command of a session. -/
inductive Command where
  | edit (e : StoreEdit)
  | inspect (q : Inspection)
  | library (c : LibraryCommand)
  | script (c : ScriptCommand)
  | request (document : String)
  | state (document : String)
  /-- Run commands once a document is available. -/
  | onAvailable (document tag : String) (andThen : List Command)
  /-- Replace the engine by one with other settings. -/
  | configure (config : SearchConfig)
  /-- Search, running the `k`-th list of commands at the `k`-th match and the last list in the end.
  -/
  | search (name : String) (p : Pattern) (onMatch : List (List Command)) (onDone : List Command)
  /-- Search and collect all matches, without waiting for documents. -/
  | searchAll (p : Pattern)
  /-- Search in any of these ways for something that is no pattern, because one of its regular
  expressions cannot be read. -/
  | searchUnreadable
  /-- Search and leave matches and end for a receiver. -/
  | searchChannel (name : String) (p : Pattern)
  | receive (name : String)
  | dropReceiver (name : String)
  | handle (name : String)
  | cancel (name : String)
  | stop (name : String)
  | dropEngine
  | dropSource
deriving Inhabited

/-- What waits for a document. -/
inductive Callback where
  /-- A parked path of a search. -/
  | resume (ticket : Id)
  /-- An announcement, with commands to be run after it. -/
  | notify (tag : String) (andThen : List Command)
deriving Inhabited

/-- A source of documents. -/
inductive Source where
  /-- A library in memory. An eager one delivers as soon as something is requested. -/
  | library (eager : Bool) (l : Library Callback)
  /-- A source that follows a script. -/
  | scripted (s : ScriptedSource Callback)

namespace Source

/-- The state of a document. -/
def state : Source → String → FetchState
  | library _ l => l.state
  | scripted s => s.state

/-- Everyone who waits for some document. -/
def allWatchers : Source → List Callback
  | library _ l => l.allWatchers
  | scripted s => s.allWatchers

end Source

/-- Who is told of the matches and the end of a search. -/
inductive Listener where
  /-- Commands to be run, under the name of the search. -/
  | script (name : String) (onMatch : List (List Command)) (onDone : List Command)
  /-- A caller who waits for all matches. They are kept with the latest first. -/
  | collector (found : List Bindings) (result : Option (Except QueryError SearchSummary))
  /-- A receiver who looks for messages now and then. The matches are kept with the latest first. -/
  | channel (pending : List Bindings) (result : DoneMessage)
deriving Inhabited

end TripleQuery
