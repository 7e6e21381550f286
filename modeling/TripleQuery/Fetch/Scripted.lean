import TripleQuery.Fetch.State
import Std.Data.ExtTreeMap
/-!
# A source of documents that follows a script

A scripted source loads nothing. It answers for the state of a document what it was last told, keeps
a log of the requests, and treats those who want to watch in one of three ways: it holds them until
it is told to call one, calls each at once, or drops each. Watchers are of any type `κ`.
-/

namespace TripleQuery

/-- What a scripted source does with a watcher. -/
inductive WatchMode where
  /-- Keep it until told otherwise. -/
  | hold
  /-- Call it at once. -/
  | fire
  /-- Forget it. -/
  | drop
deriving DecidableEq, Inhabited

/-- A source of documents that does as it is told. -/
structure ScriptedSource (κ : Type) where
  mode : WatchMode
  /-- What it was told about documents, by their exact names. -/
  states : Std.ExtTreeMap String FetchState := ∅
  /-- All requests, in order. -/
  log : List String := []
  /-- The watchers it holds and what they wait for, the earliest first. -/
  held : List (String × κ) := []

namespace ScriptedSource

variable {κ : Type}

/-- The state of a document as it was last told. -/
def state (s : ScriptedSource κ) (resource : String) : FetchState :=
  s.states[resource]?.getD .unrequested

/-- Tell the state of a document. -/
def setState (s : ScriptedSource κ) (resource : String) (st : FetchState) : ScriptedSource κ :=
  { s with states := s.states.insert resource st }

/-- Log a request and do nothing else. -/
def request (s : ScriptedSource κ) (resource : String) : ScriptedSource κ :=
  { s with log := s.log ++ [resource] }

/-- Keep a watcher. -/
def keep (s : ScriptedSource κ) (resource : String) (w : κ) : ScriptedSource κ :=
  { s with held := s.held ++ [(resource, w)] }

/-- Take out a watcher that is held, and what it waits for. -/
def take (s : ScriptedSource κ) (i : Nat) : Option (ScriptedSource κ × String × κ) :=
  s.held[i]?.map fun p => ({ s with held := s.held.eraseIdx i }, p)

/-- Everyone who is held. -/
def allWatchers (s : ScriptedSource κ) : List κ :=
  s.held.map (·.2)

end ScriptedSource

end TripleQuery
