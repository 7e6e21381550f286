import TripleQuery.Search.Branch
/-!
# The state of a search

What all paths of one search share: its settings, whether it was stopped and why, how many matches
it has found, and the documents it has asked for. Matches wait in a queue until the caller has taken
the ones before, because a caller who is told of a match may cause further ones.
-/

namespace TripleQuery

/-- The shared state of one search. -/
structure Search where
  config : SearchConfig
  /-- Whether the search was started with a source of documents. -/
  linked : Bool
  /-- No path goes on, and no match is taken any more. -/
  stopped : Bool := false
  /-- The caller stopped the search. -/
  cancelled : Bool := false
  /-- The limit on matches stopped the search. -/
  truncated : Bool := false
  /-- The caller was told that the search is done. -/
  finished : Bool := false
  /-- The first error that a path met. -/
  error : Option QueryError := none
  /-- How many matches were taken. -/
  matchCount : Nat := 0
  /-- How many documents were asked for. -/
  fetches : Nat := 0
  /-- The documents that were asked for. -/
  requested : List String := []
  /-- The matches that the caller is still to be told. -/
  queue : List Bindings := []
  /-- Whether the caller is being told of matches at this moment. -/
  delivering : Bool := false
deriving Inhabited

namespace Search

/-- Whether the limit on matches is reached. -/
def isFull (s : Search) : Bool :=
  s.config.maxMatches.any (· ≤ s.matchCount)

/-- Count a match and queue it for the caller. The match that reaches the limit is taken, and stops
the search. -/
def take (s : Search) (m : Bindings) : Search :=
  let s := { s with matchCount := s.matchCount + 1, queue := s.queue ++ [m] }
  if s.isFull then { s with truncated := true, stopped := true } else s

/-- Stop the search without saying who did. -/
def stop (s : Search) : Search :=
  { s with stopped := true }

/-- Stop the search on behalf of the caller. -/
def cancel (s : Search) : Search :=
  { s with stopped := true, cancelled := true }

/-- Record an error, unless there was one before, and stop. -/
def fail (s : Search) (e : QueryError) : Search :=
  { s with stopped := true, error := some (s.error.getD e) }

/-- Record that the search has asked for a document. -/
def noteRequest (s : Search) (document : String) : Search :=
  { s with fetches := s.fetches + 1, requested := document :: s.requested }

/-- What the caller is told in the end: the error, if there was one, and otherwise a summary. -/
def result (s : Search) : Except QueryError SearchSummary :=
  match s.error with
  | some e => .error e
  | none => .ok ⟨s.matchCount, s.fetches, s.truncated, s.cancelled⟩

end Search

end TripleQuery
