/-!
# Search configuration

How a search behaves. Every setting has a default.
-/

namespace TripleQuery

/-- The settings of a search. -/
structure SearchConfig where
  /-- Ask for the documents that bound terms point into, and wait for them. -/
  followLinks : Bool := true
  /-- Do so for terms in predicate position too. -/
  fetchPredicates : Bool := false
  /-- Stop after this many matches. -/
  maxMatches : Option Nat := none
deriving DecidableEq, Inhabited

/-- What is reported of a search that has come to its end without an error. -/
structure SearchSummary where
  /-- How many matches were delivered. -/
  matchCount : Nat
  /-- How many documents were asked for. -/
  fetches : Nat
  /-- Whether the limit on matches stopped it. -/
  truncated : Bool
  /-- Whether the caller stopped it. -/
  cancelled : Bool
deriving DecidableEq, Inhabited

end TripleQuery
