import TripleQuery.Search.Config
import TripleQuery.Fetch.State
import TripleQuery.Pattern
import TripleQuery.Plan
import TripleQuery.Unify
/-!
# Paths of a search

A search explores paths. A path is at some pattern of the tree, its scope, with the triples that
remain to be matched, the bindings found so far and the documents it has waited for. A path may have
to wait for the document that a bound term points into (`Frame.nextFetch`); otherwise its easiest
triple is matched with every candidate, and each match that keeps the constraints goes on as a path
of its own (`Frame.expand`).
-/

namespace TripleQuery

/-- A pattern with the constraints in force: those of the enclosing patterns, overlaid with its own.
-/
structure Scope where
  pattern : Pattern
  constraints : Constraints
deriving Inhabited

namespace Scope

/-- The scope of a pattern inside enclosing constraints. -/
def inside (outer : Constraints) (p : Pattern) : Scope :=
  ⟨p, outer ∪ p.constraints⟩

/-- The scope of a whole pattern. -/
def ofPattern (p : Pattern) : Scope :=
  inside ∅ p

/-- The scopes of the optional clauses. -/
def clauses (s : Scope) : List Scope :=
  s.pattern.optionals.map (inside s.constraints)

/-- The bindings that a clause starts from when its trunk has matched: its own fixed values,
overlaid with those of the trunk. -/
def startFrom (s : Scope) (trunk : Bindings) : Bindings :=
  s.pattern.initial ∪ trunk

end Scope

/-- Numbers that name searches, branches, junctions and parked paths. -/
abbrev Id := Nat

/-- One path of a search. -/
structure Frame where
  /-- The search it belongs to. -/
  search : Id
  /-- The branch it reports to. -/
  branch : Id
  /-- The pattern it is matching. -/
  scope : Scope
  /-- The triples that remain to be matched. -/
  remaining : List Statement
  /-- The bindings found so far. -/
  bindings : Bindings
  /-- The documents that were waited for on this path. -/
  awaited : List String
deriving Inhabited

namespace Frame

/-- A path that enters a scope, with all its triples still to be matched. -/
def enter (search branch : Id) (scope : Scope) (b : Bindings) (awaited : List String) : Frame :=
  ⟨search, branch, scope, scope.pattern.triples, b, awaited⟩

/-- Whether the bindings keep the constraints in force. -/
def isAllowed (f : Frame) (b : Bindings) : Bool :=
  f.scope.constraints.satisfiedBy b

/-- The terms of a triple whose values may point into documents worth fetching. -/
def linkTerms (config : SearchConfig) (triple : Statement) : List Term :=
  if config.fetchPredicates then [triple.subject, triple.object, triple.predicate]
  else [triple.subject, triple.object]

/-- The documents that bound terms of the remaining triples point into, in the order of the triples.
-/
def links (config : SearchConfig) (f : Frame) : List String :=
  (f.remaining.flatMap (linkTerms config)).filterMap fun t => f.bindings[t]?.bind Term.document?

/-- Whether a document in this state is to be waited for: nobody has asked for it yet, or this very
search has and it is not here. A document that another search is loading is not waited for. -/
def isWorthWaiting (requested : List String) (document : String) : FetchState → Bool
  | .unrequested => true
  | .requested => requested.contains document
  | .fetched | .failed _ => false

/-- The first document that the path has to wait for, given the state of documents and those that
the search has asked for. No document is waited for twice. -/
def nextFetch (config : SearchConfig) (state : String → FetchState) (requested : List String)
    (f : Frame) : Option String :=
  if config.followLinks then
    (f.links config).find? fun d => !f.awaited.contains d && isWorthWaiting requested d (state d)
  else none

/-- The path that has waited for one more document. -/
def awaiting (f : Frame) (document : String) : Frame :=
  { f with awaited := document :: f.awaited }

/-- The path that goes on with other bindings once a triple has matched. -/
def advance (f : Frame) (selected : Nat) (b : Bindings) : Frame :=
  { f with remaining := f.remaining.eraseIdx selected, bindings := b }

/-- All ways to unify a triple with some candidates, in their order. -/
def alternatives (g : Graph) (b : Bindings) (triple : Statement) (candidates : List Statement) :
    Except QueryError (List Bindings) :=
  (candidates.mapM (g.unifyStatement b triple)).map List.flatten

/-- Match the easiest remaining triple: the paths that go on from here. There are none when the
easiest triple has no candidates. -/
def expand (g : Graph) (f : Frame) : Except QueryError (List Frame) :=
  match g.plan f.bindings f.remaining with
  | none => .ok []
  | some p =>
    match f.remaining[p.selected]? with
    | none => .ok []
    | some triple =>
      (alternatives g f.bindings triple p.estimate.candidates.toList).map fun bs =>
        (bs.filter f.isAllowed).map (f.advance p.selected)

/-- The values of bound terms that a path may wait for are documents of symbols. -/
theorem mem_links {config : SearchConfig} {f : Frame} {d : String} :
    d ∈ f.links config ↔ ∃ triple ∈ f.remaining, ∃ t ∈ linkTerms config triple, ∃ value : Term,
      f.bindings[t]? = some value ∧ value.document? = some d := by
  simp only [links, List.mem_filterMap, List.mem_flatMap, Option.bind_eq_some_iff]
  constructor
  · rintro ⟨t, ⟨triple, ht, hm⟩, value, hv, hd⟩
    exact ⟨triple, ht, t, hm, value, hv, hd⟩
  · rintro ⟨triple, ht, t, hm, value, hv, hd⟩
    exact ⟨t, ⟨triple, ht, hm⟩, value, hv, hd⟩

/-- **What a path waits for, it has not waited for before.** -/
theorem not_mem_awaited_of_nextFetch {config : SearchConfig} {state : String → FetchState}
    {requested : List String} {f : Frame} {d : String}
    (h : f.nextFetch config state requested = some d) : d ∉ f.awaited := by
  unfold nextFetch at h
  split at h
  · have hp := List.find?_some h
    simp only [Bool.and_eq_true, Bool.not_eq_true', List.contains_eq_mem, decide_eq_false_iff_not]
      at hp
    exact hp.1
  · simp at h

end Frame

end TripleQuery
