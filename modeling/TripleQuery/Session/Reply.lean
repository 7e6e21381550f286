import TripleQuery.Graph.Merge
import TripleQuery.Search.Config
import TripleQuery.Fetch.State
import TripleQuery.Plan
import TripleQuery.Unify
/-!
# Replies and events

What a command of a session is answered with, and what a session reports on its own account: matches
and ends of searches, documents that became available, and the replies to commands that were run
inside a callback. Questions about the store are answered by `Inspection.answer`.
-/

namespace TripleQuery

/-- Whether the end of a search has reached the receiver of its messages. -/
inductive DoneMessage where
  /-- The search is not done. -/
  | waiting
  /-- The message is there. -/
  | arrived (result : Except QueryError SearchSummary)
  /-- The message was taken. -/
  | taken
deriving Inhabited

/-- The answer to a command. -/
inductive Reply where
  /-- There is nothing to say. -/
  | done
  | added (isNew : Bool) (size generation : Nat)
  | extended (size generation : Nat)
  | merged (keep : Term) (generation redirections : Nat)
  | notMerged (e : MergeError)
  | stats (size generation redirections : Nat)
  | statements (ss : List Statement)
  | term (t : Term)
  | same (verdict : Bool)
  | holds (verdict : Bool)
  /-- Statements of the store, by their places in the order of arrival. -/
  | places (ps : List Nat)
  | estimate (free : Nat) (candidates : List Nat)
  | comparison (c : Ordering)
  | plan (choice : Option (Nat × Nat × List Nat))
  | results (found : List Bindings)
  | failed (e : QueryError)
  | library (pending : Nat) (requests : List String) (size : Nat)
  | delivered (o : Option FetchOutcome)
  | deliveredAll (n : Nat)
  | state (st : FetchState)
  | held (watched requests : List String)
  | fired (document : String)
  | discarded (document : String)
  | configured (config : SearchConfig) (size : Nat)
  | handle (finished stopped : Bool) (matchCount : Nat)
  | received (found : List Bindings) (result : DoneMessage)
  | dropped (wasThere : Bool)
  /-- The session has no source of documents of the kind that is needed. -/
  | noSource
  | notHeld
  | noEngine
  | noSearch
  /-- A regular expression of the pattern cannot be read. -/
  | unreadable
deriving Inhabited

/-- What a session reports on its own account. -/
inductive Event where
  /-- A search found a match. -/
  | found (search : String) (m : Bindings)
  /-- A search is done. -/
  | done (search : String) (result : Except QueryError SearchSummary)
  /-- A document that was watched for is there. -/
  | available (tag : String) (o : FetchOutcome)
  /-- A command inside a callback was answered. -/
  | acted (r : Reply)
deriving Inhabited

/-! ## Questions about the store -/

/-- A question about the store that changes nothing. -/
inductive Inspection where
  | stats
  | statements
  | canonical (t : Term)
  | key (t : Term)
  | same (a b : Term)
  | indexFor (p : Position) (t : Term)
  | matching (f : StatementFilter)
  | holds (s p o : Term)
  | prepare (triple : Statement) (b : Bindings)
  | easiest (x y : Statement) (b : Bindings)
  | plan (triples : List Statement) (b : Bindings)
  | unifyTerm (this other : Term) (b : Bindings)
  | unifyContents (these others : List Term) (b : Bindings)
  | unifyStatement (triple s : Statement) (b : Bindings)
deriving Inhabited

/-- The places of statements in the order of arrival. -/
def Graph.places (g : Graph) (ss : Array Statement) : List Nat :=
  ss.toList.map g.place

/-- The reply for the result of a unification. -/
def Reply.ofUnification : Except QueryError (List Bindings) → Reply
  | .ok found => .results found
  | .error e => .failed e

/-- The answer to a question about the store. -/
def Inspection.answer (g : Graph) : Inspection → Reply
  | stats => .stats g.size g.generation g.redirections.length
  | statements => .statements g.statements.toList
  | canonical t => .term (g.canonical t)
  | key t => .term (g.key t)
  | same a b => .same (g.same a b)
  | indexFor p t => .places (g.places (g.indexFor p t))
  | matching f => .places (g.places (g.matching f))
  | holds s p o => .holds (g.holds s p o)
  | prepare triple b =>
    let e := g.prepare b triple
    .estimate e.free (g.places e.candidates)
  | easiest x y b => .comparison ((g.prepare b x).compare (g.prepare b y))
  | plan triples b =>
    .plan ((g.plan b triples).map fun p =>
      (p.selected, p.estimate.free, g.places p.estimate.candidates))
  | unifyTerm this other b => .ofUnification (g.unifyTerm b this other)
  | unifyContents these others b => .ofUnification (g.unifyContents b these others)
  | unifyStatement triple s b => .ofUnification (g.unifyStatement b triple s)

end TripleQuery
