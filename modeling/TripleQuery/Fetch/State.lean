/-!
# The state of a document

A document that a search may need is unrequested, requested, fetched, or failed for a reason.
Whoever waits for it is told the outcome once it is resolved.
-/

namespace TripleQuery

/-- How far the fetching of a document has come. -/
inductive FetchState where
  /-- Nobody has asked for it. -/
  | unrequested
  /-- It was asked for and is not here yet. -/
  | requested
  /-- It was loaded. -/
  | fetched
  /-- It could not be loaded. -/
  | failed (reason : String)
deriving DecidableEq, Inhabited

/-- Whether there is no point in waiting any longer. -/
def FetchState.isResolved : FetchState → Bool
  | unrequested | requested => false
  | fetched | failed _ => true

/-- What is told to those who waited for a document. -/
structure FetchOutcome where
  /-- The document. -/
  resource : String
  /-- Why it could not be loaded, if so. -/
  error : Option String
  /-- How many new statements it brought to the store. -/
  added : Nat
deriving DecidableEq, Inhabited

/-- Whether the document was loaded. -/
def FetchOutcome.isOk (o : FetchOutcome) : Bool :=
  o.error.isNone

/-- The state of a document with this outcome. -/
def FetchOutcome.state (o : FetchOutcome) : FetchState :=
  match o.error with
  | none => .fetched
  | some reason => .failed reason

theorem FetchOutcome.isResolved_state (o : FetchOutcome) : o.state.isResolved := by
  unfold state
  split <;> rfl

end TripleQuery
