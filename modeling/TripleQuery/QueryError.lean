import TripleQuery.Term.Order
import TripleQuery.Term.Display
/-!
# Query errors

What a search can report to its caller. Failing to match is no error: an empty index, terms that do
not unify and values that fail a constraint end a path in silence. Errors are patterns that make no
sense, and the answer of a caller who would not wait.
-/

namespace TripleQuery

/-- Why a query has no answer. -/
inductive QueryError where
  /-- A collection of the pattern met a datum that is none. -/
  | shapeMismatch (collection other : Term)
  /-- A constraint on a variable that occurs nowhere. -/
  | unboundConstraint (v : Term)
  /-- A constraint on something that is no variable. -/
  | constraintOnConstant (t : Term)
  /-- Two optional clauses that could give different values to one variable. -/
  | overlappingOptionals (v : Term) (first second : Nat)
  /-- The search has to wait for a document. -/
  | suspended (found : Nat)
deriving DecidableEq, Inhabited

/-- The wording of the error. -/
def QueryError.message : QueryError → String
  | .shapeMismatch collection other =>
    "cannot unify collection " ++ collection.display ++ " with non-collection " ++ other.display
  | .unboundConstraint v => "constraint on " ++ v.display ++ ", which never occurs in the pattern"
  | .constraintOnConstant t => "constraint key " ++ t.display ++ " is not a variable"
  | .overlappingOptionals v first second =>
    "optional clauses #" ++ toString first ++ " and #" ++ toString second ++ " both bind " ++
      v.display
  | .suspended found =>
    "search suspended on a resource fetch after " ++ toString found ++ " match(es)"

end TripleQuery
