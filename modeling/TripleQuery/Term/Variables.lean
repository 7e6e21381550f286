import TripleQuery.Term.Order
import Std.Data.ExtTreeSet
/-!
# The variables of a term

The variables and blank nodes that occur in a term, at any depth of its collections, as an ordered
set.
-/

namespace TripleQuery

/-- A finite set of terms, listed in the order of terms. -/
abbrev TermSet := Std.ExtTreeSet Term

namespace Term

mutual

/-- The variables and blank nodes that occur in a term, in the order in which they are met. -/
def variableList : Term → List Term
  | var name => [var name]
  | blank id => [blank id]
  | symbol _ | literal _ => []
  | collection items => variableLists items

/-- The variables and blank nodes that occur in a list of terms. -/
def variableLists : List Term → List Term
  | [] => []
  | t :: ts => variableList t ++ variableLists ts

end

/-- The set of variables and blank nodes of a term. -/
def variableSet (t : Term) : TermSet :=
  .ofList t.variableList

mutual

/-- What occurs as a variable is a variable or a blank node. -/
theorem isVariable_of_mem_variableList {v : Term} : ∀ t : Term, v ∈ t.variableList → v.isVariable
  | var _ | blank _ => by simp +contextual [variableList, isVariable]
  | symbol _ | literal _ => by simp [variableList]
  | collection items => by
    simpa [variableList] using isVariable_of_mem_variableLists items

/-- And the same in a list of terms. -/
theorem isVariable_of_mem_variableLists {v : Term} :
    ∀ ts : List Term, v ∈ variableLists ts → v.isVariable
  | [] => by simp [variableLists]
  | t :: ts => by
    simp only [variableLists, List.mem_append]
    exact fun h => h.elim (isVariable_of_mem_variableList t) (isVariable_of_mem_variableLists ts)

end

theorem mem_variableSet {t v : Term} : v ∈ t.variableSet ↔ v ∈ t.variableList := by
  simp [variableSet, Std.ExtTreeSet.mem_ofList]

end Term

end TripleQuery
