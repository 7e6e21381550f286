import TripleQuery.Statement
import TripleQuery.Constraint
import TripleQuery.QueryError
/-!
# Patterns

A pattern is a list of triples that may hold variables, with optional clauses that are tried once
the triples have matched, constraints on values, and values that are fixed from the start. A pattern
makes sense (`Pattern.validate`) when every constraint is on a variable that occurs in the pattern
or in one that encloses it, and no two optional clauses of one pattern can bind the same variable,
unless the pattern itself has bound it before.
-/

namespace TripleQuery

/-- What to search for. -/
structure Pattern where
  /-- The triples that must all match. -/
  triples : List Statement := []
  /-- The clauses that may match in addition. -/
  optionals : List Pattern := []
  /-- Tests on values, in force here and in the clauses. -/
  constraints : Constraints := ∅
  /-- Values that are fixed before the search starts. -/
  initial : Bindings := ∅
deriving Inhabited

namespace Pattern

/-- The variables and blank nodes of the triples, clauses left out. -/
def variableList (p : Pattern) : List Term :=
  p.triples.flatMap Statement.variableList

/-- The set of variables and blank nodes of the triples, clauses left out. -/
def variableSet (p : Pattern) : TermSet :=
  .ofList p.variableList

/-- The variables of the triples and the keys of the fixed values: what is bound when the triples
have matched. -/
def ownVariables (p : Pattern) : List Term :=
  p.variableList ++ p.initial.keys

mutual

/-- All variables of a pattern and its clauses, keys of fixed values included. -/
def allVariableList : Pattern → List Term
  | ⟨triples, optionals, constraints, initial⟩ =>
    ownVariables ⟨triples, [], constraints, initial⟩ ++ allVariableLists optionals

/-- All variables of some patterns and their clauses. -/
def allVariableLists : List Pattern → List Term
  | [] => []
  | p :: ps => allVariableList p ++ allVariableLists ps

end

/-- The set of all variables of a pattern and its clauses, keys of fixed values included. -/
def allVariableSet (p : Pattern) : TermSet :=
  .ofList p.allVariableList

/-! ## Patterns that make sense -/

/-- What is wrong with the constraint on `v`, given all variables it could mean. -/
def constraintFault? (known : TermSet) (v : Term) : Option QueryError :=
  if !v.isVariable then some (.constraintOnConstant v)
  else if !known.contains v then some (.unboundConstraint v)
  else none

/-- The first of the later clauses that shares a variable with a set, and the least variable they
share. The clauses are numbered from `j`. -/
def sharedWith (a : TermSet) : Nat → List TermSet → Option (Term × Nat)
  | _, [] => none
  | j, b :: bs =>
    match a.toList.find? b.contains with
    | some v => some (v, j)
    | none => sharedWith a (j + 1) bs

/-- The first pair of clauses that share a variable. The clauses are numbered from `i`. -/
def firstOverlap : Nat → List TermSet → Option QueryError
  | _, [] => none
  | i, a :: rest =>
    match sharedWith a (i + 1) rest with
    | some (v, j) => some (.overlappingOptionals v i j)
    | none => firstOverlap (i + 1) rest

/-- The variables that a clause can bind beyond those of its trunk. -/
def newVariables (trunk : TermSet) (p : Pattern) : TermSet :=
  .ofList (p.allVariableList.filter fun v => !trunk.contains v)

/-- The variables that are bound once the triples of a pattern inside a trunk have matched. -/
def trunk (outer : TermSet) (p : Pattern) : TermSet :=
  outer ∪ .ofList p.ownVariables

/-- What is wrong with one pattern, its clauses not looked into. -/
def fault? (outer : TermSet) (p : Pattern) : Option QueryError :=
  let trunk := p.trunk outer
  let known := trunk ∪ p.allVariableSet
  match p.constraints.keys.findSome? (constraintFault? known) with
  | some e => some e
  | none => firstOverlap 0 (p.optionals.map (newVariables trunk))

mutual

/-- Check a pattern inside an enclosing one that binds the variables of `outer`, then its clauses.
-/
def validateIn (outer : TermSet) : Pattern → Except QueryError Unit
  | ⟨triples, optionals, constraints, initial⟩ =>
    match fault? outer ⟨triples, optionals, constraints, initial⟩ with
    | some e => .error e
    | none => validateAll (trunk outer ⟨triples, optionals, constraints, initial⟩) optionals

/-- Check several clauses of one pattern. -/
def validateAll (trunk : TermSet) : List Pattern → Except QueryError Unit
  | [] => .ok ()
  | p :: ps =>
    match validateIn trunk p with
    | .error e => .error e
    | .ok () => validateAll trunk ps

end

/-- Reject a pattern that makes no sense. -/
def validate (p : Pattern) : Except QueryError Unit :=
  p.validateIn ∅

end Pattern

end TripleQuery
