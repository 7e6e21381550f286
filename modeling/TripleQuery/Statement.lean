import TripleQuery.Term.Variables
import TripleQuery.Term.Display
/-!
# Statements

A statement says that a subject and an object stand in the relation of a predicate. It may carry the
document it was read from. The same shape with variables in it is a triple of a pattern.
-/

namespace TripleQuery

/-- The three positions that statements are found by. -/
inductive Position where
  | subject
  | predicate
  | object
deriving DecidableEq, Inhabited

/-- One value for each position. -/
structure ByPosition (α : Type) where
  subject : α
  predicate : α
  object : α
deriving Inhabited

namespace ByPosition

variable {α β : Type}

/-- The value for one position. -/
def get (f : ByPosition α) : Position → α
  | .subject => f.subject
  | .predicate => f.predicate
  | .object => f.object

/-- A value for each position from a function. -/
def ofFn (f : Position → α) : ByPosition α :=
  ⟨f .subject, f .predicate, f .object⟩

@[simp] theorem get_ofFn (f : Position → α) (p : Position) : (ofFn f).get p = f p := by
  cases p <;> rfl

end ByPosition

/-- The positions in the order in which they are examined. -/
def Position.all : List Position :=
  [.subject, .predicate, .object]

theorem Position.mem_all (p : Position) : p ∈ Position.all := by
  cases p <;> simp [Position.all]

/-- A subject, a predicate and an object, and the document they were read from, if it is known. Two
statements from different documents are different statements. -/
structure Statement where
  subject : Term
  predicate : Term
  object : Term
  /-- Where the statement comes from. -/
  why : Option Term := none
deriving DecidableEq, Inhabited

namespace Statement

/-- The term at a position. -/
def term (s : Statement) : Position → Term
  | .subject => s.subject
  | .predicate => s.predicate
  | .object => s.object

/-- The three terms, provenance left out. -/
def terms (s : Statement) : List Term :=
  [s.subject, s.predicate, s.object]

/-- The same statement, read from another document. -/
def withWhy (s : Statement) (document : Term) : Statement :=
  { s with why := some document }

@[simp] theorem term_withWhy (s : Statement) (d : Term) (p : Position) :
    (s.withWhy d).term p = s.term p := by
  cases p <;> rfl

theorem terms_eq_map_term (s : Statement) : s.terms = Position.all.map s.term := rfl

/-- The variables and blank nodes of the three terms. -/
def variableList (s : Statement) : List Term :=
  Term.variableLists s.terms

/-- Statements are ordered by subject, then predicate, then object, then provenance, where an absent
one comes first. -/
protected def compare (a b : Statement) : Ordering :=
  (compare a.subject b.subject).then ((compare a.predicate b.predicate).then
    ((compare a.object b.object).then (compare a.why b.why)))

/-- Whether `a` comes no later than `b`. -/
def le (a b : Statement) : Bool :=
  (Statement.compare a b).isLE

/-- A statement as text, without its provenance. -/
def display (s : Statement) : String :=
  s.subject.display ++ " " ++ s.predicate.display ++ " " ++ s.object.display ++ " ."

end Statement

end TripleQuery
