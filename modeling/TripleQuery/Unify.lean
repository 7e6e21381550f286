import TripleQuery.Graph.Basic
import TripleQuery.Bindings
import TripleQuery.QueryError
/-!
# Unification

A term of a pattern is unified with a term of the data under a binding set: the answer lists the
extensions of the set under which the two are the same. What is bound already must agree and is
never bound anew; an unbound variable or blank node takes the datum as its value; two collections of
one length unify element by element; a collection against anything else is a malformed pattern; all
other terms must be the same up to merged terms. Blank nodes of the data are plain values.
-/

namespace TripleQuery

namespace Graph

/-- The binding set if a condition holds, and nothing otherwise. -/
def keepIf (b : Bindings) (holds : Bool) : List Bindings :=
  if holds then [b] else []

mutual

/-- Unify a term of the pattern with a term of the data. -/
def unifyTerm (g : Graph) (b : Bindings) : Term → Term → Except QueryError (List Bindings)
  | .var name, datum =>
    match b[Term.var name]? with
    | some value => .ok (keepIf b (g.same value datum))
    | none => .ok [b.bind (.var name) datum]
  | .blank id, datum =>
    match b[Term.blank id]? with
    | some value => .ok (keepIf b (g.same value datum))
    | none => .ok [b.bind (.blank id) datum]
  | .symbol iri, datum => .ok (keepIf b (g.same (b.resolve (.symbol iri)) datum))
  | .literal l, datum => .ok (keepIf b (g.same (b.resolve (.literal l)) datum))
  | .collection xs, datum =>
    match b[Term.collection xs]? with
    | some value => .ok (keepIf b (g.same value datum))
    | none =>
      match datum with
      | .collection ys => if xs.length = ys.length then unifyAll g b xs ys else .ok []
      | other => .error (.shapeMismatch (.collection xs) other)

/-- Unify two lists term by term. Each way to unify the first terms is extended to the others. -/
def unifyAll (g : Graph) (b : Bindings) : List Term → List Term → Except QueryError (List Bindings)
  | x :: xs, y :: ys =>
    match unifyTerm g b x y with
    | .error e => .error e
    | .ok heads => (heads.mapM fun extended => unifyAll g extended xs ys).map List.flatten
  | _, _ => .ok [b]

end

/-- Unify two lists of terms. Lists of different lengths do not unify. -/
def unifyContents (g : Graph) (b : Bindings) (xs ys : List Term) :
    Except QueryError (List Bindings) :=
  if xs.length = ys.length then g.unifyAll b xs ys else .ok []

/-- Unify a triple of the pattern with a statement, whatever their provenance. -/
def unifyStatement (g : Graph) (b : Bindings) (triple s : Statement) :
    Except QueryError (List Bindings) :=
  g.unifyAll b triple.terms s.terms

end Graph

end TripleQuery
