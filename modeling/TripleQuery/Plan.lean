import TripleQuery.Graph.Lookup
import TripleQuery.Bindings
/-!
# Choosing the next triple

Before each step of a search, every remaining triple is estimated against the present bindings and
the present store, and the easiest one is matched next: the one with the fewest positions that still
hold an unbound variable, then the one with the fewest candidates, then the first in the pattern. A
triple whose bound positions have no statements yet only ends the path once it is the easiest.
-/

namespace TripleQuery

/-- How hard a triple is to match, and where to look for it. -/
structure Estimate where
  /-- How many positions still hold an unbound variable. -/
  free : Nat
  /-- The shortest of the lists that hold all statements the triple can match. -/
  candidates : Array Statement

/-- Fewer free positions are easier, then fewer candidates. -/
def Estimate.compare (a b : Estimate) : Ordering :=
  (Ord.compare a.free b.free).then (Ord.compare a.candidates.size b.candidates.size)

/-- Which triple to match next, and where to look for it. -/
structure Plan where
  /-- The place of the triple among the remaining ones. -/
  selected : Nat
  /-- How hard it is. -/
  estimate : Estimate

namespace Graph

/-- The positions of a triple that hold no unbound variable. -/
def boundPositions (b : Bindings) (triple : Statement) : List Position :=
  Position.all.filter fun p => !b.hasUnbound (triple.term p)

/-- Estimate one triple under a binding set. -/
def prepare (g : Graph) (b : Bindings) (triple : Statement) : Estimate :=
  let bound := boundPositions b triple
  { free := Position.all.length - bound.length
    candidates :=
      (narrowest (bound.map fun p => g.indexFor p (b.substitute (triple.term p)))).getD
        g.statements }

/-- The first of the easiest of some estimates, with its place. The estimates are numbered from `i`.
-/
def easiest : Nat → List Estimate → Option Plan
  | _, [] => none
  | i, e :: es =>
    match easiest (i + 1) es with
    | none => some ⟨i, e⟩
    | some p => if p.estimate.compare e = .lt then some p else some ⟨i, e⟩

theorem easiest_cons (i : Nat) (e : Estimate) (es : List Estimate) :
    easiest i (e :: es) =
      match easiest (i + 1) es with
      | none => some ⟨i, e⟩
      | some p => if p.estimate.compare e = .lt then some p else some ⟨i, e⟩ := by
  rw [easiest]

/-- Choose the easiest of the remaining triples. There is no choice when nothing remains, or when
the easiest triple has no candidates. -/
def plan (g : Graph) (b : Bindings) (remaining : List Statement) : Option Plan :=
  match easiest 0 (remaining.map (g.prepare b)) with
  | none => none
  | some p => if p.estimate.candidates.isEmpty then none else some p

end Graph

end TripleQuery
