import TripleQuery.Graph.Basic
/-!
# Finding statements

Statements are found by the key of one position, or by any combination of positions and provenance.
A combination is answered from the shortest of the buckets of the given positions, the first of them
where several are as short, and from all statements when no position is given.
-/

namespace TripleQuery

/-- The first of the shortest among some lists of candidates. -/
def narrowest : List (Array Statement) → Option (Array Statement)
  | [] => none
  | b :: bs =>
    match narrowest bs with
    | none => some b
    | some n => if n.size < b.size then some n else some b

/-- What the narrowest list holds, one of the lists holds. -/
theorem narrowest_mem {bs : List (Array Statement)} {n : Array Statement}
    (h : narrowest bs = some n) : n ∈ bs := by
  induction bs generalizing n with
  | nil => simp [narrowest] at h
  | cons b bs ih =>
    simp only [narrowest] at h
    split at h
    · simp_all
    · rename_i m hm
      split at h <;> simp_all

theorem narrowest_isSome {b : Array Statement} {bs : List (Array Statement)} :
    (narrowest (b :: bs)).isSome := by
  simp only [narrowest]
  split
  · rfl
  · split <;> rfl

/-- What is asked of a statement: terms at some of its positions, and perhaps its provenance. -/
structure StatementFilter where
  position : ByPosition (Option Term) := .ofFn fun _ => none
  why : Option Term := none
deriving Inhabited

namespace Graph

/-- The statements whose term at a position has the key of the given term. -/
def indexFor (g : Graph) (p : Position) (t : Term) : Array Statement :=
  (g.index.get p).bucket (g.key t)

/-- Whether a statement has the asked term at a position, up to merged terms. -/
def agreesAt (g : Graph) (f : StatementFilter) (s : Statement) (p : Position) : Bool :=
  match f.position.get p with
  | some t => g.same (s.term p) t
  | none => true

/-- Whether a statement has the asked provenance, up to merged terms. -/
def agreesOnWhy (g : Graph) (f : StatementFilter) (s : Statement) : Bool :=
  match f.why with
  | some w => s.why.any (g.same · w)
  | none => true

/-- Whether a statement has all that is asked. -/
def agrees (g : Graph) (f : StatementFilter) (s : Statement) : Bool :=
  Position.all.all (g.agreesAt f s) && g.agreesOnWhy f s

/-- The lists in which the statements with the asked terms are to be found. -/
def buckets (g : Graph) (f : StatementFilter) : List (Array Statement) :=
  Position.all.filterMap fun p => (f.position.get p).map (g.indexFor p)

/-- All statements that have what is asked. -/
def matching (g : Graph) (f : StatementFilter) : Array Statement :=
  ((narrowest (g.buckets f)).getD g.statements).filter (g.agrees f)

/-- The filter that asks for a subject, a predicate and an object. -/
def tripleFilter (s p o : Term) : StatementFilter :=
  ⟨⟨some s, some p, some o⟩, none⟩

/-- Whether the store says that a subject stands in a relation to an object, whoever said so. -/
def holds (g : Graph) (s p o : Term) : Bool :=
  !(g.matching (tripleFilter s p o)).isEmpty

end Graph

end TripleQuery
