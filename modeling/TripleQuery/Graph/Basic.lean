import TripleQuery.Graph.Index
/-!
# The store of statements

A graph keeps its statements in the order in which they arrived, one index for each position, and
the redirections between terms that were found to denote the same thing. Every change raises its
generation.
-/

namespace TripleQuery

/-- A store of statements. -/
structure Graph where
  /-- All statements, in order of arrival. -/
  statements : Array Statement := #[]
  /-- The statements by the key of each position. -/
  index : ByPosition Index := .ofFn fun _ => ∅
  /-- What is known to denote the same thing. -/
  redirections : Redirections := []
  /-- The number of changes so far. -/
  generation : Nat := 0

namespace Graph

/-- The store that holds nothing. -/
def empty : Graph := {}

instance : Inhabited Graph := ⟨empty⟩

/-- How many statements the store holds. -/
def size (g : Graph) : Nat :=
  g.statements.size

/-- What a term stands for in this store. -/
def canonical (g : Graph) (t : Term) : Term :=
  g.redirections.canonical t

/-- The key that a term is filed under in this store. -/
def key (g : Graph) (t : Term) : Term :=
  g.redirections.key t

/-- Whether two terms denote the same thing in this store. -/
def same (g : Graph) (a b : Term) : Bool :=
  g.redirections.same a b

/-- Whether exactly this statement, provenance included, is in the store. -/
def contains (g : Graph) (s : Statement) : Bool :=
  g.statements.contains s

/-- Add a statement, unless exactly this one is already there. -/
def add (g : Graph) (s : Statement) : Graph :=
  if g.contains s then g
  else
    { g with
      statements := g.statements.push s
      index := .ofFn fun p => (g.index.get p).file (g.key (s.term p)) s
      generation := g.generation + 1 }

/-- Add statements one after the other. -/
def addAll (g : Graph) (ss : List Statement) : Graph :=
  ss.foldl add g

/-- The store built from statements in the given order. -/
def ofList (ss : List Statement) : Graph :=
  empty.addAll ss

/-- The place of a statement in the order of arrival. -/
def place (g : Graph) (s : Statement) : Nat :=
  g.statements.idxOf s

theorem contains_iff {g : Graph} {s : Statement} : g.contains s ↔ s ∈ g.statements := by
  simp [contains]

/-- **A statement that is already there changes nothing.** -/
theorem add_of_mem {g : Graph} {s : Statement} (h : s ∈ g.statements) : g.add s = g := by
  simp [add, contains, h]

theorem statements_add (g : Graph) (s : Statement) :
    (g.add s).statements = if s ∈ g.statements then g.statements else g.statements.push s := by
  unfold add
  split <;> simp_all [contains]

@[simp] theorem redirections_add (g : Graph) (s : Statement) :
    (g.add s).redirections = g.redirections := by
  unfold add
  split <;> rfl

theorem mem_add {g : Graph} {s t : Statement} :
    t ∈ (g.add s).statements ↔ t ∈ g.statements ∨ t = s := by
  rw [statements_add]
  split
  · exact ⟨.inl, fun h => h.elim id (by rintro rfl; assumption)⟩
  · simp

end Graph

end TripleQuery
