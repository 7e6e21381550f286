import TripleQuery.Search.Frame
/-!
# Branches and junctions

A branch is where paths report their matches. Every piece of unfinished work on a branch holds it: a
path that is running or parked, and a junction that waits to report to it. The branch is complete
when nothing holds it any more. The root branch of a search hands its matches to the caller. The
branch of an optional clause keeps them, and when it is complete stands in for an empty result with
one empty binding set.

A junction joins the clauses of one pattern, started from one match of its triples, the trunk. Once
all of them are complete it reports every combination of the trunk with one result of each, the
first clause varying slowest.
-/

namespace TripleQuery

/-- What a branch is for. -/
inductive BranchRole where
  /-- It hands matches to the caller. -/
  | root
  /-- It collects the results of an optional clause for a place of a junction. -/
  | clause (junction : Id) (slot : Nat)
deriving DecidableEq, Inhabited

/-- Where paths report their matches. -/
structure Branch where
  /-- The search it belongs to. -/
  search : Id
  role : BranchRole
  /-- The matches kept so far. The root branch keeps none. -/
  found : List Bindings := []
  /-- How many pieces of unfinished work hold the branch. -/
  holders : Nat := 1
deriving Inhabited

/-- What a clause contributes once it is complete. -/
def Branch.results (b : Branch) : List Bindings :=
  if b.found.isEmpty then [∅] else b.found

/-- Waits for the clauses of one pattern. -/
structure Junction where
  /-- The match of the pattern's own triples. -/
  trunk : Bindings
  /-- The branch that the combinations are reported to. -/
  parent : Id
  /-- The results of the clauses, as far as they are complete. -/
  slots : List (Option (List Bindings))
deriving Inhabited

namespace Junction

/-- All combinations of a trunk with one result of each clause, the first clause varying slowest. -/
def combine (trunk : Bindings) (results : List (List Bindings)) : List Bindings :=
  results.foldl (fun combos rs => combos.flatMap fun c => rs.map (c ∪ ·)) [trunk]

/-- The junction with the results of one more clause. -/
def fill (j : Junction) (slot : Nat) (results : List Bindings) : Junction :=
  { j with slots := j.slots.set slot (some results) }

/-- The combinations to report, once every clause is complete. -/
def combinations? (j : Junction) : Option (List Bindings) :=
  (j.slots.mapM id).map (combine j.trunk)

end Junction

theorem Branch.results_ne_nil (b : Branch) : b.results ≠ [] := by
  unfold results
  split <;> simp_all

namespace Junction

theorem combine_nil (trunk : Bindings) : combine trunk [] = [trunk] := rfl

theorem foldl_combine_flatMap (combos : List Bindings) (results : List (List Bindings)) :
    results.foldl (fun combos rs => combos.flatMap fun c => rs.map (c ∪ ·)) combos =
      combos.flatMap fun c => combine c results := by
  induction results generalizing combos with
  | nil => simp [combine_nil]
  | cons rs results ih =>
    rw [List.foldl_cons, ih]
    simp only [List.flatMap_assoc, combine, List.foldl_cons, List.flatMap_cons, List.flatMap_nil,
      List.append_nil]
    congr 1
    funext c
    exact (ih _).symm

/-- **The first clause varies slowest**: every one of its results is combined with all the others.
-/
theorem combine_cons (trunk : Bindings) (rs : List Bindings) (results : List (List Bindings)) :
    combine trunk (rs :: results) = rs.flatMap fun r => combine (trunk ∪ r) results := by
  rw [combine, List.foldl_cons, foldl_combine_flatMap]
  simp [List.flatMap_map]

/-- **There are as many combinations as the product of the numbers of results.** -/
theorem length_combine (trunk : Bindings) (results : List (List Bindings)) :
    (combine trunk results).length = (results.map List.length).foldr (· * ·) 1 := by
  induction results generalizing trunk with
  | nil => simp [combine_nil]
  | cons rs results ih =>
    simp [combine_cons, List.length_flatMap, ih, List.map_const']

end Junction

end TripleQuery
