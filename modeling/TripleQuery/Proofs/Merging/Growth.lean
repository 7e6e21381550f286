import TripleQuery.Proofs.Matching.Answering
import TripleQuery.Proofs.Merging.Following
import TripleQuery.Proofs.Merging.Sameness
/-!
# Growth — terms that are the same stay the same

Two terms are compared by following the redirections of both, element by
element where both are collections: they are the same when the chains meet
(`Orderly.same_iff_meets`). A merge prolongs by one step the chains that end at
the key it redirects, so that chains that met meet again, and those that ended
at the two merged keys meet as well (`same_equate_iff_unites`).

So sameness only grows (`Reachable.same_grows`), also through collections whose
elements are merged later. The key of such a collection can leave the bucket of
a term that it is still the same as (`same_renamedList`).
-/

namespace TripleQuery

namespace Graph

variable {g : Graph} {t u : Term}

/-- Following redirections from two terms ends at one term. -/
def Meets (g : Graph) (t u : Term) : Prop :=
  ∃ n m e, g.redirections.Follows t n e ∧ g.redirections.Follows u m e

/-- Chains meet exactly where terms stand for one term. -/
theorem Orderly.meets_iff (hg : g.Orderly) : g.Meets t u ↔ g.canonical t = g.canonical u := by
  constructor
  · rintro ⟨n, m, e, ht, hu⟩
    obtain ⟨-, rfl⟩ := (Redirections.follows_iff hg.recorded).1 ht
    exact ((Redirections.follows_iff hg.recorded).1 hu).2
  · intro he
    have hu : g.redirections.Follows u (g.redirections.hops u) (g.canonical u) :=
      Redirections.follows_hops hg.recorded u
    rw [← he] at hu
    exact ⟨_, _, _, Redirections.follows_hops hg.recorded t, hu⟩

/-- **Terms are the same when, element by element, their chains meet.** -/
theorem Orderly.same_iff_meets (hg : g.Orderly) :
    g.same t u ↔ Term.Elementwise g.Meets t u := by
  rw [same_iff_elementwise]
  exact Term.elementwise_congr fun _ _ _ => hg.meets_iff.symm

/-- Adding a statement changes nothing about terms. -/
theorem same_add (g : Graph) (s : Statement) (t u : Term) : (g.add s).same t u = g.same t u := by
  rw [same, redirections_add, same]

/-- Adding statements loses none. -/
theorem grows_addAll (g : Graph) (ss : List Statement) : g.Grows (g.addAll ss) := by
  induction ss generalizing g with
  | nil => exact .refl g
  | cons s ss ih => exact (grows_add g s).trans (ih (g.add s))

end Graph

namespace Session

/-- **An edit lets the store grow**, also one that fails. -/
theorem grows_edit (s : Session) (e : StoreEdit) : s.graph.Grows (s.edit e).graph := by
  cases e with
  | add st => exact Graph.grows_add s.graph st
  | extend ss => exact Graph.grows_addAll s.graph ss
  | equate a b =>
    simp only [edit]
    split
    · rename_i he
      exact Graph.grows_equate he
    · exact .refl s.graph

/-- **And so do any edits, one after the other.** -/
theorem grows_edits (s : Session) (edits : List StoreEdit) :
    s.graph.Grows (edits.foldl edit s).graph := by
  induction edits generalizing s with
  | nil => exact .refl s.graph
  | cons e edits ih => exact (s.grows_edit e).trans (ih (s.edit e))

end Session

namespace Graph

variable {g : Graph}

/-- **Sameness is monotone.** In a store that adding and merging lead to, two
terms are the same when, element by element, following redirections from both
ends at one term. Adding a statement leaves this as it is. After a merge those
terms are the same that, element by element, stood for one term or are both
redirected, and all that were the same are among them. So whatever edits of the
store follow, of whatever terms, none of them parts terms that were the same. -/
theorem Reachable.same_grows (hg : g.Reachable) :
    (∀ t u, g.same t u ↔ Term.Elementwise g.Meets t u) ∧
    (∀ s t u, (g.add s).same t u ↔ g.same t u) ∧
    (∀ a b g' keep, g.equate a b = .ok (g', keep) → ∀ t u,
      (g'.same t u ↔ Term.Elementwise (g.Unites a b) t u) ∧ (g.same t u → g'.same t u)) ∧
    ∀ (s : Session) (edits : List StoreEdit), s.graph = g → ∀ t u, g.same t u →
      (edits.foldl Session.edit s).graph.same t u := by
  refine ⟨fun t u => hg.orderly.same_iff_meets, fun s t u => by rw [same_add],
    fun a b g' keep he t u => ⟨same_equate_iff_unites he, (grows_equate he).same⟩, ?_⟩
  rintro s edits rfl t u h
  exact (s.grows_edits edits).same h

/-! ## A collection whose element is merged again -/

/-- The element of a merged collection is merged with another symbol, a variable
cannot be, and a statement about the collection is added. -/
def laterEdits : List StoreEdit :=
  [.equate (.symbol "x") (.symbol "a"), .equate (.var "v") (.symbol "s"),
    .add ⟨.collection [.symbol "x"], .symbol "p", .symbol "o", none⟩]

/-- The store after these edits. -/
def editedList : Graph :=
  (laterEdits.foldl Session.edit { graph := renamedList }).graph

/-- The collection stays the same as the symbol that it was merged with, though
the two are filed under different keys from then on. -/
theorem same_renamedList :
    renamedList.same (.collection [.symbol "x"]) (.symbol "s") ∧
      editedList.same (.collection [.symbol "x"]) (.symbol "s") ∧
      renamedList.key (.collection [.symbol "x"]) = renamedList.key (.symbol "s") ∧
      editedList.key (.collection [.symbol "x"]) ≠ editedList.key (.symbol "s") := by
  have hsame : renamedList.same (.collection [.symbol "x"]) (.symbol "s") := by decide
  have hlater := reachable_renamedList.same_grows.2.2.2
  exact ⟨hsame, hlater _ laterEdits rfl _ _ hsame, by cbv, by decide +kernel⟩

end Graph

end TripleQuery
