import TripleQuery.Proofs.Matching.Planning
/-!
# Atoms — stores in which collections are data and never merged

Statements may hold collections, nested to any depth, while only atomic terms
are merged (`Graph.AtomReachable`). A collection is then filed under the
collection of the keys of its elements, whichever of them are merged and when:
a lookup finds exactly the statements whose term at the position is the same
as the one that was asked for (`AtomReachable.mem_indexFor`).
-/

namespace TripleQuery

namespace Graph

variable {g g' : Graph} {a b keep k t : Term} {p : Position} {s : Statement}

/-- A store that adding statements and merging terms other than collections
lead to. -/
inductive AtomReachable : Graph → Prop
  /-- Nothing was stored yet. -/
  | empty : AtomReachable .empty
  /-- A statement was added, whatever its terms. -/
  | add {g : Graph} (s : Statement) : AtomReachable g → AtomReachable (g.add s)
  /-- Two terms that are no collections were merged. -/
  | equate {g g' : Graph} {a b keep : Term} :
      AtomReachable g → a.isAtomic → b.isAtomic → g.equate a b = .ok (g', keep) →
        AtomReachable g'

theorem AtomReachable.reachable (h : g.AtomReachable) : g.Reachable := by
  induction h with
  | empty => exact .empty
  | add s _ ih => exact .add s ih
  | equate _ _ _ he ih => exact .equate ih he

theorem AtomReachable.orderly (h : g.AtomReachable) : g.Orderly :=
  h.reachable.orderly

theorem AtomReachable.addAll (h : g.AtomReachable) (ss : List Statement) :
    (g.addAll ss).AtomReachable := by
  induction ss generalizing g with
  | nil => exact h
  | cons s ss ih => exact ih (.add s h)

theorem atomReachable_ofList (ss : List Statement) : (ofList ss).AtomReachable :=
  AtomReachable.addAll .empty ss

/-- **No redirection then starts at a collection or leads to one.** -/
theorem AtomReachable.atomic (h : g.AtomReachable) : g.redirections.Atomic := by
  induction h with
  | empty => exact Redirections.atomic_nil
  | add s _ ih =>
    rw [redirections_add]
    exact ih
  | @equate g g' a b keep _ ha hb he ih =>
    have hka : (g.key a).isAtomic := ih.isAtomic_key ha
    have hkb : (g.key b).isAtomic := ih.isAtomic_key hb
    rcases equate_cases he with ⟨-, rfl, -⟩ | ⟨-, lose, rfl, -, ⟨rfl, rfl⟩ | ⟨rfl, rfl⟩⟩
    · exact ih
    · exact Redirections.atomic_cons.2 ⟨⟨hka, hkb⟩, ih⟩
    · exact Redirections.atomic_cons.2 ⟨⟨hkb, hka⟩, ih⟩

/-- Terms are the same exactly when they are filed under one key. -/
theorem AtomReachable.same_iff (h : g.AtomReachable) : g.same a b ↔ g.key a = g.key b :=
  h.atomic.same_iff_key_eq

/-- **A lookup finds the statements with the same term**, where no collection is
redirected. -/
theorem Reachable.mem_indexFor (hg : g.Reachable) (ha : g.redirections.Atomic) :
    s ∈ g.indexFor p t ↔ s ∈ g.statements ∧ g.same (s.term p) t := by
  have hfiled : ∀ {k}, s ∈ (g.index.get p).bucket k → g.key (s.term p) = k :=
    hg.key_term_of_mem_bucket ha
  have hsame : g.same (s.term p) t ↔ g.key (s.term p) = g.key t := ha.same_iff_key_eq
  rw [hsame]
  constructor
  · intro hs
    exact ⟨hg.orderly.mem_statements_of_mem_indexFor hs, hfiled hs⟩
  · rintro ⟨hs, hkey⟩
    obtain ⟨k, hk⟩ := hg.orderly.existsUnique_bucket hs p
    have hin : s ∈ (g.index.get p).bucket k := (hk k).2 rfl
    rwa [indexFor, ← hkey, hfiled hin]

theorem AtomReachable.mem_indexFor (hg : g.AtomReachable) :
    s ∈ g.indexFor p t ↔ s ∈ g.statements ∧ g.same (s.term p) t :=
  hg.reachable.mem_indexFor hg.atomic

end Graph

end TripleQuery
