import TripleQuery.Fetch.Library
import TripleQuery.Proofs.Matching.Answering
import TripleQuery.Proofs.Matching.Drawing
/-!
# Mentioning — the documents of symbols

A term mentions the documents of the symbols in it (`Term.documents`), and so do
statements, stores, the values of binding sets, and the fixed values of patterns.
A store mentions what was added to it, and what it mentioned before
(`Graph.mem_documents_addAll`); a binding set that draws values from somewhere
mentions nothing else than what it did, and what is mentioned there
(`Bindings.Draws.documents_subset`).
-/

namespace TripleQuery

mutual

/-- The documents of the symbols in a term. -/
def Term.documents : Term → List String
  | .symbol iri => [documentPart iri]
  | .collection items => Term.documentsOfList items
  | .var _ | .blank _ | .literal _ => []

/-- The documents of the symbols in some terms. -/
def Term.documentsOfList : List Term → List String
  | [] => []
  | t :: ts => t.documents ++ documentsOfList ts

end

/-- The documents that a statement mentions. Where it was read is no matter. -/
def Statement.documents (s : Statement) : List String :=
  s.terms.flatMap Term.documents

/-- The documents that a store mentions. -/
def Graph.documents (g : Graph) : List String :=
  g.statements.toList.flatMap Statement.documents

/-- The documents that the values of a binding set mention. -/
def Bindings.documents (b : Bindings) : List String :=
  b.toList.flatMap (·.2.documents)

mutual

/-- The documents that the fixed values of a pattern mention, and those of its
clauses. -/
def Pattern.documents : Pattern → List String
  | ⟨_, optionals, _, initial⟩ => initial.documents ++ documentsOfClauses optionals

/-- The documents that the fixed values of some patterns mention. -/
def Pattern.documentsOfClauses : List Pattern → List String
  | [] => []
  | p :: ps => p.documents ++ documentsOfClauses ps

end

variable {g g' : Graph} {d : String} {t t' keep : Term} {s : Statement} {ss : List Statement}
  {b b' : Bindings} {p clause : Pattern} {D : List String}

namespace Term

theorem mem_documentsOfList {ts : List Term} :
    d ∈ documentsOfList ts ↔ ∃ t ∈ ts, d ∈ t.documents := by
  induction ts with
  | nil => simp [documentsOfList]
  | cons t ts ih => simp [documentsOfList, ih]

/-- What a member of a collection mentions the collection mentions. -/
theorem hereditary_documents (D : List String) : Hereditary (·.documents ⊆ D) := by
  intro ts hts t ht d hd
  refine hts ?_
  rw [documents, mem_documentsOfList]
  exact ⟨t, ht, hd⟩

end Term

theorem Statement.documents_subset_of_mem (h : t ∈ s.terms) : t.documents ⊆ s.documents :=
  fun _ hd => List.mem_flatMap.2 ⟨t, h, hd⟩

theorem Graph.documents_subset_of_mem (h : s ∈ g.statements) : s.documents ⊆ g.documents :=
  fun _ hd => List.mem_flatMap.2 ⟨s, Array.mem_toList_iff.2 h, hd⟩

/-- A store that grows mentions what it mentioned. -/
theorem Graph.Grows.documents_subset (h : g.Grows g') : g.documents ⊆ g'.documents := by
  intro d hd
  obtain ⟨s, hs, hd⟩ := List.mem_flatMap.1 hd
  exact documents_subset_of_mem (h.statements (Array.mem_toList_iff.1 hs)) hd

namespace Graph

theorem mem_documents : d ∈ g.documents ↔ ∃ s ∈ g.statements, d ∈ s.documents := by
  simp [documents]

/-- A store mentions what it mentioned, and what is added to it. -/
theorem mem_documents_addAll (h : d ∈ (g.addAll ss).documents) :
    d ∈ g.documents ∨ ∃ s ∈ ss, d ∈ s.documents := by
  induction ss generalizing g with
  | nil => exact .inl h
  | cons s ss ih =>
    rcases ih h with hd | ⟨s', hs', hd⟩
    · obtain ⟨s', hs', hmem⟩ := mem_documents.1 hd
      rcases mem_add.1 hs' with hs' | rfl
      · exact .inl (mem_documents.2 ⟨s', hs', hmem⟩)
      · exact .inr ⟨s', List.mem_cons_self, hmem⟩
    · exact .inr ⟨s', List.mem_cons_of_mem _ hs', hd⟩

/-- Where its statements come from is no matter. -/
theorem mem_documents_load {document : String} (h : d ∈ (g.load document ss).documents) :
    d ∈ g.documents ∨ ∃ s ∈ ss, d ∈ s.documents := by
  refine (mem_documents_addAll h).imp_right fun hadded => ?_
  obtain ⟨s', hs', hd⟩ := hadded
  obtain ⟨s, hs, rfl⟩ := List.mem_map.1 hs'
  exact ⟨s, hs, hd⟩

/-- Merging leaves what a store mentions. -/
theorem documents_equate (h : g.equate t t' = .ok (g', keep)) : g'.documents = g.documents := by
  rw [documents, documents, statements_equate h]

end Graph

namespace Bindings

theorem mem_documents :
    d ∈ b.documents ↔ ∃ v value : Term, b[v]? = some value ∧ d ∈ value.documents := by
  rw [documents, List.mem_flatMap]
  constructor
  · rintro ⟨⟨v, value⟩, hmem, hd⟩
    exact ⟨v, value, Std.ExtTreeMap.mem_toList_iff_getElem?_eq_some.1 hmem, hd⟩
  · rintro ⟨v, value, hv, hd⟩
    exact ⟨(v, value), Std.ExtTreeMap.mem_toList_iff_getElem?_eq_some.2 hv, hd⟩

theorem documents_subset_of_getElem? (h : b[t]? = some t') : t'.documents ⊆ b.documents :=
  fun _ hd => mem_documents.2 ⟨t, t', h, hd⟩

/-- Values that are added mention what they mention. -/
theorem Draws.documents_subset (h : Draws (·.documents ⊆ D) b b') :
    b'.documents ⊆ b.documents ++ D := by
  intro d hd
  obtain ⟨v, value, hv, hd⟩ := mem_documents.1 hd
  rcases h.drawn hv with hold | hnew
  · exact List.mem_append_left _ (documents_subset_of_getElem? hold hd)
  · exact List.mem_append_right _ (hnew hd)

/-- A union mentions what its parts mention. -/
theorem documents_union_subset (b b' : Bindings) :
    (b ∪ b').documents ⊆ b.documents ++ b'.documents := by
  intro d hd
  obtain ⟨v, value, hv, hd⟩ := mem_documents.1 hd
  rw [Std.ExtTreeMap.getElem?_union] at hv
  rcases Option.or_eq_some_iff.1 hv with hv | ⟨-, hv⟩
  · exact List.mem_append_right _ (documents_subset_of_getElem? hv hd)
  · exact List.mem_append_left _ (documents_subset_of_getElem? hv hd)

end Bindings

namespace Pattern

theorem documents_subset_documentsOfClauses {ps : List Pattern} (h : clause ∈ ps) :
    clause.documents ⊆ documentsOfClauses ps := by
  induction ps with
  | nil => cases h
  | cons p ps ih =>
    rw [documentsOfClauses]
    rcases List.mem_cons.1 h with rfl | h
    · exact List.subset_append_left _ _
    · exact List.Subset.trans (ih h) (List.subset_append_right _ _)

/-- A pattern mentions what its clauses mention, -/
theorem documents_subset_of_mem (h : clause ∈ p.optionals) : clause.documents ⊆ p.documents := by
  cases p
  rw [documents]
  exact List.Subset.trans (documents_subset_documentsOfClauses h) (List.subset_append_right _ _)

/-- and what its fixed values mention. -/
theorem documents_initial_subset (p : Pattern) : p.initial.documents ⊆ p.documents := by
  cases p
  rw [documents]
  exact List.subset_append_left _ _

end Pattern

end TripleQuery
