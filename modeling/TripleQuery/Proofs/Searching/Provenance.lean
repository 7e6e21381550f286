import TripleQuery.Proofs.Fetching.Requests
import TripleQuery.Proofs.Matching.Mentioning
import TripleQuery.Proofs.Searching.Lasting
import TripleQuery.Proofs.Searching.Routes
/-!
# Provenance — where the documents that a path may wait for come from

A path starts with the fixed values of its pattern, and what it comes to bind
stands in the store; so every document that its bindings mention its pattern or
the store mentions (`Scene.Sourced`). Whatever happens, this stays so
(`Scene.Step.sourced`). What a search has to wait for is therefore mentioned there
(`Scene.Sourced.mem_of_nextFetch`).
-/

namespace TripleQuery

/-- The documents that the bindings of a path mention, and the patterns that it
has yet to enter. -/
def Frame.documents (f : Frame) : List String :=
  f.bindings.documents ++ f.scope.pattern.documents

variable {g : Graph} {f f' : Frame} {fs : List Frame} {d : String} {x : Search}
  {env : Surroundings} {w w' : Scene} {t : Term} {p : Pattern}

/-- A symbol mentions its document. -/
theorem Term.mem_documents_of_document? (h : t.document? = some d) : d ∈ t.documents := by
  obtain ⟨iri, rfl, rfl⟩ := document?_eq_some.1 h
  exact List.mem_singleton_self _

/-! ## Paths -/

namespace Frame

/-- **A path that goes on mentions nothing new but what the store mentions.** -/
theorem documents_subset_of_expand (hg : g.Orderly) (h : f.expand g = .ok fs) (hf : f' ∈ fs) :
    f'.documents ⊆ f.documents ++ g.documents := by
  have hdraws := draws_of_mem_expand (Term.hereditary_documents g.documents)
    (fun triple s hs t ht => List.Subset.trans (Statement.documents_subset_of_mem ht)
      (Graph.documents_subset_of_mem (hg.mem_statements_of_mem_candidates hs))) h hf
  have hscope : f'.scope = f.scope := by
    obtain ⟨-, -, -, -, -, -, -, -, -, rfl⟩ := mem_expand h hf
    rfl
  intro d hd
  rw [documents, hscope] at hd
  simp only [documents, List.mem_append]
  rcases List.mem_append.1 hd with hd | hd
  · rcases List.mem_append.1 (hdraws.documents_subset hd) with hd | hd
    · exact .inl (.inl hd)
    · exact .inr hd
  · exact .inl (.inr hd)

/-- A path that enters a clause mentions nothing new. -/
theorem documents_enter_subset {c : Scope} (h : c ∈ f.scope.clauses) (branch : Id) :
    (enter f.search branch c (c.startFrom f.bindings) f.awaited).documents ⊆ f.documents := by
  obtain ⟨clause, hmem, rfl⟩ := List.mem_map.1 h
  have hclause := Pattern.documents_subset_of_mem hmem
  intro d hd
  simp only [documents, enter, Scope.startFrom, Scope.inside, List.mem_append] at hd ⊢
  rcases hd with hd | hd
  · rcases List.mem_append.1 (Bindings.documents_union_subset _ _ hd) with hd | hd
    · exact .inr (hclause (clause.documents_initial_subset hd))
    · exact .inl hd
  · exact .inr (hclause hd)

/-- A path that starts a search mentions what its pattern mentions. -/
theorem documents_start_subset (search branch : Id) (p : Pattern) :
    (enter search branch (.ofPattern p) p.initial []).documents ⊆ p.documents :=
  List.append_subset.2 ⟨p.documents_initial_subset, List.Subset.refl _⟩

end Frame

/-- **What a search has to wait for its path mentions.** -/
theorem Search.mem_documents_of_nextFetch (h : x.nextFetch env f = some d) :
    d ∈ f.documents ∧ documentPart d = d := by
  obtain ⟨-, hlink⟩ := nextFetch_eq_some h
  obtain ⟨-, -, t, -, value, hvalue, hd⟩ := Frame.mem_links.1 hlink
  refine ⟨List.mem_append_left _ ?_, ?_⟩
  · exact Bindings.documents_subset_of_getElem? hvalue (Term.mem_documents_of_document? hd)
  · obtain ⟨iri, -, rfl⟩ := Term.document?_eq_some.1 hd
    exact documentPart_idem iri

/-! ## Scenes -/

namespace Scene

/-- What a path mentions its pattern mentions, or the store. -/
def Sourced (w : Scene) : Prop :=
  ∀ f, w.Walks f →
    ∃ p, .started f.search p ∈ w.told ∧ f.documents ⊆ p.documents ++ w.graph.documents

/-- What was told stays told. -/
theorem Step.told_subset (h : Step w w') : w.told ⊆ w'.told :=
  (Happens.told_prefix (.step h)).subset

/-- **Whatever happens, what a path mentions comes from there.** -/
theorem Step.sourced (h : Step w w') (hw : w.IsSound) (hg : w.graph.Orderly) (hs : w.Sourced) :
    w'.Sourced := by
  have hgrows := (h.before hw).graph.documents_subset
  -- what goes on from a path mentions what the path does, and the store
  have from_ : ∀ {f f' : Frame}, w.Walks f → f'.search = f.search →
      f'.documents ⊆ f.documents ++ w.graph.documents →
      ∃ p, .started f'.search p ∈ w'.told ∧ f'.documents ⊆ p.documents ++ w'.graph.documents := by
    intro f f' hf hsearch hsub
    obtain ⟨p, hp, hdocs⟩ := hs f hf
    refine ⟨p, h.told_subset (hsearch ▸ hp), fun d hd => ?_⟩
    rw [List.mem_append]
    rcases List.mem_append.1 (hsub hd) with hd | hd
    · exact (List.mem_append.1 (hdocs hd)).imp_right fun hd => hgrows hd
    · exact .inr (hgrows hd)
  intro f hf
  cases h.pathOrigin hw hf with
  | same hold => exact from_ hold rfl (List.subset_append_left _ _)
  | waiting d hold => exact from_ hold rfl (List.subset_append_left _ _)
  | matched hold he hmem =>
    exact from_ hold (Frame.search_of_mem_expand he hmem)
      (Frame.documents_subset_of_expand hg he hmem)
  | clause hold _ hc _ =>
    exact from_ hold rfl (List.Subset.trans
      (Frame.documents_enter_subset (List.mem_of_getElem? hc) _) (List.subset_append_left _ _))
  | @launched config linked p _ htold =>
    refine ⟨p, ?_, List.Subset.trans (Frame.documents_start_subset _ _ p)
      (List.subset_append_left _ _)⟩
    rw [htold]
    exact List.mem_append_right _ (List.mem_singleton_self _)

theorem Steps.sourced (h : Steps w w') (hw : w.IsSound) (hg : w.graph.Reachable)
    (hs : w.Sourced) : w'.Sourced := by
  have hkeep := h.preserves (P := fun v => v.graph.Reachable ∧ v.Sourced)
    (fun hstep hv h => ⟨hstep.reachable h.1, hstep.sourced hv h.1.orderly h.2⟩) hw ⟨hg, hs⟩
  exact hkeep.2.2

/-- **What a path has to wait for is mentioned by its pattern or by the store.** -/
theorem Sourced.mem_of_nextFetch (hs : w.Sourced) (hf : w.Walks f)
    (h : x.nextFetch env f = some d) :
    documentPart d = d ∧
      ∃ p, .started f.search p ∈ w.told ∧ d ∈ p.documents ++ w.graph.documents := by
  obtain ⟨hd, hnamed⟩ := Search.mem_documents_of_nextFetch h
  obtain ⟨p, hp, hsub⟩ := hs f hf
  exact ⟨hnamed, p, hp, hsub hd⟩

end Scene

end TripleQuery
