import TripleQuery.Proofs.Searching.Attribution
import TripleQuery.Proofs.Searching.Fixing
import TripleQuery.Proofs.Sessions.Unheeded
/-!
# The requests of searches that share a source of documents

Searches that share a source wait for nothing but their own requests. A path that
is parked waits for a document that its own search has asked for, even if another
search has asked for it as well; what a search asks for, a term of a remaining
triple was bound to; and the summary of a search counts the requests that it made
(`Scene.Steps.requests_own`).

The term is a variable, unless the pattern fixes the value of some other term: a
value of a constant is followed too (`Moment.not_forall_requested_of_variable`).
-/

namespace TripleQuery

namespace Scene

variable {g : Graph} {w : Scene}

/-- **Searches wait for their own requests only.** Let a scene come about from a
store without searches, as every session does, with any number of searches that
take turns, and a source that is in any state whenever a path takes a step. The
requests that were made on the way are known, each with the path it was made for.

A path that is parked waits for a document that its search has asked for, and is
watched for at no other.

Whatever was asked for, the path had come from the start of its search to where a
term of a triple that was still to be matched — the subject, the object, or the
predicate if predicates are to be followed — was bound to a symbol in that
document. The term was a variable, or some fixed values of the pattern or of its
clauses have it; if these have variables only, it was a variable.

The fetches in the summary of a search are the requests that it made. -/
theorem Steps.requests_own (h : Steps ⟨g, {}, [], []⟩ w) :
    (∃ log, Logs ⟨g, {}, [], []⟩ log w) ∧ ∀ log, Logs ⟨g, {}, [], []⟩ log w →
      (∀ n f, w.table.parked[n]? = some f → ∃ d, f.awaited.head? = some d ∧
        d ∈ requestsOf f.search log ∧ ∀ d', .watch d' n ∈ w.orders → d' = d) ∧
      (∀ f d, (f, d) ∈ log → ∃ x p ds, w.table.searches[f.search]? = some x ∧
        .started f.search p ∈ w.told ∧ (Frame.root f.search p).Route ds f ∧
        ∃ triple ∈ f.remaining, ∃ t ∈ Frame.linkTerms x.config triple, ∃ iri,
          f.bindings[t]? = some (.symbol iri) ∧ documentPart iri = d ∧
          (t.isVariable ∨ p.Fixes t) ∧ (p.BindsVariables → t.isVariable)) ∧
      ∀ i sum, .done i (.ok sum) ∈ w.told → sum.fetches = (requestsOf i log).length := by
  refine ⟨h.exists_logs, fun log hlogs => ?_⟩
  have ha := hlogs.attributed
  refine ⟨fun n f hf => ?_, fun f d he => ?_, fun i sum hdone => ha.summed (.inl hdone)⟩
  · obtain ⟨d, hhead, hd⟩ := ha.parked hf
    refine ⟨d, hhead, hd, fun d' ho => ?_⟩
    have hwatch := (h.arises.routed.watches ho).2 f hf
    exact Option.some.inj (hwatch.symm.trans hhead)
  · obtain ⟨⟨ds, p, hp, hroute⟩, x, hx, hlink⟩ := ha.linked he
    obtain ⟨triple, htriple, t, ht, value, hvalue, hdoc⟩ := Frame.mem_links.1 hlink
    obtain ⟨iri, rfl, hiri⟩ := Term.document?_eq_some.1 hdoc
    have hbound := hroute.isVariable_or_fixes (mem_of_getElem? hvalue)
    exact ⟨x, p, ds, hx, hp, hroute, triple, htriple, t, ht, iri, hvalue, hiri, hbound,
      fun hvars => hbound.elim id fun hfixes => hfixes.isVariable hvars⟩

end Scene

namespace Moment

/-! ## Two searches that wait for one document -/

/-- One search asks for a document and waits. A second one goes on without it, and
asks for the next. When the first one goes on, it asks for that one too; then the
second one goes on and comes to its end. -/
def overlappingSearches : Moment :=
  carryOutAll 60
    [.search "first" threeLinks [] [], .script (.setState "b" .requested),
      .search "second" threeLinks [] [], .script (.fire 0 none), .script (.fire 0 none)]
    (start chain (some (.scripted { mode := .hold })) {})

theorem told_overlappingSearches : overlappingSearches.told =
    [.started 0 threeLinks, .started 3 threeLinks, .done 3 (.ok ⟨0, 1, false, false⟩)] := by
  cbv

theorem parked_overlappingSearches :
    overlappingSearches.scene.table.parked[6]?.map (fun f => (f.search, f.awaited)) =
      some (0, ["c", "b"]) := by
  cbv

/-- The first search waits for the second document, which it has asked for itself.
The other one has made one request. Both have asked for what a variable was bound
to. -/
theorem overlappingSearches_requests :
    Scene.Steps ⟨chain, {}, [], []⟩ overlappingSearches.scene ∧
      ∃ log, Scene.Logs ⟨chain, {}, [], []⟩ log overlappingSearches.scene ∧
        "c" ∈ requestsOf 0 log ∧ (requestsOf 3 log).length = 1 ∧
        ∀ f d, (f, d) ∈ log → ∃ (t : Term) (iri : String), t.isVariable ∧
          f.bindings[t]? = some (.symbol iri) ∧ documentPart iri = d := by
  have hsteps : Scene.Steps ⟨chain, {}, [], []⟩ overlappingSearches.scene :=
    ((leads_carryOutAll 60 _ _).steps (isSound_start _ _ _)).1
  obtain ⟨⟨log, hlogs⟩, hall⟩ := hsteps.requests_own
  obtain ⟨hparked, hlinked, hsummed⟩ := hall log hlogs
  refine ⟨hsteps, log, hlogs, ?_, ?_, fun f d he => ?_⟩
  · obtain ⟨f, hf, he⟩ := Option.map_eq_some_iff.1 parked_overlappingSearches
    obtain ⟨hsearch, hawaited⟩ := Prod.mk.inj he
    obtain ⟨d, hhead, hd, -⟩ := hparked 6 f hf
    rw [hawaited] at hhead
    cases hhead
    rwa [hsearch] at hd
  · refine (hsummed 3 ⟨0, 1, false, false⟩ ?_).symm
    change Notice.done 3 (.ok ⟨0, 1, false, false⟩) ∈ overlappingSearches.told
    rw [told_overlappingSearches]
    simp
  · obtain ⟨x, p, ds, -, hp, -, triple, -, t, -, iri, hvalue, hiri, -, hvars⟩ := hlinked f d he
    refine ⟨t, iri, hvars ?_, hvalue, hiri⟩
    -- both searches are for the same pattern
    change Notice.started f.search p ∈ overlappingSearches.told at hp
    rw [told_overlappingSearches] at hp
    obtain rfl : p = threeLinks := by
      simp only [List.mem_cons, Notice.started.injEq, reduceCtorEq, List.not_mem_nil,
        or_false] at hp
      exact hp.elim (·.2) (·.2)
    exact ⟨Bindings.onVariables_empty, trivial⟩

/-! ## A constant with a value -/

/-- A pattern that fixes a value for the symbol it asks about. -/
def fixedConstant : Pattern where
  triples := [⟨.symbol "a", .symbol "p", .var "y", none⟩]
  initial := .ofPairs [(.symbol "a", .symbol "b")]

/-- A search for it is about to ask for a document. -/
def constantSearch : Moment :=
  carryOutAll 4 [.search "constant" fixedConstant [] []]
    (start .empty (some (.scripted { mode := .hold })) {})

theorem orders_constantSearch : constantSearch.scene.orders =
    [.request "b", .job (.await (.root 0 fixedConstant) "b" true), .leaveSource] := by
  cbv

/-- **A request need not be for what a variable is bound to**: the value of a
constant is asked for, if the pattern fixes one. -/
theorem not_forall_requested_of_variable :
    ¬ ∀ (g : Graph) (w : Scene) (log : List (Frame × String)),
      Scene.Logs ⟨g, {}, [], []⟩ log w → ∀ f d, (f, d) ∈ log →
        ∃ x, w.table.searches[f.search]? = some x ∧
          ∃ triple ∈ f.remaining, ∃ t ∈ Frame.linkTerms x.config triple, t.isVariable ∧
            ∃ iri, f.bindings[t]? = some (.symbol iri) ∧ documentPart iri = d := by
  intro hall
  have hsteps : Scene.Steps ⟨.empty, {}, [], []⟩ constantSearch.scene :=
    ((leads_carryOutAll 4 _ _).steps (isSound_start _ _ _)).1
  obtain ⟨log, hlogs⟩ := hsteps.exists_logs
  have hscene : constantSearch.scene = ⟨constantSearch.scene.graph, constantSearch.scene.table,
      [.request "b", .job (.await (.root 0 fixedConstant) "b" true), .leaveSource],
      constantSearch.scene.told⟩ := by
    rw [← orders_constantSearch]
  rw [hscene] at hlogs
  obtain ⟨x, -, triple, htriple, t, ht, hvar, iri, hvalue, -⟩ :=
    hall _ _ _ hlogs.asks (.root 0 fixedConstant) "b"
      (List.mem_append_right _ (List.mem_singleton_self _))
  obtain rfl := List.mem_singleton.1 htriple
  -- the object is the only variable, and it has no value yet
  obtain rfl : t = .var "y" := by
    unfold Frame.linkTerms at ht
    split at ht <;> simp only [List.mem_cons, List.not_mem_nil, or_false] at ht
    · rcases ht with rfl | rfl | rfl
      · cases hvar
      · rfl
      · cases hvar
    · rcases ht with rfl | rfl
      · cases hvar
      · rfl
  have hnone : (fixedConstant.initial)[Term.var "y"]? = none := by
    cbv
  exact absurd (hvalue.symm.trans hnone) (by simp)

end Moment

end TripleQuery
