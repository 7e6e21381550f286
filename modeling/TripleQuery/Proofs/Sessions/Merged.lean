import TripleQuery.Proofs.Joining.Quotient
import TripleQuery.Proofs.Sessions.Collecting
/-!
# Merged — what is collected from a store with merged terms

What a caller collects is what the search amounts to in the store as it is
(`Moment.Leads.answers_of_results`). Where terms other than collections were
merged, this is up to keys the join in the quotient of the store
(`Moment.Leads.results_perm_quotient`): which of several merged terms is bound
depends on the order in which triples are taken, its key does not.
-/

namespace TripleQuery

namespace Moment

variable {s s' : Session} {g : Graph} {source : Option Source} {config settings : SearchConfig}
  {outer : List Task} {told : List Notice} {p : Pattern} {fuel : Nat} {R : List Bindings}

/-- **Searching a merged store is searching its quotient.** Let a session,
whatever it did before, be told to collect the matches of a pattern without
clauses and constraints whose fixed values are of variables and blank nodes,
with an engine that has no source of documents and no limit on matches, over a
store in which no collection was merged. If the answer is a list of results,
these are, with every value replaced by its key, what the join of the keyed
triples has among the keyed statements, each as often. -/
theorem Leads.results_perm_quotient
    (h : Leads (start g source config) ⟨s, .command (.searchAll p) :: outer, told⟩)
    (hg : s.graph.AtomReachable) (he : s.engine = some ⟨settings, false⟩)
    (hlimit : settings.maxMatches = none) (hop : p.optionals = []) (hc : p.constraints = ∅)
    (hb : p.initial.OnVariables)
    (hrun : Session.run fuel [.command (.searchAll p)] s = some s')
    (hr : s'.reply = .results R) :
    (R.map s.graph.keyedValues).Perm
      (joins (s.graph.statements.toList.map s.graph.keyedStatement)
        (p.triples.map s.graph.keyedTriple) (s.graph.keyedValues p.initial)) := by
  obtain ⟨-, hanswers⟩ := h.answers_of_results he hlimit hrun hr
  rcases hg.answers_agrees hb hop hc with htop | ⟨found, hfound, hperm⟩
  · rw [htop] at hanswers
    cases hanswers
  · have hR : R.Perm found := Yield.perm_of_of_eq (hanswers.symm.trans hfound)
    exact (hR.map _).trans hperm

/-! ## Two names for one person -/

/-- A list of two people, and who is known to one of them under another name. -/
def renamed : List Statement :=
  [⟨.symbol "s", .symbol "lists", .collection [.symbol "eve", .symbol "bob"], none⟩,
    ⟨.symbol "ann", .symbol "knows", .symbol "bob", none⟩,
    ⟨.symbol "eva", .symbol "knows", .symbol "cid", none⟩]

/-- The store in which both names are found to be of one person. -/
def renamedMerged : Graph :=
  (Graph.ofList renamed).redirect (.symbol "eve") (.symbol "eva")

theorem equate_renamed :
    (Graph.ofList renamed).equate (.symbol "eva") (.symbol "eve") =
      .ok (renamedMerged, .symbol "eva") := by
  have ha : (Graph.ofList renamed).key (.symbol "eva") = .symbol "eva" := by cbv
  have he : (Graph.ofList renamed).key (.symbol "eve") = .symbol "eve" := by cbv
  have hp : (Term.symbol "eva").isPreferred (.symbol "eve") = true := by cbv
  simp [Graph.equate, ha, he, hp, Term.isNamedVariable, renamedMerged]

/-- Whom the first on a list knows. -/
def firstKnows : Pattern where
  triples := [⟨.var "l", .symbol "lists", .collection [.var "x", .symbol "bob"], none⟩,
    ⟨.var "x", .symbol "knows", .var "y", none⟩]

/-- What is collected: the name that is bound is the one on the list. -/
def firstKnowsFound : List Bindings :=
  [.ofPairs [(.var "l", .symbol "s"), (.var "x", .symbol "eve"), (.var "y", .symbol "cid")]]

theorem reply_firstKnows : (Session.run 100 [.command (.searchAll firstKnows)]
    (.start renamedMerged none {})).map Session.reply = some (.results firstKnowsFound) := by
  cbv

/-- The first on the list is found under the other name. -/
theorem firstKnows_perm : ∃ s', Session.run 100 [.command (.searchAll firstKnows)]
    (.start renamedMerged none {}) = some s' ∧ s'.reply = .results firstKnowsFound ∧
      renamedMerged.AtomReachable ∧
      (firstKnowsFound.map renamedMerged.keyedValues).Perm
        (joins (renamedMerged.statements.toList.map renamedMerged.keyedStatement)
          (firstKnows.triples.map renamedMerged.keyedTriple)
          (renamedMerged.keyedValues firstKnows.initial)) := by
  obtain ⟨s', hrun, hr⟩ := Option.map_eq_some_iff.1 reply_firstKnows
  have hleads : Leads (start renamedMerged none {})
      ⟨.start renamedMerged none {}, [.command (.searchAll firstKnows)], []⟩ :=
    .single (.command _)
  have hmerged : renamedMerged.AtomReachable :=
    .equate (Graph.atomReachable_ofList renamed) rfl rfl equate_renamed
  exact ⟨s', hrun, hr, hmerged, hleads.results_perm_quotient hmerged rfl rfl rfl rfl
    Bindings.onVariables_empty hrun hr⟩

end Moment

end TripleQuery
