import Mathlib
import TripleQuery.Proofs.Searching.Truth
import TripleQuery.Proofs.Sessions.Ending
/-!
# What the matches of a search in a session say

Whatever a session does between the steps of a search, its caller is told of
matches only that go beyond the fixed values of the pattern and that the store
answers, triple by triple, then and ever after
(`Moment.Leads.answered_of_found`).
-/

namespace TripleQuery

namespace Scene

variable {w w' : Scene}

/-- Every scene that follows on a true one is true. -/
theorem Steps.truthful (h : Steps w w') (hs : w.IsSound) (hf : w.IsFaithful)
    (hg : w.graph.Reachable) (ht : w.IsTruthful) : w'.IsTruthful := by
  have hkeep := h.preserves (P := fun v => v.IsFaithful ∧ v.graph.Reachable ∧ v.IsTruthful)
    (fun hstep hs hv => ⟨hstep.faithful hs hv.1, hstep.reachable hv.2.1,
      hstep.truthful hs hv.1 hv.2.1.orderly hv.2.2⟩) hs ⟨hf, hg, ht⟩
  exact hkeep.2.2.2

end Scene

namespace Moment

variable {m : Moment} {g : Graph} {source : Option Source} {config : SearchConfig} {i : Id}
  {p : Pattern} {b : Bindings}

/-- **Matches are sound, and stay so.** Where only variables and blank nodes
have fixed values, a match that the caller of an accepted search was told of
goes beyond these values, and for every triple of the pattern some stored
statement is the same as what the triple becomes, at each position, now and
whatever the session comes to. -/
theorem Leads.answered_of_found (hg : g.Reachable) (h : Leads (start g source config) m)
    (hi : .started i p ∈ m.told) (hp : p.BindsVariables) (hb : .found i b ∈ m.told) :
    b.Extends p.initial ∧
      ∀ triple ∈ p.triples, ∃ s ∈ m.session.graph.statements, ∀ m', Leads m m' →
        s ∈ m'.session.graph.statements ∧
          ∀ pos, m'.session.graph.same (b.substitute (triple.term pos)) (s.term pos) := by
  have hstart := isSound_start g source config
  obtain ⟨hsteps, hm⟩ := h.steps hstart
  have htrue : m.scene.IsTruthful :=
    hsteps.truthful hstart.sound hstart.faithful hg fun i p hnone _ => by cases hnone
  obtain ⟨hmatches, -⟩ := (htrue i p hi hp).told hb
  refine ⟨hmatches.initial, fun triple ht => ?_⟩
  rcases hmatches.answered ht with hr | ha
  · cases hr
  obtain ⟨s, hs⟩ := ha.answered
  refine ⟨s, hs.mem, fun m' hm' => ?_⟩
  have hgrows : m.session.graph.Grows m'.session.graph := (hm'.steps hm).1.grows hm.sound
  have hlater := hs.grow hgrows
  exact ⟨hlater.mem, hlater.same⟩

/-! ## A search that waits while terms are merged -/

/-- A store that says one thing of a symbol. -/
def oneLink : Graph :=
  .add .empty ⟨.symbol "a", .symbol "p", .symbol "b", none⟩

/-- What the symbol is related to, and what that is related to. -/
def twoLinks : Pattern where
  triples :=
    [⟨.symbol "a", .symbol "p", .var "y", none⟩, ⟨.var "y", .symbol "q", .var "z", none⟩]

/-- The search waits for a document; meanwhile what it has bound is merged with
another term, of which a statement is added; then the document is there. -/
def interruptedSearch : Moment :=
  carryOutAll 60
    [.search "links" twoLinks [] [], .edit (.equate (.symbol "b") (.symbol "d")),
      .edit (.add ⟨.symbol "d", .symbol "q", .symbol "c", none⟩), .script (.fire 0 none)]
    (start oneLink (some (.scripted { mode := .hold })) {})

/-- The match that is found. -/
def interruptedMatch : Bindings :=
  .ofPairs [(.var "y", .symbol "b"), (.var "z", .symbol "c")]

theorem told_interruptedSearch : interruptedSearch.told =
    [.started 0 twoLinks, .found 0 interruptedMatch, .done 0 (.ok ⟨1, 1, false, false⟩)] := by
  cbv

/-- Both triples are answered, though no statement has the bound term for its
subject. -/
theorem interruptedSearch_answered : oneLink.Reachable ∧
    .started 0 twoLinks ∈ interruptedSearch.told ∧ twoLinks.BindsVariables ∧
    .found 0 interruptedMatch ∈ interruptedSearch.told ∧
    interruptedMatch.Extends twoLinks.initial ∧
    ∀ triple ∈ twoLinks.triples, ∃ s ∈ interruptedSearch.session.graph.statements,
      ∀ m', Leads interruptedSearch m' → s ∈ m'.session.graph.statements ∧
        ∀ pos, m'.session.graph.same (interruptedMatch.substitute (triple.term pos))
          (s.term pos) := by
  have hreach : oneLink.Reachable := .add _ .empty
  have hleads : Leads (start oneLink (some (.scripted { mode := .hold })) {}) interruptedSearch :=
    leads_carryOutAll 60 _ _
  have hstarted : .started 0 twoLinks ∈ interruptedSearch.told := by
    rw [told_interruptedSearch]
    exact List.mem_cons_self
  have hfound : .found 0 interruptedMatch ∈ interruptedSearch.told := by
    rw [told_interruptedSearch]
    exact List.mem_cons_of_mem _ List.mem_cons_self
  have hbinds : twoLinks.BindsVariables := ⟨Bindings.onVariables_empty, trivial⟩
  exact ⟨hreach, hstarted, hbinds, hfound,
    hleads.answered_of_found hreach hstarted hbinds hfound⟩

end Moment

end TripleQuery
