import TripleQuery.Proofs.Joining.Ground
import TripleQuery.Proofs.Matching.Validation
import TripleQuery.Proofs.Sessions.Returning
/-!
# Asking — a search for a ground triple and the store's own answer

Whether the store says so can be asked of the store, and a search for the
triple alone asks it too. The search always comes to an answer. It finds
something exactly when the store says so, unless a collection of the triple
clashes with what is none in some candidate; then it fails, whatever the store
says (`Moment.Leads.ground_search`, `Moment.not_forall_ground_results`). Where
no collection was merged, statements about something else change nothing, as
long as none of them clashes.
-/

namespace TripleQuery

variable {triple : Statement}

/-- A pattern of one triple makes sense. -/
theorem Pattern.validate_ofTriple (triple : Statement) :
    (ofTriple triple).validate = .ok () := by
  rw [validate, validateIn_eq_ok]
  exact ⟨fun v hv => by simp [ofTriple] at hv, .nil, fun c hc => by cases hc⟩

namespace Moment

variable {s : Session} {g : Graph} {source : Option Source} {config settings : SearchConfig}
  {outer : List Task} {told : List Notice}

/-- **A search for a ground triple agrees with the store's own answer, unless it
clashes.** Let a session, whatever it did before and is still to do, be told to
collect the matches of one triple without variables, with an engine that has no
source of documents. The call comes to an end. If the triple clashes with a
candidate, the answer is the error that names the first clash; otherwise it is
the empty binding set, as often as the lookup finds a statement, or as often as
a limit allows, and so at least once exactly if the store says so. A triple of
atomic terms clashes with nothing. And where no collection was merged, the
lookup finds as many statements, and the store says the same, after statements
were added that have another term at some position. -/
theorem Leads.ground_search
    (h : Leads (start g source settings)
      ⟨s, .command (.searchAll (.ofTriple triple)) :: outer, told⟩)
    (he : s.engine = some ⟨config, false⟩) (hground : triple.variableList = []) :
    (∃ fuel s', Session.run fuel [.command (.searchAll (.ofTriple triple))] s = some s' ∧
      (∀ xs y, s.graph.bucketClash? triple = some (xs, y) →
        s'.reply = .failed (.shapeMismatch xs y)) ∧
      (s.graph.bucketClash? triple = none →
        ∃ n, s'.reply = .results (List.replicate n ∅) ∧
          n = config.takes (s.graph.matching (.ofTriple triple)).size ∧
          (n ≠ 0 ↔ s.graph.holds triple.subject triple.predicate triple.object))) ∧
    ((∀ p, (triple.term p).isAtomic) → s.graph.bucketClash? triple = none) ∧
    (s.graph.AtomReachable → ∀ ss : List Statement,
      (∀ st ∈ ss, ∃ p, ¬ s.graph.same (st.term p) (triple.term p)) →
        ((s.graph.addAll ss).matching (.ofTriple triple)).size =
          (s.graph.matching (.ofTriple triple)).size ∧
        (s.graph.addAll ss).holds triple.subject triple.predicate triple.object =
          s.graph.holds triple.subject triple.predicate triple.object) := by
  refine ⟨?_, fun hat => Graph.bucketClash?_of_isAtomic hat, fun hg ss hss => ?_⟩
  · obtain ⟨fuel, s', hrun, hanswers⟩ :=
      h.searchAll_returns he (Pattern.validate_ofTriple triple)
    have hcourse : course s.graph ∅ (.ofTriple triple) ∅ = s.graph.groundCourse triple :=
      Graph.course_ground hground
    change (course s.graph ∅ (.ofTriple triple) ∅).Answers config s'.reply at hanswers
    rw [hcourse, Graph.groundCourse] at hanswers
    refine ⟨fuel, s', hrun, fun xs y hclash => ?_, fun hnone => ?_⟩
    · rw [hclash] at hanswers
      exact hanswers.eq_failed
    · rw [hnone] at hanswers
      have hreply := hanswers.eq_results
      have hle : config.takes (s.graph.matching (.ofTriple triple)).size ≤
          (s.graph.matching (.ofTriple triple)).size := config.takes_le _
      rw [List.length_replicate, List.take_replicate, Nat.min_eq_left hle] at hreply
      refine ⟨_, hreply, rfl, ?_⟩
      rw [ne_eq, SearchConfig.takes_eq_zero, s.graph.holds_iff triple]
  · have hsize := hg.size_matching_addAll hss
    refine ⟨hsize, Bool.eq_iff_iff.2 ?_⟩
    rw [Graph.holds_iff, Graph.holds_iff, hsize]

/-! ## A nested collection, under another name -/

/-- What is said of the nested collection of the merged store. -/
def aboutNested : Statement :=
  ⟨Graph.nestedIn "b", .symbol "p", .symbol "o", none⟩

/-- The same, said of its innermost element. -/
def aboutInnermost : Statement :=
  ⟨.symbol "b", .symbol "p", .symbol "o", none⟩

/-- Both statements about nested collections are found, and would be found as
well if their innermost element had the same property. -/
theorem nested_ground_search : ∃ fuel s',
    Session.run fuel [.command (.searchAll (.ofTriple aboutNested))]
      (.start Graph.nestedMerged none {}) = some s' ∧ s'.reply = .results [∅, ∅] ∧
    Graph.nestedMerged.holds aboutNested.subject aboutNested.predicate aboutNested.object ∧
    (Graph.nestedMerged.addAll [aboutInnermost]).holds aboutNested.subject aboutNested.predicate
      aboutNested.object := by
  have hleads : Leads (start Graph.nestedMerged none {}) ⟨.start Graph.nestedMerged none {},
      [.command (.searchAll (.ofTriple aboutNested))], []⟩ := .single (.command _)
  have hmerged : Graph.nestedMerged.AtomReachable :=
    .equate (Graph.atomReachable_ofList _) rfl rfl Graph.equate_nested
  have hfree : Graph.nestedMerged.bucketClash? aboutNested = none := by cbv
  have htwo : (Graph.nestedMerged.matching (.ofTriple aboutNested)).size = 2 := by cbv
  have hother : ∀ st ∈ [aboutInnermost],
      ∃ p, ¬ Graph.nestedMerged.same (st.term p) (aboutNested.term p) := by
    intro st hst
    obtain rfl := List.mem_singleton.1 hst
    exact ⟨.subject, by decide +kernel⟩
  have hground : aboutNested.variableList = [] := rfl
  obtain ⟨⟨fuel, s', hrun, -, hfound⟩, -, hadded⟩ := hleads.ground_search rfl hground
  obtain ⟨n, hreply, hn, hholds⟩ := hfound hfree
  obtain ⟨-, hsame⟩ := hadded hmerged [aboutInnermost] hother
  obtain rfl : n = 2 := hn.trans htwo
  have hsays := hholds.1 (Nat.succ_ne_zero 1)
  exact ⟨fuel, s', hrun, hreply, hsays, hsame.trans hsays⟩

/-! ## A collection among others -/

/-- A list with three properties, one of which is also that of a symbol. -/
def listedAmongOthers : List Statement :=
  [⟨.collection [.symbol "a"], .symbol "q", .symbol "x", none⟩,
    ⟨.collection [.symbol "a"], .symbol "q", .symbol "y", none⟩,
    ⟨.collection [.symbol "a"], .symbol "p", .symbol "o", none⟩,
    ⟨.symbol "b", .symbol "p", .symbol "o", none⟩]

/-- What the store says of the list. -/
def aboutList : Statement :=
  ⟨.collection [.symbol "a"], .symbol "p", .symbol "o", none⟩

theorem reply_aboutList : (Session.run 20 [.command (.searchAll (.ofTriple aboutList))]
    (.start (.ofList listedAmongOthers) none {})).map Session.reply =
      some (.failed (.shapeMismatch (.collection [.symbol "a"]) (.symbol "b"))) := by
  cbv

/-- **A search for a ground triple may fail**, though the store says so: the
bucket of the predicate is the shortest, and has a statement about something
that is no collection. -/
theorem not_forall_ground_results :
    ¬ ∀ (g : Graph) (triple : Statement), g.Reachable → triple.variableList = [] →
      ∃ fuel s' R, Session.run fuel [.command (.searchAll (.ofTriple triple))]
        (.start g none {}) = some s' ∧ s'.reply = .results R ∧
          (R ≠ [] ↔ g.holds triple.subject triple.predicate triple.object) := by
  intro hall
  obtain ⟨fuel, s', R, hrun, hreply, -⟩ :=
    hall (.ofList listedAmongOthers) aboutList (Graph.reachable_ofList _) rfl
  obtain ⟨t, ht, hfailed⟩ := Option.map_eq_some_iff.1 reply_aboutList
  -- a run has one end, however many tasks it may carry out
  have hsame : s' = t := Option.some.inj
    ((Session.run_of_le (Nat.le_max_left fuel 20) hrun).symm.trans
      (Session.run_of_le (Nat.le_max_right fuel 20) ht))
  rw [hsame, hfailed] at hreply
  cases hreply

end Moment

end TripleQuery
