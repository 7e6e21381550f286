import TripleQuery.Proofs.Joining.Clauses
import TripleQuery.Proofs.Joining.Yields
import TripleQuery.Proofs.Searching.Confined
import TripleQuery.Proofs.Sessions.Limited
/-!
# Agreeing clauses — what validation is for

A search is for a pattern that makes sense. Whatever the store says and however
the search comes about, the results that a junction puts together agree with its
trunk and with each other, so a combination goes beyond every one of them
(`Moment.Leads.conflictFree`); and the order of sibling clauses only decides in
which order the matches are told (`Moment.Launches.reorders`).
-/

namespace TripleQuery

/-- **It does not matter for what a search finds in which order its sibling
clauses are.** -/
theorem Pattern.Reorders.course_perm {g : Graph} {p p' : Pattern} {found : List Bindings}
    (h : p.Reorders p') (hv : p.validate = .ok ()) (hp : p.BindsVariables)
    (hfound : course g ∅ p p.initial = .of found) :
    ∃ found', course g ∅ p' p'.initial = .of found' ∧ found.Perm found' := by
  have hvalid : p.validateIn (Bindings.keySet ∅) = .ok () := by
    rw [Bindings.keySet_empty]
    exact hv
  have hyield : (course g ∅ p' p'.initial).yield = .of found := by
    rw [yield_course, h.initial_eq, h.answers_eq hvalid hp (starts_root hp.initial),
      ← yield_course, hfound, Course.yield_of]
  have herror := Course.error_of_yield hyield
  rw [Course.yield_of_no_error herror] at hyield
  refine ⟨(course g ∅ p' p'.initial).found, ?_, (Yield.perm_of_of_eq hyield).symm⟩
  ext1
  · rfl
  · exact herror

/-- A search without a limit that meets no error has told its whole course. -/
theorem Course.Ends.course_eq {C : Course} {config : SearchConfig} {found : List Bindings}
    {sum : SearchSummary} (h : C.Ends config found (.ok sum)) (hlimit : config.maxMatches = none) :
    C = .of found ∧ sum = ⟨found.length, 0, false, false⟩ := by
  cases h with
  | complete hc => exact ⟨hc, rfl⟩
  | truncated _ hl => exact absurd hlimit hl

namespace Moment

variable {m m' w w' : Moment} {g : Graph} {source : Option Source}
  {settings config config' : SearchConfig} {p p' : Pattern} {i : Id} {jn : Junction}
  {rss : List (List Bindings)} {choice : List Bindings} {sum : SearchSummary}
  {r' : Except QueryError SearchSummary}

/-- **What a junction puts together goes together**, in every state of every
session. -/
theorem Leads.conflictFree (h : Leads (start g source settings) m) (hi : .started i p ∈ m.told)
    (hv : p.validate = .ok ()) (hp : p.BindsVariables)
    (hcombines : jn.Combines m.session.searches i rss)
    (hchoice : List.Forall₂ (· ∈ ·) choice rss) : jn.trunk.ConflictFree choice := by
  have hstart := isSound_start g source settings
  obtain ⟨hsteps, hm⟩ := h.steps hstart
  have hconfined : m.scene.IsConfined :=
    hsteps.confined hstart.sound hstart.faithful fun i p hnone _ _ => by cases hnone
  exact (hconfined i p hi hp hv).conflictFree hm.sound hv hcombines hchoice

/-- **Sibling clauses in another order.** Two searches in the same store, for
patterns that differ in the order of sibling clauses only, without a source of
documents and without a limit: if the one meets no error, neither does the
other, and both tell the same matches, each as often. -/
theorem Launches.reorders (h : m.Launches config p) (h' : m'.Launches config' p')
    (hreorders : p.Reorders p') (hv : p.validate = .ok ()) (hp : p.BindsVariables)
    (hg : m'.session.graph = m.session.graph) (hlimit : config.maxMatches = none)
    (hlimit' : config'.maxMatches = none) (hrun : Reads m w) (hrun' : Reads m' w')
    (hdone : .done m.upcoming (.ok sum) ∈ w.told) (hdone' : .done m'.upcoming r' ∈ w'.told) :
    (matchesOf m.upcoming w.told).Perm (matchesOf m'.upcoming w'.told) ∧ r' = .ok sum := by
  obtain ⟨hcourse, rfl⟩ := ((h.tells hrun).1.ends hdone).course_eq hlimit
  have hends := (h'.tells hrun').1.ends hdone'
  obtain ⟨found, hfound, hperm⟩ := hreorders.course_perm hv hp hcourse
  have hcourse' : m'.courseOf p' = .of found := by rw [courseOf, hg, hfound]
  rw [hcourse'] at hends
  have htold : matchesOf m'.upcoming w'.told = found := hends.found_eq hlimit'
  rw [htold] at hends ⊢
  refine ⟨hperm, ?_⟩
  cases hends with
  | complete _ => rw [hperm.length_eq]
  | failed he => cases he
  | truncated _ hl => exact absurd hlimit' hl

/-- **Clauses of a pattern that makes sense do not get in each other's way.**
Let the fixed values be of variables and blank nodes. Whenever a search for the
pattern puts together a trunk and one result of each clause, in whatever session
and over whatever store, these agree on every key that they share: no union
replaces a value by another one, and the combination goes beyond the trunk and
every result that was chosen. And a pattern whose sibling clauses, at any level,
are in another order makes sense too; searches for both in the same store,
without a source of documents and without a limit, tell the same matches, each
as often, unless they meet an error; and each is done before its call is over.
-/
theorem clauses_agree (hv : p.validate = .ok ()) (hp : p.BindsVariables) :
    (∀ (g : Graph) (source : Option Source) (settings : SearchConfig) (m : Moment) (i : Id)
        (jn : Junction) (rss : List (List Bindings)),
      Leads (start g source settings) m → .started i p ∈ m.told →
      jn.Combines m.session.searches i rss →
        (∀ x, x ∈ Junction.combine jn.trunk rss ↔
          ∃ choice, List.Forall₂ (· ∈ ·) choice rss ∧ x = jn.trunk.joined choice) ∧
        ∀ choice, List.Forall₂ (· ∈ ·) choice rss → jn.trunk.ConflictFree choice) ∧
    ∀ p', p.Reorders p' → p'.validate = .ok () ∧
      ∀ (m m' w w' : Moment) (config config' : SearchConfig) (sum : SearchSummary),
        m.Launches config p → m'.Launches config' p' →
        m'.session.graph = m.session.graph →
        config.maxMatches = none → config'.maxMatches = none → Reads m w → Reads m' w' →
        .done m.upcoming (.ok sum) ∈ w.told →
          (∀ r', .done m'.upcoming r' ∈ w'.told →
            (matchesOf m.upcoming w.told).Perm (matchesOf m'.upcoming w'.told) ∧ r' = .ok sum) ∧
          (w'.stack <:+ m'.stack.tail → ∃ r', .done m'.upcoming r' ∈ w'.told) := by
  refine ⟨fun g source settings m i jn rss hm hi hcombines => ⟨fun x => ?_, fun choice hc => ?_⟩,
    fun p' hreorders => ⟨hreorders.validateIn hv,
      fun m m' w w' config config' sum h h' hg hlimit hlimit' hrun hrun' hdone =>
        ⟨fun r' hdone' => ?_, (h'.tells hrun').2⟩⟩⟩
  · exact Junction.mem_combine_iff
  · exact hm.conflictFree hi hv hp hcombines hc
  · exact h.reorders h' hreorders hv hp hg hlimit hlimit' hrun hrun' hdone hdone'

/-! ## How to reach somebody -/

/-- Somebody with two addresses and two numbers. -/
def contacts : List Statement :=
  [⟨.symbol "ann", .symbol "knows", .symbol "bob", none⟩,
    ⟨.symbol "bob", .symbol "mail", .symbol "b", none⟩,
    ⟨.symbol "bob", .symbol "mail", .symbol "c", none⟩,
    ⟨.symbol "bob", .symbol "phone", .symbol "1", none⟩,
    ⟨.symbol "bob", .symbol "phone", .symbol "2", none⟩]

/-- Where somebody gets mail. -/
def byMail : Pattern where
  triples := [⟨.var "y", .symbol "mail", .var "m", none⟩]

/-- Which numbers somebody has. -/
def byPhone : Pattern where
  triples := [⟨.var "y", .symbol "phone", .var "n", none⟩]

/-- Whom somebody knows, and how to reach them. -/
def reaching (clauses : List Pattern) : Pattern where
  triples := [⟨.symbol "ann", .symbol "knows", .var "y", none⟩]
  optionals := clauses

/-- A session that is about to look for it. -/
def aboutToReach (clauses : List Pattern) : Moment :=
  ⟨.start (.ofList contacts) none {}, [.command (.searchAll (reaching clauses))], []⟩

/-- The state in which the second clause is about to be complete. -/
def reachingHalf (clauses : List Pattern) : Moment :=
  carryOut 24 (carryOut 1 (aboutToReach clauses))

/-- The search when it is done. -/
def reached (clauses : List Pattern) : Moment :=
  carryOut 60 (carryOut 1 (aboutToReach clauses))

/-- One way to reach somebody. -/
def wayOf (m n : String) : Bindings :=
  .ofPairs [(.var "y", .symbol "bob"), (.var "m", .symbol m), (.var "n", .symbol n)]

theorem told_reached :
    (reached [byMail, byPhone]).told = [.started 0 (reaching [byMail, byPhone])] ++
      [wayOf "b" "1", wayOf "b" "2", wayOf "c" "1", wayOf "c" "2"].map (.found 0) ++
      [.done 0 (.ok ⟨4, 0, false, false⟩)] ∧
    (reached [byPhone, byMail]).told = [.started 0 (reaching [byPhone, byMail])] ++
      [wayOf "b" "1", wayOf "c" "1", wayOf "b" "2", wayOf "c" "2"].map (.found 0) ++
      [.done 0 (.ok ⟨4, 0, false, false⟩)] := by
  refine ⟨?_, ?_⟩ <;> cbv

/-- What one clause contributes. -/
def bobBy (v value : String) : Bindings :=
  .ofPairs [(.var "y", .symbol "bob"), (.var v, .symbol value)]

/-- The junction that waits for the second clause. -/
def meeting : Junction :=
  ⟨.ofPairs [(.var "y", .symbol "bob")], 1, [some [bobBy "m" "b", bobBy "m" "c"], none]⟩

/-- What it combines. -/
def meetingResults : List (List Bindings) :=
  [[bobBy "m" "b", bobBy "m" "c"], [bobBy "n" "1", bobBy "n" "2"]]

theorem meeting_combines :
    meeting.Combines (reachingHalf [byMail, byPhone]).session.searches 0 meetingResults := by
  have hj : (reachingHalf [byMail, byPhone]).session.searches.junctions[2]? = some meeting := by
    cbv
  have hy : (reachingHalf [byMail, byPhone]).session.searches.branches[4]? =
      some ⟨0, .clause 2 1, [bobBy "n" "1", bobBy "n" "2"], 1⟩ := by
    cbv
  exact ⟨2, 1, 4, _, hj, hy, rfl, rfl, rfl⟩

theorem launches_aboutToReach {clauses : List Pattern}
    (hv : (reaching clauses).validate = .ok ()) :
    (aboutToReach clauses).Launches {} (reaching clauses) where
  reached := ⟨_, none, {}, .single (.command (.searchAll (reaching clauses)))⟩
  engine := rfl
  accepted := ⟨.searchAll (reaching clauses), [], rfl,
    Session.accepts?_searchAll_eq_some.2 ⟨rfl, hv, _, rfl⟩⟩

/-- The addresses go together with the numbers, and it does not matter which are
looked for first. -/
theorem reaching_agrees : (reaching [byMail, byPhone]).validate = .ok () ∧
    (reaching [byMail, byPhone]).BindsVariables ∧
    (∀ choice, List.Forall₂ (· ∈ ·) choice meetingResults → meeting.trunk.ConflictFree choice) ∧
    (reaching [byMail, byPhone]).Reorders (reaching [byPhone, byMail]) ∧
    (reaching [byPhone, byMail]).validate = .ok () ∧
    (matchesOf 0 (reached [byMail, byPhone]).told).Perm
      (matchesOf 0 (reached [byPhone, byMail]).told) := by
  obtain ⟨htold, htold'⟩ := told_reached
  have hv : (reaching [byMail, byPhone]).validate = .ok () := by cbv
  have hbinds : (reaching [byMail, byPhone]).BindsVariables :=
    ⟨Bindings.onVariables_empty, ⟨Bindings.onVariables_empty, trivial⟩,
      ⟨Bindings.onVariables_empty, trivial⟩, trivial⟩
  have hswap : (reaching [byMail, byPhone]).Reorders (reaching [byPhone, byMail]) :=
    .siblings (.swap byPhone byMail [])
  obtain ⟨hmeet, hreorders⟩ := clauses_agree hv hbinds
  obtain ⟨hv', hsame⟩ := hreorders _ hswap
  have hleads : Leads (start (.ofList contacts) none {}) (reachingHalf [byMail, byPhone]) :=
    .head (.command (.searchAll (reaching [byMail, byPhone])))
      ((leads_carryOut 1 _).trans (leads_carryOut 24 _))
  have hstarted : .started 0 (reaching [byMail, byPhone]) ∈
      (reachingHalf [byMail, byPhone]).told := by
    have htold : (reachingHalf [byMail, byPhone]).told =
        [.started 0 (reaching [byMail, byPhone])] := by cbv
    rw [htold]
    exact List.mem_singleton_self _
  have hrun : Reads (aboutToReach [byMail, byPhone]) (reached [byMail, byPhone]) :=
    .head ⟨.task, rfl⟩ (reads_carryOut 60 _ (by decide +kernel))
  have hrun' : Reads (aboutToReach [byPhone, byMail]) (reached [byPhone, byMail]) :=
    .head ⟨.task, rfl⟩ (reads_carryOut 60 _ (by decide +kernel))
  have hdone : .done 0 (.ok ⟨4, 0, false, false⟩) ∈ (reached [byMail, byPhone]).told := by
    rw [htold]
    simp
  have hdone' : .done 0 (.ok ⟨4, 0, false, false⟩) ∈ (reached [byPhone, byMail]).told := by
    rw [htold']
    simp
  obtain ⟨hperm, -⟩ := (hsame _ _ _ _ {} {} _ (launches_aboutToReach hv)
    (launches_aboutToReach hv') rfl rfl rfl hrun hrun' hdone).1 _ hdone'
  exact ⟨hv, hbinds, (hmeet _ none {} _ 0 _ _ hleads hstarted meeting_combines).2, hswap, hv',
    hperm⟩

end Moment

end TripleQuery
