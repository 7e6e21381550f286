import TripleQuery.Proofs.Joining.Answers
import TripleQuery.Proofs.Matching.Answering
/-!
# Agreement — a search finds what its pattern means

In a store without merged terms, a search that meets no error finds what the
left join has, as often as the left join has it (`answers_agrees`). Taking the
easiest triple first is joining the triples in another order; looking among
candidates leaves out what would not fit; and giving up early what breaks a
constraint leaves out what would break it in the end (`trunks_agrees`).
-/

namespace TripleQuery

/-- A yield is an error, or what a list holds. -/
def Yield.Agrees (y : Yield) (found : List Bindings) : Prop :=
  y = ⊤ ∨ y = .of found

namespace Yield.Agrees

variable {y : Yield} {l l' : List Bindings} {k : Bindings → Yield}
  {found : Bindings → List Bindings}

theorem perm (h : y.Agrees l) (hl : l.Perm l') : y.Agrees l' :=
  h.imp_right fun he => he.trans (of_eq_of_perm hl)

/-- What is found from each of some binding sets. -/
theorem sum (h : ∀ x ∈ l, (k x).Agrees (found x)) : Agrees ((l.map k).sum) (l.flatMap found) := by
  induction l with
  | nil => exact .inr rfl
  | cons x l ih =>
    have hrest := ih fun z hz => h z (List.mem_cons_of_mem _ hz)
    rw [List.map_cons, List.sum_cons, List.flatMap_cons]
    rcases h x List.mem_cons_self with hx | hx
    · exact .inl (by rw [hx, WithTop.top_add])
    · rcases hrest with hrest | hrest
      · exact .inl (by rw [hrest, WithTop.add_top])
      · exact .inr (by rw [hx, hrest, of_append])

/-- Going on from what is found. -/
theorem bind (h : y.Agrees l) (hk : ∀ x ∈ l, (k x).Agrees (found x)) :
    (y.bind k).Agrees (l.flatMap found) := by
  rcases h with rfl | rfl
  · exact .inl rfl
  · rw [bind_of]
    exact .sum hk

/-- The empty binding set stands in for nothing, here and there. -/
theorem orEmpty (h : y.Agrees l) : y.orEmpty.Agrees (TripleQuery.orEmpty l) := by
  rcases h with rfl | rfl
  · exact .inl rfl
  · refine .inr ?_
    cases l with
    | nil => rfl
    | cons x l => rfl

end Yield.Agrees

/-! ## Triples -/

variable {g : Graph} {cs : Constraints} {b x : Bindings} {remaining : List Statement}
  {p : Plan} {triple : Statement}

/-- The join of some triples, without what breaks the constraints. -/
def allowedJoins (g : Graph) (cs : Constraints) (remaining : List Statement) (b : Bindings) :
    List Bindings :=
  (joins g.statements.toList remaining b).filter cs.satisfiedBy

/-- What breaks the constraints goes on to nothing. -/
theorem allowedJoins_eq_nil (hb : b.OnVariables) (h : cs.satisfiedBy b = false) :
    allowedJoins g cs remaining b = [] := by
  refine List.filter_eq_nil_iff.2 fun x hx hsat => ?_
  have hext := (extends_of_mem_joins hb hx).2
  rw [Constraints.satisfiedBy_of_extends hext hsat] at h
  cases h

/-- It can be given up at once. -/
theorem flatMap_allowedJoins {bs : List Bindings} (hbs : ∀ b ∈ bs, b.OnVariables) :
    bs.flatMap (allowedJoins g cs remaining) =
      (bs.filter cs.satisfiedBy).flatMap (allowedJoins g cs remaining) := by
  induction bs with
  | nil => rfl
  | cons b bs ih =>
    have hrest := ih fun x hx => hbs x (List.mem_cons_of_mem _ hx)
    by_cases hb : cs.satisfiedBy b = true
    · rw [List.filter_cons_of_pos hb, List.flatMap_cons, List.flatMap_cons, hrest]
    · have hnil : allowedJoins g cs remaining b = [] :=
        allowedJoins_eq_nil (hbs b List.mem_cons_self) (by simpa using hb)
      rw [List.filter_cons_of_neg hb, List.flatMap_cons, hrest, hnil, List.nil_append]

/-- Some triple is taken first, among its candidates. -/
theorem allowedJoins_perm (hu : g.Unmerged) (hg : g.Reachable) (hb : b.OnVariables) {k : Nat}
    (ht : remaining[k]? = some triple) :
    (allowedJoins g cs remaining b).Perm
      (((g.prepare b triple).candidates.toList.filterMap fun s =>
        b.fitAll? triple.terms s.terms).flatMap (allowedJoins g cs (remaining.eraseIdx k))) := by
  obtain ⟨hk, rfl⟩ := List.getElem?_eq_some_iff.1 ht
  have hperm : (joins g.statements.toList remaining b).Perm
      (((g.prepare b remaining[k]).candidates.toList.filterMap fun s =>
        b.fitAll? remaining[k].terms s.terms).flatMap
          (joins g.statements.toList (remaining.eraseIdx k))) := by
    refine (joins_perm (List.getElem_cons_eraseIdx_perm hk).symm hb).trans ?_
    rw [joins_cons_filterMap]
    exact (hu.filterMap_candidates_perm hg hb _).symm.flatMap_right _
  refine (hperm.filter _).trans (.of_eq ?_)
  rw [List.filter_flatMap]
  rfl

/-- **Whatever order the triples are taken in, the matches are those of the
join.** -/
theorem trunks_agrees (hu : g.Unmerged) (hg : g.Reachable) (hb : b.OnVariables)
    (hsat : cs.satisfiedBy b) :
    (trunks g cs remaining b).Agrees (allowedJoins g cs remaining b) := by
  induction remaining, b using Graph.plan_induction (g := g) with
  | nil b =>
    refine .inr ?_
    rw [trunks_nil, allowedJoins, joins_nil, List.filter_cons_of_pos hsat, List.filter_nil]
  | stuck remaining b triple hne hp hm hnone =>
    rw [trunks_of_plan_eq_none hne hp]
    obtain ⟨k, hk⟩ := List.mem_iff_getElem?.1 hm
    have hempty : (allowedJoins g cs remaining b).Perm _ := allowedJoins_perm hu hg hb hk
    rw [hnone] at hempty
    exact Yield.Agrees.perm (.inr rfl) hempty.symm
  | planned remaining b p triple hne hp ht he ih =>
    rw [trunks_of_plan_eq_some hne hp ht]
    cases hbs : Frame.alternatives g b triple p.estimate.candidates.toList with
    | error e => exact .inl rfl
    | ok bs =>
      have hfound := Frame.alternatives_eq hu hb hbs
      rw [he] at hfound
      refine Yield.Agrees.perm ?_ (allowedJoins_perm hu hg hb ht).symm
      rw [← hfound]
      have hbs' : ∀ b' ∈ bs, b'.OnVariables := by
        intro b' hb'
        rw [hfound] at hb'
        obtain ⟨s, -, hs⟩ := List.mem_filterMap.1 hb'
        exact (Bindings.unifies_of_fitAll? hb hs).onVariables hb
      rw [flatMap_allowedJoins hbs']
      refine .sum fun b' hb' => ?_
      obtain ⟨hm, hsat'⟩ := List.mem_filter.1 hb'
      exact ih b' (hbs' b' hm) hsat'

/-! ## Patterns -/

mutual

/-- **A search finds what its pattern means**, unless it meets an error. -/
theorem answers_agrees (hu : g.Unmerged) (hg : g.Reachable) : ∀ (p : Pattern)
    (outer : Constraints) (b : Bindings), p.BindsVariables → b.OnVariables →
      (answers g outer p b).Agrees (leftJoin g.statements.toList outer p b)
  | ⟨triples, optionals, constraints, initial⟩, outer, b, hp, hb => by
    rw [answers, leftJoin]
    split
    · rename_i hsat
      refine (trunks_agrees hu hg hb hsat).bind fun trunk htrunk => ?_
      have hv : trunk.OnVariables :=
        (extends_of_mem_joins hb (List.mem_of_mem_filter htrunk)).1
      exact combine_agrees hu hg optionals _ trunk trunk hp.optionals hv
    · exact .inr rfl

/-- And its clauses contribute what they mean. -/
theorem combine_agrees (hu : g.Unmerged) (hg : g.Reachable) : ∀ (clauses : List Pattern)
    (inForce : Constraints) (trunk sofar : Bindings), Pattern.AllBindVariables clauses →
      trunk.OnVariables →
      (Yield.combine sofar (clauseAnswers g inForce trunk clauses)).Agrees
        (joinClauses g.statements.toList inForce trunk sofar clauses)
  | [], inForce, trunk, sofar, _, _ => by
    rw [clauseAnswers, joinClauses]
    exact .inr rfl
  | clause :: clauses, inForce, trunk, sofar, hc, hv => by
    rw [clauseAnswers, joinClauses, Yield.combine]
    have hstart : (clause.initial ∪ trunk).OnVariables := hc.1.initial.union hv
    refine (answers_agrees hu hg clause inForce _ hc.1 hstart).orEmpty.bind fun r _ => ?_
    exact combine_agrees hu hg clauses inForce trunk (sofar ∪ r) hc.2 hv

end

end TripleQuery
