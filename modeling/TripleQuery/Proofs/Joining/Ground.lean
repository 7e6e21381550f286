import TripleQuery.Proofs.Joining.Course
import TripleQuery.Proofs.Joining.Quotient
import TripleQuery.Proofs.Joining.Scanning
import TripleQuery.Proofs.Merging.Finding
import TripleQuery.Proofs.Merging.Sameness
/-!
# Ground triples — one question, asked in two ways

A triple without variables can be looked up, which is to ask whether the store
says so, and it can be searched for. Both ways lead to the same bucket, the
first of the shortest of three (`candidates_prepare`). The lookup keeps the
statements with the same terms. The search unifies, which for a ground term is
to compare it as well (`unifyTerm_ground`), unless a collection of the triple
comes up against something that is none: then it meets an error, also where the
lookup has its answer (`clash?`). The first such clash in the bucket is the
course of the search, and if there is none, it finds the empty binding set as
often as the lookup finds a statement (`course_ground`).
-/

namespace TripleQuery

/-- What a lookup of a triple asks for. -/
def StatementFilter.ofTriple (triple : Statement) : StatementFilter :=
  Graph.tripleFilter triple.subject triple.predicate triple.object

/-- The pattern that asks for one triple. -/
def Pattern.ofTriple (triple : Statement) : Pattern where
  triples := [triple]

/-- Finding each of some binding sets is finding all of them. -/
theorem Course.sum_map_of_singleton (l : List Bindings) :
    (l.map fun b => Course.of [b]).sum = .of l := by
  induction l with
  | nil => rfl
  | cons b l ih => rw [List.map_cons, List.sum_cons, ih, ← of_append, List.singleton_append]

namespace Graph

variable {g : Graph} {b : Bindings} {triple s : Statement} {candidates ss : List Statement}

/-! ## Where terms clash -/

mutual

/-- Where a ground term clashes with a datum: the first collection in it that is
compared with something that is none, and what it is compared with. -/
def clash? (g : Graph) : Term → Term → Option (Term × Term)
  | .collection xs, .collection ys =>
    if xs.length = ys.length then clashAll? g xs ys else none
  | .collection xs, y => some (.collection xs, y)
  | _, _ => none

/-- Where ground terms clash with others, before two of them differ. -/
def clashAll? (g : Graph) : List Term → List Term → Option (Term × Term)
  | x :: xs, y :: ys =>
    (clash? g x y).or (if g.same x y then clashAll? g xs ys else none)
  | _, _ => none

end

/-- An atomic term clashes with nothing. -/
theorem clash?_of_isAtomic {x : Term} (hx : x.isAtomic) (y : Term) : g.clash? x y = none := by
  cases x <;> simp_all [clash?, Term.isAtomic]

/-- And so do atomic terms. -/
theorem clashAll?_of_isAtomic {xs : List Term} (hxs : ∀ x ∈ xs, x.isAtomic) (ys : List Term) :
    g.clashAll? xs ys = none := by
  induction xs generalizing ys with
  | nil => simp [clashAll?]
  | cons x xs ih =>
    cases ys with
    | nil => simp [clashAll?]
    | cons y ys =>
      have hx := clash?_of_isAtomic (g := g) (hxs x List.mem_cons_self) y
      have hrest := ih (fun x hx => hxs x (List.mem_cons_of_mem _ hx)) ys
      rw [clashAll?, hx, hrest, Option.none_or, ite_self]

/-! ## To unify is to compare -/

/-- What comes of a comparison: the error of a clash, or the bindings if the
terms are the same. -/
def compared (b : Bindings) (clash : Option (Term × Term)) (alike : Bool) :
    Except QueryError (List Bindings) :=
  match clash with
  | some (xs, y) => .error (.shapeMismatch xs y)
  | none => .ok (keepIf b alike)

mutual

/-- **To unify a ground term is to compare it.** -/
theorem unifyTerm_ground (hb : b.OnVariables) : ∀ x y : Term, x.variableList = [] →
    g.unifyTerm b x y = compared b (g.clash? x y) (g.same x y)
  | .var name, y, hx => by simp [Term.variableList] at hx
  | .blank id, y, hx => by simp [Term.variableList] at hx
  | .symbol iri, y, _ => by
    rw [unifyTerm, ← Bindings.substitute_of_isAtomic b rfl, substitute_of_isConstant hb rfl,
      clash?_of_isAtomic rfl]
    rfl
  | .literal l, y, _ => by
    rw [unifyTerm, ← Bindings.substitute_of_isAtomic b rfl, substitute_of_isConstant hb rfl,
      clash?_of_isAtomic rfl]
    rfl
  | .collection xs, y, hx => by
    have hnone : b[Term.collection xs]? = none :=
      hb.getElem?_eq_none (by simp [Term.isVariable])
    rw [Term.variableList] at hx
    unfold unifyTerm
    rw [hnone]
    by_cases hy : y.isAtomic
    · cases y <;> simp_all [Term.isAtomic, clash?, compared]
    · obtain ⟨ys, rfl⟩ := Term.eq_collection_of_not_isAtomic hy
      have hsame : g.same (.collection xs) (.collection ys) = g.redirections.sameAll xs ys :=
        Redirections.same_collection _ xs ys
      rw [hsame, clash?]
      by_cases hlen : xs.length = ys.length
      · simp only [if_pos hlen]
        exact unifyAll_ground hb xs ys hx hlen
      · have hne : g.redirections.sameAll xs ys = false := by
          rw [← Bool.not_eq_true, Redirections.sameAll_iff]
          exact fun hall => hlen hall.length_eq
        simp [hlen, hne, compared, keepIf]

/-- **And so it is for ground terms one by one.** -/
theorem unifyAll_ground (hb : b.OnVariables) : ∀ xs ys : List Term,
    Term.variableLists xs = [] → xs.length = ys.length →
      g.unifyAll b xs ys = compared b (g.clashAll? xs ys) (g.redirections.sameAll xs ys)
  | [], [], _, _ => by simp [unifyAll, clashAll?, Redirections.sameAll, compared, keepIf]
  | [], y :: ys, _, hlen => by cases hlen
  | x :: xs, [], _, hlen => by cases hlen
  | x :: xs, y :: ys, hx, hlen => by
    obtain ⟨hx, hxs⟩ := List.append_eq_nil_iff.1 hx
    have hfirst := unifyTerm_ground hb x y hx
    have hrest := unifyAll_ground hb xs ys hxs (Nat.succ.inj hlen)
    have hsame : g.redirections.same x y = g.same x y := rfl
    rw [unifyAll, hfirst, clashAll?, Redirections.sameAll, hsame]
    cases hc : g.clash? x y with
    | some c => simp [compared]
    | none =>
      cases ha : g.same x y with
      | false => simp [compared, keepIf, Except.map, pure, Except.pure]
      | true =>
        simp only [compared, keepIf, if_true, List.mapM_cons, List.mapM_nil, hrest,
          Option.none_or, Bool.true_and]
        cases g.clashAll? xs ys <;> simp [Except.map, pure, Except.pure, bind, Except.bind]

end

/-! ## The bucket that both ways lead to -/

/-- The statements among which a triple is looked up: the first of the shortest
of the three buckets. -/
def bucketOf (g : Graph) (triple : Statement) : Array Statement :=
  (narrowest (g.buckets (.ofTriple triple))).getD g.statements

/-- A statement has what is asked for when the terms are the same. -/
theorem agrees_ofTriple (triple s : Statement) :
    g.agrees (.ofTriple triple) s = g.redirections.sameAll triple.terms s.terms := by
  have hsymm : ∀ x y, g.same x y = g.redirections.same y x := fun x y =>
    Bool.eq_iff_iff.2 ⟨same_symm, Redirections.same_symm⟩
  simp [agrees, agreesAt, agreesOnWhy, StatementFilter.ofTriple, tripleFilter, Position.all,
    ByPosition.get, Statement.term, Statement.terms, Redirections.sameAll, hsymm]

/-- A term without variables stays as it is. -/
theorem substitute_ground (hb : b.OnVariables) {t : Term} (ht : t.variableList = []) :
    b.substitute t = t := by
  induction t using Term.atomic_induction with
  | atomic t ha =>
    rcases Term.isVariable_or_isConstant ha with hv | hc
    · rw [Term.variableList_of_isVariable hv] at ht
      cases ht
    · exact substitute_of_isConstant hb hc
  | collection ts ih =>
    have hparts : ∀ t ∈ ts, b.substitute t = t := by
      intro t hm
      refine ih t hm (List.eq_nil_iff_forall_not_mem.2 fun v hv => ?_)
      rw [Term.variableList] at ht
      have hmem : v ∈ Term.variableLists ts := Term.mem_variableLists.2 ⟨t, hm, hv⟩
      rw [ht] at hmem
      cases hmem
    rw [Bindings.substitute, Bindings.substituteAll_eq_map, List.map_congr_left hparts,
      List.map_id']

/-- No term of a ground triple has a variable. -/
theorem variableList_term_ground (hg : triple.variableList = []) (p : Position) :
    (triple.term p).variableList = [] := by
  simp only [Statement.variableList, Statement.terms, Term.variableLists, List.append_eq_nil_iff]
    at hg
  obtain ⟨hs, hp, ho, -⟩ := hg
  cases p with
  | subject => exact hs
  | predicate => exact hp
  | object => exact ho

/-- **A ground triple is searched for where it is looked up.** -/
theorem candidates_prepare (hg : triple.variableList = []) :
    (g.prepare ∅ triple).candidates = g.bucketOf triple := by
  have hbound : boundPositions ∅ triple = Position.all := by
    refine List.filter_eq_self.2 fun p _ => ?_
    rw [Bool.not_eq_true', ← Bool.not_eq_true, Bindings.hasUnbound_iff,
      variableList_term_ground hg p]
    simp
  have hsame : ∀ p, (∅ : Bindings).substitute (triple.term p) = triple.term p := fun p =>
    substitute_ground Bindings.onVariables_empty (variableList_term_ground hg p)
  simp only [prepare, hbound, hsame]
  rfl

/-- The first clash of a triple with some statements. -/
def firstClash? (g : Graph) (triple : Statement) (ss : List Statement) : Option (Term × Term) :=
  ss.findSome? fun s => g.clashAll? triple.terms s.terms

theorem firstClash?_cons (g : Graph) (triple s : Statement) (ss : List Statement) :
    g.firstClash? triple (s :: ss) =
      (g.clashAll? triple.terms s.terms).or (g.firstClash? triple ss) := by
  rw [firstClash?, List.findSome?_cons]
  cases g.clashAll? triple.terms s.terms <;> rfl

/-- **A ground triple is found once for each candidate that agrees**, unless it
clashes with one. -/
theorem alternatives_ground (hb : b.OnVariables) (hg : triple.variableList = [])
    (ss : List Statement) : Frame.alternatives g b triple ss =
      match g.firstClash? triple ss with
      | some (xs, y) => .error (.shapeMismatch xs y)
      | none => .ok (List.replicate (ss.filter (g.agrees (.ofTriple triple))).length b) := by
  induction ss with
  | nil => rfl
  | cons s ss ih =>
    have hunify : g.unifyStatement b triple s =
        compared b (g.clashAll? triple.terms s.terms) (g.agrees (.ofTriple triple) s) := by
      rw [agrees_ofTriple]
      exact unifyAll_ground hb triple.terms s.terms hg rfl
    rw [alternatives_cons, hunify, ih, firstClash?_cons, List.filter_cons]
    cases g.clashAll? triple.terms s.terms with
    | some c => rfl
    | none =>
      rw [Option.none_or]
      cases g.firstClash? triple ss with
      | some c => cases g.agrees (.ofTriple triple) s <;> rfl
      | none => cases g.agrees (.ofTriple triple) s <;> rfl

/-! ## What a search for a ground triple finds -/

/-- The first clash of a triple in the bucket in which it is looked up. -/
def bucketClash? (g : Graph) (triple : Statement) : Option (Term × Term) :=
  g.firstClash? triple (g.bucketOf triple).toList

/-- What is foreseen of a search for a ground triple. -/
def groundCourse (g : Graph) (triple : Statement) : Course :=
  match g.bucketClash? triple with
  | some (xs, y) => .failing (.shapeMismatch xs y)
  | none => .of (List.replicate (g.matching (.ofTriple triple)).size ∅)

/-- What a lookup keeps of its bucket. -/
theorem length_filter_bucketOf (g : Graph) (triple : Statement) :
    ((g.bucketOf triple).toList.filter (g.agrees (.ofTriple triple))).length =
      (g.matching (.ofTriple triple)).size := by
  rw [← Array.toList_filter]
  rfl

/-- What the triple itself is matched with. -/
theorem trunkCourse_ground {cs : Constraints} (hg : triple.variableList = [])
    (hcs : ∀ b, cs.satisfiedBy b) : trunkCourse g cs [triple] ∅ = g.groundCourse triple := by
  have hcandidates := candidates_prepare (g := g) hg
  have hlookup := g.length_filter_bucketOf triple
  have halternatives := alternatives_ground (g := g) Bindings.onVariables_empty hg
    (g.bucketOf triple).toList
  unfold groundCourse bucketClash?
  cases hp : g.plan ∅ [triple] with
  | none =>
    -- the bucket is empty
    obtain ⟨triple', hmem, hempty⟩ := plan_eq_none hp (List.cons_ne_nil _ _)
    obtain rfl := List.mem_singleton.1 hmem
    rw [hcandidates] at hempty
    rw [hempty] at hlookup ⊢
    rw [trunkCourse_of_plan_eq_none (List.cons_ne_nil _ _) hp, ← hlookup]
    rfl
  | some p =>
    obtain ⟨triple', ht, he, -⟩ := plan_eq_some hp
    obtain ⟨hselected, rfl⟩ : p.selected = 0 ∧ triple = triple' := by
      simpa [List.getElem?_singleton] using ht
    rw [trunkCourse_of_plan_eq_some (List.cons_ne_nil _ _) hp ht, he, hcandidates, halternatives,
      hlookup]
    cases g.firstClash? triple (g.bucketOf triple).toList with
    | some c => rfl
    | none =>
      have hall : ∀ bs : List Bindings, bs.filter cs.satisfiedBy = bs := fun bs =>
        List.filter_eq_self.2 fun b _ => hcs b
      have hleft : [triple].eraseIdx p.selected = [] := by rw [hselected]; rfl
      have hnothing : trunkCourse g cs [] = fun b => .of [b] := funext (trunkCourse_nil g cs)
      simp only [hall, hleft, hnothing, Course.sum_map_of_singleton]

/-- **The course of a search for a ground triple** is the first clash in its
bucket, and without one the empty binding set, as often as the lookup finds a
statement. -/
theorem course_ground (hg : triple.variableList = []) :
    course g ∅ (.ofTriple triple) ∅ = g.groundCourse triple := by
  have hsat : ∀ b, ((∅ : Constraints) ∪ ∅).satisfiedBy b := fun b => by
    rw [Constraints.satisfiedBy_iff]
    simp
  have hjoin : (fun trunk => Course.join trunk (clauseCourses g (∅ ∪ ∅) trunk [])) =
      fun b => .of [b] := by
    funext trunk
    rw [clauseCourses]
    rfl
  rw [Pattern.ofTriple, course, if_pos (hsat ∅), trunkCourse_ground hg hsat, hjoin, groundCourse]
  cases g.bucketClash? triple with
  | some c => rfl
  | none => rw [Course.bind_of, Course.sum_map_of_singleton]

/-- A triple of atomic terms clashes with nothing. -/
theorem bucketClash?_of_isAtomic (h : ∀ p, (triple.term p).isAtomic) :
    g.bucketClash? triple = none := by
  refine List.findSome?_eq_none_iff.2 fun s _ => clashAll?_of_isAtomic (fun x hx => ?_) _
  rw [Statement.terms_eq_map_term] at hx
  obtain ⟨p, -, rfl⟩ := List.mem_map.1 hx
  exact h p

/-- The store says so when the lookup finds something. -/
theorem holds_iff (g : Graph) (triple : Statement) :
    g.holds triple.subject triple.predicate triple.object ↔
      (g.matching (.ofTriple triple)).size ≠ 0 := by
  rw [holds, Bool.not_eq_true', ← Bool.not_eq_true, Array.isEmpty_iff_size_eq_zero]
  rfl

/-- A statement whose terms are those of a triple. -/
theorem agrees_ofTriple_iff :
    g.agrees (.ofTriple triple) s ↔ ∀ p, g.same (s.term p) (triple.term p) := by
  rw [agrees_iff]
  constructor
  · intro h p
    exact h.1 p (triple.term p) (by cases p <;> rfl)
  · intro h
    refine ⟨fun p t ht => ?_, fun w hw => by cases hw⟩
    have hterm : t = triple.term p := by cases p <;> exact (Option.some.inj ht).symm
    rw [hterm]
    exact h p

/-- Sameness, and what agrees, is about merged terms only. -/
theorem agrees_add (g : Graph) (s : Statement) : (g.add s).agrees = g.agrees := by
  have hsame : (g.add s).same = g.same := by
    unfold same
    rw [redirections_add]
  have hat : (g.add s).agreesAt = g.agreesAt := by
    funext f r p
    rw [agreesAt, agreesAt, hsame]
  have hwhy : (g.add s).agreesOnWhy = g.agreesOnWhy := by
    funext f r
    rw [agreesOnWhy, agreesOnWhy, hsame]
  funext f r
  rw [agrees, agrees, hat, hwhy]

/-- A scan passes over a statement that does not agree. -/
theorem scanAll_add {f : StatementFilter} (h : ¬ g.agrees f s) :
    (g.add s).scanAll f = g.scanAll f := by
  rw [scanAll, scanAll, agrees_add, statements_add]
  split
  · rfl
  · rw [Array.toList_push, List.filter_append, List.filter_cons_of_neg h, List.filter_nil,
      List.append_nil]

/-- **What says something else changes no answer**: where no collection was
merged, a lookup finds as many statements once statements were added that have
another term at some position. -/
theorem AtomReachable.size_matching_addAll (hg : g.AtomReachable)
    (hss : ∀ s ∈ ss, ∃ p, ¬ g.same (s.term p) (triple.term p)) :
    ((g.addAll ss).matching (.ofTriple triple)).size = (g.matching (.ofTriple triple)).size := by
  have hsize : ∀ {g : Graph}, g.AtomReachable → (g.matching (.ofTriple triple)).size =
      (g.scanAll (.ofTriple triple)).length := fun hg => by
    rw [← (hg.matching_perm_scan _).length_eq, Array.length_toList]
  have hnot : ∀ s ∈ ss, ¬ g.agrees (.ofTriple triple) s := by
    intro s hs h
    obtain ⟨p, hp⟩ := hss s hs
    exact hp (agrees_ofTriple_iff.1 h p)
  rw [hsize hg, hsize (hg.addAll ss)]
  clear hg hss
  induction ss generalizing g with
  | nil => rfl
  | cons s ss ih =>
    have hlater : ∀ s' ∈ ss, ¬ (g.add s).agrees (.ofTriple triple) s' := by
      rw [agrees_add]
      exact fun s' hs' => hnot s' (List.mem_cons_of_mem _ hs')
    rw [← scanAll_add (hnot s List.mem_cons_self)]
    exact ih hlater

/-- Two statements about a list, under the name that its element has now. -/
def aboutRenamed : List Statement :=
  [⟨.collection [.symbol "a"], .symbol "q", .symbol "x", none⟩,
    ⟨.collection [.symbol "a"], .symbol "q", .symbol "y", none⟩]

/-- **Where a collection was merged they may change it**: they fill the bucket in
which a statement is looked for that was filed elsewhere, and the lookup turns to
a bucket that has it. -/
theorem not_forall_size_matching_addAll :
    ¬ ∀ (g : Graph) (triple : Statement) (ss : List Statement), g.Reachable →
      (∀ s ∈ ss, ∃ p, ¬ g.same (s.term p) (triple.term p)) →
        ((g.addAll ss).matching (.ofTriple triple)).size =
          (g.matching (.ofTriple triple)).size := by
  intro hall
  have hreach : (listedMerged.redirect (.symbol "b") (.symbol "a")).Reachable :=
    .equate (.equate (.add listed .empty) equate_listed) equate_listedMerged
  have hother : ∀ s ∈ aboutRenamed, ∃ p,
      ¬ (listedMerged.redirect (.symbol "b") (.symbol "a")).same (s.term p) (listed.term p) := by
    intro s hs
    refine ⟨.predicate, ?_⟩
    simp only [aboutRenamed, List.mem_cons, List.not_mem_nil, or_false] at hs
    rcases hs with rfl | rfl <;> decide +kernel
  have hsame := hall _ listed aboutRenamed hreach hother
  revert hsame
  decide +kernel

end Graph

end TripleQuery
