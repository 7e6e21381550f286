import TripleQuery.Proofs.Joining.Agreement
import TripleQuery.Proofs.Merging.Atoms
/-!
# The quotient — a store with merged terms, read by its keys

Replace every term of a store by its key, the symbols and literals of a pattern
by theirs, and values by theirs: merged terms are then equal terms, and matching
up to merged terms is fitting exactly. Unification answers with bindings whose
keyed values are what fits (`AtomReachable.unifyAll_finds`), the candidates of a
triple leave out nothing that fits (`AtomReachable.filterMap_candidates_perm`),
and so, in whatever order the triples are taken and whichever of several merged
terms is bound on the way, the matches are those of the join in the quotient
(`AtomReachable.trunks_agrees`).

All of this is about stores in which no collection was merged, however deeply
their terms nest.
-/

namespace TripleQuery

namespace Term

/-- A symbol or a literal. -/
def isConstant : Term → Bool
  | symbol _ | literal _ => true
  | _ => false

/-- Symbols and literals are constants, and nothing else is. -/
theorem isConstant_iff_exists {t : Term} :
    t.isConstant ↔ (∃ iri, t = .symbol iri) ∨ ∃ l, t = .literal l := by
  cases t <;> simp [isConstant]

/-- Nothing else is kept before a literal. -/
theorem isConstant_iff {t : Term} : t.isConstant ↔ t.mergeRank ≤ 1 := by
  rw [isConstant_iff_exists]
  cases t <;> simp [mergeRank]

theorem isAtomic_of_isConstant {t : Term} (h : t.isConstant) : t.isAtomic := by
  rcases isConstant_iff_exists.1 h with ⟨iri, rfl⟩ | ⟨l, rfl⟩ <;> rfl

theorem not_isVariable_of_isConstant {t : Term} (h : t.isConstant) : ¬ t.isVariable := by
  rcases isConstant_iff_exists.1 h with ⟨iri, rfl⟩ | ⟨l, rfl⟩ <;> exact Bool.false_ne_true

/-- An atomic term stands for something or is a constant. -/
theorem isVariable_or_isConstant {t : Term} (h : t.isAtomic) : t.isVariable ∨ t.isConstant := by
  cases t with
  | var _ | blank _ => exact .inl rfl
  | symbol _ | literal _ => exact .inr rfl
  | collection items => cases h

/-- No variable occurs in a constant. -/
theorem variableList_of_isConstant {t : Term} (h : t.isConstant) : t.variableList = [] := by
  rcases isConstant_iff_exists.1 h with ⟨iri, rfl⟩ | ⟨l, rfl⟩ <;> simp [variableList]

theorem variableList_of_isVariable {t : Term} (h : t.isVariable) : t.variableList = [t] := by
  cases t <;> simp_all [isVariable, variableList]

end Term

namespace Graph

variable {g g' : Graph} {a b' keep t v x y : Term} {xs ys : List Term} {b : Bindings}
  {s triple : Statement} {pos : Position} {k : Nat} {remaining : List Statement}

/-! ## Keys in the place of terms -/

mutual

/-- A term of a pattern with its symbols and literals replaced by their keys,
also inside collections. -/
def keyedTerm (g : Graph) : Term → Term
  | .var name => .var name
  | .blank id => .blank id
  | .symbol iri => g.key (.symbol iri)
  | .literal l => g.key (.literal l)
  | .collection items => .collection (keyedTerms g items)

/-- The same for a list of terms. -/
def keyedTerms (g : Graph) : List Term → List Term
  | [] => []
  | t :: ts => keyedTerm g t :: keyedTerms g ts

end

/-- A triple of a pattern with its symbols and literals replaced by their keys. -/
def keyedTriple (g : Graph) (triple : Statement) : Statement :=
  ⟨g.keyedTerm triple.subject, g.keyedTerm triple.predicate, g.keyedTerm triple.object,
    triple.why⟩

/-- A statement with every term replaced by its key. -/
def keyedStatement (g : Graph) (s : Statement) : Statement :=
  ⟨g.key s.subject, g.key s.predicate, g.key s.object, s.why.map g.key⟩

/-- The statements of the store with every term replaced by its key. Different
statements may become equal, and are kept apart. -/
def keyedStatements (g : Graph) : List Statement :=
  g.statements.toList.map g.keyedStatement

/-- Bindings with every value replaced by its key. -/
def keyedValues (g : Graph) (b : Bindings) : Bindings :=
  b.map fun _ value => g.key value

theorem keyedTerms_eq_map (g : Graph) (ts : List Term) : g.keyedTerms ts = ts.map g.keyedTerm := by
  induction ts with
  | nil => simp [keyedTerms]
  | cons t ts ih => simp [keyedTerms, ih]

theorem keyedTerm_of_isVariable (g : Graph) (hv : v.isVariable) : g.keyedTerm v = v := by
  cases v <;> simp_all [keyedTerm, Term.isVariable]

theorem keyedTerm_of_isConstant (g : Graph) (hx : x.isConstant) : g.keyedTerm x = g.key x := by
  cases x <;> simp_all [keyedTerm, Term.isConstant]

theorem keyedTerm_collection (g : Graph) (ts : List Term) :
    g.keyedTerm (.collection ts) = .collection (ts.map g.keyedTerm) := by
  rw [keyedTerm, keyedTerms_eq_map]

@[simp] theorem terms_keyedTriple (g : Graph) (triple : Statement) :
    (g.keyedTriple triple).terms = g.keyedTerms triple.terms := by
  simp [keyedTriple, Statement.terms, keyedTerms]

@[simp] theorem terms_keyedStatement (g : Graph) (s : Statement) :
    (g.keyedStatement s).terms = s.terms.map g.key := rfl

@[simp] theorem term_keyedTriple (g : Graph) (triple : Statement) (pos : Position) :
    (g.keyedTriple triple).term pos = g.keyedTerm (triple.term pos) := by
  cases pos <;> rfl

@[simp] theorem term_keyedStatement (g : Graph) (s : Statement) (pos : Position) :
    (g.keyedStatement s).term pos = g.key (s.term pos) := by
  cases pos <;> rfl

theorem getElem?_keyedValues (g : Graph) (b : Bindings) (v : Term) :
    (g.keyedValues b)[v]? = b[v]?.map g.key := by
  simp [keyedValues]

@[simp] theorem mem_keyedValues : v ∈ g.keyedValues b ↔ v ∈ b := by
  simp [keyedValues]

/-- Binding a value is binding its key. -/
theorem keyedValues_bind (g : Graph) (b : Bindings) (v y : Term) :
    g.keyedValues (b.bind v y) = (g.keyedValues b).bind v (g.key y) := by
  ext w value
  rw [getElem?_keyedValues, Bindings.getElem?_bind, Bindings.getElem?_bind, getElem?_keyedValues]
  split <;> rfl

theorem onVariables_keyedValues (hb : b.OnVariables) : (g.keyedValues b).OnVariables :=
  fun v hv => hb v (mem_keyedValues.1 hv)

/-! ## The keys of symbols and literals -/

/-- What is kept of two merged keys ranks no higher than the other. -/
theorem mergeRank_keep_le {lose : Term}
    (hp : (g.key a).isPreferred (g.key b') = decide (keep = g.key a))
    (hne : g.key a ≠ g.key b')
    (hcase : lose = g.key a ∧ keep = g.key b' ∨ lose = g.key b' ∧ keep = g.key a) :
    keep.mergeRank ≤ lose.mergeRank := by
  rcases hcase with ⟨rfl, rfl⟩ | ⟨rfl, rfl⟩
  · rw [decide_eq_false hne.symm] at hp
    simp only [Term.isPreferred, Bool.or_eq_false_iff, decide_eq_false_iff_not] at hp
    omega
  · rw [decide_eq_true rfl] at hp
    simp only [Term.isPreferred, Bool.or_eq_true, Bool.and_eq_true, decide_eq_true_eq] at hp
    omega

/-- **A key ranks no higher than its term**, so that the key of a symbol or a
literal is a symbol or a literal. -/
theorem AtomReachable.mergeRank_key_le (hg : g.AtomReachable) (ht : t.isAtomic) :
    (g.key t).mergeRank ≤ t.mergeRank := by
  induction hg with
  | empty =>
    have hkey : Graph.empty.key t = t := unmerged_empty.key_eq t
    rw [hkey]
  | add s _ ih =>
    rw [Graph.key, redirections_add]
    exact ih
  | @equate g g' a b keep hg _ _ he ih =>
    rcases equate_cases he with ⟨-, rfl, -⟩ | ⟨hne, lose, rfl, hp, hcase⟩
    · exact ih
    · have hold : g.redirections.canonical t = g.key t :=
        (Redirections.key_of_isAtomic _ ht).symm
      rw [Graph.key, Redirections.key_of_isAtomic _ ht, redirections_redirect,
        Redirections.canonical_cons, hold]
      split
      · rename_i hlose
        have hkeep : keep.mergeRank ≤ lose.mergeRank := mergeRank_keep_le hp hne hcase
        rw [← hlose] at hkeep
        exact hkeep.trans ih
      · exact ih

/-- The key of a constant is a constant. -/
theorem AtomReachable.isConstant_key (hg : g.AtomReachable) (hx : x.isConstant) :
    (g.key x).isConstant :=
  Term.isConstant_iff.2
    ((hg.mergeRank_key_le (Term.isAtomic_of_isConstant hx)).trans (Term.isConstant_iff.1 hx))

/-- A constant fits what it is. -/
theorem fit?_of_isConstant (hx : x.isConstant) (b : Bindings) (y : Term) :
    b.fit? x y = if x = y then some b else none := by
  cases x <;> simp_all [Bindings.fit?, Term.isConstant]

/-- Nothing is ever put in the place of a constant. -/
theorem substitute_of_isConstant (hb : b.OnVariables) (hx : x.isConstant) :
    b.substitute x = x := by
  rw [Bindings.substitute_of_isAtomic b (Term.isAtomic_of_isConstant hx)]
  exact Bindings.resolve_of_getElem?_eq_none
    (hb.getElem?_eq_none (Term.not_isVariable_of_isConstant hx))

/-! ## Unification finds what fits in the quotient -/

/-- What unification answers is, with keyed values, what fits, or it answers
nothing and nothing fits. -/
def FindsUpToKeys (g : Graph) (answer : Except QueryError (List Bindings))
    (fit : Option Bindings) : Prop :=
  (∃ found : Option Bindings, answer = .ok found.toList ∧ found.map g.keyedValues = fit) ∨
    (∃ e, answer = .error e) ∧ fit = none

/-- What needs no new value is kept exactly when the keys are equal. -/
theorem AtomReachable.finds_keepIf (hg : g.AtomReachable) (b : Bindings) (x y : Term) :
    g.FindsUpToKeys (.ok (keepIf b (g.same x y)))
      (if g.key x = g.key y then some (g.keyedValues b) else none) := by
  left
  by_cases he : g.key x = g.key y
  · refine ⟨some b, ?_, by rw [if_pos he]; rfl⟩
    simp [keepIf, hg.same_iff.2 he]
  · refine ⟨none, ?_, by rw [if_neg he]; rfl⟩
    simp [keepIf, hg.same_iff.not.2 he]

theorem AtomReachable.finds_variable (hg : g.AtomReachable) (b : Bindings) (v y : Term) :
    g.FindsUpToKeys (match b[v]? with
      | some value => .ok (keepIf b (g.same value y))
      | none => .ok [b.bind v y]) ((g.keyedValues b).fitVariable? v (g.key y)) := by
  unfold Bindings.fitVariable?
  rw [getElem?_keyedValues]
  cases b[v]? with
  | none => exact .inl ⟨some (b.bind v y), rfl, congrArg some (keyedValues_bind g b v y)⟩
  | some value => exact hg.finds_keepIf b value y

theorem AtomReachable.finds_constant (hg : g.AtomReachable) (hb : b.OnVariables)
    (hx : x.isConstant) (y : Term) :
    g.FindsUpToKeys (.ok (keepIf b (g.same (b.resolve x) y)))
      ((g.keyedValues b).fit? (g.key x) (g.key y)) := by
  rw [← Bindings.substitute_of_isAtomic b (Term.isAtomic_of_isConstant hx),
    substitute_of_isConstant hb hx, fit?_of_isConstant (hg.isConstant_key hx)]
  exact hg.finds_keepIf b x y

mutual

/-- **A term is unified with what its keyed form fits.** -/
theorem AtomReachable.unifyTerm_finds (hg : g.AtomReachable) : ∀ (x : Term) {b : Bindings}
    (y : Term), b.OnVariables →
      g.FindsUpToKeys (g.unifyTerm b x y) ((g.keyedValues b).fit? (g.keyedTerm x) (g.key y))
  | .var name, b, y, _ => by
    have hv := hg.finds_variable b (.var name) y
    rw [unifyTerm, keyedTerm, Bindings.fit?]
    split <;> rename_i hvalue <;> rwa [hvalue] at hv
  | .blank id, b, y, _ => by
    have hv := hg.finds_variable b (.blank id) y
    rw [unifyTerm, keyedTerm, Bindings.fit?]
    split <;> rename_i hvalue <;> rwa [hvalue] at hv
  | .symbol iri, b, y, hb => by
    rw [unifyTerm, keyedTerm]
    exact hg.finds_constant hb rfl y
  | .literal l, b, y, hb => by
    rw [unifyTerm, keyedTerm]
    exact hg.finds_constant hb rfl y
  | .collection xs, b, y, hb => by
    have hnone : b[Term.collection xs]? = none :=
      hb.getElem?_eq_none (by simp [Term.isVariable])
    unfold unifyTerm keyedTerm Bindings.fit?
    rw [hnone]
    by_cases hy : y.isAtomic
    · -- a datum that is no collection has a key that is none
      have hkey := hg.atomic.isAtomic_key hy
      right
      refine ⟨⟨.shapeMismatch (.collection xs) y, ?_⟩, ?_⟩
      · cases y <;> simp_all [Term.isAtomic]
      · change (match g.redirections.key y with | .collection _ => _ | _ => _) = _
        cases hk : g.redirections.key y <;> simp_all [Term.isAtomic]
    · obtain ⟨ys, rfl⟩ := Term.eq_collection_of_not_isAtomic hy
      have hkey : g.key (.collection ys) = .collection (ys.map g.key) :=
        hg.atomic.key_collection ys
      rw [hkey]
      by_cases hlen : xs.length = ys.length
      · simp only [if_pos hlen]
        exact hg.unifyAll_finds xs ys hb hlen
      · simp only [if_neg hlen]
        refine .inl ⟨none, rfl, ?_⟩
        rw [Bindings.fitAll?_eq_none]
        · rfl
        · simpa [keyedTerms_eq_map] using hlen

/-- **And so are lists of terms.** -/
theorem AtomReachable.unifyAll_finds (hg : g.AtomReachable) : ∀ (xs : List Term) {b : Bindings}
    (ys : List Term), b.OnVariables → xs.length = ys.length →
      g.FindsUpToKeys (g.unifyAll b xs ys)
        ((g.keyedValues b).fitAll? (g.keyedTerms xs) (ys.map g.key))
  | [], b, ys, _, hlen => by
    obtain rfl : ys = [] := List.length_eq_zero_iff.1 hlen.symm
    exact .inl ⟨some b, by simp [unifyAll], by simp [keyedTerms, Bindings.fitAll?]⟩
  | x :: xs, b, [], _, hlen => by cases hlen
  | x :: xs, b, y :: ys, hb, hlen => by
    have hlen' : xs.length = ys.length := Nat.succ.inj hlen
    rw [unifyAll, keyedTerms, List.map_cons, Bindings.fitAll?]
    rcases hg.unifyTerm_finds x y hb with ⟨found, hx, hfit⟩ | ⟨⟨e, hx⟩, hfit⟩
    · rw [← hfit, hx]
      cases found with
      | none => exact .inl ⟨none, rfl, rfl⟩
      | some b₁ =>
        have hb₁ : b₁.OnVariables := by
          rcases unifyTerm_oneWay x y hb hx with hempty | ⟨b', hone, hu⟩
          · cases hempty
          · obtain rfl : b₁ = b' := by simpa using hone
            exact hu.onVariables hb
        simp only [Option.map_some, Option.bind_some]
        rcases hg.unifyAll_finds xs ys hb₁ hlen' with ⟨rest, hrest, hfit'⟩ | ⟨⟨e, hrest⟩, hnone⟩
        · refine .inl ⟨rest, ?_, hfit'⟩
          simp only [Option.toList_some, List.mapM_cons, List.mapM_nil, hrest]
          simp [Except.map, pure, Except.pure, bind, Except.bind]
        · refine .inr ⟨⟨e, ?_⟩, hnone⟩
          simp only [Option.toList_some, List.mapM_cons, hrest]
          rfl
    · rw [hx, hfit]
      exact .inr ⟨⟨e, rfl⟩, rfl⟩

end

/-! ## Values in the place of variables -/

/-- Keyed terms have the variables of the terms. -/
theorem AtomReachable.variableList_keyedTerm (hg : g.AtomReachable) (x : Term) :
    (g.keyedTerm x).variableList = x.variableList := by
  induction x using Term.atomic_induction with
  | atomic x hx =>
    rcases Term.isVariable_or_isConstant hx with hv | hc
    · rw [keyedTerm_of_isVariable g hv]
    · rw [keyedTerm_of_isConstant g hc, Term.variableList_of_isConstant hc,
        Term.variableList_of_isConstant (hg.isConstant_key hc)]
  | collection ts ih =>
    rw [keyedTerm_collection, Term.variableList, Term.variableList]
    induction ts with
    | nil => rfl
    | cons t ts ihs =>
      rw [List.map_cons, Term.variableLists, Term.variableLists, ih t List.mem_cons_self,
        ihs fun t' ht' => ih t' (List.mem_cons_of_mem _ ht')]

/-- The keyed value of a variable is the key of its value. -/
theorem substitute_keyedValues (hv : v.isAtomic) (hmem : v ∈ b) :
    (g.keyedValues b).substitute v = g.key (b.substitute v) := by
  obtain ⟨value, hvalue⟩ := exists_getElem? hmem
  have hkeyed : (g.keyedValues b)[v]? = some (g.key value) := by
    rw [getElem?_keyedValues, hvalue]
    rfl
  rw [Bindings.substitute_of_isAtomic _ hv, Bindings.substitute_of_isAtomic _ hv,
    Bindings.resolve_of_getElem? hvalue, Bindings.resolve_of_getElem? hkeyed]

/-- **What stands in the place of a bound term has its key.** -/
theorem AtomReachable.substitute_keyedTerm (hg : g.AtomReachable) (hb : b.OnVariables)
    (hall : ∀ v ∈ x.variableList, v ∈ b) :
    (g.keyedValues b).substitute (g.keyedTerm x) = g.key (b.substitute x) := by
  induction x using Term.atomic_induction with
  | atomic x hx =>
    rcases Term.isVariable_or_isConstant hx with hv | hc
    · rw [keyedTerm_of_isVariable g hv]
      refine substitute_keyedValues hx (hall x ?_)
      rw [Term.variableList_of_isVariable hv]
      exact List.mem_singleton_self x
    · rw [keyedTerm_of_isConstant g hc, substitute_of_isConstant hb hc,
        substitute_of_isConstant (onVariables_keyedValues hb) (hg.isConstant_key hc)]
  | collection ts ih =>
    have hkey : ∀ ts, g.key (.collection ts) = .collection (ts.map g.key) :=
      hg.atomic.key_collection
    rw [keyedTerm_collection, Bindings.substitute, Bindings.substitute, hkey,
      Bindings.substituteAll_eq_map, Bindings.substituteAll_eq_map, List.map_map, List.map_map]
    refine congrArg _ (List.map_congr_left fun t ht => ih t ht fun v hv => hall v ?_)
    exact Term.mem_variableLists.2 ⟨t, ht, hv⟩

/-! ## Candidates leave out nothing that fits -/

/-- How a triple fits a statement in the quotient. -/
def keyedFit? (g : Graph) (b : Bindings) (triple s : Statement) : Option Bindings :=
  (g.keyedValues b).fitAll? (g.keyedTriple triple).terms (g.keyedStatement s).terms

/-- A triple is unified with a statement in the way in which it fits there. -/
theorem AtomReachable.map_unified? (hg : g.AtomReachable) (hb : b.OnVariables) :
    (g.unified? b triple s).map g.keyedValues = g.keyedFit? b triple s := by
  have hfinds := hg.unifyAll_finds triple.terms s.terms hb rfl
  rw [← terms_keyedTriple, ← terms_keyedStatement] at hfinds
  unfold unified? unifyStatement keyedFit?
  rcases hfinds with ⟨found, hfound, hfit⟩ | ⟨⟨e, he⟩, hnone⟩
  · rw [hfound, ← hfit]
    exact congrArg _ Option.head?_toList
  · rw [he, hnone]
    rfl

theorem AtomReachable.map_filterMap_unified? (hg : g.AtomReachable) (hb : b.OnVariables)
    (ss : List Statement) : (ss.filterMap (g.unified? b triple)).map g.keyedValues =
      ss.filterMap (g.keyedFit? b triple) := by
  rw [List.map_filterMap]
  exact List.filterMap_congr fun _ _ => hg.map_unified? hb

/-- **Looking among the candidates is as good as looking among all
statements.** -/
theorem AtomReachable.filterMap_candidates_perm (hg : g.AtomReachable) (hb : b.OnVariables)
    (triple : Statement) :
    ((g.prepare b triple).candidates.toList.filterMap (g.keyedFit? b triple)).Perm
      (g.statements.toList.filterMap (g.keyedFit? b triple)) := by
  rw [← hg.map_filterMap_unified? hb, ← hg.map_filterMap_unified? hb]
  exact (hg.reachable.filterMap_unified?_perm hg.atomic hb triple).map g.keyedValues

/-- The alternatives of a triple, if there is no error, are with keyed values
the ways in which it fits the candidates in the quotient. -/
theorem AtomReachable.map_alternatives (hg : g.AtomReachable) (hb : b.OnVariables)
    {candidates : List Statement} {bs : List Bindings}
    (h : Frame.alternatives g b triple candidates = .ok bs) :
    bs.map g.keyedValues = candidates.filterMap (g.keyedFit? b triple) := by
  rw [((alternatives_eq_ok_iff hb).1 h).2]
  exact hg.map_filterMap_unified? hb candidates

end Graph

/-! ## The join in the quotient -/

/-- A yield is an error, or what a list holds up to a change of every binding
set. -/
def Yield.AgreesUpTo (change : Bindings → Bindings) (y : Yield) (l : List Bindings) : Prop :=
  y = ⊤ ∨ ∃ found, y = .of found ∧ (found.map change).Perm l

namespace Yield.AgreesUpTo

variable {change : Bindings → Bindings} {y : Yield} {l l' : List Bindings}
  {k : Bindings → Yield} {found : Bindings → List Bindings}

theorem perm (h : y.AgreesUpTo change l) (hl : l.Perm l') : y.AgreesUpTo change l' := by
  rcases h with htop | ⟨found, hfound, hperm⟩
  · exact .inl htop
  · exact .inr ⟨found, hfound, hperm.trans hl⟩

/-- What is found from each of some binding sets. -/
theorem sum (h : ∀ x ∈ l, (k x).AgreesUpTo change (found x)) :
    AgreesUpTo change ((l.map k).sum) (l.flatMap found) := by
  induction l with
  | nil => exact .inr ⟨[], rfl, .refl _⟩
  | cons x l ih =>
    have hrest := ih fun z hz => h z (List.mem_cons_of_mem _ hz)
    rw [List.map_cons, List.sum_cons, List.flatMap_cons]
    rcases h x List.mem_cons_self with hx | ⟨l₁, hx, hperm⟩
    · exact .inl (by rw [hx, WithTop.top_add])
    · rcases hrest with hrest | ⟨l₂, hrest, hperm'⟩
      · exact .inl (by rw [hrest, WithTop.add_top])
      · refine .inr ⟨l₁ ++ l₂, by rw [hx, hrest, of_append], ?_⟩
        rw [List.map_append]
        exact hperm.append hperm'

end Yield.AgreesUpTo

namespace Graph

variable {g : Graph} {b : Bindings} {triple : Statement} {remaining : List Statement} {k : Nat}

/-- The join of some triples in the quotient. -/
def keyedJoins (g : Graph) (remaining : List Statement) (b : Bindings) : List Bindings :=
  joins g.keyedStatements (remaining.map g.keyedTriple) (g.keyedValues b)

/-- Some triple is taken first, among its candidates. -/
theorem AtomReachable.keyedJoins_perm (hg : g.AtomReachable) (hb : b.OnVariables)
    (ht : remaining[k]? = some triple) :
    (g.keyedJoins remaining b).Perm
      (((g.prepare b triple).candidates.toList.filterMap (g.keyedFit? b triple)).flatMap
        (joins g.keyedStatements ((remaining.eraseIdx k).map g.keyedTriple))) := by
  obtain ⟨hk, rfl⟩ := List.getElem?_eq_some_iff.1 ht
  have hfirst : (remaining.map g.keyedTriple).Perm
      (g.keyedTriple remaining[k] :: (remaining.eraseIdx k).map g.keyedTriple) :=
    (List.getElem_cons_eraseIdx_perm hk).symm.map g.keyedTriple
  refine (joins_perm hfirst (onVariables_keyedValues hb)).trans ?_
  rw [joins_cons_filterMap, keyedStatements, List.filterMap_map]
  exact (hg.filterMap_candidates_perm hb _).symm.flatMap_right _

/-- **Whatever order the triples are taken in, the matches are those of the join
in the quotient.** -/
theorem AtomReachable.trunks_agrees (hg : g.AtomReachable) (hb : b.OnVariables) :
    (trunks g ∅ remaining b).AgreesUpTo g.keyedValues (g.keyedJoins remaining b) := by
  induction remaining, b using plan_induction (g := g) with
  | nil b =>
    refine .inr ⟨[b], trunks_nil g ∅ b, ?_⟩
    rw [keyedJoins, List.map_nil, joins_nil]
    rfl
  | stuck remaining b triple hne hp hm hnone =>
    rw [trunks_of_plan_eq_none hne hp]
    obtain ⟨k, hk⟩ := List.mem_iff_getElem?.1 hm
    have hempty := hg.keyedJoins_perm hb hk
    rw [hnone] at hempty
    exact Yield.AgreesUpTo.perm (.inr ⟨[], rfl, .refl _⟩) hempty.symm
  | planned remaining b p triple hne hp ht he ih =>
    rw [trunks_of_plan_eq_some hne hp ht]
    cases hbs : Frame.alternatives g b triple p.estimate.candidates.toList with
    | error e => exact .inl rfl
    | ok bs =>
      have hfound := hg.map_alternatives hb hbs
      rw [he] at hfound
      refine Yield.AgreesUpTo.perm ?_ (hg.keyedJoins_perm hb ht).symm
      rw [← hfound, List.flatMap_map]
      have hall : bs.filter (Constraints.satisfiedBy ∅) = bs :=
        List.filter_eq_self.2 fun b' _ => by
          rw [Constraints.satisfiedBy_iff]
          simp
      simp only [hall]
      refine .sum fun b' hb' => ?_
      obtain ⟨s, -, hu⟩ := Frame.mem_alternatives hb hbs hb'
      exact ih b' (hu.onVariables hb)

/-- **A search for triples finds what their join in the quotient has**, unless
it meets an error. -/
theorem AtomReachable.answers_agrees (hg : g.AtomReachable) (hb : b.OnVariables) {p : Pattern}
    (hop : p.optionals = []) (hc : p.constraints = ∅) :
    (answers g ∅ p b).AgreesUpTo g.keyedValues (g.keyedJoins p.triples b) := by
  obtain ⟨triples, optionals, constraints, initial⟩ := p
  obtain rfl : optionals = [] := hop
  obtain rfl : constraints = ∅ := hc
  have hsat : ((∅ : Constraints) ∪ ∅).satisfiedBy b := by
    rw [Constraints.satisfiedBy_iff]
    simp
  have hnone : ((∅ : Constraints) ∪ ∅) = ∅ := by
    ext v c
    simp
  rw [answers, if_pos hsat, hnone]
  simp only [clauseAnswers, Yield.combine]
  have htrunks : (trunks g ∅ triples b).AgreesUpTo g.keyedValues (g.keyedJoins triples b) :=
    hg.trunks_agrees hb
  rcases htrunks with htop | ⟨found, hfound, hperm⟩
  · exact .inl (by rw [htop]; rfl)
  · refine .inr ⟨found, ?_, hperm⟩
    rw [hfound, Yield.bind_of, Yield.sum_map_of found fun x => [x]]
    simp

end Graph

end TripleQuery
