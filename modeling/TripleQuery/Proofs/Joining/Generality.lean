import TripleQuery.Proofs.Joining.Quotient
import TripleQuery.Proofs.Joining.Reference
import TripleQuery.Proofs.Joining.Scanning
/-!
# Generality — the one way to unify is the most general one

Unification answers with one binding set at most, which binds the variables of
the pattern and nothing else, and makes the pattern the same as the datum. This
is so in every store (`unify_oneResult`). Where no collection was merged there is
also an answer whenever some extension makes a triple the same as a statement,
and no extension does so with other values, up to merged terms
(`AtomReachable.unify_most_general`): which of two merged terms is bound
depends on the order of the positions, and a variable that is met again is
compared with the term that was met first.

The second law is read off in the quotient, where the values under which a
triple becomes a statement are determined.
-/

namespace TripleQuery

namespace Graph

variable {g : Graph} {b b' t : Bindings} {x y : Term} {xs ys : List Term} {bs : List Bindings}
  {triple s : Statement}

/-! ## One result at most -/

/-- One result at most: the bindings, extended to some variables and no others
so that something holds. -/
structure OneResult (b : Bindings) (vs : List Term) (holds : Bindings → Prop)
    (bs : List Bindings) : Prop where
  length_le : bs.length ≤ 1
  extends_ : ∀ b' ∈ bs, b'.Extends b
  mem_iff : ∀ b' ∈ bs, ∀ v, v ∈ b' ↔ v ∈ b ∨ v ∈ vs
  holds : ∀ b' ∈ bs, holds b'

theorem oneResult_nil (b : Bindings) (vs : List Term) (holds : Bindings → Prop) :
    OneResult b vs holds [] := by
  constructor <;> simp

/-- One way at most to unify is one result at most. -/
theorem OneWay.oneResult {holds : Bindings → Prop} (h : g.OneWay b xs ys bs)
    (hholds : ∀ b', g.Unifies b b' xs ys → holds b') :
    OneResult b (Term.variableLists xs) holds bs := by
  rcases h with rfl | ⟨b', rfl, hu⟩
  · exact oneResult_nil b _ holds
  · constructor
    · exact Nat.le_refl 1
    all_goals
      intro b₁ hb₁
      obtain rfl := List.mem_singleton.1 hb₁
    · exact hu.extends_
    · exact hu.mem_iff
    · exact hholds b₁ hu

/-- Lists become the same place by place. -/
theorem Unifies.forall₂_same (h : g.Unifies b b' xs ys) :
    List.Forall₂ (fun x y => g.same (b'.substitute x) y) xs ys := by
  have hsame := Redirections.sameAll_iff.1 h.same
  rwa [Bindings.substituteAll_eq_map, List.forall₂_map_left_iff] at hsame

/-- **Unification finds one result at most, and a right one**: from bindings of
variables and blank nodes, whatever is answered for a term and a datum, for two
lists, or for a triple and a statement, is no result, or one that keeps every
value, binds the variables of the pattern and no others, and makes the pattern
the same as the datum at every place. -/
theorem unify_oneResult (g : Graph) (b : Bindings) (hb : b.OnVariables) :
    (∀ x y bs, g.unifyTerm b x y = .ok bs →
      OneResult b x.variableList (fun b' => g.same (b'.substitute x) y) bs) ∧
    (∀ xs ys bs, g.unifyContents b xs ys = .ok bs →
      OneResult b (Term.variableLists xs)
        (fun b' => List.Forall₂ (fun x y => g.same (b'.substitute x) y) xs ys) bs) ∧
    ∀ triple s bs, g.unifyStatement b triple s = .ok bs →
      OneResult b triple.variableList
        (fun b' => ∀ p, g.same (b'.substitute (triple.term p)) (s.term p)) bs := by
  refine ⟨fun x y bs h => ?_, fun xs ys bs h => ?_, fun triple s bs h => ?_⟩
  · have hone := (unifyTerm_oneWay x y hb h).oneResult fun b' hu =>
      (List.forall₂_cons.1 hu.forall₂_same).1
    rwa [Term.variableLists, Term.variableLists, List.append_nil] at hone
  · rw [unifyContents] at h
    split at h
    · rename_i hlen
      exact (unifyAll_oneWay xs ys hb hlen h).oneResult fun b' hu => hu.forall₂_same
    · obtain rfl := Except.ok.inj h
      exact oneResult_nil b _ _
  · exact (unifyStatement_oneWay hb h).oneResult fun b' hu => hu.same_term

/-- A pair whose second is a pair with the same first. -/
def pairs : Term :=
  .collection [.var "x", .collection [.var "x", .var "y"]]

/-- What is known beforehand. -/
def knownBefore : Bindings :=
  .ofPairs [(.var "z", .symbol "ann")]

/-- What is found for the pairs. -/
def foundForPairs : Bindings :=
  .ofPairs [(.var "x", .symbol "bob"), (.var "y", .symbol "cid"), (.var "z", .symbol "ann")]

/-- A variable that is met again is not bound again. -/
theorem unify_oneResult_pairs :
    empty.unifyTerm knownBefore pairs (foundForPairs.substitute pairs) = .ok [foundForPairs] ∧
      OneResult knownBefore pairs.variableList
        (fun b' => empty.same (b'.substitute pairs) (foundForPairs.substitute pairs))
        [foundForPairs] := by
  have hknown : knownBefore.OnVariables := Bindings.onVariables_empty.bind rfl _
  have hfound : empty.unifyTerm knownBefore pairs (foundForPairs.substitute pairs) =
      .ok [foundForPairs] := rfl
  exact ⟨hfound, (unify_oneResult empty knownBefore hknown).1 _ _ _ hfound⟩

/-! ## The most general result -/

/-- Under bindings that make terms the same as others, the keyed terms are the
keys of the others. -/
theorem AtomReachable.substituteAll_keyedTerms (hg : g.AtomReachable) (ht : t.OnVariables)
    (hall : ∀ v ∈ Term.variableLists xs, v ∈ t)
    (hsame : List.Forall₂ (fun x y => g.same (t.substitute x) y) xs ys) :
    (g.keyedValues t).substituteAll (g.keyedTerms xs) = ys.map g.key := by
  induction hsame with
  | nil => rfl
  | @cons x y xs ys hxy _ ih =>
    simp only [Term.variableLists, List.mem_append] at hall
    have hx : (g.keyedValues t).substitute (g.keyedTerm x) = g.key y := by
      rw [hg.substitute_keyedTerm ht fun v hv => hall v (.inl hv)]
      exact hg.same_iff.1 hxy
    rw [keyedTerms, Bindings.substituteAll, hx, ih fun v hv => hall v (.inr hv), List.map_cons]

/-- Bindings extend others also with keyed values. -/
theorem extends_keyedValues (h : t.Extends b) : (g.keyedValues t).Extends (g.keyedValues b) := by
  intro v value hv
  rw [getElem?_keyedValues] at hv ⊢
  obtain ⟨value', hvalue', rfl⟩ := Option.map_eq_some_iff.1 hv
  rw [h v value' hvalue', Option.map_some]

/-- **What can be unified is unified**, with the keys of the values under which
it can. -/
theorem AtomReachable.exists_unifyAll (hg : g.AtomReachable) (ht : t.OnVariables)
    (he : t.Extends b) (hall : ∀ v ∈ Term.variableLists xs, v ∈ t)
    (hsame : List.Forall₂ (fun x y => g.same (t.substitute x) y) xs ys) :
    ∃ b', g.unifyAll b xs ys = .ok [b'] ∧ (g.keyedValues t).Extends (g.keyedValues b') := by
  have hb : b.OnVariables := ht.of_extends he
  -- with keyed values the bindings fit exactly, so that something is found in the quotient
  have hkeyed : ∀ v ∈ Term.variableLists (g.keyedTerms xs), v ∈ g.keyedValues t := by
    intro v hv
    obtain ⟨x', hx', hv⟩ := Term.mem_variableLists.1 hv
    rw [keyedTerms_eq_map] at hx'
    obtain ⟨x, hx, rfl⟩ := List.mem_map.1 hx'
    rw [hg.variableList_keyedTerm] at hv
    exact mem_keyedValues.2 (hall v (Term.mem_variableLists.2 ⟨x, hx, hv⟩))
  obtain ⟨fitted, hfit, hext⟩ := Bindings.exists_fitAll? (g.keyedTerms xs)
    (onVariables_keyedValues ht) (extends_keyedValues he) hkeyed
  rw [hg.substituteAll_keyedTerms ht hall hsame] at hfit
  -- and unification finds what fits there
  rcases hg.unifyAll_finds xs ys hb hsame.length_eq with ⟨found, hok, hfound⟩ | ⟨-, hnone⟩
  · rw [hfit] at hfound
    obtain ⟨b', rfl, rfl⟩ := Option.map_eq_some_iff.1 hfound
    exact ⟨b', hok, hext⟩
  · rw [hfit] at hnone
    cases hnone

/-- **Unification finds the most general result.** Let no collection have been
merged. If bindings can be extended to the variables of a triple, by values of
variables and blank nodes, so that the triple is the same as a statement at each
position, then unification answers with one result, whose values of these
variables are the same as those of the extension. -/
theorem AtomReachable.unify_most_general (hg : g.AtomReachable) (ht : t.OnVariables)
    (he : t.Extends b) (hall : ∀ v ∈ triple.variableList, v ∈ t)
    (hsame : ∀ p, g.same (t.substitute (triple.term p)) (s.term p)) :
    ∃ b', g.unifyStatement b triple s = .ok [b'] ∧
      ∀ v ∈ triple.variableList, ∃ value value', b'[v]? = some value ∧ t[v]? = some value' ∧
        g.same value value' := by
  have hterms : List.Forall₂ (fun x y => g.same (t.substitute x) y) triple.terms s.terms :=
    .cons (hsame .subject) (.cons (hsame .predicate) (.cons (hsame .object) .nil))
  obtain ⟨b', hok, hext⟩ := hg.exists_unifyAll ht he hall hterms
  refine ⟨b', hok, fun v hv => ?_⟩
  have hu : g.Unifies b b' triple.terms s.terms :=
    unifies_of_mem_unifyStatement (ht.of_extends he) hok (List.mem_singleton_self b')
  obtain ⟨value, hvalue⟩ := exists_getElem? ((hu.mem_iff v).2 (.inr hv))
  obtain ⟨value', hvalue'⟩ := exists_getElem? (hall v hv)
  have hkeys := hext v (g.key value) (by rw [getElem?_keyedValues, hvalue, Option.map_some])
  rw [getElem?_keyedValues, hvalue', Option.map_some] at hkeys
  exact ⟨value, value', hvalue, hvalue', hg.same_iff.2 (Option.some.inj hkeys).symm⟩

/-- A triple with one variable in three places, at three depths. -/
def thrice : Statement :=
  ⟨.collection [.var "x", .collection [.var "x"]], .symbol "p", .var "x", none⟩

/-- A statement with two merged terms in these places. -/
def twoNames : Statement :=
  ⟨.collection [.symbol "b", .collection [.symbol "a"]], .symbol "p", .symbol "b", none⟩

/-- The name that is met first is bound, and is the same as the other. -/
theorem unify_most_general_thrice :
    ∃ b', nestedMerged.unifyStatement ∅ thrice twoNames = .ok [b'] ∧
      ∀ v ∈ thrice.variableList, ∃ value value', b'[v]? = some value ∧
        ((∅ : Bindings).bind (.var "x") (.symbol "a"))[v]? = some value' ∧
          nestedMerged.same value value' := by
  have hmerged : nestedMerged.AtomReachable :=
    .equate (atomReachable_ofList nestedStatements) rfl rfl equate_nested
  refine hmerged.unify_most_general (Bindings.onVariables_empty.bind rfl _)
    (fun v value hv => ?_) (fun v hv => ?_) fun p => ?_
  · simp at hv
  · have hx : v = .var "x" := by
      simpa [thrice, Statement.variableList, Statement.terms, Term.variableLists,
        Term.variableList] using hv
    exact Bindings.mem_bind.2 (.inl hx.symm)
  · cases p <;> cbv

end Graph

end TripleQuery
