import TripleQuery.Pattern
import TripleQuery.Proofs.Matching.Extension
/-!
# Validation — what is known of a pattern that makes sense

A pattern makes sense inside an enclosing one when its constraints are on
variables that may be bound, no two of its clauses can bind the same variable
beyond those of its trunk, and its clauses make sense inside the trunk
(`Pattern.validateIn_eq_ok`). So two clauses of a pattern that makes sense are
apart (`Pattern.Apart`): a variable of both has a value before either starts.
-/

namespace TripleQuery

namespace Pattern

variable {p : Pattern} {ps ps' : List Pattern} {outer trunk : TermSet} {v : Term} {i : Nat}
  {a : TermSet} {sets : List TermSet}

/-! ## The variables of a pattern -/

theorem allVariableList_eq (p : Pattern) :
    p.allVariableList = p.ownVariables ++ allVariableLists p.optionals := by
  cases p
  rw [allVariableList]
  rfl

theorem mem_allVariableLists : v ∈ allVariableLists ps ↔ ∃ p ∈ ps, v ∈ p.allVariableList := by
  induction ps with
  | nil => simp [allVariableLists]
  | cons p ps ih => simp [allVariableLists, ih]

theorem mem_allVariableList :
    v ∈ p.allVariableList ↔ v ∈ p.ownVariables ∨ ∃ c ∈ p.optionals, v ∈ c.allVariableList := by
  rw [allVariableList_eq, List.mem_append, mem_allVariableLists]

theorem mem_ownVariables : v ∈ p.ownVariables ↔ v ∈ p.variableList ∨ v ∈ p.initial := by
  rw [ownVariables, List.mem_append, Std.ExtTreeMap.mem_keys]

/-- A variable is bound once the triples have matched if it was bound before, or
is one of the pattern's own. -/
theorem mem_trunk : v ∈ p.trunk outer ↔ v ∈ outer ∨ v ∈ p.ownVariables := by
  rw [Pattern.trunk, Std.ExtTreeSet.mem_union_iff, Std.ExtTreeSet.mem_ofList,
    List.contains_iff_mem]

theorem mem_newVariables : v ∈ newVariables trunk p ↔ v ∈ p.allVariableList ∧ v ∉ trunk := by
  simp [newVariables, ← Std.ExtTreeSet.contains_iff_mem]

/-! ## Overlaps -/

theorem sharedWith_eq_none :
    sharedWith a i sets = none ↔ ∀ b ∈ sets, ∀ v ∈ a, v ∉ b := by
  induction sets generalizing i with
  | nil => simp [sharedWith]
  | cons b bs ih =>
    rw [sharedWith]
    cases hf : a.toList.find? b.contains with
    | some v =>
      have hv : v ∈ a := Std.ExtTreeSet.mem_toList.1 (List.mem_of_find?_eq_some hf)
      have hb : v ∈ b := by simpa using List.find?_some hf
      simp only [reduceCtorEq, List.mem_cons, forall_eq_or_imp, false_iff, not_and]
      exact fun h => absurd hb (h v hv)
    | none =>
      have hnone : ∀ v ∈ a, v ∉ b := fun v hv hb => by
        have hfalse := List.find?_eq_none.1 hf v (Std.ExtTreeSet.mem_toList.2 hv)
        simp [hb] at hfalse
      simp only [ih, List.mem_cons, forall_eq_or_imp]
      exact ⟨fun h => ⟨hnone, h⟩, fun h => h.2⟩

/-- **No overlap is found exactly when no two of the sets share anything.** -/
theorem firstOverlap_eq_none :
    firstOverlap i sets = none ↔ sets.Pairwise fun a b => ∀ v ∈ a, v ∉ b := by
  induction sets generalizing i with
  | nil => simp [firstOverlap]
  | cons a rest ih =>
    rw [firstOverlap, List.pairwise_cons]
    cases hs : sharedWith a (i + 1) rest with
    | some q =>
      simp only [reduceCtorEq, false_iff, not_and]
      intro h
      rw [sharedWith_eq_none.2 h] at hs
      cases hs
    | none =>
      simp only [ih]
      exact ⟨fun h => ⟨sharedWith_eq_none.1 hs, h⟩, fun h => h.2⟩

/-! ## What makes sense -/

/-- Two clauses share only variables that are bound before either starts. -/
def Apart (trunk : TermSet) (c c' : Pattern) : Prop :=
  ∀ v, v ∈ c.allVariableList → v ∈ c'.allVariableList → v ∈ trunk

theorem Apart.symm {c c' : Pattern} (h : Apart trunk c c') : Apart trunk c' c :=
  fun v hv hv' => h v hv' hv

/-- A constraint is on a variable that the pattern or an enclosing one has. -/
def HasMeaning (p : Pattern) (outer : TermSet) (v : Term) : Prop :=
  v.isVariable ∧ (v ∈ outer ∨ v ∈ p.allVariableList)

theorem constraintFault?_eq_none {known : TermSet} :
    constraintFault? known v = none ↔ v.isVariable ∧ v ∈ known := by
  unfold constraintFault?
  by_cases hv : v.isVariable
  · simp [hv, ← Std.ExtTreeSet.contains_iff_mem]
  · simp [hv]

theorem fault?_eq_none :
    p.fault? outer = none ↔ (∀ v ∈ p.constraints, p.HasMeaning outer v) ∧
      p.optionals.Pairwise (Apart (p.trunk outer)) := by
  have hknown : ∀ v, constraintFault? (p.trunk outer ∪ p.allVariableSet) v = none ↔
      p.HasMeaning outer v := fun v => by
    rw [constraintFault?_eq_none, HasMeaning, Std.ExtTreeSet.mem_union_iff, mem_trunk,
      allVariableSet, Std.ExtTreeSet.mem_ofList, List.contains_iff_mem, mem_allVariableList]
    tauto
  have hfind : p.constraints.keys.findSome?
        (constraintFault? (p.trunk outer ∪ p.allVariableSet)) = none ↔
      ∀ v ∈ p.constraints, p.HasMeaning outer v := by
    rw [List.findSome?_eq_none_iff]
    simp only [hknown, Std.ExtTreeMap.mem_keys]
  have hpairs : firstOverlap 0 (p.optionals.map (newVariables (p.trunk outer))) = none ↔
      p.optionals.Pairwise (Apart (p.trunk outer)) := by
    rw [firstOverlap_eq_none, List.pairwise_map]
    simp only [mem_newVariables]
    refine List.Pairwise.iff fun {c c'} => ?_
    constructor
    · intro h v hv hv'
      by_contra hnot
      exact h v ⟨hv, hnot⟩ ⟨hv', hnot⟩
    · rintro h v ⟨hv, hnot⟩ ⟨hv', -⟩
      exact hnot (h v hv hv')
  unfold fault?
  simp only
  cases hf : p.constraints.keys.findSome?
      (constraintFault? (p.trunk outer ∪ p.allVariableSet)) with
  | some e =>
    simp only [reduceCtorEq, false_iff, not_and]
    intro h
    rw [hfind.2 h] at hf
    cases hf
  | none =>
    simp only [hpairs]
    exact ⟨fun h => ⟨hfind.1 hf, h⟩, fun h => h.2⟩

theorem validateAll_eq_ok :
    validateAll trunk ps = .ok () ↔ ∀ p ∈ ps, p.validateIn trunk = .ok () := by
  induction ps with
  | nil => simp [validateAll]
  | cons p ps ih =>
    rw [validateAll]
    cases hp : p.validateIn trunk with
    | error e => simp [hp]
    | ok u => simp [hp, ih]

/-- **When a pattern makes sense inside another.** -/
theorem validateIn_eq_ok :
    p.validateIn outer = .ok () ↔ (∀ v ∈ p.constraints, p.HasMeaning outer v) ∧
      p.optionals.Pairwise (Apart (p.trunk outer)) ∧
      ∀ c ∈ p.optionals, c.validateIn (p.trunk outer) = .ok () := by
  have hfault : p.fault? outer = none ↔ (∀ v ∈ p.constraints, p.HasMeaning outer v) ∧
      p.optionals.Pairwise (Apart (p.trunk outer)) := fault?_eq_none
  obtain ⟨triples, optionals, constraints, initial⟩ := p
  rw [validateIn]
  cases hf : fault? outer ⟨triples, optionals, constraints, initial⟩ with
  | some e =>
    simp only [hf, reduceCtorEq, false_iff, not_and] at hfault ⊢
    exact fun h h' => absurd h' (hfault h)
  | none =>
    obtain ⟨hc, hp⟩ := hfault.1 hf
    simp only [validateAll_eq_ok]
    exact ⟨fun h => ⟨hc, hp, h⟩, fun h => h.2.2⟩

end Pattern

end TripleQuery
