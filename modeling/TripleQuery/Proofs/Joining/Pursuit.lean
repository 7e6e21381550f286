import TripleQuery.Proofs.Joining.Answers
import TripleQuery.Proofs.Joining.Siblings
import TripleQuery.Proofs.Matching.Answering
/-!
# Pursuit — what paths and clauses bind

A path goes after the variables of a pattern: those that it has not bound yet
are in the triples that remain (`Frame.Pursues`). So when all triples have
matched it has bound what validation takes to be bound, no more and no less
(`Pattern.IsTrunk`), and in a pattern that makes sense the clauses are apart
wherever they are tried (`Pattern.IsTrunk.apart`). Whatever is found for a
pattern goes beyond what was bound by variables of the pattern only
(`Pattern.spans_of_finds`).
-/

namespace TripleQuery

open Std (ExtTreeMap)

variable {i b : Nat} {p q c : Pattern} {base x r trunk : Bindings} {f f' : Frame} {fs : List Frame}
  {g : Graph} {v : Term} {inForce outer : Constraints} {clauses : List Pattern}
  {choice : List Bindings}

/-- The keys of a binding set. -/
def Bindings.keySet (b : Bindings) : TermSet :=
  .ofList b.keys

theorem Bindings.mem_keySet {b : Bindings} : v ∈ b.keySet ↔ v ∈ b := by
  rw [keySet, Std.ExtTreeSet.mem_ofList, List.contains_iff_mem, ExtTreeMap.mem_keys]

@[simp] theorem Bindings.keySet_empty : Bindings.keySet ∅ = ∅ := by
  ext v
  rw [mem_keySet]
  simp

/-! ## What is bound before the clauses -/

namespace Pattern

/-- What a pattern starts from where a binding set is there: the fixed values,
overlaid with the set. -/
structure Starts (p : Pattern) (base x : Bindings) : Prop where
  onVariables : x.OnVariables
  extends_ : x.Extends base
  mem_iff (v : Term) : v ∈ x ↔ v ∈ base ∨ v ∈ p.initial

/-- A clause starts from the trunk. -/
theorem starts_clause (hc : c.initial.OnVariables) (ht : trunk.OnVariables) :
    c.Starts trunk (c.initial ∪ trunk) where
  onVariables := hc.union ht
  extends_ := Bindings.extends_union _ _
  mem_iff v := by rw [ExtTreeMap.mem_union_iff, or_comm]

/-- A search starts from the fixed values. -/
theorem starts_root (hp : p.initial.OnVariables) : p.Starts ∅ p.initial where
  onVariables := hp
  extends_ v value hv := by simp at hv
  mem_iff v := by simp

/-- What is bound when the triples of a pattern have matched: its own variables,
beyond what was bound. -/
structure IsTrunk (p : Pattern) (base trunk : Bindings) : Prop where
  onVariables : trunk.OnVariables
  extends_ : trunk.Extends base
  mem_iff (v : Term) : v ∈ trunk ↔ v ∈ base ∨ v ∈ p.ownVariables

namespace IsTrunk

theorem spans (h : p.IsTrunk base trunk) : p.Spans base trunk where
  onVariables := h.onVariables
  extends_ := h.extends_
  within hv := ((h.mem_iff _).1 hv).imp_right fun hown => mem_allVariableList.2 (.inl hown)

/-- Validation takes to be bound what is bound. -/
theorem keySet_eq (h : p.IsTrunk base trunk) : p.trunk base.keySet = trunk.keySet := by
  ext v
  rw [mem_trunk, Bindings.mem_keySet, Bindings.mem_keySet, h.mem_iff]

/-- The clauses make sense where they are tried. -/
theorem validateIn (h : p.IsTrunk base trunk) (hp : p.validateIn base.keySet = .ok ())
    (hc : c ∈ p.optionals) : c.validateIn trunk.keySet = .ok () := by
  rw [← h.keySet_eq]
  exact (validateIn_eq_ok.1 hp).2.2 c hc

/-- **The clauses are apart where they are tried**: the trunk binds every
variable that two of them have in common. -/
theorem apart (h : p.IsTrunk base trunk) (hp : p.validateIn base.keySet = .ok ()) :
    p.optionals.Pairwise (ApartFrom trunk) := by
  obtain ⟨-, hapart, -⟩ := validateIn_eq_ok.1 hp
  refine hapart.imp fun {c c'} hcc v hv hv' => ?_
  have hmem := hcc v hv hv'
  rwa [h.keySet_eq, Bindings.mem_keySet] at hmem

end IsTrunk

end Pattern

/-! ## Paths -/

namespace Frame

/-- A path goes beyond a binding set by the variables of a pattern: those it
has not bound yet are in the triples that remain. -/
structure Pursues (f : Frame) (q : Pattern) (base : Bindings) : Prop where
  pattern : f.scope.pattern = q
  onVariables : f.bindings.OnVariables
  extends_ : f.bindings.Extends base
  mem_iff (v : Term) : v ∈ f.bindings ∨ v ∈ f.remaining.flatMap Statement.variableList ↔
    v ∈ base ∨ v ∈ q.ownVariables

/-- A path that enters a pattern has its triples before it. -/
theorem pursues_enter {s : Scope} {d : List String} (h : s.pattern.Starts base x) :
    (enter i b s x d).Pursues s.pattern base where
  pattern := rfl
  onVariables := h.onVariables
  extends_ := h.extends_
  mem_iff v := by
    change v ∈ x ∨ v ∈ s.pattern.variableList ↔ _
    rw [h.mem_iff, Pattern.mem_ownVariables, or_assoc, or_comm (a := v ∈ s.pattern.initial)]

/-- **One more triple has its variables bound.** -/
theorem Pursues.expand (h : f.Pursues q base) (he : f.expand g = .ok fs) (hf : f' ∈ fs) :
    f'.Pursues q base := by
  obtain ⟨plan, triple, bs, x, -, ht, hbs, hx, -, rfl⟩ := mem_expand he hf
  obtain ⟨s, -, hu⟩ := mem_alternatives h.onVariables hbs hx
  obtain ⟨hlt, rfl⟩ := List.getElem?_eq_some_iff.1 ht
  refine ⟨h.pattern, hu.onVariables h.onVariables, hu.extends_.trans h.extends_, fun v => ?_⟩
  -- the triple and those that remain now are those that remained
  have hperm := List.getElem_cons_eraseIdx_perm hlt
  have hrest : v ∈ f.remaining.flatMap Statement.variableList ↔
      v ∈ f.remaining[plan.selected].variableList ∨
        v ∈ (f.remaining.eraseIdx plan.selected).flatMap Statement.variableList := by
    rw [← (hperm.flatMap_right Statement.variableList).mem_iff, List.flatMap_cons,
      List.mem_append]
  rw [← h.mem_iff v, hrest, ← or_assoc]
  exact or_congr_left (hu.mem_iff v)

/-- Once all triples have matched, everything is bound, and nothing else is. -/
theorem Pursues.isTrunk (h : f.Pursues q base) (hr : f.remaining = []) :
    q.IsTrunk base f.bindings where
  onVariables := h.onVariables
  extends_ := h.extends_
  mem_iff v := by
    rw [← h.mem_iff v, hr]
    simp

/-- A path that goes on has fewer triples before it. -/
theorem length_remaining_of_mem_expand (h : f.expand g = .ok fs) (hf : f' ∈ fs) :
    f'.remaining.length < f.remaining.length := by
  obtain ⟨plan, triple, bs, x, -, ht, -, -, -, rfl⟩ := mem_expand h hf
  obtain ⟨hlt, -⟩ := List.getElem?_eq_some_iff.1 ht
  change (f.remaining.eraseIdx plan.selected).length < _
  rw [List.length_eraseIdx_of_lt hlt]
  omega

/-- **What the triples are matched with is a trunk.** -/
theorem Pursues.isTrunk_of_finds (h : f.Pursues q base)
    (hr : (trunks g f.scope.constraints f.remaining f.bindings).Finds trunk) :
    q.IsTrunk base trunk := by
  -- by induction on the number of triples that remain
  induction hn : f.remaining.length using Nat.strong_induction_on generalizing f with
  | _ n ih =>
    by_cases hnil : f.remaining = []
    · rw [hnil, trunks_nil, Yield.finds_of] at hr
      rw [List.mem_singleton.1 hr]
      exact h.isTrunk hnil
    cases he : f.expand g with
    | error e =>
      rw [trunks_of_error hnil he] at hr
      exact absurd hr Yield.not_finds_top
    | ok fs =>
      rw [trunks_of_expand hnil he] at hr
      obtain ⟨y, hy, hr⟩ := Yield.exists_finds_of_sum hr
      obtain ⟨f', hf', rfl⟩ := List.mem_map.1 hy
      exact ih _ (hn ▸ length_remaining_of_mem_expand he hf') (h.expand he hf') hr rfl

end Frame

/-! ## Patterns -/

/-- What is found in combinations is put together of what is found in each. -/
theorem Yield.exists_finds_of_combine {ys : List Yield} (h : (combine x ys).Finds r) :
    ∃ choice, List.Forall₂ (fun s y => Finds y s) choice ys ∧ r = x.joined choice := by
  induction ys generalizing x with
  | nil =>
    rw [combine, finds_of] at h
    exact ⟨[], .nil, List.mem_singleton.1 h⟩
  | cons y ys ih =>
    rw [combine] at h
    obtain ⟨s, hs, hr⟩ := exists_finds_of_bind h
    obtain ⟨choice, hchoice, rfl⟩ := ih hr
    exact ⟨s :: choice, .cons hs hchoice, rfl⟩

namespace Pattern

/-- What the triples of a pattern are matched with is a trunk. -/
theorem isTrunk_of_finds (h : p.Starts base x)
    (hr : (trunks g (outer ∪ p.constraints) p.triples x).Finds trunk) : p.IsTrunk base trunk :=
  (Frame.pursues_enter (i := 0) (b := 0) (s := .inside outer p) (d := []) h).isTrunk_of_finds hr

mutual

/-- **What is found for a pattern that makes sense goes beyond what was bound,
by variables of the pattern only.** -/
theorem spans_of_finds (g : Graph) : ∀ (p : Pattern) {outer : Constraints} {base x r : Bindings},
    p.validateIn base.keySet = .ok () → p.BindsVariables → p.Starts base x →
      (answers g outer p x).Finds r → p.Spans base r
  | ⟨triples, optionals, constraints, initial⟩, outer, base, x, r, hv, hp, hx, hr => by
    rw [answers] at hr
    split at hr
    · obtain ⟨trunk, htrunk, hr⟩ := Yield.exists_finds_of_bind hr
      have ht := isTrunk_of_finds hx htrunk
      obtain ⟨choice, hchoice, rfl⟩ := Yield.exists_finds_of_combine hr
      have hcontribute := contributes_of_finds g optionals (fun c hc => ht.validateIn hv hc)
        hp.optionals ht.onVariables hchoice
      exact ht.spans.joined (ht.apart hv) hcontribute
    · rw [← Yield.of_nil, Yield.finds_of] at hr
      cases hr

/-- And what the clauses contribute is what they may contribute. -/
theorem contributes_of_finds (g : Graph) : ∀ (clauses : List Pattern) {inForce : Constraints}
    {trunk : Bindings} {choice : List Bindings},
    (∀ c ∈ clauses, c.validateIn trunk.keySet = .ok ()) → AllBindVariables clauses →
      trunk.OnVariables →
      List.Forall₂ (fun s y => Yield.Finds y s) choice (clauseAnswers g inForce trunk clauses) →
      List.Forall₂ (fun c r => c.Contributes trunk r) clauses choice
  | [], _, _, choice, _, _, _, h => by
    rw [clauseAnswers, List.forall₂_nil_right_iff] at h
    rw [h]
    exact .nil
  | c :: clauses, inForce, trunk, choice, hv, hc, ht, h => by
    rw [clauseAnswers, List.forall₂_cons_right_iff] at h
    obtain ⟨s, choice, hs, hrest, rfl⟩ := h
    refine .cons ?_ (contributes_of_finds g clauses (fun c' hc' =>
      hv c' (List.mem_cons_of_mem _ hc')) hc.2 ht hrest)
    refine (Yield.finds_of_orEmpty hs).imp_right fun hs => ?_
    exact spans_of_finds g c (hv c List.mem_cons_self) hc.1 (starts_clause hc.1.initial ht) hs

end

end Pattern

end TripleQuery
