import TripleQuery.Proofs.Joining.Candidates
import TripleQuery.Proofs.Joining.Reference
/-!
# Unmerged stores — where the same means equal

As long as no terms were merged, every term is its own key, and two terms are
the same only if they are equal. Unification then finds what fits, unless it
meets a collection against something else (`Graph.unifyAll_cases`), and the
alternatives of a triple are the ways in which it fits a stored statement
(`Graph.Unmerged.filterMap_candidates_perm`).
-/

namespace TripleQuery

/-- Where nothing is redirected every term is its own key. -/
theorem Redirections.key_nil (t : Term) : Redirections.key [] t = t := by
  induction t using Term.atomic_induction with
  | atomic t h => rw [key_of_isAtomic [] h, canonical_nil]
  | collection ts ih =>
    rw [key_collection, canonical_nil, keys_eq_map]
    exact congrArg _ ((List.map_congr_left ih).trans (List.map_id' ts))

namespace Graph

variable {g : Graph} {b t : Bindings} {v x y : Term} {xs ys : List Term} {pos : Position}
  {triple s : Statement} {triples chosen : List Statement}

/-- No terms were merged. -/
def Unmerged (g : Graph) : Prop :=
  g.redirections = []

theorem unmerged_empty : Graph.empty.Unmerged := rfl

/-- Adding merges nothing. -/
theorem Unmerged.addAll (h : g.Unmerged) (ss : List Statement) : (g.addAll ss).Unmerged := by
  induction ss generalizing g with
  | nil => exact h
  | cons s ss ih => exact ih ((redirections_add g s).trans h)

theorem unmerged_ofList (ss : List Statement) : (ofList ss).Unmerged :=
  unmerged_empty.addAll ss

theorem Unmerged.key_eq (h : g.Unmerged) (t : Term) : g.key t = t := by
  unfold key
  rw [h]
  exact Redirections.key_nil t

/-- **The same means equal.** -/
theorem Unmerged.same_iff (h : g.Unmerged) : g.same x y ↔ x = y := by
  unfold same
  rw [h, Redirections.atomic_nil.same_iff_key_eq, Redirections.key_nil, Redirections.key_nil]

theorem Unmerged.sameAll_iff (h : g.Unmerged) : g.redirections.sameAll xs ys ↔ xs = ys := by
  rw [Redirections.sameAll_iff, ← List.forall₂_eq_eq_eq]
  have heq : (fun x y => g.redirections.same x y = true) = Eq := by
    ext x y
    exact h.same_iff
  rw [heq]

/-! ## Unification finds what fits -/

/-- What unification answers is what fits, or it answers nothing and nothing
fits. -/
def Finds (answer : Except QueryError (List Bindings)) (fit : Option Bindings) : Prop :=
  answer = .ok fit.toList ∨ (∃ e, answer = .error e) ∧ fit = none

theorem Unmerged.finds_variable (h : g.Unmerged) (b : Bindings) (v y : Term) :
    Finds (match b[v]? with
      | some value => .ok (keepIf b (g.same value y))
      | none => .ok [b.bind v y]) (b.fitVariable? v y) := by
  refine .inl ?_
  unfold Bindings.fitVariable?
  cases b[v]? with
  | none => rfl
  | some value =>
    by_cases he : value = y
    · subst he
      simp [keepIf, h.same_iff.2 rfl]
    · simp [keepIf, he, h.same_iff.not.2 he]

theorem Unmerged.finds_constant (h : g.Unmerged) (hb : b.OnVariables) (hx : ¬ x.isVariable)
    (y : Term) :
    Finds (.ok (keepIf b (g.same (b.resolve x) y))) (if x = y then some b else none) := by
  refine .inl ?_
  rw [Bindings.resolve_of_getElem?_eq_none (hb.getElem?_eq_none hx)]
  by_cases he : x = y
  · subst he
    simp [keepIf, h.same_iff.2 rfl]
  · simp [keepIf, he, h.same_iff.not.2 he]

mutual

/-- **A term is unified with what it fits.** -/
theorem unifyTerm_cases (hg : g.Unmerged) : ∀ (x : Term) {b : Bindings} (y : Term),
    b.OnVariables → Finds (g.unifyTerm b x y) (b.fit? x y)
  | .var name, b, y, _ => by
    have hv := hg.finds_variable b (.var name) y
    rw [unifyTerm, Bindings.fit?]
    split <;> rename_i hvalue <;> rwa [hvalue] at hv
  | .blank id, b, y, _ => by
    have hv := hg.finds_variable b (.blank id) y
    rw [unifyTerm, Bindings.fit?]
    split <;> rename_i hvalue <;> rwa [hvalue] at hv
  | .symbol iri, b, y, hb => by
    rw [unifyTerm, Bindings.fit?]
    exact hg.finds_constant hb (by simp [Term.isVariable]) y
  | .literal l, b, y, hb => by
    rw [unifyTerm, Bindings.fit?]
    exact hg.finds_constant hb (by simp [Term.isVariable]) y
  | .collection xs, b, y, hb => by
    have hnone : b[Term.collection xs]? = none :=
      hb.getElem?_eq_none (by simp [Term.isVariable])
    unfold unifyTerm Bindings.fit?
    rw [hnone]
    cases y with
    | collection ys =>
      by_cases hlen : xs.length = ys.length
      · simp only [if_pos hlen]
        exact unifyAll_cases hg xs ys hb hlen
      · simp only [if_neg hlen]
        exact .inl (by rw [Bindings.fitAll?_eq_none hlen]; rfl)
    | _ => exact .inr ⟨⟨_, rfl⟩, rfl⟩

/-- **And so are lists of terms.** -/
theorem unifyAll_cases (hg : g.Unmerged) : ∀ (xs : List Term) {b : Bindings} (ys : List Term),
    b.OnVariables → xs.length = ys.length → Finds (g.unifyAll b xs ys) (b.fitAll? xs ys)
  | [], b, ys, _, hlen => by
    obtain rfl : ys = [] := List.length_eq_zero_iff.1 hlen.symm
    exact .inl (by simp [unifyAll, Bindings.fitAll?])
  | x :: xs, b, [], _, hlen => by cases hlen
  | x :: xs, b, y :: ys, hb, hlen => by
    have hlen' : xs.length = ys.length := Nat.succ.inj hlen
    rw [unifyAll, Bindings.fitAll?]
    rcases unifyTerm_cases hg x y hb with hx | ⟨⟨e, hx⟩, hfit⟩
    · cases hfit : b.fit? x y with
      | none =>
        rw [hfit] at hx
        rw [hx]
        exact .inl rfl
      | some b₁ =>
        rw [hfit] at hx
        rcases unifyTerm_oneWay x y hb hx with hempty | ⟨b', hone, hu⟩
        · cases hempty
        · obtain rfl : b₁ = b' := by simpa using hone
          rw [hx]
          rcases unifyAll_cases hg xs ys (hu.onVariables hb) hlen' with hrest | ⟨⟨e, hrest⟩, hnone⟩
          · refine .inl ?_
            simp only [Option.toList_some, List.mapM_cons, List.mapM_nil, hrest]
            simp [Except.map, pure, Except.pure, bind, Except.bind]
          · refine .inr ⟨⟨e, ?_⟩, by simpa using hnone⟩
            simp only [Option.toList_some, List.mapM_cons, hrest]
            rfl
    · rw [hx, hfit]
      exact .inr ⟨⟨e, rfl⟩, rfl⟩

end

end Graph

/-! ## The extension that is found -/

namespace Bindings

variable {b t : Bindings} {v : Term} {xs ys : List Term} {triples chosen : List Statement}

/-- What is found fits. -/
theorem unifies_of_fitAll? (hb : b.OnVariables) (h : b.fitAll? xs ys = some t) :
    Graph.empty.Unifies b t xs ys := by
  have hlen : xs.length = ys.length := by
    by_contra hne
    rw [fitAll?_eq_none hne] at h
    cases h
  rcases Graph.unifyAll_cases Graph.unmerged_empty xs ys hb hlen with hu | ⟨-, hnone⟩
  · rw [h] at hu
    rcases Graph.unifyAll_oneWay xs ys hb hlen hu with hempty | ⟨b', hone, hfit⟩
    · cases hempty
    · obtain rfl : t = b' := by simpa using hone
      exact hfit
  · rw [h] at hnone
    cases hnone

/-- The extension to some triples is the extension to the first of them and
then to the others. -/
theorem IsExtension.cons {b' : Bindings} {triple s : Statement}
    (h : Graph.empty.Unifies b b' triple.terms s.terms) (h' : b'.IsExtension triples chosen t)
    (hb : b.OnVariables) : b.IsExtension (triple :: triples) (s :: chosen) t where
  extends_ := h'.extends_.trans h.extends_
  mem_iff v := by
    rw [h'.mem_iff, h.mem_iff, List.flatMap_cons, List.mem_append, Statement.variableList,
      or_assoc]
  fits := by
    have hb' : b'.OnVariables := h.onVariables hb
    have ht : t.OnVariables := by
      intro v hv
      rcases (h'.mem_iff v).1 hv with hv | hv
      · exact hb' v hv
      · obtain ⟨triple', -, hv⟩ := List.mem_flatMap.1 hv
        exact Term.isVariable_of_mem_variableLists _ hv
    refine .cons ?_ h'.fits
    rw [← Graph.unmerged_empty.sameAll_iff.1 h.same]
    exact h'.extends_.substituteAll_eq ht fun v hv => (h.mem_iff v).2 (.inr hv)

/-- What extends only variables is on variables. -/
theorem IsExtension.onVariables (h : b.IsExtension triples chosen t) (hb : b.OnVariables) :
    t.OnVariables := by
  intro v hv
  rcases (h.mem_iff v).1 hv with hv | hv
  · exact hb v hv
  · obtain ⟨triple, -, hv⟩ := List.mem_flatMap.1 hv
    exact Term.isVariable_of_mem_variableLists _ hv

theorem isExtension_of_extension? (hb : b.OnVariables)
    (h : b.extension? triples chosen = some t) : b.IsExtension triples chosen t := by
  induction triples generalizing b chosen with
  | nil =>
    cases chosen with
    | nil =>
      obtain rfl : b = t := by simpa [extension?] using h
      exact ⟨.refl b, by simp, .nil⟩
    | cons s chosen => simp [extension?] at h
  | cons triple triples ih =>
    cases chosen with
    | nil => simp [extension?] at h
    | cons s chosen =>
      rw [extension?] at h
      obtain ⟨b', hb', hrest⟩ := Option.bind_eq_some_iff.1 h
      have hu := unifies_of_fitAll? hb hb'
      exact .cons hu (ih (hu.onVariables hb) hrest) hb

/-- **There is one extension at most, and it is found.** -/
theorem extension?_eq_some_iff (hb : b.OnVariables) :
    b.extension? triples chosen = some t ↔ b.IsExtension triples chosen t := by
  refine ⟨isExtension_of_extension? hb, fun h => ?_⟩
  obtain ⟨b', hb', he⟩ := exists_extension? (h.onVariables hb) h.extends_
    (fun v hv => (h.mem_iff v).2 (.inr hv)) h.fits
  have hfound := isExtension_of_extension? hb hb'
  rw [hb', he.eq fun v hv => (hfound.mem_iff v).2 ((h.mem_iff v).1 hv)]

end Bindings

/-! ## The candidates of a triple -/

namespace Graph

variable {g : Graph} {b : Bindings} {triple s : Statement}

theorem Unmerged.atomic (hu : g.Unmerged) : g.redirections.Atomic := by
  rw [hu]
  exact Redirections.atomic_nil

/-- A triple is unified with a statement in the way in which it fits. -/
theorem Unmerged.unified?_eq (hu : g.Unmerged) (hb : b.OnVariables) :
    g.unified? b triple s = b.fitAll? triple.terms s.terms := by
  unfold unified? unifyStatement
  rcases unifyAll_cases hu triple.terms s.terms hb rfl with hfinds | ⟨⟨e, he⟩, hnone⟩
  · rw [hfinds]
    exact Option.head?_toList
  · rw [he, hnone]

theorem Unmerged.filterMap_unified? (hu : g.Unmerged) (hb : b.OnVariables)
    (ss : List Statement) : ss.filterMap (g.unified? b triple) =
      ss.filterMap fun s => b.fitAll? triple.terms s.terms :=
  List.filterMap_congr fun _ _ => hu.unified?_eq hb

/-- **Looking among the candidates is as good as looking among all
statements.** -/
theorem Unmerged.filterMap_candidates_perm (hu : g.Unmerged) (hg : g.Reachable)
    (hb : b.OnVariables) (triple : Statement) :
    ((g.prepare b triple).candidates.toList.filterMap fun s => b.fitAll? triple.terms s.terms).Perm
      (g.statements.toList.filterMap fun s => b.fitAll? triple.terms s.terms) := by
  rw [← hu.filterMap_unified? hb, ← hu.filterMap_unified? hb]
  exact hg.filterMap_unified?_perm hu.atomic hb triple

end Graph

/-- The alternatives of a triple, if there is no error, are the ways in which it
fits the candidates. -/
theorem Frame.alternatives_eq {g : Graph} {b : Bindings} {triple : Statement}
    {candidates : List Statement} {bs : List Bindings} (hu : g.Unmerged) (hb : b.OnVariables)
    (h : alternatives g b triple candidates = .ok bs) :
    bs = candidates.filterMap fun s => b.fitAll? triple.terms s.terms := by
  rw [← hu.filterMap_unified? hb]
  exact ((Graph.alternatives_eq_ok_iff hb).1 h).2

end TripleQuery
