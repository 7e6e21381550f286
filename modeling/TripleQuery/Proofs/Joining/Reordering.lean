import Mathlib.Data.Multiset.Bind
import TripleQuery.Proofs.Joining.Unmerged
/-!
# Reordering — triples are joined in any order

A join goes through the statements for its first triple, and joins the others
under what each of them binds (`joins_cons`). What is found does not depend on
the order of the triples (`joins_perm`), because an extension does not: whoever
extends to two triples in one order extends to them in the other.
-/

namespace TripleQuery

open Bindings (IsExtension)

variable {ss triples chosen l l' : List Statement} {triple other s s' : Statement}
  {b t x : Bindings}

/-- Nothing to join leaves everything as it is. -/
theorem joins_nil (ss : List Statement) (b : Bindings) : joins ss [] b = [b] := by
  simp [joins, choices, Bindings.extension?]

/-- **The first triple is joined first.** -/
theorem joins_cons (ss : List Statement) (triple : Statement) (triples : List Statement)
    (b : Bindings) : joins ss (triple :: triples) b =
      ss.flatMap fun s => (b.fitAll? triple.terms s.terms).toList.flatMap (joins ss triples) := by
  unfold joins
  rw [choices, List.filterMap_flatMap]
  refine List.flatMap_congr fun s _ => ?_
  rw [List.filterMap_map]
  cases hfit : b.fitAll? triple.terms s.terms with
  | none =>
    have hnone : ∀ chosen : List Statement,
        (b.extension? (triple :: triples) ∘ (s :: ·)) chosen = none := by
      intro chosen
      simp [Bindings.extension?, hfit]
    rw [List.filterMap_eq_nil_iff.2 fun chosen _ => hnone chosen]
    rfl
  | some b' =>
    have hsome : b.extension? (triple :: triples) ∘ (s :: ·) = b'.extension? triples := by
      funext chosen
      simp [Bindings.extension?, hfit]
    rw [hsome]
    simp

/-- The same, going through the ways to fit the first triple. -/
theorem joins_cons_filterMap (ss : List Statement) (triple : Statement)
    (triples : List Statement) (b : Bindings) : joins ss (triple :: triples) b =
      (ss.filterMap fun s => b.fitAll? triple.terms s.terms).flatMap (joins ss triples) := by
  rw [joins_cons, List.filterMap_eq_flatMap_toList, List.flatMap_assoc]

/-- What a join finds is an extension. -/
theorem isExtension_of_mem_joins (hb : b.OnVariables) (h : x ∈ joins ss triples b) :
    ∃ chosen, b.IsExtension triples chosen x := by
  obtain ⟨chosen, -, hx⟩ := List.mem_filterMap.1 h
  exact ⟨chosen, Bindings.isExtension_of_extension? hb hx⟩

/-! ## Two triples -/

/-- Whoever extends to two triples in one order extends to them in the other. -/
theorem Bindings.IsExtension.swap (h : b.IsExtension [triple, other] [s, s'] t) :
    b.IsExtension [other, triple] [s', s] t where
  extends_ := h.extends_
  mem_iff v := by
    rw [h.mem_iff]
    simp [or_comm]
  fits := by
    have hfits := h.fits
    simp only [List.forall₂_cons, List.Forall₂.nil, and_true] at hfits ⊢
    exact hfits.symm

theorem extension?_swap (hb : b.OnVariables) (triple other s s' : Statement) :
    b.extension? [triple, other] [s, s'] = b.extension? [other, triple] [s', s] := by
  ext t
  rw [Bindings.extension?_eq_some_iff hb, Bindings.extension?_eq_some_iff hb]
  exact ⟨fun h => h.swap, fun h => h.swap⟩

/-- Two triples are joined by going through the statements for both. -/
theorem joins_cons_cons (ss : List Statement) (triple other : Statement)
    (triples : List Statement) (b : Bindings) : joins ss (triple :: other :: triples) b =
      ss.flatMap fun s => ss.flatMap fun s' =>
        (b.extension? [triple, other] [s, s']).toList.flatMap (joins ss triples) := by
  rw [joins_cons]
  refine List.flatMap_congr fun s _ => ?_
  cases hfit : b.fitAll? triple.terms s.terms with
  | none => simp [Bindings.extension?, hfit]
  | some b' => simp [Bindings.extension?, hfit, joins_cons]

/-- Going through two lists in either order gives the same. -/
theorem flatMap_flatMap_perm {α β γ : Type} (l : List α) (m : List β) (f : α → β → List γ) :
    (l.flatMap fun a => m.flatMap (f a)).Perm (m.flatMap fun b => l.flatMap fun a => f a b) := by
  have hcomm := Multiset.bind_bind (l : Multiset α) (m : Multiset β)
    (f := fun a b => (f a b : Multiset γ))
  simp only [Multiset.coe_bind] at hcomm
  exact Multiset.coe_eq_coe.1 hcomm

/-- **The order of the triples does not matter.** -/
theorem joins_perm (h : l.Perm l') (hb : b.OnVariables) :
    (joins ss l b).Perm (joins ss l' b) := by
  induction h generalizing b with
  | nil => exact .refl _
  | @cons triple l l' _ ih =>
    rw [joins_cons, joins_cons]
    refine List.Perm.flatMap_left _ fun s _ => List.Perm.flatMap_left _ fun b' hb' => ?_
    have hfit := Bindings.unifies_of_fitAll? hb (Option.mem_toList.1 hb')
    exact ih (hfit.onVariables hb)
  | swap triple other l =>
    rw [joins_cons_cons, joins_cons_cons]
    refine (flatMap_flatMap_perm ss ss _).trans (.of_eq ?_)
    refine List.flatMap_congr fun s' _ => List.flatMap_congr fun s _ => ?_
    rw [extension?_swap hb]
  | trans _ _ ih ih' => exact (ih hb).trans (ih' hb)

/-- A join goes beyond what it starts from. -/
theorem extends_of_mem_joins (hb : b.OnVariables) (h : x ∈ joins ss triples b) :
    x.OnVariables ∧ x.Extends b := by
  obtain ⟨chosen, hx⟩ := isExtension_of_mem_joins hb h
  exact ⟨hx.onVariables hb, hx.extends_⟩

/-- What breaks a constraint breaks it whatever is bound in addition. -/
theorem Constraints.satisfiedBy_of_extends {cs : Constraints} (h : x.Extends b)
    (hx : cs.satisfiedBy x) : cs.satisfiedBy b := by
  rw [Constraints.satisfiedBy_iff] at hx ⊢
  intro v c value hc hv
  exact hx v c value hc (h v value hv)

end TripleQuery
