import TripleQuery.Proofs.Merging.Atoms
import TripleQuery.Proofs.Merging.Sameness
import Mathlib.Logic.Relation
/-!
# Classes — what merging symbols, literals and blank nodes comes to

A store in which nothing but such terms were merged remembers the pairs that
were (`Merged`). What a term then stands for is the preferred member of its
class in the least equivalence that contains the pairs (`Linked`), however the
redirections are chained (`Merged.canonical_eq_iff_linked`,
`Merged.isPreferred_canonical`), and two terms are the same when their atoms are
so linked, place by place (`Merged.same_iff_alike`). The pairs decide all of it,
and neither the order nor the orientation in which they were merged
(`Merged.canonical_eq_iff`).
-/

namespace TripleQuery

namespace Term

variable {a b c : Term} {r : Term → Term → Prop} {xs ys : List Term}

/-! ## The order of preference -/

/-- One term is preferred to another when it ranks lower, or as low and comes
no later. -/
theorem isPreferred_iff :
    a.isPreferred b ↔ a.mergeRank < b.mergeRank ∨ a.mergeRank = b.mergeRank ∧ a.le b := by
  simp [isPreferred]

@[simp] theorem isPreferred_refl (a : Term) : a.isPreferred a := by
  simp [isPreferred_iff, le]

theorem isPreferred_trans (hab : a.isPreferred b) (hbc : b.isPreferred c) : a.isPreferred c := by
  rw [isPreferred_iff] at *
  rcases hab with hab | ⟨hab, hle⟩ <;> rcases hbc with hbc | ⟨hbc, hle'⟩
  · exact .inl (hab.trans hbc)
  · exact .inl (hbc ▸ hab)
  · exact .inl (hab ▸ hbc)
  · exact .inr ⟨hab.trans hbc, Std.TransCmp.isLE_trans hle hle'⟩

/-- Of two terms one is preferred. -/
theorem isPreferred_of_not (h : a.isPreferred b = false) : b.isPreferred a := by
  have hn : ¬ (a.mergeRank < b.mergeRank ∨ a.mergeRank = b.mergeRank ∧ a.le b) := by
    rw [← isPreferred_iff, h]
    exact Bool.false_ne_true
  rw [not_or, not_and, Nat.not_lt] at hn
  rw [isPreferred_iff]
  rcases hn.1.lt_or_eq with hlt | heq
  · exact .inl hlt
  · refine .inr ⟨heq, ?_⟩
    have hgt : ¬ (compare a b).isLE := hn.2 heq.symm
    have hswap : compare b a = (compare a b).swap := Std.OrientedCmp.eq_swap
    rw [le, hswap, Ordering.isLE_swap]
    cases h : compare a b <;> simp_all

/-- **No two terms are preferred to each other.** -/
theorem isPreferred_antisymm (hab : a.isPreferred b) (hba : b.isPreferred a) : a = b := by
  rw [isPreferred_iff] at *
  have hab' : ¬ a.mergeRank < b.mergeRank := by omega
  have hba' : ¬ b.mergeRank < a.mergeRank := by omega
  have hle : a.le b := (hab.resolve_left hab').2
  have hge : b.le a := (hba.resolve_left hba').2
  exact Std.LawfulEqOrd.eq_of_compare (Std.OrientedCmp.isLE_antisymm hle hge)

/-! ## Terms that are alike in their atoms -/

/-- Two terms are alike up to a relation between atomic terms: atomic ones when
they are related, collections when they have the same length and are alike
place by place. -/
inductive Alike (r : Term → Term → Prop) : Term → Term → Prop
  /-- Related atomic terms. -/
  | atomic {a b : Term} : a.isAtomic → b.isAtomic → r a b → Alike r a b
  /-- Collections of terms that are alike. -/
  | collection {xs ys : List Term} :
      List.Forall₂ (Alike r) xs ys → Alike r (.collection xs) (.collection ys)

theorem alike_collection :
    Alike r (.collection xs) (.collection ys) ↔ List.Forall₂ (Alike r) xs ys := by
  constructor
  · intro h
    cases h with
    | atomic h => simp [isAtomic] at h
    | collection h => exact h
  · exact .collection

/-- An atomic term is alike to the atomic terms that it is related to. -/
theorem alike_iff_of_isAtomic (h : a.isAtomic ∨ b.isAtomic) :
    Alike r a b ↔ a.isAtomic ∧ b.isAtomic ∧ r a b := by
  constructor
  · intro hr
    cases hr with
    | atomic ha hb hab => exact ⟨ha, hb, hab⟩
    | collection => simp [isAtomic] at h
  · rintro ⟨ha, hb, hab⟩
    exact .atomic ha hb hab

/-- A symbol, a literal or a blank node. -/
def isName : Term → Bool
  | symbol _ | literal _ | blank _ => true
  | _ => false

theorem isNamedVariable_of_isName {a : Term} (h : a.isName) : a.isNamedVariable = false := by
  cases a <;> simp_all [isName, isNamedVariable]

theorem isAtomic_of_isName {a : Term} (h : a.isName) : a.isAtomic := by
  cases a <;> simp_all [isName, isAtomic]

end Term

/-! ## Pairs of terms and what they link -/

variable {pairs pairs' : List (Term × Term)} {a b t u x y : Term}

/-- The least equivalence in which the two terms of each pair are equivalent. -/
def Linked (pairs : List (Term × Term)) : Term → Term → Prop :=
  Relation.EqvGen fun a b => (a, b) ∈ pairs

namespace Linked

theorem refl (t : Term) : Linked pairs t t :=
  Relation.EqvGen.refl t

theorem symm (h : Linked pairs t u) : Linked pairs u t :=
  Relation.EqvGen.symm _ _ h

theorem trans (h : Linked pairs t u) (h' : Linked pairs u x) : Linked pairs t x :=
  Relation.EqvGen.trans _ _ _ h h'

theorem of_mem (h : (a, b) ∈ pairs) : Linked pairs a b :=
  Relation.EqvGen.rel _ _ h

/-- **Linked terms are related by every equivalence that relates the pairs.** -/
theorem least {r : Term → Term → Prop} (hr : Equivalence r)
    (hpairs : ∀ a b, (a, b) ∈ pairs → r a b) (h : Linked pairs t u) : r t u := by
  induction h with
  | rel a b hab => exact hpairs a b hab
  | refl a => exact hr.refl a
  | symm a b _ ih => exact hr.symm ih
  | trans a b c _ _ ih ih' => exact hr.trans ih ih'

theorem equivalence (pairs : List (Term × Term)) : Equivalence (Linked pairs) :=
  ⟨refl, symm, trans⟩

/-- More pairs link more. -/
theorem mono (hsub : ∀ a b, (a, b) ∈ pairs → Linked pairs' a b) (h : Linked pairs t u) :
    Linked pairs' t u :=
  h.least (equivalence pairs') hsub

/-- **What is linked to a name is one**, as long as the pairs are of names. -/
theorem isName (hpairs : ∀ a b, (a, b) ∈ pairs → a.isName ∧ b.isName) (h : Linked pairs t u) :
    t.isName ↔ u.isName := by
  refine h.least (r := fun t u => t.isName ↔ u.isName)
    ⟨fun _ => Iff.rfl, Iff.symm, Iff.trans⟩ fun a b hab => ?_
  exact iff_of_true (hpairs a b hab).1 (hpairs a b hab).2

end Linked

/-- Two lists hold the same pairs, up to the order in the list and within each
pair. -/
def SamePairs (pairs pairs' : List (Term × Term)) : Prop :=
  ∀ a b, (a, b) ∈ pairs ∨ (b, a) ∈ pairs ↔ (a, b) ∈ pairs' ∨ (b, a) ∈ pairs'

/-- **The order of pairs and their orientation do not matter.** -/
theorem SamePairs.linked_iff (h : SamePairs pairs pairs') :
    Linked pairs t u ↔ Linked pairs' t u := by
  have hmono : ∀ {ps ps' : List (Term × Term)}, SamePairs ps ps' →
      Linked ps t u → Linked ps' t u := by
    intro ps ps' hps
    refine Linked.mono fun a b hab => ?_
    rcases (hps a b).1 (.inl hab) with hab | hba
    · exact .of_mem hab
    · exact (Linked.of_mem hba).symm
  exact ⟨hmono h, hmono fun a b => (h a b).symm⟩

namespace Graph

variable {g g' : Graph} {keep : Term}

/-- What is kept is preferred to both keys. -/
theorem isPreferred_keep (h : g.equate a b = .ok (g', keep)) :
    keep.isPreferred (g.key a) ∧ keep.isPreferred (g.key b) := by
  rcases equate_cases h with ⟨hk, -, rfl⟩ | ⟨hne, lose, -, hp, ⟨-, rfl⟩ | ⟨-, rfl⟩⟩
  · simp [hk]
  · rw [decide_eq_false hne.symm] at hp
    exact ⟨Term.isPreferred_of_not hp, Term.isPreferred_refl _⟩
  · exact ⟨Term.isPreferred_refl _, by rw [hp, decide_eq_true rfl]⟩

/-- A store with the pairs of symbols, literals and blank nodes that were
merged in it, the latest first. -/
inductive Merged : List (Term × Term) → Graph → Prop
  /-- Nothing was stored yet. -/
  | empty : Merged [] .empty
  /-- A statement was added, whatever its terms. -/
  | add {pairs : List (Term × Term)} {g : Graph} (s : Statement) :
      Merged pairs g → Merged pairs (g.add s)
  /-- Two terms were merged. -/
  | equate {pairs : List (Term × Term)} {g g' : Graph} {a b keep : Term} :
      Merged pairs g → a.isName → b.isName → g.equate a b = .ok (g', keep) →
        Merged ((a, b) :: pairs) g'

namespace Merged

theorem atomReachable (h : Merged pairs g) : g.AtomReachable := by
  induction h with
  | empty => exact .empty
  | add s _ ih => exact .add s ih
  | equate _ ha hb he ih =>
    exact .equate ih (Term.isAtomic_of_isName ha) (Term.isAtomic_of_isName hb) he

theorem isName (h : Merged pairs g) (hab : (a, b) ∈ pairs) : a.isName ∧ b.isName := by
  induction h with
  | empty => simp at hab
  | add s _ ih => exact ih hab
  | equate _ ha hb _ ih =>
    rcases List.mem_cons.1 hab with hab | hab
    · obtain ⟨rfl, rfl⟩ := Prod.mk.inj hab
      exact ⟨ha, hb⟩
    · exact ih hab

/-! ## What a term stands for -/

/-- **A term is linked to what it stands for.** -/
theorem linked_canonical (h : Merged pairs g) (t : Term) : Linked pairs t (g.canonical t) := by
  induction h generalizing t with
  | empty => exact .refl t
  | add s _ ih =>
    rw [Graph.canonical, redirections_add]
    exact ih t
  | @equate pairs g g' a b keep _ ha hb he ih =>
    have hmore : ∀ t, Linked ((a, b) :: pairs) t (g.canonical t) := fun t =>
      (ih t).mono fun _ _ hmem => .of_mem (List.mem_cons_of_mem _ hmem)
    -- the two keys, one of which is kept, are linked through the new pair
    have hkeys : ∀ k, k = g.key a ∨ k = g.key b → Linked ((a, b) :: pairs) a k := by
      rw [← canonical_eq_key (Term.isAtomic_of_isName ha),
        ← canonical_eq_key (Term.isAtomic_of_isName hb)]
      rintro k (rfl | rfl)
      · exact hmore a
      · exact .trans (.of_mem List.mem_cons_self) (hmore b)
    rw [canonical_equate he]
    split
    · rename_i hr
      exact (hmore t).trans ((hkeys _ hr).symm.trans (hkeys _ (keep_eq_key he)))
    · exact hmore t

/-- **Two names can always be merged.** -/
theorem exists_equate (h : Merged pairs g) (ha : a.isName) (hb : b.isName) :
    ∃ g' keep, g.equate a b = .ok (g', keep) := by
  have hkey : ∀ {t : Term}, t.isName → (g.key t).isNamedVariable = false := by
    intro t ht
    rw [← canonical_eq_key (Term.isAtomic_of_isName ht)]
    exact Term.isNamedVariable_of_isName (((h.linked_canonical t).isName fun _ _ => h.isName).1 ht)
  simp only [Graph.equate, hkey ha, hkey hb, Bool.false_eq_true, if_false]
  split
  · exact ⟨_, _, rfl⟩
  split <;> exact ⟨_, _, rfl⟩

/-- The terms of a pair stand for one term. -/
theorem canonical_eq_of_mem (h : Merged pairs g) (hab : (a, b) ∈ pairs) :
    g.canonical a = g.canonical b := by
  induction h with
  | empty => simp at hab
  | add s _ ih =>
    rw [Graph.canonical, Graph.canonical, redirections_add]
    exact ih hab
  | equate _ ha hb he ih =>
    rcases List.mem_cons.1 hab with hab | hab
    · obtain ⟨rfl, rfl⟩ := Prod.mk.inj hab
      have hca := (canonical_equate_eq_keep_iff he).2
        (.inl (canonical_eq_key (Term.isAtomic_of_isName ha)))
      have hcb := (canonical_equate_eq_keep_iff he).2
        (.inr (canonical_eq_key (Term.isAtomic_of_isName hb)))
      rw [hca, hcb]
    · exact canonical_equate_congr he (ih hab)

/-- **Terms stand for one term exactly when they are linked.** -/
theorem canonical_eq_iff_linked (h : Merged pairs g) :
    g.canonical t = g.canonical u ↔ Linked pairs t u := by
  constructor
  · intro he
    exact (h.linked_canonical t).trans (he ▸ (h.linked_canonical u).symm)
  · refine Linked.least (r := fun t u => g.canonical t = g.canonical u)
      ⟨fun _ => rfl, Eq.symm, Eq.trans⟩ fun a b => h.canonical_eq_of_mem

/-- **What a term stands for is preferred** to everything in its class. -/
theorem isPreferred_canonical (h : Merged pairs g) (htu : Linked pairs t u) :
    (g.canonical t).isPreferred u := by
  rw [h.canonical_eq_iff_linked.2 htu]
  clear htu
  induction h with
  | empty => exact Term.isPreferred_refl u
  | add s _ ih =>
    rw [Graph.canonical, redirections_add]
    exact ih
  | equate _ _ _ he ih =>
    rw [canonical_equate he]
    split
    · rename_i hr
      refine Term.isPreferred_trans ?_ ih
      rcases hr with hr | hr <;> rw [hr]
      · exact (isPreferred_keep he).1
      · exact (isPreferred_keep he).2
    · exact ih

/-- A term stands for the one member of its class that is preferred to every
other. -/
theorem canonical_eq_iff (h : Merged pairs g) :
    g.canonical t = x ↔ Linked pairs t x ∧ ∀ u, Linked pairs t u → x.isPreferred u := by
  constructor
  · rintro rfl
    exact ⟨h.linked_canonical t, fun u => h.isPreferred_canonical⟩
  · rintro ⟨hx, hleast⟩
    exact Term.isPreferred_antisymm (h.isPreferred_canonical hx)
      (hleast _ (h.linked_canonical t))

/-! ## Which terms are the same -/

/-- **Terms are the same when they are alike up to linked atoms.** -/
theorem same_iff_alike (h : Merged pairs g) : g.same x y ↔ Term.Alike (Linked pairs) x y := by
  have hat : g.redirections.Atomic := h.atomReachable.atomic
  induction x using Term.atomic_induction generalizing y with
  | atomic x hx =>
    rw [same_iff_canonical_eq (.inl hx), Term.alike_iff_of_isAtomic (.inl hx),
      h.canonical_eq_iff_linked]
    refine ⟨fun hxy => ⟨hx, ?_, hxy⟩, fun hxy => hxy.2.2⟩
    -- a collection stands for itself, an atomic term for an atomic one
    by_contra hy
    obtain ⟨ys, rfl⟩ := Term.eq_collection_of_not_isAtomic hy
    have hcx : (g.canonical x).isAtomic := hat.isAtomic_canonical hx
    rw [h.canonical_eq_iff_linked.2 hxy, Graph.canonical, hat.canonical_collection] at hcx
    exact hy hcx
  | collection xs ih =>
    by_cases hy : y.isAtomic
    · -- likewise with the two sides exchanged
      have hcy : (g.canonical y).isAtomic := hat.isAtomic_canonical hy
      have hcx : g.canonical (.collection xs) = .collection xs := hat.canonical_collection xs
      rw [same_iff_canonical_eq (.inr hy), Term.alike_iff_of_isAtomic (.inr hy), hcx]
      refine iff_of_false (fun he => ?_) fun hxy => by simp [Term.isAtomic] at hxy
      rw [← he] at hcy
      simp [Term.isAtomic] at hcy
    · obtain ⟨ys, rfl⟩ := Term.eq_collection_of_not_isAtomic hy
      rw [Term.alike_collection, Graph.same, Redirections.same_collection_iff,
        List.forall₂_iff_get, List.forall₂_iff_get]
      refine and_congr_right fun _ => forall_congr' fun i => forall_congr' fun hx =>
        forall_congr' fun hy => ?_
      exact ih _ (List.getElem_mem ..)

/-- **What merging symbols, literals and blank nodes comes to.** An atomic term
stands for the one term that is preferred in its class, in the least
equivalence that contains the merged pairs. Two terms are the same exactly when
they are alike up to this equivalence at their atoms, and exactly when they have
one key. Another store in which the same pairs were merged, in any order and
orientation and among any statements, agrees with this one about what every
term stands for, and two such terms can always be merged. -/
theorem canonical_and_same (h : Merged pairs g) :
    (∀ t c, g.canonical t = c ↔ Linked pairs t c ∧ ∀ u, Linked pairs t u → c.isPreferred u) ∧
    (∀ x y, g.same x y ↔ Term.Alike (Linked pairs) x y) ∧
    (∀ x y, g.same x y ↔ g.key x = g.key y) ∧
    (∀ pairs' g', Merged pairs' g' → SamePairs pairs pairs' →
      ∀ t, g'.canonical t = g.canonical t) ∧
    ∀ a b, a.isName → b.isName →
      ∃ g' keep, g.equate a b = .ok (g', keep) ∧ Merged ((a, b) :: pairs) g' := by
  refine ⟨fun t c => h.canonical_eq_iff, fun x y => h.same_iff_alike,
    fun x y => h.atomReachable.same_iff, fun pairs' g' h' hpairs t => ?_, fun a b ha hb => ?_⟩
  · rw [h'.canonical_eq_iff]
    simp only [← hpairs.linked_iff]
    exact h.canonical_eq_iff.1 rfl
  · obtain ⟨g', keep, he⟩ := h.exists_equate ha hb
    exact ⟨g', keep, he, h.equate ha hb he⟩

end Merged

/-! ## The same pairs, merged in two orders -/

/-- A blank node was merged into a symbol, and the symbol into another. -/
def chained : Graph :=
  (empty.redirect (.blank "n") (.symbol "b")).redirect (.symbol "b") (.symbol "a")

/-- The symbols were merged first, so that the blank node went to the other one. -/
def fanned : Graph :=
  (empty.redirect (.symbol "b") (.symbol "a")).redirect (.blank "n") (.symbol "a")

theorem merged_chained :
    Merged [(.symbol "a", .symbol "b"), (.symbol "b", .blank "n")] chained := by
  refine .equate (.equate .empty rfl rfl (equate_keeps_left ?_ ?_ ⟨rfl, rfl⟩ ?_ ?_)) rfl rfl
    (equate_keeps_left ?_ ?_ ⟨rfl, rfl⟩ ?_ ?_)
  all_goals decide

theorem merged_fanned :
    Merged [(.blank "n", .symbol "b"), (.symbol "b", .symbol "a")] fanned := by
  refine .equate (.equate .empty rfl rfl (equate_keeps_right ?_ ?_ ⟨rfl, rfl⟩ ?_ ?_)) rfl rfl
    (equate_keeps_right ?_ ?_ ⟨rfl, rfl⟩ ?_ ?_)
  all_goals decide

/-- The redirections of the two stores differ, and every term stands for the
same in both. -/
theorem canonical_fanned :
    fanned.redirections ≠ chained.redirections ∧
      (∀ t, fanned.canonical t = chained.canonical t) ∧
      chained.same (.collection [.blank "n", .symbol "c"])
        (.collection [.symbol "a", .symbol "c"]) := by
  obtain ⟨-, halike, -, hpairs, -⟩ := merged_chained.canonical_and_same
  refine ⟨by decide, hpairs _ _ merged_fanned fun a b => ?_, (halike _ _).2 ?_⟩
  · simp only [List.mem_cons, Prod.mk.injEq, List.not_mem_nil, or_false]
    tauto
  · have hb : Linked [(.symbol "a", .symbol "b"), (.symbol "b", .blank "n")] (.blank "n")
        (.symbol "b") := (Linked.of_mem (by simp)).symm
    have ha : Linked [(.symbol "a", .symbol "b"), (.symbol "b", .blank "n")] (.symbol "b")
        (.symbol "a") := (Linked.of_mem (by simp)).symm
    exact .collection (.cons (.atomic rfl rfl (hb.trans ha))
      (.cons (.atomic rfl rfl (.refl _)) .nil))

end Graph

end TripleQuery
