import TripleQuery.Graph.Redirections
import TripleQuery.Term.Variables
import Mathlib.Data.List.Forall2
/-!
# Redirections — what stays the same

Terms nest, so facts about them are proved from the atoms upward
(`Term.atomic_induction`). Sameness is standing for one term, element by element
(`same_iff_elementwise`), and what holds of the terms that are compared directly
holds throughout (`Term.Elementwise`). So every term is the same as itself
(`same_refl`), and a further redirection never parts two terms that were the
same (`same_cons`), whatever it redirects.

The second section is about redirections between terms that stand for
themselves (`Recorded`), which is how they come about: what a term stands for
then stands for itself (`canonical_canonical`). The third adds that no
collection was ever merged (`Atomic`). A collection then stands for itself, a
key is its own key (`key_key`), a new redirection only acts on keys
(`key_cons_key`), and two terms are the same exactly when they have one key
(`same_iff_key_eq`).
-/

namespace TripleQuery

namespace Term

mutual

private theorem induction_of_atomic {P : Term → Prop} (atomic : ∀ t : Term, t.isAtomic → P t)
    (collection : ∀ ts : List Term, (∀ t ∈ ts, P t) → P (.collection ts)) : ∀ t : Term, P t
  | .var _ | .blank _ | .symbol _ | .literal _ => atomic _ rfl
  | .collection ts => collection ts (induction_of_atomic_list atomic collection ts)

private theorem induction_of_atomic_list {P : Term → Prop}
    (atomic : ∀ t : Term, t.isAtomic → P t)
    (collection : ∀ ts : List Term, (∀ t ∈ ts, P t) → P (.collection ts)) :
    ∀ ts : List Term, ∀ t ∈ ts, P t
  | [] => by simp
  | t :: ts => by
    simp only [List.mem_cons, forall_eq_or_imp]
    exact ⟨induction_of_atomic atomic collection t,
      induction_of_atomic_list atomic collection ts⟩

end

/-- **What holds of the atomic terms, and of a collection when it holds of its
elements, holds of every term.** -/
@[elab_as_elim]
theorem atomic_induction {P : Term → Prop} (t : Term) (atomic : ∀ t : Term, t.isAtomic → P t)
    (collection : ∀ ts : List Term, (∀ t ∈ ts, P t) → P (.collection ts)) : P t :=
  induction_of_atomic atomic collection t

/-- A term that is not atomic is a collection. -/
theorem eq_collection_of_not_isAtomic {t : Term} (h : ¬ t.isAtomic) :
    ∃ ts, t = .collection ts := by
  cases t <;> simp_all [isAtomic]

theorem isAtomic_iff_isCollection {t : Term} : t.isAtomic ↔ t.isCollection = false := by
  cases t <;> simp [isAtomic, isCollection]

/-! ## Relations between elements -/

/-- Two terms are related element by element: two collections when they have
one length and are so place by place, any other terms when they are related
directly. -/
inductive Elementwise (r : Term → Term → Prop) : Term → Term → Prop
  /-- Related terms, one of which is no collection. -/
  | direct {a b : Term} : a.isAtomic ∨ b.isAtomic → r a b → Elementwise r a b
  /-- Collections of terms that are related element by element. -/
  | collection {xs ys : List Term} :
      List.Forall₂ (Elementwise r) xs ys → Elementwise r (.collection xs) (.collection ys)

variable {r r' : Term → Term → Prop} {a b : Term} {xs ys : List Term}

theorem elementwise_collection :
    Elementwise r (.collection xs) (.collection ys) ↔ List.Forall₂ (Elementwise r) xs ys := by
  constructor
  · intro h
    cases h with
    | direct h => simp [isAtomic] at h
    | collection h => exact h
  · exact .collection

/-- Outside of two collections, terms are related directly. -/
theorem elementwise_iff_of_isAtomic (h : a.isAtomic ∨ b.isAtomic) :
    Elementwise r a b ↔ r a b := by
  constructor
  · intro hr
    cases hr with
    | direct _ hr => exact hr
    | collection => simp [isAtomic] at h
  · exact .direct h

/-- **What holds of the terms that are compared directly holds element by
element.** -/
theorem Elementwise.mono (hr : ∀ a b : Term, a.isAtomic ∨ b.isAtomic → r a b → r' a b)
    (h : Elementwise r a b) : Elementwise r' a b := by
  have hdirect : ∀ {a b : Term}, a.isAtomic ∨ b.isAtomic → Elementwise r a b →
      Elementwise r' a b := fun hab h =>
    .direct hab (hr _ _ hab ((elementwise_iff_of_isAtomic hab).1 h))
  induction a using atomic_induction generalizing b with
  | atomic a ha => exact hdirect (.inl ha) h
  | collection xs ih =>
    by_cases hb : b.isAtomic
    · exact hdirect (.inr hb) h
    · obtain ⟨ys, rfl⟩ := eq_collection_of_not_isAtomic hb
      rw [elementwise_collection, List.forall₂_iff_get] at h ⊢
      exact ⟨h.1, fun i hx hy => ih _ (List.getElem_mem ..) (h.2 i hx hy)⟩

/-- Relations that agree on such terms agree element by element. -/
theorem elementwise_congr (hr : ∀ a b : Term, a.isAtomic ∨ b.isAtomic → (r a b ↔ r' a b)) :
    Elementwise r a b ↔ Elementwise r' a b :=
  ⟨.mono fun a b hab => (hr a b hab).1, .mono fun a b hab => (hr a b hab).2⟩

theorem Elementwise.refl (hr : ∀ a : Term, r a a) (a : Term) : Elementwise r a a := by
  induction a using atomic_induction with
  | atomic a ha => exact .direct (.inl ha) (hr a)
  | collection ts ih => exact .collection (List.forall₂_same.2 ih)

theorem Elementwise.symm (hr : ∀ a b : Term, r a b → r b a) (h : Elementwise r a b) :
    Elementwise r b a := by
  have hdirect : ∀ {a b : Term}, a.isAtomic ∨ b.isAtomic → Elementwise r a b →
      Elementwise r b a := fun hab h =>
    .direct hab.symm (hr _ _ ((elementwise_iff_of_isAtomic hab).1 h))
  induction a using atomic_induction generalizing b with
  | atomic a ha => exact hdirect (.inl ha) h
  | collection xs ih =>
    by_cases hb : b.isAtomic
    · exact hdirect (.inr hb) h
    · obtain ⟨ys, rfl⟩ := eq_collection_of_not_isAtomic hb
      rw [elementwise_collection, List.forall₂_iff_get] at h ⊢
      exact ⟨h.1.symm, fun i hy hx => ih _ (List.getElem_mem ..) (h.2 i hx hy)⟩

end Term

namespace Redirections

variable {rs : Redirections} {source target a b t : Term}

/-! ## Sameness -/

/-- Two lists are the same when they are so place by place. -/
theorem sameAll_iff {xs ys : List Term} :
    rs.sameAll xs ys ↔ List.Forall₂ (fun x y => rs.same x y = true) xs ys := by
  induction xs generalizing ys with
  | nil => cases ys <;> simp [sameAll]
  | cons x xs ih => cases ys <;> simp [sameAll, ih]

/-- Two collections are the same when their elements are. -/
theorem same_collection_iff {xs ys : List Term} :
    rs.same (.collection xs) (.collection ys) ↔
      List.Forall₂ (fun x y => rs.same x y = true) xs ys := by
  rw [same_collection, sameAll_iff]

/-- Outside of two collections, sameness is to stand for one term. -/
theorem same_iff_of_isAtomic (h : a.isAtomic ∨ b.isAtomic) :
    rs.same a b ↔ rs.canonical a = rs.canonical b := by
  rw [same_of_isAtomic rs h, decide_eq_true_iff]

/-- **Sameness is to stand for one term, element by element.** -/
theorem same_iff_elementwise :
    rs.same a b ↔ Term.Elementwise (fun a b => rs.canonical a = rs.canonical b) a b := by
  induction a using Term.atomic_induction generalizing b with
  | atomic a ha =>
    rw [same_iff_of_isAtomic (.inl ha), Term.elementwise_iff_of_isAtomic (.inl ha)]
  | collection xs ih =>
    by_cases hb : b.isAtomic
    · rw [same_iff_of_isAtomic (.inr hb), Term.elementwise_iff_of_isAtomic (.inr hb)]
    · obtain ⟨ys, rfl⟩ := Term.eq_collection_of_not_isAtomic hb
      rw [same_collection_iff, Term.elementwise_collection, List.forall₂_iff_get,
        List.forall₂_iff_get]
      refine and_congr_right fun _ => forall_congr' fun i => forall_congr' fun hx =>
        forall_congr' fun hy => ?_
      exact ih _ (List.getElem_mem ..)

/-- **Every term is the same as itself.** -/
theorem same_refl (rs : Redirections) (t : Term) : rs.same t t :=
  same_iff_elementwise.2 (.refl (fun a => Eq.refl (rs.canonical a)) t)

/-- **Sameness goes both ways.** -/
theorem same_symm (h : rs.same a b) : rs.same b a :=
  same_iff_elementwise.2 ((same_iff_elementwise.1 h).symm fun _ _ => Eq.symm)

/-- **A further redirection parts no terms that were the same.** What two
terms stand for is replaced alike in both. -/
theorem same_cons (source target : Term) (h : rs.same a b) :
    Redirections.same ((source, target) :: rs) a b := by
  rw [same_iff_elementwise] at h ⊢
  refine h.mono fun x y _ hxy => ?_
  rw [canonical_cons, canonical_cons, hxy]

/-! ## Redirections between terms that stand for themselves -/

/-- Each redirection was made between two different terms that stood for
themselves at the time. -/
def Recorded : Redirections → Prop
  | [] => True
  | (source, target) :: earlier =>
    canonical earlier source = source ∧ canonical earlier target = target ∧ source ≠ target ∧
      Recorded earlier

/-- **What a term stands for stands for itself.** -/
theorem canonical_canonical {rs : Redirections} (h : rs.Recorded) (t : Term) :
    rs.canonical (rs.canonical t) = rs.canonical t := by
  induction rs with
  | nil => rfl
  | cons r rs ih =>
    obtain ⟨source, target⟩ := r
    obtain ⟨_, htarget, hne, hrs⟩ := h
    by_cases hc : canonical rs t = source
    · have hct : canonical ((source, target) :: rs) t = target := by
        rw [canonical_cons, if_pos hc]
      rw [hct, canonical_cons, htarget, if_neg hne.symm]
    · have hct : canonical ((source, target) :: rs) t = canonical rs t := by
        rw [canonical_cons, if_neg hc]
      rw [hct, canonical_cons, ih hrs, if_neg hc]

/-- A key stands for itself. -/
theorem canonical_key (h : rs.Recorded) (t : Term) : rs.canonical (rs.key t) = rs.key t := by
  by_cases ha : t.isAtomic
  · rw [key_of_isAtomic rs ha, canonical_canonical h]
  · obtain ⟨ts, rfl⟩ := Term.eq_collection_of_not_isAtomic ha
    rw [key_collection, canonical_canonical h]

/-! ## Redirections between atomic terms -/

/-- No collection was ever merged. -/
def Atomic (rs : Redirections) : Prop :=
  ∀ r ∈ rs, r.1.isAtomic ∧ r.2.isAtomic

theorem atomic_nil : Atomic [] := by simp [Atomic]

theorem atomic_cons :
    Atomic ((source, target) :: rs) ↔ (source.isAtomic ∧ target.isAtomic) ∧ rs.Atomic := by
  simp [Atomic]

/-- A collection then stands for itself. -/
theorem Atomic.canonical_collection (h : rs.Atomic) (ts : List Term) :
    rs.canonical (.collection ts) = .collection ts := by
  induction rs with
  | nil => rfl
  | cons r rs ih =>
    obtain ⟨source, target⟩ := r
    obtain ⟨⟨hs, -⟩, hrs⟩ := atomic_cons.1 h
    rw [canonical_cons, ih hrs, if_neg]
    rintro rfl
    simp [Term.isAtomic] at hs

/-- And an atomic term for an atomic term. -/
theorem Atomic.isAtomic_canonical (h : rs.Atomic) (ht : t.isAtomic) :
    (rs.canonical t).isAtomic := by
  induction rs with
  | nil => exact ht
  | cons r rs ih =>
    obtain ⟨⟨-, htarget⟩, hrs⟩ := atomic_cons.1 h
    rw [canonical_cons]
    split
    · exact htarget
    · exact ih hrs

/-- The key of a collection is the collection of the keys. -/
theorem Atomic.key_collection (h : rs.Atomic) (ts : List Term) :
    rs.key (.collection ts) = .collection (ts.map rs.key) := by
  rw [Redirections.key_collection, keys_eq_map, h.canonical_collection]

/-- The key of an atomic term is atomic. -/
theorem Atomic.isAtomic_key (h : rs.Atomic) (ht : t.isAtomic) : (rs.key t).isAtomic := by
  rw [key_of_isAtomic rs ht]
  exact h.isAtomic_canonical ht

/-- **A new redirection acts on keys alone**: a term has the new key of the
key it had. -/
theorem Atomic.key_cons_key (hr : rs.Recorded) (h : Atomic ((source, target) :: rs)) (t : Term) :
    Redirections.key ((source, target) :: rs) (rs.key t) =
      Redirections.key ((source, target) :: rs) t := by
  have hrs : rs.Atomic := (atomic_cons.1 h).2
  induction t using Term.atomic_induction with
  | atomic t ht =>
    rw [key_of_isAtomic _ (hrs.isAtomic_key ht), key_of_isAtomic _ ht, key_of_isAtomic _ ht,
      canonical_cons, canonical_cons, canonical_canonical hr]
  | collection ts ih =>
    rw [hrs.key_collection, h.key_collection, h.key_collection, List.map_map]
    simpa using ih

/-- **A key is its own key.** -/
theorem Atomic.key_key (h : rs.Atomic) (hr : rs.Recorded) (t : Term) :
    rs.key (rs.key t) = rs.key t := by
  induction t using Term.atomic_induction with
  | atomic t ht =>
    rw [key_of_isAtomic _ (h.isAtomic_key ht), canonical_key hr]
  | collection ts ih =>
    rw [h.key_collection, h.key_collection, List.map_map]
    simpa using ih

/-- The key of a term is the key of what it stands for. -/
theorem Atomic.key_canonical (h : rs.Atomic) (hr : rs.Recorded) (t : Term) :
    rs.key (rs.canonical t) = rs.key t := by
  by_cases ht : t.isAtomic
  · rw [key_of_isAtomic _ (h.isAtomic_canonical ht), key_of_isAtomic _ ht, canonical_canonical hr]
  · obtain ⟨ts, rfl⟩ := Term.eq_collection_of_not_isAtomic ht
    rw [h.canonical_collection]

/-- **Two terms are the same exactly when they have one key.** -/
theorem Atomic.same_iff_key_eq (h : rs.Atomic) : rs.same a b ↔ rs.key a = rs.key b := by
  induction a using Term.atomic_induction generalizing b with
  | atomic a ha =>
    rw [same_iff_of_isAtomic (.inl ha), key_of_isAtomic _ ha]
    by_cases hb : b.isAtomic
    · rw [key_of_isAtomic _ hb]
    · obtain ⟨ys, rfl⟩ := Term.eq_collection_of_not_isAtomic hb
      have hca := h.isAtomic_canonical ha
      rw [h.canonical_collection, h.key_collection]
      constructor <;> intro he <;> simp [he, Term.isAtomic] at hca
  | collection xs ih =>
    by_cases hb : b.isAtomic
    · have hcb := h.isAtomic_canonical hb
      rw [same_iff_of_isAtomic (.inr hb), h.canonical_collection, h.key_collection,
        key_of_isAtomic _ hb]
      constructor <;> intro he <;> simp [← he, Term.isAtomic] at hcb
    · obtain ⟨ys, rfl⟩ := Term.eq_collection_of_not_isAtomic hb
      rw [same_collection_iff, h.key_collection, h.key_collection, Term.collection.injEq,
        ← List.forall₂_eq_eq_eq, List.forall₂_map_left_iff, List.forall₂_map_right_iff]
      rw [List.forall₂_iff_get, List.forall₂_iff_get]
      refine and_congr_right fun _ => forall_congr' fun i => forall_congr' fun hx =>
        forall_congr' fun hy => ?_
      exact ih _ (List.getElem_mem ..)

end Redirections

end TripleQuery
