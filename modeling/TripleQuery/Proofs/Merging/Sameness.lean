import TripleQuery.Proofs.Merging.Store
/-!
# Sameness — how far it is an equivalence

A merge redirects one key to another, and a key is rebuilt from the keys of its
elements. Sameness looks every term up as it is written, and two collections
not at all but by their elements. It is reflexive and symmetric in every store
(`same_refl`, `same_symm`). It is transitive exactly where the collections that
an atomic term is the same as are those that are the same as any one of them
(`coherent_iff_trans`), and two merged terms are the same exactly where what
they stand for is a key that the merge redirects (`same_equate_iff`). A merge
that redirects what no atomic term stands for changes nothing
(`same_equate_of_not_redirects`).

As long as no collection is merged all of this is as it should be
(`Reachable.same_equate_iff_redirects`). The last section merges a list into a symbol
after its element was renamed.
-/

namespace TripleQuery

namespace Redirections

variable {rs : Redirections} {a b c : Term}

/-- Where no collection was merged, sameness passes from term to term. -/
theorem Atomic.same_trans (h : rs.Atomic) (hab : rs.same a b) (hbc : rs.same b c) :
    rs.same a c :=
  h.same_iff_key_eq.2 ((h.same_iff_key_eq.1 hab).trans (h.same_iff_key_eq.1 hbc))

end Redirections

namespace Graph

variable {g g' : Graph} {a b c keep lose t u : Term}

/-- Every term is the same as itself. -/
theorem same_refl (g : Graph) (t : Term) : g.same t t :=
  Redirections.same_refl _ t

theorem same_symm (h : g.same t u) : g.same u t :=
  Redirections.same_symm h

/-- Outside of two collections, sameness is to stand for one term. -/
theorem same_iff_canonical_eq (h : t.isAtomic ∨ u.isAtomic) :
    g.same t u ↔ g.canonical t = g.canonical u :=
  Redirections.same_iff_of_isAtomic h

/-- Sameness is to stand for one term, element by element. -/
theorem same_iff_elementwise :
    g.same t u ↔ Term.Elementwise (fun t u => g.canonical t = g.canonical u) t u :=
  Redirections.same_iff_elementwise

/-! ## From term to term -/

/-- The collections that an atomic term is the same as are those that are the
same as any one of them. -/
def Coherent (g : Graph) : Prop :=
  ∀ t : Term, t.isAtomic → ∀ xs, g.same (.collection xs) t → ∀ ys,
    (g.same (.collection ys) t ↔ g.same (.collection xs) (.collection ys))

/-- **Sameness is transitive exactly in a coherent store.** Only two
collections and an atomic term can be at odds. -/
theorem coherent_iff_trans :
    g.Coherent ↔ ∀ t u v, g.same t u → g.same u v → g.same t v := by
  constructor
  · intro hg t u v htu huv
    induction u using Term.atomic_induction generalizing t v with
    | atomic u hu =>
      by_cases htv : t.isAtomic ∨ v.isAtomic
      · rw [same_iff_canonical_eq (.inr hu)] at htu
        rw [same_iff_canonical_eq (.inl hu)] at huv
        exact (same_iff_canonical_eq htv).2 (htu.trans huv)
      · rw [not_or] at htv
        obtain ⟨xs, rfl⟩ := Term.eq_collection_of_not_isAtomic htv.1
        obtain ⟨ys, rfl⟩ := Term.eq_collection_of_not_isAtomic htv.2
        exact (hg u hu xs htu ys).1 (same_symm huv)
    | collection us ih =>
      by_cases ht : t.isAtomic
      · by_cases hv : v.isAtomic
        · rw [same_iff_canonical_eq (.inl ht)] at htu
          rw [same_iff_canonical_eq (.inr hv)] at huv
          exact (same_iff_canonical_eq (.inl ht)).2 (htu.trans huv)
        · obtain ⟨ys, rfl⟩ := Term.eq_collection_of_not_isAtomic hv
          exact same_symm ((hg t ht us (same_symm htu) ys).2 huv)
      · obtain ⟨xs, rfl⟩ := Term.eq_collection_of_not_isAtomic ht
        by_cases hv : v.isAtomic
        · exact (hg v hv us huv xs).2 (same_symm htu)
        · obtain ⟨ys, rfl⟩ := Term.eq_collection_of_not_isAtomic hv
          unfold Graph.same at htu huv ⊢
          rw [Redirections.same_collection_iff, List.forall₂_iff_get] at htu huv ⊢
          refine ⟨htu.1.trans huv.1, fun i hx hy => ?_⟩
          have hu : i < us.length := htu.1 ▸ hx
          exact ih _ (List.getElem_mem ..) _ _ (htu.2 i hx hu) (huv.2 i hu hy)
  · intro htrans t _ xs hx ys
    exact ⟨fun hy => htrans _ _ _ hx (same_symm hy), fun hxy => htrans _ _ _ (same_symm hxy) hx⟩

/-! ## What a merge makes the same -/

/-- What a term stands for is one of the two keys that are merged, so that it
stands for what is kept from then on. -/
def Redirects (g : Graph) (a b t : Term) : Prop :=
  g.canonical t = g.key a ∨ g.canonical t = g.key b

instance (g : Graph) (a b t : Term) : Decidable (g.Redirects a b t) :=
  inferInstanceAs (Decidable (_ ∨ _))

/-- An atomic term is filed under what it stands for. -/
theorem canonical_eq_key (ht : t.isAtomic) : g.canonical t = g.key t :=
  (Redirections.key_of_isAtomic _ ht).symm

/-- What is kept is one of the two keys. -/
theorem keep_eq_key (h : g.equate a b = .ok (g', keep)) : keep = g.key a ∨ keep = g.key b := by
  rcases equate_cases h with ⟨-, -, rfl⟩ | ⟨-, lose, -, -, ⟨-, rfl⟩ | ⟨-, rfl⟩⟩ <;> simp

/-- **A merge lets what is kept stand for whatever stood for one of the two
keys**, and nothing else changes. -/
theorem canonical_equate (h : g.equate a b = .ok (g', keep)) (t : Term) :
    g'.canonical t = if g.Redirects a b t then keep else g.canonical t := by
  rcases equate_cases h with ⟨hk, rfl, rfl⟩ | ⟨-, lose, rfl, -, hcase⟩
  · split
    · rename_i hr
      exact hr.elim id (·.trans hk.symm)
    · rfl
  · change (if g.canonical t = lose then keep else g.canonical t) = _
    by_cases hr : g.Redirects a b t
    · rw [if_pos hr]
      rcases hcase with ⟨rfl, rfl⟩ | ⟨rfl, rfl⟩ <;> rcases hr with hr | hr <;> simp [hr]
    · rw [if_neg hr]
      rw [Redirects, not_or] at hr
      rcases hcase with ⟨rfl, -⟩ | ⟨rfl, -⟩ <;> simp [hr]

/-- Terms that stand for one term do so after a merge. -/
theorem canonical_equate_congr (h : g.equate a b = .ok (g', keep))
    (htu : g.canonical t = g.canonical u) : g'.canonical t = g'.canonical u := by
  have hr : g.Redirects a b t ↔ g.Redirects a b u := by rw [Redirects, Redirects, htu]
  simp only [canonical_equate h, hr, htu]

/-- What is kept stands for exactly what stood for one of the two keys. -/
theorem canonical_equate_eq_keep_iff (h : g.equate a b = .ok (g', keep)) :
    g'.canonical t = keep ↔ g.Redirects a b t := by
  rw [canonical_equate h]
  split
  · simp [*]
  · rename_i hn
    refine iff_of_false (fun hc => hn ?_) hn
    exact (keep_eq_key h).imp hc.trans hc.trans

/-- Two terms stand for one term once two others are merged: they did before, or
the merge redirects both. -/
def Unites (g : Graph) (a b t u : Term) : Prop :=
  g.canonical t = g.canonical u ∨ g.Redirects a b t ∧ g.Redirects a b u

/-- **Which terms a merge lets stand for one term.** -/
theorem canonical_equate_eq_iff (h : g.equate a b = .ok (g', keep)) :
    g'.canonical t = g'.canonical u ↔ g.Unites a b t u := by
  constructor
  · intro he
    by_cases ht : g.Redirects a b t
    · have hu : g'.canonical u = keep := he ▸ (canonical_equate_eq_keep_iff h).2 ht
      exact .inr ⟨ht, (canonical_equate_eq_keep_iff h).1 hu⟩
    · have hu : ¬ g.Redirects a b u := fun hu =>
        ht ((canonical_equate_eq_keep_iff h).1 (he ▸ (canonical_equate_eq_keep_iff h).2 hu))
      rw [canonical_equate h, canonical_equate h, if_neg ht, if_neg hu] at he
      exact .inl he
  · rintro (he | ⟨ht, hu⟩)
    · exact canonical_equate_congr h he
    · rw [(canonical_equate_eq_keep_iff h).2 ht, (canonical_equate_eq_keep_iff h).2 hu]

/-- **Which terms a merge makes the same**: element by element, those that it
lets stand for one term. -/
theorem same_equate_iff_unites (h : g.equate a b = .ok (g', keep)) :
    g'.same t u ↔ Term.Elementwise (g.Unites a b) t u := by
  rw [same_iff_elementwise]
  exact Term.elementwise_congr fun _ _ _ => canonical_equate_eq_iff h

/-- What is kept stands for itself. -/
theorem Orderly.canonical_keep (hg : g.Orderly) (h : g.equate a b = .ok (g', keep)) :
    g'.canonical keep = keep := by
  have hkey : ∀ t, g.canonical (g.key t) = g.key t :=
    Redirections.canonical_key hg.recorded
  rw [canonical_equate_eq_keep_iff h]
  rcases keep_eq_key h with rfl | rfl
  · exact .inl (hkey a)
  · exact .inr (hkey b)

/-- **A term is the same as what is kept** exactly where the merge redirects
it, unless both are collections. -/
theorem Orderly.same_keep_iff (hg : g.Orderly) (h : g.equate a b = .ok (g', keep))
    (ht : t.isAtomic ∨ keep.isAtomic) : g'.same t keep ↔ g.Redirects a b t := by
  rw [same_iff_canonical_eq ht, hg.canonical_keep h, canonical_equate_eq_keep_iff h]

/-- **Two merged terms are the same** exactly where the merge redirects both,
unless both are collections. -/
theorem same_equate_iff (h : g.equate a b = .ok (g', keep)) (hab : a.isAtomic ∨ b.isAtomic) :
    g'.same a b ↔ g.Redirects a b a ∧ g.Redirects a b b := by
  have ha : a.isAtomic → g'.canonical a = keep := fun ha =>
    (canonical_equate_eq_keep_iff h).2 (.inl (canonical_eq_key ha))
  have hb : b.isAtomic → g'.canonical b = keep := fun hb =>
    (canonical_equate_eq_keep_iff h).2 (.inr (canonical_eq_key hb))
  rw [same_iff_canonical_eq hab, ← canonical_equate_eq_keep_iff h,
    ← canonical_equate_eq_keep_iff h]
  constructor
  · intro he
    rcases hab with hab | hab
    · exact ⟨ha hab, he ▸ ha hab⟩
    · exact ⟨he ▸ hb hab, hb hab⟩
  · rintro ⟨hca, hcb⟩
    rw [hca, hcb]

/-- **A merge that redirects no atomic term goes unnoticed**, as that of two
collections for which no atomic term stands. -/
theorem same_equate_of_not_redirects (h : g.equate a b = .ok (g', keep))
    (hno : ∀ t : Term, t.isAtomic → ¬ g.Redirects a b t) : g'.same t u ↔ g.same t u := by
  rw [same_equate_iff_unites h, same_iff_elementwise]
  -- of two terms that are compared directly, one is atomic and not redirected
  refine Term.elementwise_congr fun x y hxy => or_iff_left ?_
  rintro ⟨hx, hy⟩
  exact hxy.elim (fun ha => hno x ha hx) fun ha => hno y ha hy

/-! ## Stores in which no collection was merged -/

/-- Two merged terms then have the key of what is kept. -/
theorem Orderly.key_equate (hg : g.Orderly) (h : g.equate a b = .ok (g', keep))
    (ha : g'.redirections.Atomic) : g'.key a = g'.key keep ∧ g'.key b = g'.key keep := by
  have hkeep : g'.canonical keep = keep := hg.canonical_keep h
  rcases equate_cases h with ⟨hk, rfl, rfl⟩ | ⟨-, lose, rfl, -, hcase⟩
  · have hkk : g'.key (g'.key a) = g'.key a := ha.key_key hg.recorded a
    exact ⟨hkk.symm, by rw [hkk, hk]⟩
  · obtain ⟨⟨hlose, hkept⟩, -⟩ := Redirections.atomic_cons.1 ha
    have hkk : ∀ t, (g.redirect lose keep).key (g.key t) = (g.redirect lose keep).key t :=
      Redirections.Atomic.key_cons_key hg.recorded ha
    -- the keys that were merged stand for what is kept
    have hmerged : (g.redirect lose keep).key lose = (g.redirect lose keep).key keep := by
      rw [← canonical_eq_key hlose, ← canonical_eq_key hkept, hkeep,
        canonical_equate_eq_keep_iff h, Redirects]
      rcases hcase with ⟨rfl, -⟩ | ⟨rfl, -⟩
      · exact .inl (Redirections.canonical_key hg.recorded a)
      · exact .inr (Redirections.canonical_key hg.recorded b)
    rw [← hkk a, ← hkk b]
    rcases hcase with ⟨rfl, rfl⟩ | ⟨rfl, rfl⟩
    · exact ⟨hmerged, rfl⟩
    · exact ⟨rfl, hmerged⟩

/-- **How far sameness is the equivalence that merging asks for.** It is
reflexive and symmetric, and transitive exactly in a coherent store. After a
merge an atomic term that was merged is the same as what is kept; any term is
so where the merge redirects it, and the two terms are the same where it
redirects both. Two collections are left to their elements, and a merge that
redirects no atomic term goes unnoticed. As long as no collection was merged,
sameness is an equivalence and holds between the two terms of a merge and what
is kept. -/
theorem Reachable.same_equate_iff_redirects (hg : g.Reachable) :
    (∀ t, g.same t t) ∧ (∀ t u, g.same t u → g.same u t) ∧
    ((∀ t u v, g.same t u → g.same u v → g.same t v) ↔ g.Coherent) ∧
    (∀ a b g' keep, g.equate a b = .ok (g', keep) →
      (a.isAtomic → g'.same a keep) ∧ (b.isAtomic → g'.same b keep) ∧
      (∀ t : Term, t.isAtomic ∨ keep.isAtomic → (g'.same t keep ↔ g.Redirects a b t)) ∧
      (a.isAtomic ∨ b.isAtomic → (g'.same a b ↔ g.Redirects a b a ∧ g.Redirects a b b)) ∧
      (∀ xs ys, g'.same (.collection xs) (.collection ys) ↔
        List.Forall₂ (fun x y => g'.same x y = true) xs ys) ∧
      ((∀ t : Term, t.isAtomic → ¬ g.Redirects a b t) → ∀ t u, g'.same t u ↔ g.same t u) ∧
      (g'.redirections.Atomic → g'.same a b ∧ g'.same a keep ∧ g'.same b keep)) ∧
    (g.redirections.Atomic → g.Coherent) := by
  have ho := hg.orderly
  refine ⟨g.same_refl, fun _ _ => same_symm, coherent_iff_trans.symm,
    fun a b g' keep he => ⟨fun ha => ?_, fun hb => ?_, fun t => ho.same_keep_iff he,
      same_equate_iff he, fun _ _ => Redirections.same_collection_iff,
      fun hno t u => same_equate_of_not_redirects he hno, fun hat => ?_⟩,
    fun hat => ?_⟩
  · exact (ho.same_keep_iff he (.inl ha)).2 (.inl (canonical_eq_key ha))
  · exact (ho.same_keep_iff he (.inl hb)).2 (.inr (canonical_eq_key hb))
  · obtain ⟨hka, hkb⟩ := ho.key_equate he hat
    have hsame : ∀ t u, g'.key t = g'.key u → g'.same t u := fun _ _ => hat.same_iff_key_eq.2
    exact ⟨hsame a b (hka.trans hkb.symm), hsame a keep hka, hsame b keep hkb⟩
  · exact coherent_iff_trans.2 fun _ _ _ => hat.same_trans

/-! ## A list that is merged after its element was renamed -/

/-- The store in which one symbol was merged into another. -/
def renamed : Graph :=
  empty.redirect (.symbol "y") (.symbol "x")

/-- The same store, with the list of the first symbol merged into a third. -/
def renamedList : Graph :=
  renamed.redirect (.collection [.symbol "x"]) (.symbol "s")

theorem equate_empty_renamed :
    empty.equate (.symbol "y") (.symbol "x") = .ok (renamed, .symbol "x") :=
  equate_keeps_right (by cbv) (by cbv) ⟨rfl, rfl⟩ (by decide)
    (by cbv)

theorem equate_renamed :
    renamed.equate (.collection [.symbol "y"]) (.symbol "s") =
      .ok (renamedList, .symbol "s") :=
  equate_keeps_right (by cbv) (by cbv) ⟨rfl, rfl⟩ (by decide)
    (by cbv)

theorem reachable_renamed : renamed.Reachable :=
  .equate .empty equate_empty_renamed

theorem reachable_renamedList : renamedList.Reachable :=
  .equate reachable_renamed equate_renamed

/-- The conditions at work: the merge redirects the list under its new name and
not the one that was merged, so that neither is the latter the same as the
symbol, nor is the store coherent. -/
theorem not_same_renamedList :
    ¬ renamedList.same (.collection [.symbol "y"]) (.symbol "s") ∧ ¬ renamedList.Coherent := by
  obtain ⟨-, -, -, hmerge, -⟩ := reachable_renamed.same_equate_iff_redirects
  obtain ⟨-, -, -, hboth, -⟩ := hmerge _ _ _ _ equate_renamed
  have hlist : ¬ renamed.Redirects (.collection [.symbol "y"]) (.symbol "s")
      (.collection [.symbol "y"]) := by decide
  have hlost : ¬ renamedList.same (.collection [.symbol "y"]) (.symbol "s") := fun h =>
    hlist ((hboth (.inr rfl)).1 h).1
  refine ⟨hlost, fun hc => hlost ?_⟩
  have hnew : renamedList.same (.collection [.symbol "x"]) (.symbol "s") := by cbv
  have hnames : renamedList.same (.collection [.symbol "x"]) (.collection [.symbol "y"]) := by
    cbv
  exact (hc _ rfl _ hnew _).2 hnames

/-- **Sameness is not the equivalence that merging asks for**: it need not be
transitive, and a merge need not make its terms the same. -/
theorem not_forall_same_equate :
    (¬ ∀ g : Graph, g.Reachable → ∀ t u v, g.same t u → g.same u v → g.same t v) ∧
      ¬ ∀ g : Graph, g.Reachable → ∀ a b g' keep, g.equate a b = .ok (g', keep) →
        g'.same a b ∧ g'.same a keep ∧ g'.same b keep := by
  have hlost : renamedList.same (.collection [.symbol "y"]) (.symbol "s") = false := by
    cbv
  have hnew : renamedList.same (.collection [.symbol "x"]) (.symbol "s") := by cbv
  have hnames : renamedList.same (.collection [.symbol "y"]) (.collection [.symbol "x"]) := by
    cbv
  constructor
  · intro hall
    have hsame := hall _ reachable_renamedList _ _ _ hnames hnew
    rw [hlost] at hsame
    exact Bool.false_ne_true hsame
  · intro hall
    have hsame := (hall _ reachable_renamed _ _ _ _ equate_renamed).1
    rw [hlost] at hsame
    exact Bool.false_ne_true hsame

end Graph

end TripleQuery
