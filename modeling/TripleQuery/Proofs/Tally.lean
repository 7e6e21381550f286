import Std.Data.ExtTreeMap
import Mathlib.Algebra.BigOperators.Group.List.Basic
import Mathlib.Algebra.Order.Group.Multiset
/-!
# Tables and their tallies

What is found in a table was written to it, and what is there is found. A tally
of a table adds up what its entries weigh. A new entry adds its weight
(`tally_insert`), an erased one takes its weight away (`tally_erase`), and a
replaced one trades the old weight for the new (`tally_replace`); no other
entry is looked at.
-/

namespace TripleQuery

variable {κ β M : Type} [Ord κ] [Std.TransOrd κ] [Std.LawfulEqOrd κ] [AddCommMonoid M]

/-! ## Entries -/

section

variable {t : Std.ExtTreeMap κ β} {k a : κ} {v v' : β}

omit [Std.LawfulEqOrd κ] in
/-- What is found is there. -/
theorem mem_of_getElem? (h : t[k]? = some v) : k ∈ t :=
  (Std.ExtTreeMap.getElem?_eq_some_iff.1 h).fst

omit [Std.LawfulEqOrd κ] in
/-- What is there is found. -/
theorem exists_getElem? (h : k ∈ t) : ∃ v, t[k]? = some v :=
  ⟨_, Std.ExtTreeMap.getElem?_eq_some_getElem h⟩

/-- What is there is not lost when it is written again. -/
theorem mem_insert_of_getElem? (h : t[k]? = some v) (v' : β) (a : κ) :
    a ∈ t.insert k v' ↔ a ∈ t := by
  rw [Std.ExtTreeMap.mem_insert, Std.LawfulEqCmp.compare_eq_iff_eq]
  constructor
  · rintro (rfl | ha)
    · exact mem_of_getElem? h
    · exact ha
  · exact .inr

/-- What is found after a write was written, or was there. -/
theorem of_getElem?_insert (h : (t.insert k v)[a]? = some v') :
    (k = a ∧ v' = v) ∨ t[a]? = some v' := by
  rw [Std.ExtTreeMap.getElem?_insert] at h
  split at h
  · rename_i hk
    exact .inl ⟨Std.LawfulEqCmp.compare_eq_iff_eq.1 hk, (Option.some.inj h).symm⟩
  · exact .inr h

omit [Std.LawfulEqOrd κ] in
/-- What is found after something went away was there. -/
theorem of_getElem?_erase (h : (t.erase k)[a]? = some v) : t[a]? = some v := by
  rw [Std.ExtTreeMap.getElem?_erase] at h
  split at h
  · cases h
  · exact h

end

/-! ## Tallies -/

/-- What the entries of a table weigh together. -/
def tally (t : Std.ExtTreeMap κ β) (weight : κ → β → M) : M :=
  (t.toList.map fun p => weight p.1 p.2).sum

/-- The entries of a table are listed once each. -/
theorem nodup_toList (t : Std.ExtTreeMap κ β) : t.toList.Nodup := by
  have h := t.distinct_keys_toList
  refine h.imp fun {p q} hpq heq => hpq ?_
  rw [heq, Std.LawfulEqCmp.compare_eq_iff_eq]

/-- A new entry joins the list. -/
theorem toList_insert_perm {t : Std.ExtTreeMap κ β} {k : κ} (h : k ∉ t) (v : β) :
    (t.insert k v).toList.Perm ((k, v) :: t.toList) := by
  have hk : ∀ v', (k, v') ∉ t.toList := by
    intro v' hm
    rw [Std.ExtTreeMap.mem_toList_iff_getElem?_eq_some] at hm
    exact h (mem_of_getElem? hm)
  refine (List.perm_ext_iff_of_nodup (nodup_toList _)
    (List.nodup_cons.2 ⟨hk v, nodup_toList t⟩)).2 ?_
  rintro ⟨k', v'⟩
  rw [List.mem_cons, Std.ExtTreeMap.mem_toList_iff_getElem?_eq_some,
    Std.ExtTreeMap.mem_toList_iff_getElem?_eq_some, Std.ExtTreeMap.getElem?_insert,
    Prod.mk.injEq]
  by_cases hp : k = k'
  · subst hp
    have hnone : t[k]? = none := Std.ExtTreeMap.getElem?_eq_none h
    simp [hnone, eq_comm]
  · simp [hp, Ne.symm hp]

omit [Std.LawfulEqOrd κ] in
@[simp] theorem tally_empty (weight : κ → β → M) :
    tally (∅ : Std.ExtTreeMap κ β) weight = 0 := by
  rw [tally, Std.ExtTreeMap.toList_eq_nil_iff.2 rfl]
  rfl

/-- **A new entry adds its weight.** -/
theorem tally_insert {t : Std.ExtTreeMap κ β} {k : κ} (h : k ∉ t) (v : β)
    (weight : κ → β → M) : tally (t.insert k v) weight = weight k v + tally t weight := by
  rw [tally, ((toList_insert_perm h v).map _).sum_eq, List.map_cons, List.sum_cons, tally]

/-- **An erased entry takes its weight away.** -/
theorem tally_erase {t : Std.ExtTreeMap κ β} {k : κ} {v : β} (h : t[k]? = some v)
    (weight : κ → β → M) : tally t weight = weight k v + tally (t.erase k) weight := by
  have hins : (t.erase k).insert k v = t := by
    ext k' : 1
    rw [Std.ExtTreeMap.getElem?_insert, Std.ExtTreeMap.getElem?_erase]
    by_cases hk : k = k'
    · subst hk; simp [h]
    · simp [hk]
  have hk : k ∉ t.erase k := by simp
  rw [← tally_insert hk, hins]

/-- An entry that is written, whether new or not, weighs with the others. -/
theorem tally_write (t : Std.ExtTreeMap κ β) (k : κ) (v : β) (weight : κ → β → M) :
    tally (t.insert k v) weight = weight k v + tally (t.erase k) weight := by
  have hins : (t.erase k).insert k v = t.insert k v := by
    ext k' : 1
    rw [Std.ExtTreeMap.getElem?_insert, Std.ExtTreeMap.getElem?_insert,
      Std.ExtTreeMap.getElem?_erase]
    by_cases hk : k = k' <;> simp [hk]
  have hk : k ∉ t.erase k := by simp
  rw [← hins, tally_insert hk]

/-- **A replaced entry trades its old weight for its new one.** -/
theorem tally_replace {t : Std.ExtTreeMap κ β} {k : κ} {v : β} (h : t[k]? = some v) (v' : β)
    (weight : κ → β → M) :
    tally (t.insert k v') weight + weight k v = tally t weight + weight k v' := by
  rw [tally_write, tally_erase h]
  ac_rfl

/-- Where nothing is found, nothing is erased. -/
theorem erase_of_getElem?_eq_none {t : Std.ExtTreeMap κ β} {k : κ} (h : t[k]? = none) :
    t.erase k = t := by
  ext a : 1
  rw [Std.ExtTreeMap.getElem?_erase]
  by_cases ha : k = a
  · subst ha
    simp [h]
  · simp [ha]

/-- An entry that is written adds its weight at most. -/
theorem tally_insert_le (t : Std.ExtTreeMap κ β) (k : κ) (v : β) (weight : κ → β → ℕ) :
    tally (t.insert k v) weight ≤ weight k v + tally t weight := by
  rw [tally_write]
  cases h : t[k]? with
  | none => rw [erase_of_getElem?_eq_none h]
  | some v' =>
    rw [tally_erase h]
    omega

/-- Entries of equal weight have equal tallies. -/
theorem tally_congr {t : Std.ExtTreeMap κ β} {weight weight' : κ → β → M}
    (h : ∀ k v, t[k]? = some v → weight k v = weight' k v) : tally t weight = tally t weight' := by
  refine congrArg List.sum (List.map_congr_left fun p hp => ?_)
  rw [← Prod.eta p, Std.ExtTreeMap.mem_toList_iff_getElem?_eq_some] at hp
  exact h p.1 p.2 hp

/-- Entries that weigh nothing weigh nothing together. -/
theorem tally_eq_zero {t : Std.ExtTreeMap κ β} {weight : κ → β → M}
    (h : ∀ k v, t[k]? = some v → weight k v = 0) : tally t weight = 0 := by
  refine List.sum_eq_zero fun w hw => ?_
  obtain ⟨p, hp, rfl⟩ := List.mem_map.1 hw
  rw [← Prod.eta p, Std.ExtTreeMap.mem_toList_iff_getElem?_eq_some] at hp
  exact h p.1 p.2 hp

/-- What a tally of collections holds, one of the entries holds. -/
theorem exists_mem_of_mem_tally {α : Type} {t : Std.ExtTreeMap κ β}
    {weight : κ → β → Multiset α} {a : α} (h : a ∈ tally t weight) :
    ∃ k v, t[k]? = some v ∧ a ∈ weight k v := by
  have hsum : ∀ ps : List (κ × β), a ∈ (ps.map fun p => weight p.1 p.2).sum →
      ∃ p ∈ ps, a ∈ weight p.1 p.2 := by
    intro ps
    induction ps with
    | nil => simp
    | cons p ps ih =>
      rw [List.map_cons, List.sum_cons, Multiset.mem_add]
      rintro (hp | hps)
      · exact ⟨p, List.mem_cons_self, hp⟩
      · obtain ⟨q, hq, ha⟩ := ih hps
        exact ⟨q, List.mem_cons_of_mem _ hq, ha⟩
  obtain ⟨p, hp, ha⟩ := hsum _ h
  rw [← Prod.eta p, Std.ExtTreeMap.mem_toList_iff_getElem?_eq_some] at hp
  exact ⟨p.1, p.2, hp, ha⟩

end TripleQuery
