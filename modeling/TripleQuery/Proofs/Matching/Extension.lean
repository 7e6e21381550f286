import TripleQuery.Bindings
import TripleQuery.Proofs.Merging.Redirections
import TripleQuery.Proofs.Tally
/-!
# Extension — binding more without binding anew

A binding set extends another when it keeps every value of it. Paths only ever
extend their bindings, and what is put in the place of a variable that was
bound stays there: as long as only variables and blank nodes have values, a
term whose variables are all bound looks the same under every extension
(`Extends.substitute_eq`).
-/

namespace TripleQuery

/-- A variable of a list of terms is one of some term. -/
theorem Term.mem_variableLists {v : Term} {ts : List Term} :
    v ∈ Term.variableLists ts ↔ ∃ t ∈ ts, v ∈ t.variableList := by
  induction ts with
  | nil => simp [Term.variableLists]
  | cons t ts ih => simp [Term.variableLists, ih]

namespace Bindings

variable {a b c : Bindings} {t v value : Term}

/-- Every value of `a` is a value of `b`. -/
def Extends (b a : Bindings) : Prop :=
  ∀ v value : Term, a[v]? = some value → b[v]? = some value

/-- Only variables and blank nodes have values. -/
def OnVariables (b : Bindings) : Prop :=
  ∀ v : Term, v ∈ b → v.isVariable

theorem Extends.refl (b : Bindings) : b.Extends b := fun _ _ h => h

theorem Extends.trans (h : c.Extends b) (h' : b.Extends a) : c.Extends a :=
  fun v value hv => h v value (h' v value hv)

theorem Extends.mem (h : b.Extends a) (hv : v ∈ a) : v ∈ b := by
  obtain ⟨value, hvalue⟩ := exists_getElem? hv
  exact mem_of_getElem? (h v value hvalue)

/-- Binding an unbound variable extends. -/
theorem extends_bind (h : b[v]? = none) (value : Term) : (b.bind v value).Extends b := by
  intro w x hw
  rw [getElem?_bind, if_neg, hw]
  rintro rfl
  rw [h] at hw
  cases hw

/-- A union extends its right side, whose values win. -/
theorem extends_union (a b : Bindings) : (a ∪ b).Extends b := by
  intro v value hv
  rw [Std.ExtTreeMap.getElem?_union, hv]
  rfl

theorem mem_bind : t ∈ b.bind v value ↔ v = t ∨ t ∈ b := by
  rw [bind, Std.ExtTreeMap.mem_insert, Std.LawfulEqCmp.compare_eq_iff_eq]

theorem onVariables_empty : OnVariables ∅ := fun v hv => by simp at hv

theorem OnVariables.bind (h : b.OnVariables) (hv : v.isVariable) (value : Term) :
    (b.bind v value).OnVariables := by
  intro w hw
  rcases mem_bind.1 hw with rfl | hw
  · exact hv
  · exact h w hw

theorem OnVariables.union (ha : a.OnVariables) (hb : b.OnVariables) : (a ∪ b).OnVariables :=
  fun v hv => (Std.ExtTreeMap.mem_union_iff.1 hv).elim (ha v) (hb v)

theorem OnVariables.of_extends (h : b.OnVariables) (ha : b.Extends a) : a.OnVariables :=
  fun v hv => h v (ha.mem hv)

/-- What is no variable has no value. -/
theorem OnVariables.getElem?_eq_none (h : b.OnVariables) (ht : ¬ t.isVariable) :
    b[t]? = none :=
  Std.ExtTreeMap.getElem?_eq_none fun hm => ht (h t hm)

/-- **What is bound stays as it is.** -/
theorem Extends.substitute_eq (h : b.Extends a) (hb : b.OnVariables)
    (hall : ∀ v ∈ t.variableList, v ∈ a) : b.substitute t = a.substitute t := by
  have ha := hb.of_extends h
  induction t using Term.atomic_induction with
  | atomic t ht =>
    rw [substitute_of_isAtomic b ht, substitute_of_isAtomic a ht]
    by_cases hv : t.isVariable
    · have hmem : t ∈ a := hall t (by cases t <;> simp_all [Term.isVariable, Term.variableList])
      obtain ⟨value, hvalue⟩ := exists_getElem? hmem
      rw [resolve_of_getElem? hvalue, resolve_of_getElem? (h t value hvalue)]
    · rw [resolve_of_getElem?_eq_none (ha.getElem?_eq_none hv),
        resolve_of_getElem?_eq_none (hb.getElem?_eq_none hv)]
  | collection ts ih =>
    rw [substitute, substitute, substituteAll_eq_map, substituteAll_eq_map]
    refine congrArg _ (List.map_congr_left fun t ht => ih t ht fun v hv => hall v ?_)
    exact Term.mem_variableLists.2 ⟨t, ht, hv⟩

/-- And so does a list of terms. -/
theorem Extends.substituteAll_eq {ts : List Term} (h : b.Extends a) (hb : b.OnVariables)
    (hall : ∀ v ∈ Term.variableLists ts, v ∈ a) : b.substituteAll ts = a.substituteAll ts := by
  rw [substituteAll_eq_map, substituteAll_eq_map]
  refine List.map_congr_left fun t ht => h.substitute_eq hb fun v hv => ?_
  exact hall v (Term.mem_variableLists.2 ⟨t, ht, hv⟩)

end Bindings

end TripleQuery
