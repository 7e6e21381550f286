import TripleQuery.Term
/-!
# The order of terms

Variables come first, then blank nodes, symbols, literals and collections. Within a kind, text is
ordered by code point, literals by text, then datatype, then language with an absent one first, and
collections lexicographically. The order is total and antisymmetric (`Term.instTransOrd`,
`Term.instLawfulEqOrd`), so terms can be keys of ordered maps, and equality of terms is decided by
it.
-/

namespace TripleQuery

/-! ## Literals -/

namespace Literal

instance : Ord Literal where
  compare a b :=
    (compare a.lexical b.lexical).then
      ((compare a.datatype b.datatype).then (compare a.language b.language))

theorem compare_def (a b : Literal) :
    compare a b = (compare a.lexical b.lexical).then
      ((compare a.datatype b.datatype).then (compare a.language b.language)) := rfl

instance : Std.OrientedOrd Literal where
  eq_swap {a b} := by
    rw [compare_def, compare_def, Ordering.swap_then, Ordering.swap_then,
      ← Std.OrientedOrd.eq_swap, ← Std.OrientedOrd.eq_swap, ← Std.OrientedOrd.eq_swap]

instance : Std.LawfulEqOrd Literal where
  compare_self {a} := by simp
  eq_of_compare {a b} h := by
    rw [compare_def, Ordering.then_eq_eq, Ordering.then_eq_eq] at h
    cases a
    cases b
    simp_all

theorem compare_eq_lt_iff {a b : Literal} :
    compare a b = .lt ↔ compare a.lexical b.lexical = .lt ∨ a.lexical = b.lexical ∧
      (compare a.datatype b.datatype = .lt ∨ a.datatype = b.datatype ∧
        compare a.language b.language = .lt) := by
  simp [compare_def, Ordering.then_eq_lt]

theorem compare_lt_trans {a b c : Literal} (hab : compare a b = .lt) (hbc : compare b c = .lt) :
    compare a c = .lt := by
  rw [compare_eq_lt_iff] at *
  rcases hab with h | ⟨e, h | ⟨e', h⟩⟩ <;> rcases hbc with k | ⟨f, k | ⟨f', k⟩⟩
  · exact .inl (Std.TransCmp.lt_trans h k)
  · exact .inl (f ▸ h)
  · exact .inl (f ▸ h)
  · exact .inl (e ▸ k)
  · exact .inr ⟨e.trans f, .inl (Std.TransCmp.lt_trans h k)⟩
  · exact .inr ⟨e.trans f, .inl (f' ▸ h)⟩
  · exact .inl (e ▸ k)
  · exact .inr ⟨e.trans f, .inl (e' ▸ k)⟩
  · exact .inr ⟨e.trans f, .inr ⟨e'.trans f', Std.TransCmp.lt_trans h k⟩⟩

instance : Std.TransOrd Literal where
  isLE_trans {a b c} hab hbc := by
    rw [Ordering.isLE_iff_eq_lt_or_eq_eq] at *
    rcases hab with hab | hab
    · rcases hbc with hbc | hbc
      · exact .inl (compare_lt_trans hab hbc)
      · exact .inl (Std.LawfulEqOrd.eq_of_compare hbc ▸ hab)
    · exact Std.LawfulEqOrd.eq_of_compare hab ▸ hbc

end Literal

/-! ## Terms -/

namespace Term

mutual

/-- The order of terms: by kind first, then by content. -/
protected def compare : Term → Term → Ordering
  | var a, var b => Ord.compare a b
  | var _, _ => .lt
  | blank _, var _ => .gt
  | blank a, blank b => Ord.compare a b
  | blank _, _ => .lt
  | symbol _, var _ | symbol _, blank _ => .gt
  | symbol a, symbol b => Ord.compare a b
  | symbol _, _ => .lt
  | literal _, var _ | literal _, blank _ | literal _, symbol _ => .gt
  | literal a, literal b => Ord.compare a b
  | literal _, collection _ => .lt
  | collection xs, collection ys => Term.compareList xs ys
  | collection _, _ => .gt

/-- Lexicographic order of lists of terms, a proper initial part first. -/
protected def compareList : List Term → List Term → Ordering
  | [], [] => .eq
  | [], _ :: _ => .lt
  | _ :: _, [] => .gt
  | x :: xs, y :: ys => (Term.compare x y).then (Term.compareList xs ys)

end

instance : Ord Term := ⟨Term.compare⟩

mutual

theorem compare_refl : ∀ t : Term, Term.compare t t = .eq
  | var _ | blank _ | symbol _ | literal _ => by simp [Term.compare]
  | collection xs => by simp [Term.compare, compareList_refl xs]

theorem compareList_refl : ∀ xs : List Term, Term.compareList xs xs = .eq
  | [] => by simp [Term.compareList]
  | x :: xs => by simp [Term.compareList, compare_refl x, compareList_refl xs]

end

mutual

theorem eq_of_compare_eq : ∀ a b : Term, Term.compare a b = .eq → a = b
  | var _, b | blank _, b | symbol _, b | literal _, b => by
    cases b <;> simp [Term.compare]
  | collection xs, b => by
    cases b with
    | collection ys =>
      intro h
      simp only [Term.compare] at h
      rw [eq_of_compareList_eq xs ys h]
    | _ => simp [Term.compare]

theorem eq_of_compareList_eq : ∀ xs ys : List Term, Term.compareList xs ys = .eq → xs = ys
  | [], [] => by simp
  | [], _ :: _ => by simp [Term.compareList]
  | _ :: _, [] => by simp [Term.compareList]
  | x :: xs, y :: ys => by
    intro h
    simp only [Term.compareList, Ordering.then_eq_eq] at h
    rw [eq_of_compare_eq x y h.1, eq_of_compareList_eq xs ys h.2]

end

mutual

theorem compare_swap : ∀ a b : Term, Term.compare a b = (Term.compare b a).swap
  | var _, b | blank _, b | symbol _, b | literal _, b => by
    cases b <;> simp [Term.compare]
    exact Std.OrientedCmp.eq_swap
  | collection xs, b => by
    cases b with
    | collection ys => simpa only [Term.compare] using compareList_swap xs ys
    | _ => simp [Term.compare]

theorem compareList_swap : ∀ xs ys : List Term,
    Term.compareList xs ys = (Term.compareList ys xs).swap
  | [], [] => by simp [Term.compareList]
  | [], _ :: _ => by simp [Term.compareList]
  | _ :: _, [] => by simp [Term.compareList]
  | x :: xs, y :: ys => by
    rw [Term.compareList, Term.compareList, Ordering.swap_then, ← compare_swap x y,
      ← compareList_swap xs ys]

end

mutual

theorem compare_trans : ∀ a b c : Term, Term.compare a b = .lt → Term.compare b c = .lt →
    Term.compare a c = .lt
  | var _, b, c | blank _, b, c | symbol _, b, c | literal _, b, c => by
    cases b <;> cases c <;> simp [Term.compare]
    exact Std.TransCmp.lt_trans
  | collection xs, b, c => by
    cases b <;> cases c <;> simp [Term.compare]
    exact compareList_trans xs _ _

theorem compareList_trans : ∀ xs ys zs : List Term, Term.compareList xs ys = .lt →
    Term.compareList ys zs = .lt → Term.compareList xs zs = .lt
  | [], _, [] => by
    intro h k
    cases ‹List Term› <;> simp [Term.compareList] at *
  | [], _, _ :: _ => by simp [Term.compareList]
  | _ :: _, [], _ => by simp [Term.compareList]
  | _ :: _, _ :: _, [] => by simp [Term.compareList]
  | x :: xs, y :: ys, z :: zs => by
    simp only [Term.compareList, Ordering.then_eq_lt]
    rintro (h | ⟨h, h'⟩) (k | ⟨k, k'⟩)
    · exact .inl (compare_trans x y z h k)
    · exact .inl (eq_of_compare_eq y z k ▸ h)
    · exact .inl (eq_of_compare_eq x y h ▸ k)
    · have hxy := eq_of_compare_eq x y h
      exact .inr ⟨hxy ▸ k, compareList_trans xs ys zs h' k'⟩

end

instance : Std.OrientedOrd Term where
  eq_swap := compare_swap _ _

instance : Std.LawfulEqOrd Term where
  compare_self := compare_refl _
  eq_of_compare := eq_of_compare_eq _ _

instance : Std.TransOrd Term where
  isLE_trans {a b c} hab hbc := by
    rw [Ordering.isLE_iff_eq_lt_or_eq_eq] at *
    rcases hab with hab | hab
    · rcases hbc with hbc | hbc
      · exact .inl (compare_trans a b c hab hbc)
      · exact .inl (Std.LawfulEqOrd.eq_of_compare hbc ▸ hab)
    · exact Std.LawfulEqOrd.eq_of_compare hab ▸ hbc

/-- Two terms are equal exactly when the order puts neither before the other. -/
instance : DecidableEq Term := fun a b =>
  decidable_of_iff (Term.compare a b = .eq)
    ⟨eq_of_compare_eq a b, fun h => h ▸ compare_refl a⟩

/-- Whether `a` comes no later than `b`. -/
def le (a b : Term) : Bool :=
  (compare a b).isLE

end Term

end TripleQuery
