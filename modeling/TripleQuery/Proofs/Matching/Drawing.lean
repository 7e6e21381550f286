import TripleQuery.Proofs.Matching.Planning
import TripleQuery.Proofs.Matching.Unifying
/-!
# Drawing — where new values come from

Unification binds nothing anew, whatever is bound already. It adds values to
variables and blank nodes only, and these are the datum or stand somewhere in it.
So a property that passes from collections to what is in them, and holds of the
data, holds of every value that a path comes by (`Frame.draws_of_mem_expand`).
Nothing is assumed of the store, nor of the binding set.
-/

namespace TripleQuery

/-- A property of terms that passes from a collection to what is in it. -/
def Term.Hereditary (P : Term → Prop) : Prop :=
  ∀ ts, P (.collection ts) → ∀ t ∈ ts, P t

/-- A binding set goes on to another: it keeps its values, and those that are
added belong to variables and have a property. -/
structure Bindings.Draws (P : Term → Prop) (b b' : Bindings) : Prop where
  extends_ : b'.Extends b
  grown {v : Term} : v ∈ b' → v ∈ b ∨ v.isVariable
  drawn {v value : Term} : b'[v]? = some value → b[v]? = some value ∨ P value

namespace Bindings.Draws

variable {P : Term → Prop} {a b c : Bindings} {v value : Term}

theorem refl (b : Bindings) : Draws P b b := ⟨.refl b, .inl, .inl⟩

theorem trans (h : Draws P a b) (h' : Draws P b c) : Draws P a c where
  extends_ := h'.extends_.trans h.extends_
  grown hv := (h'.grown hv).elim h.grown .inr
  drawn hv := (h'.drawn hv).elim h.drawn .inr

/-- A variable without a value takes one. -/
theorem bind (h : b[v]? = none) (hv : v.isVariable) (hvalue : P value) :
    Draws P b (b.bind v value) where
  extends_ := extends_bind h value
  grown hw := by
    rcases mem_bind.1 hw with rfl | hw
    · exact .inr hv
    · exact .inl hw
  drawn {w x} hw := by
    rw [getElem?_bind] at hw
    split at hw
    · cases hw
      exact .inr hvalue
    · exact .inl hw

end Bindings.Draws

namespace Graph

open Bindings (Draws)

variable {P : Term → Prop} {g : Graph} {b b' : Bindings} {verdict : Bool}

theorem eq_of_mem_keepIf (h : b' ∈ keepIf b verdict) : b' = b := by
  unfold keepIf at h
  split at h
  · exact List.mem_singleton.1 h
  · cases h

/-- A variable keeps its value, or takes the datum. -/
theorem draws_of_mem_variable {v y : Term} {bs : List Bindings} (hv : v.isVariable) (hy : P y)
    (h : (match b[v]? with
      | some value => Except.ok (keepIf b (g.same value y))
      | none => .ok [b.bind v y]) = (.ok bs : Except QueryError _)) (hb : b' ∈ bs) :
    Draws P b b' := by
  split at h
  · cases h
    rw [eq_of_mem_keepIf hb]
    exact .refl b
  · rename_i hnone
    cases h
    rw [List.mem_singleton.1 hb]
    exact .bind hnone hv hy

mutual

/-- **What unifies a term with a datum draws its values from the datum.** -/
theorem draws_of_mem_unifyTerm (hP : Term.Hereditary P) : ∀ (x : Term) {b b' : Bindings}
    (y : Term) {bs : List Bindings}, P y → g.unifyTerm b x y = .ok bs → b' ∈ bs → Draws P b b'
  | .var name, b, b', y, bs, hy, h, hb => by
    rw [unifyTerm] at h
    exact draws_of_mem_variable rfl hy h hb
  | .blank id, b, b', y, bs, hy, h, hb => by
    rw [unifyTerm] at h
    exact draws_of_mem_variable rfl hy h hb
  | .symbol iri, b, b', y, bs, _, h, hb => by
    rw [unifyTerm] at h
    cases h
    rw [eq_of_mem_keepIf hb]
    exact .refl b
  | .literal l, b, b', y, bs, _, h, hb => by
    rw [unifyTerm] at h
    cases h
    rw [eq_of_mem_keepIf hb]
    exact .refl b
  | .collection xs, b, b', y, bs, hy, h, hb => by
    unfold unifyTerm at h
    split at h
    · cases h
      rw [eq_of_mem_keepIf hb]
      exact .refl b
    · split at h
      · rename_i ys
        split at h
        · exact draws_of_mem_unifyAll hP xs ys (hP ys hy) h hb
        · cases h
          cases hb
      · cases h

/-- **And so does what unifies two lists.** -/
theorem draws_of_mem_unifyAll (hP : Term.Hereditary P) : ∀ (xs : List Term) {b b' : Bindings}
    (ys : List Term) {bs : List Bindings}, (∀ y ∈ ys, P y) → g.unifyAll b xs ys = .ok bs →
      b' ∈ bs → Draws P b b'
  | [], b, b', ys, bs, _, h, hb => by
    rw [unifyAll] at h
    · cases h
      rw [List.mem_singleton.1 hb]
      exact .refl b
    · simp
  | x :: xs, b, b', [], bs, _, h, hb => by
    rw [unifyAll] at h
    · cases h
      rw [List.mem_singleton.1 hb]
      exact .refl b
    · simp
  | x :: xs, b, b', y :: ys, bs, hys, h, hb => by
    rw [unifyAll] at h
    cases hx : g.unifyTerm b x y with
    | error e => rw [hx] at h; cases h
    | ok heads =>
      rw [hx] at h
      simp only at h
      cases hrest : heads.mapM fun extended => g.unifyAll extended xs ys with
      | error e => rw [hrest] at h; cases h
      | ok rests =>
        rw [hrest] at h
        obtain rfl : rests.flatten = bs := Except.ok.inj h
        obtain ⟨rest, hmem, hb⟩ := List.mem_flatten.1 hb
        obtain ⟨b₁, hb₁, hr⟩ := exists_of_mem_forall₂ (mapM_eq_ok_iff.1 hrest) hmem
        have hfirst := draws_of_mem_unifyTerm hP x y (hys y List.mem_cons_self) hx hb₁
        exact hfirst.trans (draws_of_mem_unifyAll hP xs ys
          (fun t ht => hys t (List.mem_cons_of_mem _ ht)) hr hb)

end

end Graph

namespace Frame

variable {P : Term → Prop} {g : Graph} {f f' : Frame} {fs : List Frame}

/-- **A path that goes on draws its values from the candidates.** -/
theorem draws_of_mem_expand (hP : Term.Hereditary P)
    (hdata : ∀ triple, ∀ s ∈ (g.prepare f.bindings triple).candidates, ∀ t ∈ s.terms, P t)
    (h : f.expand g = .ok fs) (hf : f' ∈ fs) : Bindings.Draws P f.bindings f'.bindings := by
  obtain ⟨plan, triple, bs, b, hp, ht, hbs, hb, -, rfl⟩ := mem_expand h hf
  obtain ⟨triple', -, he, -⟩ := Graph.plan_eq_some hp
  obtain ⟨s, hs, r, hu, hb⟩ := exists_of_mem_alternatives hbs hb
  rw [he] at hs
  exact Graph.draws_of_mem_unifyAll hP triple.terms s.terms
    (hdata triple' s (Array.mem_toList_iff.1 hs)) hu hb

/-- Whatever the store, a path that goes on draws its values from somewhere. -/
theorem draws_of_expand (h : f.expand g = .ok fs) (hf : f' ∈ fs) :
    Bindings.Draws (fun _ => True) f.bindings f'.bindings :=
  draws_of_mem_expand (fun _ _ _ _ => trivial) (fun _ _ _ _ _ => trivial) h hf

/-- **A path that goes on keeps its values**, whatever the store. -/
theorem extends_of_expand (h : f.expand g = .ok fs) (hf : f' ∈ fs) :
    f'.bindings.Extends f.bindings :=
  (draws_of_expand h hf).extends_

/-- It waits for nothing. -/
theorem awaited_of_mem_expand (h : f.expand g = .ok fs) (hf : f' ∈ fs) :
    f'.awaited = f.awaited := by
  obtain ⟨p, triple, bs, b, -, -, -, -, -, rfl⟩ := mem_expand h hf
  rfl

end Frame

end TripleQuery
