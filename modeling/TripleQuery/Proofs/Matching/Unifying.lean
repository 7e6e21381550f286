import Mathlib.Data.List.Forall2
import TripleQuery.Search.Frame
import TripleQuery.Unify
import TripleQuery.Proofs.Matching.Extension
/-!
# Unifying — what a match of terms has found

Where unification succeeds there is one way at most, and it is what it should
be (`Graph.Unifies`): the bindings are extended, by values for the variables of
the pattern and for no others, and with these in place the pattern is the same
as the datum. It fails only where a collection meets a datum that is none
(`Graph.exists_shapeMismatch_of_unifyTerm`). Nothing is assumed of the store.
-/

namespace TripleQuery

/-! ## Lists of results -/

/-- Results that are all there come from the elements one by one. -/
theorem mapM_eq_ok_iff {α β ε : Type} {f : α → Except ε β} {l : List α} {rs : List β} :
    l.mapM f = .ok rs ↔ List.Forall₂ (fun a r => f a = .ok r) l rs := by
  induction l generalizing rs with
  | nil =>
    rw [List.mapM_nil, List.forall₂_nil_left_iff]
    exact ⟨fun h => (Except.ok.inj h).symm, fun h => h ▸ rfl⟩
  | cons a l ih =>
    rw [List.mapM_cons, List.forall₂_cons_left_iff]
    constructor
    · intro h
      cases ha : f a with
      | error e => rw [ha] at h; cases h
      | ok r =>
        cases hl : l.mapM f with
        | error e => rw [ha, hl] at h; cases h
        | ok rs' =>
          rw [ha, hl] at h
          exact ⟨r, rs', rfl, ih.1 hl, (Except.ok.inj h).symm⟩
    · rintro ⟨r, rs', ha, hl, rfl⟩
      rw [ha, ih.2 hl]
      rfl

/-- What is related to some element of a list has a counterpart in the other. -/
theorem exists_of_mem_forall₂ {α β : Type} {R : α → β → Prop} {l : List α} {rs : List β} {r : β}
    (h : List.Forall₂ R l rs) (hr : r ∈ rs) : ∃ a ∈ l, R a r := by
  induction h with
  | nil => cases hr
  | cons hab _ ih =>
    rcases List.mem_cons.1 hr with rfl | hr
    · exact ⟨_, List.mem_cons_self, hab⟩
    · obtain ⟨a, ha, har⟩ := ih hr
      exact ⟨a, List.mem_cons_of_mem _ ha, har⟩

/-- Where a list of parts fails, one of the parts does. -/
theorem exists_error_of_mapM {α β ε : Type} {f : α → Except ε β} {l : List α} {err : ε}
    (h : l.mapM f = .error err) : ∃ a ∈ l, f a = .error err := by
  induction l with
  | nil => simp [pure, Except.pure] at h
  | cons a l ih =>
    rw [List.mapM_cons] at h
    cases ha : f a with
    | error err' =>
      rw [ha] at h
      obtain rfl : err' = err := Except.error.inj h
      exact ⟨a, List.mem_cons_self, ha⟩
    | ok b =>
      rw [ha] at h
      cases hl : l.mapM f with
      | error err' =>
        rw [hl] at h
        obtain rfl : err' = err := Except.error.inj h
        obtain ⟨a', ha', he⟩ := ih hl
        exact ⟨a', List.mem_cons_of_mem _ ha', he⟩
      | ok bs =>
        rw [hl] at h
        cases h

namespace Graph

variable {g : Graph} {b b' b₁ : Bindings} {x y : Term} {xs ys : List Term}
  {bs : List Bindings}

/-- The bindings `b'` extend `b` to the variables of some terms, so that these
become the same as others. -/
structure Unifies (g : Graph) (b b' : Bindings) (xs ys : List Term) : Prop where
  extends_ : b'.Extends b
  /-- The variables of the terms are bound, and nothing else is. -/
  mem_iff (v : Term) : v ∈ b' ↔ v ∈ b ∨ v ∈ Term.variableLists xs
  same : g.redirections.sameAll (b'.substituteAll xs) ys

theorem Unifies.onVariables (h : g.Unifies b b' xs ys) (hb : b.OnVariables) : b'.OnVariables := by
  intro v hv
  rcases (h.mem_iff v).1 hv with hv | hv
  · exact hb v hv
  · exact Term.isVariable_of_mem_variableLists xs hv

/-- Nothing to unify changes nothing. -/
theorem unifies_nil (g : Graph) (b : Bindings) : g.Unifies b b [] [] where
  extends_ := .refl b
  mem_iff v := by simp [Term.variableLists]
  same := by simp [Bindings.substituteAll, Redirections.sameAll]

/-- Terms are unified one after the other. -/
theorem Unifies.cons (h : g.Unifies b b₁ [x] [y]) (h' : g.Unifies b₁ b' xs ys)
    (hb : b.OnVariables) : g.Unifies b b' (x :: xs) (y :: ys) where
  extends_ := h'.extends_.trans h.extends_
  mem_iff v := by
    rw [h'.mem_iff, h.mem_iff]
    simp [Term.variableLists, or_assoc]
  same := by
    have hx : b'.substitute x = b₁.substitute x := by
      refine h'.extends_.substitute_eq (h'.onVariables (h.onVariables hb)) fun v hv => ?_
      exact (h.mem_iff v).2 (.inr (by simpa [Term.variableLists] using hv))
    have hsame := h.same
    simp only [Bindings.substituteAll, Redirections.sameAll, Bool.and_true] at hsame
    simp only [Bindings.substituteAll, Redirections.sameAll, Bool.and_eq_true]
    exact ⟨hx ▸ hsame, h'.same⟩

/-- A variable that has no value takes the datum. -/
theorem unifies_bind {v : Term} (hv : v.variableList = [v]) (ha : v.isAtomic) (hb : b[v]? = none)
    (y : Term) : g.Unifies b (b.bind v y) [v] [y] where
  extends_ := Bindings.extends_bind hb y
  mem_iff w := by
    rw [Bindings.mem_bind]
    simp [Term.variableLists, hv, or_comm, eq_comm]
  same := by
    have hval : (b.bind v y).substitute v = y := by
      rw [Bindings.substitute_of_isAtomic _ ha]
      exact Bindings.resolve_of_getElem? (by rw [Bindings.getElem?_bind, if_pos rfl])
    simp [Bindings.substituteAll, Redirections.sameAll, hval, Redirections.same_refl]

/-- What needs no new value is kept if it is the same. -/
theorem unifies_keep (hv : ∀ v ∈ x.variableList, v ∈ b) (h : g.same (b.substitute x) y) :
    g.Unifies b b [x] [y] where
  extends_ := .refl b
  mem_iff v := by
    simp only [Term.variableLists, List.append_nil]
    exact ⟨.inl, fun hm => hm.elim id (hv v)⟩
  same := by
    simp only [Bindings.substituteAll, Redirections.sameAll, Bool.and_true]
    exact h

/-- A result is nothing, or one way to unify. -/
def OneWay (g : Graph) (b : Bindings) (xs ys : List Term) (bs : List Bindings) : Prop :=
  bs = [] ∨ ∃ b', bs = [b'] ∧ g.Unifies b b' xs ys

theorem oneWay_keepIf {verdict : Bool} (hv : ∀ v ∈ x.variableList, v ∈ b)
    (h : verdict = true → g.same (b.substitute x) y) :
    g.OneWay b [x] [y] (keepIf b verdict) := by
  cases verdict with
  | false => exact .inl rfl
  | true => exact .inr ⟨b, rfl, unifies_keep hv (h rfl)⟩

/-- A variable is unified by its value, or takes one. -/
theorem oneWay_variable {v : Term} (hv : v.variableList = [v]) (ha : v.isAtomic) (y : Term) :
    g.OneWay b [v] [y] (match b[v]? with
      | some value => keepIf b (g.same value y)
      | none => [b.bind v y]) := by
  cases hb : b[v]? with
  | some value =>
    refine oneWay_keepIf (fun w hw => ?_) fun hs => ?_
    · rw [hv, List.mem_singleton] at hw
      subst hw
      exact mem_of_getElem? hb
    · rw [Bindings.substitute_of_isAtomic b ha, Bindings.resolve_of_getElem? hb]
      exact hs
  | none => exact .inr ⟨_, rfl, unifies_bind hv ha hb y⟩

mutual

/-- **There is one way at most to unify a term with a datum, and it is a right
one.** -/
theorem unifyTerm_oneWay : ∀ (x : Term) {b : Bindings} (y : Term) {bs : List Bindings},
    b.OnVariables → g.unifyTerm b x y = .ok bs → g.OneWay b [x] [y] bs
  | .var name, b, y, bs, _, h => by
    have hw := oneWay_variable (g := g) (b := b) (v := .var name) rfl rfl y
    rw [unifyTerm] at h
    split at h <;> rename_i hvalue <;> rw [hvalue] at hw <;> cases h <;> exact hw
  | .blank id, b, y, bs, _, h => by
    have hw := oneWay_variable (g := g) (b := b) (v := .blank id) rfl rfl y
    rw [unifyTerm] at h
    split at h <;> rename_i hvalue <;> rw [hvalue] at hw <;> cases h <;> exact hw
  | .symbol iri, b, y, bs, _, h => by
    rw [unifyTerm] at h
    cases h
    exact oneWay_keepIf (by simp [Term.variableList]) id
  | .literal l, b, y, bs, _, h => by
    rw [unifyTerm] at h
    cases h
    exact oneWay_keepIf (by simp [Term.variableList]) id
  | .collection xs, b, y, bs, hb, h => by
    have hnone : b[Term.collection xs]? = none :=
      hb.getElem?_eq_none (by simp [Term.isVariable])
    unfold unifyTerm at h
    rw [hnone] at h
    simp only at h
    split at h
    · rename_i ys
      split at h
      · rename_i hlen
        -- two collections of one length are unified element by element
        rcases unifyAll_oneWay xs ys hb hlen h with rfl | ⟨b', rfl, hu⟩
        · exact .inl rfl
        · refine .inr ⟨b', rfl, hu.extends_, fun v => ?_, ?_⟩
          · rw [hu.mem_iff]
            simp [Term.variableLists, Term.variableList]
          · simpa [Bindings.substituteAll, Bindings.substitute, Redirections.sameAll,
              Redirections.same_collection] using hu.same
      · cases h
        exact .inl rfl
    · cases h

/-- **And so for two lists of one length.** -/
theorem unifyAll_oneWay : ∀ (xs : List Term) {b : Bindings} (ys : List Term)
    {bs : List Bindings}, b.OnVariables → xs.length = ys.length →
      g.unifyAll b xs ys = .ok bs → g.OneWay b xs ys bs
  | [], b, ys, bs, _, hlen, h => by
    obtain rfl : ys = [] := List.length_eq_zero_iff.1 hlen.symm
    rw [unifyAll] at h
    · cases h
      exact .inr ⟨b, rfl, unifies_nil g b⟩
    · simp
  | x :: xs, b, [], bs, _, hlen, h => by cases hlen
  | x :: xs, b, y :: ys, bs, hb, hlen, h => by
    rw [unifyAll] at h
    cases hx : g.unifyTerm b x y with
    | error e => rw [hx] at h; cases h
    | ok heads =>
      rw [hx] at h
      rcases unifyTerm_oneWay x y hb hx with rfl | ⟨b₁, rfl, hu⟩
      · cases h
        exact .inl rfl
      · have hlen' : xs.length = ys.length := Nat.succ.inj hlen
        cases hrest : g.unifyAll b₁ xs ys with
        | error e =>
          simp only [List.mapM_cons, hrest] at h
          cases h
        | ok rest =>
          simp only [List.mapM_cons, List.mapM_nil, hrest] at h
          obtain rfl : rest = bs := by
            have := Except.ok.inj h
            simpa using this
          rcases unifyAll_oneWay xs ys (hu.onVariables hb) hlen' hrest with rfl | ⟨b', rfl, hu'⟩
          · exact .inl rfl
          · exact .inr ⟨b', rfl, hu.cons hu' hb⟩

end

/-! ## The error that there may be -/

mutual

/-- **Terms that do not unify are no error**, unless a collection meets a datum
that is none. -/
theorem exists_shapeMismatch_of_unifyTerm {e : QueryError} : ∀ (x : Term) (b : Bindings)
    (y : Term), g.unifyTerm b x y = .error e →
      ∃ xs z, e = .shapeMismatch (.collection xs) z ∧ z.isAtomic
  | .var _, b, y, h | .blank _, b, y, h => by
    rw [unifyTerm] at h
    split at h <;> cases h
  | .symbol _, b, y, h | .literal _, b, y, h => by
    rw [unifyTerm] at h
    cases h
  | .collection xs, b, y, h => by
    cases hv : b[Term.collection xs]? with
    | some value => simp [unifyTerm, hv] at h
    | none =>
      cases y with
      | collection ys =>
        simp only [unifyTerm, hv] at h
        split at h
        · exact exists_shapeMismatch_of_unifyAll xs b ys h
        · cases h
      | _ =>
        simp only [unifyTerm, hv] at h
        cases h
        exact ⟨xs, _, rfl, rfl⟩

theorem exists_shapeMismatch_of_unifyAll {e : QueryError} : ∀ (xs : List Term) (b : Bindings)
    (ys : List Term), g.unifyAll b xs ys = .error e →
      ∃ xs z, e = .shapeMismatch (.collection xs) z ∧ z.isAtomic
  | [], b, ys, h => by simp [unifyAll] at h
  | _ :: _, b, [], h => by simp [unifyAll] at h
  | x :: xs, b, y :: ys, h => by
    rw [unifyAll] at h
    split at h
    · rename_i err hx
      exact exists_shapeMismatch_of_unifyTerm x b y (hx.trans h)
    · rename_i heads hx
      cases hr : heads.mapM (fun extended => g.unifyAll extended xs ys) with
      | ok rs => rw [hr] at h; cases h
      | error err =>
        rw [hr] at h
        obtain ⟨b', -, he⟩ := exists_error_of_mapM hr
        exact exists_shapeMismatch_of_unifyAll xs b' ys
          (he.trans (congrArg _ (Except.error.inj h)))

end

/-! ## Triples and statements -/

variable {triple s : Statement} {candidates : List Statement}

/-- What unifies a triple with a statement makes them the same at each
position. -/
theorem Unifies.same_term (h : g.Unifies b b' triple.terms s.terms) (p : Position) :
    g.same (b'.substitute (triple.term p)) (s.term p) := by
  have hsame := h.same
  simp only [Statement.terms, Bindings.substituteAll, Redirections.sameAll, Bool.and_eq_true,
    and_true] at hsame
  obtain ⟨hs, hp, ho⟩ := hsame
  cases p with
  | subject => exact hs
  | predicate => exact hp
  | object => exact ho

/-- **A triple is unified with a statement in one way at most.** -/
theorem unifyStatement_oneWay (hb : b.OnVariables)
    (h : g.unifyStatement b triple s = .ok bs) : g.OneWay b triple.terms s.terms bs :=
  unifyAll_oneWay triple.terms s.terms hb rfl h

theorem unifies_of_mem_unifyStatement (hb : b.OnVariables)
    (h : g.unifyStatement b triple s = .ok bs) (hm : b' ∈ bs) :
    g.Unifies b b' triple.terms s.terms := by
  rcases unifyStatement_oneWay hb h with rfl | ⟨b₁, rfl, hu⟩
  · cases hm
  · rw [List.mem_singleton.1 hm]
    exact hu

end Graph

namespace Frame

variable {g : Graph} {b b' : Bindings} {bs : List Bindings} {triple : Statement}
  {candidates : List Statement} {f f' : Frame} {fs : List Frame}

/-- Each alternative is a way to unify the triple with a candidate. -/
theorem exists_of_mem_alternatives (h : alternatives g b triple candidates = .ok bs)
    (hm : b' ∈ bs) :
    ∃ s ∈ candidates, ∃ r, g.unifyStatement b triple s = .ok r ∧ b' ∈ r := by
  unfold alternatives at h
  cases hr : candidates.mapM (g.unifyStatement b triple) with
  | error e => rw [hr] at h; cases h
  | ok rs =>
    rw [hr] at h
    obtain rfl : rs.flatten = bs := Except.ok.inj h
    obtain ⟨r, hr', hm⟩ := List.mem_flatten.1 hm
    obtain ⟨s, hs, hu⟩ := exists_of_mem_forall₂ (mapM_eq_ok_iff.1 hr) hr'
    exact ⟨s, hs, r, hu, hm⟩

/-- And a right one. -/
theorem mem_alternatives (hb : b.OnVariables)
    (h : alternatives g b triple candidates = .ok bs) (hm : b' ∈ bs) :
    ∃ s ∈ candidates, g.Unifies b b' triple.terms s.terms := by
  obtain ⟨s, hs, r, hu, hm⟩ := exists_of_mem_alternatives h hm
  exact ⟨s, hs, Graph.unifies_of_mem_unifyStatement hb hu hm⟩

/-- Nothing goes on if no triple has a candidate. -/
theorem expand_of_plan_eq_none (hp : g.plan f.bindings f.remaining = none) :
    f.expand g = .ok [] := by
  simp only [expand, hp]

/-- The triple that is planned first is matched with its candidates. -/
theorem expand_of_plan_eq_some {p : Plan} {triple : Statement}
    (hp : g.plan f.bindings f.remaining = some p) (ht : f.remaining[p.selected]? = some triple) :
    f.expand g = (alternatives g f.bindings triple p.estimate.candidates.toList).map fun bs =>
      (bs.filter f.isAllowed).map (f.advance p.selected) := by
  simp only [expand, hp, ht]

/-- **What a path goes on as**: one remaining triple is matched with a
candidate, under bindings that keep the constraints. -/
theorem mem_expand (h : f.expand g = .ok fs) (hf : f' ∈ fs) :
    ∃ p triple bs b, g.plan f.bindings f.remaining = some p ∧
      f.remaining[p.selected]? = some triple ∧
      alternatives g f.bindings triple p.estimate.candidates.toList = .ok bs ∧
      b ∈ bs ∧ f.isAllowed b = true ∧ f' = f.advance p.selected b := by
  unfold expand at h
  split at h
  · cases h
    simp at hf
  rename_i p hp
  split at h
  · cases h
    simp at hf
  rename_i triple ht
  cases hb : alternatives g f.bindings triple p.estimate.candidates.toList with
  | error e => rw [hb] at h; cases h
  | ok bs =>
    rw [hb] at h
    cases h
    obtain ⟨b, hm, rfl⟩ := List.mem_map.1 hf
    obtain ⟨hm, ha⟩ := List.mem_filter.1 hm
    exact ⟨p, triple, bs, b, hp, ht, hb, hm, ha, rfl⟩

/-- A path goes on for the same search. -/
theorem search_of_mem_expand (h : f.expand g = .ok fs) (hf : f' ∈ fs) : f'.search = f.search := by
  obtain ⟨p, triple, bs, b, -, -, -, -, -, rfl⟩ := mem_expand h hf
  rfl

/-- A path goes on towards the same branch. -/
theorem branch_of_mem_expand (h : f.expand g = .ok fs) (hf : f' ∈ fs) : f'.branch = f.branch := by
  obtain ⟨p, triple, bs, b, -, -, -, -, -, rfl⟩ := mem_expand h hf
  rfl

/-- A path goes on in the same scope. -/
theorem scope_of_mem_expand (h : f.expand g = .ok fs) (hf : f' ∈ fs) : f'.scope = f.scope := by
  obtain ⟨p, triple, bs, b, -, -, -, -, -, rfl⟩ := mem_expand h hf
  rfl

end Frame

end TripleQuery
