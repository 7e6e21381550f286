import Mathlib.Algebra.BigOperators.Group.Multiset.Basic
import Mathlib.Algebra.Order.Monoid.Unbundled.WithTop
import TripleQuery.Search.Branch
import TripleQuery.Proofs.Joining.Reordering
/-!
# Answers — what the work of a search amounts to

A search takes the easiest triple first, looks only among its candidates, gives
up whatever breaks a constraint as soon as it does, and stops at an error. What
it finds in this way, if it meets no error, is said here without branches,
junctions or orders (`answers`): a multiset, or `⊤` once an error is met.

In a store without merged terms it is what the pattern means
(`answers_agrees`).
-/

namespace TripleQuery

/-- What is found, or `⊤` if an error is met on the way. -/
abbrev Yield := WithTop (Multiset Bindings)

namespace Yield

/-- What is found without an error, the order forgotten. -/
def of (found : List Bindings) : Yield :=
  ((found : Multiset Bindings) : WithTop (Multiset Bindings))

/-- Go on from everything that is found. -/
def bind : Yield → (Bindings → Yield) → Yield
  | ⊤, _ => ⊤
  | (m : Multiset Bindings), k => (m.map k).sum

/-- What a clause contributes: the empty binding set stands in for nothing. -/
def orEmpty : Yield → Yield
  | ⊤ => ⊤
  | (m : Multiset Bindings) => if m.card = 0 then of [∅] else (m : WithTop (Multiset Bindings))

/-- All combinations of a binding set with one of each of some yields. -/
def combine (sofar : Bindings) : List Yield → Yield
  | [] => of [sofar]
  | y :: ys => y.bind fun r => combine (sofar ∪ r) ys

variable {l l' : List Bindings} {k : Bindings → Yield}

@[simp] theorem of_nil : of [] = 0 := rfl

theorem of_append (l l' : List Bindings) : of (l ++ l') = of l + of l' := rfl

theorem of_eq_of_perm (h : l.Perm l') : of l = of l' := by
  unfold of
  rw [Multiset.coe_eq_coe.2 h]

/-- Two lists with one yield hold the same. -/
theorem perm_of_of_eq (h : of l = of l') : l.Perm l' :=
  Multiset.coe_eq_coe.1 (WithTop.coe_injective h)

@[simp] theorem bind_of (l : List Bindings) (k : Bindings → Yield) :
    bind (of l) k = (l.map k).sum := by
  change ((l : Multiset Bindings).map k).sum = _
  rw [Multiset.map_coe, Multiset.sum_coe]

@[simp] theorem bind_top (k : Bindings → Yield) : bind ⊤ k = ⊤ := rfl

@[simp] theorem zero_bind (k : Bindings → Yield) : bind 0 k = 0 := rfl

/-- Going on from what is found here and there. -/
theorem add_bind (x y : Yield) (k : Bindings → Yield) : (x + y).bind k = x.bind k + y.bind k := by
  cases x using WithTop.recTopCoe with
  | top => rw [WithTop.top_add, bind_top, WithTop.top_add]
  | coe m =>
    cases y using WithTop.recTopCoe with
    | top => rw [WithTop.add_top, bind_top, WithTop.add_top]
    | coe m' =>
      change ((m + m').map k).sum = (m.map k).sum + (m'.map k).sum
      rw [Multiset.map_add, Multiset.sum_add]

theorem sum_bind (ys : List Yield) (k : Bindings → Yield) :
    ys.sum.bind k = (ys.map fun y => y.bind k).sum := by
  induction ys with
  | nil => rfl
  | cons y ys ih => rw [List.sum_cons, add_bind, ih, List.map_cons, List.sum_cons]

@[simp] theorem orEmpty_top : orEmpty ⊤ = ⊤ := rfl

/-- What a complete clause contributes is its results. -/
theorem orEmpty_of_found (b : Branch) : orEmpty (of b.found) = of b.results := by
  unfold Branch.results
  cases hf : b.found with
  | nil => rfl
  | cons x xs => rfl

/-- What is found from each of some binding sets is found from all of them. -/
theorem sum_map_of (l : List Bindings) (found : Bindings → List Bindings) :
    (l.map fun x => of (found x)).sum = of (l.flatMap found) := by
  induction l with
  | nil => rfl
  | cons x l ih => rw [List.map_cons, List.sum_cons, ih, List.flatMap_cons, of_append]

/-- **Combinations of what is complete are those of the junction.** -/
theorem combine_map_of (sofar : Bindings) (results : List (List Bindings)) :
    combine sofar (results.map of) = of (Junction.combine sofar results) := by
  induction results generalizing sofar with
  | nil => rfl
  | cons rs results ih =>
    rw [List.map_cons, combine, bind_of, Junction.combine_cons, ← sum_map_of]
    simp only [ih]

/-! ### What is in a yield -/

/-- A binding set is among what is found, and no error is met. -/
def Finds (y : Yield) (r : Bindings) : Prop :=
  ∃ l, y = of l ∧ r ∈ l

theorem eq_top_or_of (y : Yield) : y = ⊤ ∨ ∃ l, y = of l := by
  cases y using WithTop.recTopCoe with
  | top => exact .inl rfl
  | coe m =>
    obtain ⟨l, rfl⟩ := Quot.exists_rep m
    exact .inr ⟨l, rfl⟩

theorem finds_of {r : Bindings} : (of l).Finds r ↔ r ∈ l := by
  constructor
  · rintro ⟨l', hl, hr⟩
    exact (perm_of_of_eq hl).mem_iff.2 hr
  · exact fun hr => ⟨l, rfl, hr⟩

theorem not_finds_top {r : Bindings} : ¬ Finds ⊤ r := by
  rintro ⟨l, hl, -⟩
  exact WithTop.top_ne_coe hl

/-- What is found in a sum is found in a summand. -/
theorem exists_finds_of_sum {ys : List Yield} {r : Bindings} (h : ys.sum.Finds r) :
    ∃ y ∈ ys, y.Finds r := by
  induction ys with
  | nil =>
    rw [List.sum_nil, ← of_nil, finds_of] at h
    cases h
  | cons y ys ih =>
    rw [List.sum_cons] at h
    rcases eq_top_or_of y with rfl | ⟨l, rfl⟩
    · rw [WithTop.top_add] at h
      exact absurd h not_finds_top
    rcases eq_top_or_of ys.sum with hs | ⟨l', hs⟩
    · rw [hs, WithTop.add_top] at h
      exact absurd h not_finds_top
    rw [hs, ← of_append, finds_of] at h
    rcases List.mem_append.1 h with h | h
    · exact ⟨_, List.mem_cons_self, finds_of.2 h⟩
    · obtain ⟨z, hz, hr⟩ := ih (hs ▸ finds_of.2 h)
      exact ⟨z, List.mem_cons_of_mem _ hz, hr⟩

/-- What is found by going on is found from something that is found. -/
theorem exists_finds_of_bind {y : Yield} {r : Bindings} (h : (y.bind k).Finds r) :
    ∃ s, y.Finds s ∧ (k s).Finds r := by
  rcases eq_top_or_of y with rfl | ⟨l, rfl⟩
  · exact absurd h not_finds_top
  rw [bind_of] at h
  obtain ⟨z, hz, hr⟩ := exists_finds_of_sum h
  obtain ⟨s, hs, rfl⟩ := List.mem_map.1 hz
  exact ⟨s, finds_of.2 hs, hr⟩

/-- It only matters how one goes on from what is found. -/
theorem bind_congr {y : Yield} {k k' : Bindings → Yield} (h : ∀ r, y.Finds r → k r = k' r) :
    y.bind k = y.bind k' := by
  rcases eq_top_or_of y with rfl | ⟨l, rfl⟩
  · rfl
  · rw [bind_of, bind_of, List.map_congr_left fun r hr => h r (finds_of.2 hr)]

theorem finds_of_orEmpty {y : Yield} {r : Bindings} (h : y.orEmpty.Finds r) :
    r = ∅ ∨ y.Finds r := by
  rcases eq_top_or_of y with rfl | ⟨l, rfl⟩
  · exact absurd h not_finds_top
  cases l with
  | nil => exact .inl (List.mem_singleton.1 (finds_of.1 h))
  | cons x l => exact .inr h

/-! ### What is never nothing -/

theorem orEmpty_ne_zero (y : Yield) : y.orEmpty ≠ 0 := by
  cases y using WithTop.recTopCoe with
  | top => exact WithTop.top_ne_coe
  | coe m =>
    intro h
    change (if m.card = 0 then of [∅] else (m : Yield)) = 0 at h
    split at h
    · have hone : ({∅} : Multiset Bindings) = 0 := WithTop.coe_injective h
      exact Multiset.singleton_ne_zero ∅ hone
    · rename_i hne
      have hm : m = 0 := WithTop.coe_injective h
      exact hne (by rw [hm, Multiset.card_zero])

/-- Where something is found, and everything leads to an error, an error is met. -/
theorem bind_eq_top {y : Yield} {k : Bindings → Yield} (hy : y ≠ 0) (hk : ∀ r, k r = ⊤) :
    y.bind k = ⊤ := by
  cases y using WithTop.recTopCoe with
  | top => rfl
  | coe m =>
    have hm : m ≠ 0 := by
      rintro rfl
      exact hy rfl
    obtain ⟨r, hr⟩ := Multiset.exists_mem_of_ne_zero hm
    obtain ⟨m', rfl⟩ := Multiset.exists_cons_of_mem hr
    change ((r ::ₘ m').map k).sum = ⊤
    rw [Multiset.map_cons, Multiset.sum_cons, hk, WithTop.top_add]

/-- **Combinations meet every error** of what they combine, if none of it is
nothing. -/
theorem combine_eq_top {ys : List Yield} (hne : ∀ y ∈ ys, y ≠ 0) (htop : ⊤ ∈ ys)
    (sofar : Bindings) : combine sofar ys = ⊤ := by
  induction ys generalizing sofar with
  | nil => cases htop
  | cons y ys ih =>
    rw [combine]
    rcases List.mem_cons.1 htop with rfl | htop
    · rfl
    · exact bind_eq_top (hne y List.mem_cons_self) fun r =>
        ih (fun y hy => hne y (List.mem_cons_of_mem _ hy)) htop _

end Yield

/-! ## The work of a search -/

/-- What the triples that remain are matched with: the one that is planned
first, among its candidates, and then the others. -/
def trunks (g : Graph) (cs : Constraints) (remaining : List Statement) (b : Bindings) : Yield :=
  if remaining = [] then .of [b]
  else
    match g.plan b remaining with
    | none => 0
    | some p =>
      match _h : remaining[p.selected]? with
      | none => 0
      | some triple =>
        match Frame.alternatives g b triple p.estimate.candidates.toList with
        | .error _ => ⊤
        | .ok bs =>
          ((bs.filter cs.satisfiedBy).map (trunks g cs (remaining.eraseIdx p.selected))).sum
termination_by remaining.length
decreasing_by
  obtain ⟨hlt, -⟩ := List.getElem?_eq_some_iff.1 _h
  rw [List.length_eraseIdx_of_lt hlt]
  omega

mutual

/-- What a search for a pattern finds, inside enclosing constraints, from one
binding set on. -/
def answers (g : Graph) (outer : Constraints) : Pattern → Bindings → Yield
  | ⟨triples, optionals, constraints, _⟩, b =>
    if (outer ∪ constraints).satisfiedBy b then
      (trunks g (outer ∪ constraints) triples b).bind fun trunk =>
        Yield.combine trunk (clauseAnswers g (outer ∪ constraints) trunk optionals)
    else 0

/-- What the clauses contribute to a trunk. -/
def clauseAnswers (g : Graph) (inForce : Constraints) (trunk : Bindings) : List Pattern → List Yield
  | [] => []
  | clause :: clauses =>
    (answers g inForce clause (clause.initial ∪ trunk)).orEmpty ::
      clauseAnswers g inForce trunk clauses

end

theorem clauseAnswers_eq_map (g : Graph) (inForce : Constraints) (trunk : Bindings)
    (clauses : List Pattern) : clauseAnswers g inForce trunk clauses =
      clauses.map fun clause => (answers g inForce clause (clause.initial ∪ trunk)).orEmpty := by
  induction clauses with
  | nil => simp [clauseAnswers]
  | cons clause clauses ih => simp [clauseAnswers, ih]

theorem trunks_nil (g : Graph) (cs : Constraints) (b : Bindings) : trunks g cs [] b = .of [b] := by
  rw [trunks, if_pos rfl]

section

variable {g : Graph} {cs : Constraints} {remaining : List Statement} {b : Bindings} {p : Plan}
  {triple : Statement}

/-- Nothing is found if no triple has a candidate. -/
theorem trunks_of_plan_eq_none (hne : remaining ≠ []) (hp : g.plan b remaining = none) :
    trunks g cs remaining b = 0 := by
  rw [trunks, if_neg hne]
  simp only [hp]

/-- The triple that is planned first is matched with its candidates. -/
theorem trunks_of_plan_eq_some (hne : remaining ≠ []) (hp : g.plan b remaining = some p)
    (ht : remaining[p.selected]? = some triple) : trunks g cs remaining b =
      match Frame.alternatives g b triple p.estimate.candidates.toList with
      | .error _ => ⊤
      | .ok bs =>
        ((bs.filter cs.satisfiedBy).map (trunks g cs (remaining.eraseIdx p.selected))).sum := by
  rw [trunks, if_neg hne]
  simp only [hp]
  split
  · rename_i hno
    rw [ht] at hno
    cases hno
  · rename_i triple' ht'
    obtain rfl : triple = triple' := Option.some.inj (ht.symm.trans ht')
    rfl

end

/-- **A step of a path.** Where triples remain, what they are matched with is
what the paths that go on match the others with. -/
theorem trunks_of_expand {g : Graph} {f : Frame} {fs : List Frame} (hne : f.remaining ≠ [])
    (h : f.expand g = .ok fs) : trunks g f.scope.constraints f.remaining f.bindings =
      (fs.map fun f' => trunks g f'.scope.constraints f'.remaining f'.bindings).sum := by
  cases hp : g.plan f.bindings f.remaining with
  | none =>
    rw [Frame.expand_of_plan_eq_none hp] at h
    cases h
    exact trunks_of_plan_eq_none hne hp
  | some p =>
    obtain ⟨triple, ht, -, -⟩ := Graph.plan_eq_some hp
    rw [Frame.expand_of_plan_eq_some hp ht] at h
    rw [trunks_of_plan_eq_some hne hp ht]
    cases hbs : Frame.alternatives g f.bindings triple p.estimate.candidates.toList with
    | error e =>
      rw [hbs] at h
      cases h
    | ok bs =>
      rw [hbs] at h
      cases h
      rw [List.map_map]
      rfl

/-- An error that a path meets is met. -/
theorem trunks_of_error {g : Graph} {f : Frame} {e : QueryError} (hne : f.remaining ≠ [])
    (h : f.expand g = .error e) : trunks g f.scope.constraints f.remaining f.bindings = ⊤ := by
  cases hp : g.plan f.bindings f.remaining with
  | none =>
    rw [Frame.expand_of_plan_eq_none hp] at h
    cases h
  | some p =>
    obtain ⟨triple, ht, -, -⟩ := Graph.plan_eq_some hp
    rw [Frame.expand_of_plan_eq_some hp ht] at h
    rw [trunks_of_plan_eq_some hne hp ht]
    cases hbs : Frame.alternatives g f.bindings triple p.estimate.candidates.toList with
    | error e' => rfl
    | ok bs =>
      rw [hbs] at h
      cases h

end TripleQuery
