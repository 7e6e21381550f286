import TripleQuery.Pattern
import TripleQuery.Proofs.Matching.Extension
/-!
# The reference — what a pattern means

A pattern means a left join. Its triples are joined: for every choice of one
statement for each of them, the binding set is extended to their variables so
that every triple is exactly the statement chosen for it, if it can be
(`Bindings.extension?`); there is one such extension at most, and it is the one
that is found (`Bindings.extension?_eq_some_iff`). The clauses are joined to
what keeps the constraints, and a clause without results leaves the others as
they are (`leftJoin`).

Nothing here looks a statement up, chooses an order, or follows a merged term.
-/

namespace TripleQuery

namespace Bindings

variable {b b' t : Bindings} {v x y : Term} {xs ys : List Term}

/-! ## Fitting terms -/

/-- The set under which a variable has a given value. -/
def fitVariable? (b : Bindings) (v value : Term) : Option Bindings :=
  match b[v]? with
  | some x => if x = value then some b else none
  | none => some (b.bind v value)

mutual

/-- The set under which a term of a pattern is exactly a term of the data. -/
def fit? (b : Bindings) : Term → Term → Option Bindings
  | .var name, y => b.fitVariable? (.var name) y
  | .blank id, y => b.fitVariable? (.blank id) y
  | .symbol iri, y => if .symbol iri = y then some b else none
  | .literal l, y => if .literal l = y then some b else none
  | .collection xs, y =>
    match y with
    | .collection ys => fitAll? b xs ys
    | _ => none

/-- The set under which some terms are exactly others, one by one. -/
def fitAll? (b : Bindings) : List Term → List Term → Option Bindings
  | [], [] => some b
  | x :: xs, y :: ys => (fit? b x y).bind fun b' => fitAll? b' xs ys
  | _, _ => none

end

/-- The set under which some triples are exactly some statements, provenance
left out. -/
def extension? (b : Bindings) : List Statement → List Statement → Option Bindings
  | [], [] => some b
  | triple :: triples, s :: chosen =>
    (b.fitAll? triple.terms s.terms).bind fun b' => extension? b' triples chosen
  | _, _ => none

/-- The set `t` extends `b` to the variables of some triples, and makes each of
them exactly the statement chosen for it. -/
structure IsExtension (b : Bindings) (triples chosen : List Statement) (t : Bindings) :
    Prop where
  extends_ : t.Extends b
  mem_iff (v : Term) : v ∈ t ↔ v ∈ b ∨ v ∈ triples.flatMap Statement.variableList
  fits : List.Forall₂ (fun triple s => t.substituteAll triple.terms = s.terms) triples chosen

/-- Sets with the same keys, one of which extends the other, are equal. -/
theorem Extends.eq (h : t.Extends b) (hmem : ∀ v, v ∈ t → v ∈ b) : t = b := by
  ext v value
  constructor
  · intro hv
    have hvt : v ∈ t := mem_of_getElem? hv
    obtain ⟨value', hvalue'⟩ := exists_getElem? (hmem v hvt)
    have heq := (h v value' hvalue').symm.trans hv
    rw [hvalue', Option.some.inj heq]
  · exact h v value

/-- Lists of different lengths do not fit. -/
theorem fitAll?_eq_none (h : xs.length ≠ ys.length) : b.fitAll? xs ys = none := by
  induction xs generalizing b ys with
  | nil =>
    cases ys with
    | nil => exact absurd rfl h
    | cons y ys => simp [fitAll?]
  | cons x xs ih =>
    cases ys with
    | nil => simp [fitAll?]
    | cons y ys =>
      have hlen : xs.length ≠ ys.length := fun he => h (congrArg Nat.succ he)
      rw [fitAll?]
      exact Option.bind_eq_none_iff.2 fun b' _ => ih hlen

/-! ## What fits is found -/

theorem exists_fitVariable? (ha : v.isAtomic) (ht : t.Extends b) (hmem : v ∈ t)
    (h : t.substitute v = y) : ∃ b', b.fitVariable? v y = some b' ∧ t.Extends b' := by
  obtain ⟨value, hvalue⟩ := exists_getElem? hmem
  rw [substitute_of_isAtomic t ha, resolve_of_getElem? hvalue] at h
  subst h
  unfold fitVariable?
  cases hb : b[v]? with
  | some x =>
    have heq : x = value := Option.some.inj ((ht v x hb).symm.trans hvalue)
    exact ⟨b, by simp [heq], ht⟩
  | none =>
    refine ⟨_, rfl, fun w x hw => ?_⟩
    rw [getElem?_bind] at hw
    split at hw
    · rename_i he
      rw [← he, hvalue, Option.some.inj hw]
    · exact ht w x hw

mutual

/-- **What fits is found**: if a term becomes the datum under a larger set, a
set within that one is found. -/
theorem exists_fit? : ∀ (x : Term) {b : Bindings} {t : Bindings}, t.OnVariables → t.Extends b →
    (∀ v ∈ x.variableList, v ∈ t) → ∃ b', b.fit? x (t.substitute x) = some b' ∧ t.Extends b'
  | .var name, b, t, _, ht, hall => by
    rw [fit?]
    exact exists_fitVariable? rfl ht (hall _ (by simp [Term.variableList])) rfl
  | .blank id, b, t, _, ht, hall => by
    rw [fit?]
    exact exists_fitVariable? rfl ht (hall _ (by simp [Term.variableList])) rfl
  | .symbol iri, b, t, hv, ht, _ => by
    refine ⟨b, ?_, ht⟩
    rw [fit?, substitute,
      resolve_of_getElem?_eq_none (hv.getElem?_eq_none (by simp [Term.isVariable])), if_pos rfl]
  | .literal l, b, t, hv, ht, _ => by
    refine ⟨b, ?_, ht⟩
    rw [fit?, substitute,
      resolve_of_getElem?_eq_none (hv.getElem?_eq_none (by simp [Term.isVariable])), if_pos rfl]
  | .collection xs, b, t, hv, ht, hall => by
    rw [substitute, fit?]
    exact exists_fitAll? xs hv ht hall

/-- **And so it is for lists of terms.** -/
theorem exists_fitAll? : ∀ (xs : List Term) {b : Bindings} {t : Bindings}, t.OnVariables →
    t.Extends b → (∀ v ∈ Term.variableLists xs, v ∈ t) →
      ∃ b', b.fitAll? xs (t.substituteAll xs) = some b' ∧ t.Extends b'
  | [], b, t, _, ht, _ => ⟨b, by simp [substituteAll, fitAll?], ht⟩
  | x :: xs, b, t, hv, ht, hall => by
    simp only [Term.variableLists, List.mem_append] at hall
    obtain ⟨b₁, hb₁, ht₁⟩ := exists_fit? x hv ht fun v hm => hall v (.inl hm)
    obtain ⟨b₂, hb₂, ht₂⟩ := exists_fitAll? xs hv ht₁ fun v hm => hall v (.inr hm)
    exact ⟨b₂, by rw [substituteAll, fitAll?, hb₁, Option.bind_some, hb₂], ht₂⟩

end

/-- If triples become their statements under a larger set, an extension within
that one is found. -/
theorem exists_extension? {triples chosen : List Statement} (ht : t.OnVariables)
    (he : t.Extends b) (hall : ∀ v ∈ triples.flatMap Statement.variableList, v ∈ t)
    (hfit : List.Forall₂ (fun triple s => t.substituteAll triple.terms = s.terms) triples chosen) :
    ∃ b', b.extension? triples chosen = some b' ∧ t.Extends b' := by
  induction hfit generalizing b with
  | nil => exact ⟨b, rfl, he⟩
  | @cons triple s triples chosen hs _ ih =>
    simp only [List.flatMap_cons, List.mem_append] at hall
    obtain ⟨b₁, hb₁, he₁⟩ := exists_fitAll? triple.terms ht he fun v hv => hall v (.inl hv)
    obtain ⟨b₂, hb₂, he₂⟩ := ih he₁ fun v hv => hall v (.inr hv)
    rw [hs] at hb₁
    exact ⟨b₂, by rw [extension?, hb₁, Option.bind_some, hb₂], he₂⟩

end Bindings

/-! ## The left join -/

/-- All ways to choose a statement for each of some triples. -/
def choices (ss : List Statement) : List Statement → List (List Statement)
  | [] => [[]]
  | _ :: triples => ss.flatMap fun s => (choices ss triples).map (s :: ·)

/-- The join of some triples: the extension for every choice that has one. -/
def joins (ss triples : List Statement) (b : Bindings) : List Bindings :=
  (choices ss triples).filterMap (b.extension? triples)

/-- The empty binding set stands in for no results. -/
def orEmpty (found : List Bindings) : List Bindings :=
  if found.isEmpty then [∅] else found

mutual

/-- The results of a pattern among some statements, inside enclosing
constraints, for one binding set: its triples are joined, and each clause is
joined to what keeps the constraints. -/
def leftJoin (ss : List Statement) (outer : Constraints) : Pattern → Bindings → List Bindings
  | ⟨triples, optionals, constraints, _⟩, b =>
    if (outer ∪ constraints).satisfiedBy b then
      ((joins ss triples b).filter (outer ∪ constraints).satisfiedBy).flatMap fun trunk =>
        joinClauses ss (outer ∪ constraints) trunk trunk optionals
    else []

/-- What is so far, with one result added of each clause. A clause starts from
its own fixed values, overlaid with those of the trunk. -/
def joinClauses (ss : List Statement) (inForce : Constraints) (trunk : Bindings) :
    Bindings → List Pattern → List Bindings
  | sofar, [] => [sofar]
  | sofar, clause :: clauses =>
    (orEmpty (leftJoin ss inForce clause (clause.initial ∪ trunk))).flatMap fun r =>
      joinClauses ss inForce trunk (sofar ∪ r) clauses

end

end TripleQuery
