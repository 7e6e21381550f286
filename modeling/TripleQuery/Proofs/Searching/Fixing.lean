import TripleQuery.Proofs.Searching.Routes
/-!
# Fixing — what is bound that is no variable

Matching binds variables and blank nodes only. Any other term that is bound on a
path was bound before the search began: the fixed values of its pattern, or of a
clause that it has entered, have it (`Pattern.Fixes`,
`Frame.Route.isVariable_or_fixes`).
-/

namespace TripleQuery

variable {f : Frame} {ds : List String} {p : Pattern} {t : Term} {search : Id}

namespace Pattern

/-- The fixed values of a pattern, or of a clause of it at any depth, have a
term. -/
inductive Fixes : Pattern → Term → Prop
  /-- The pattern has it itself. -/
  | initial {p : Pattern} {t : Term} : t ∈ p.initial → Fixes p t
  /-- A clause has it. -/
  | clause {p c : Pattern} {t : Term} : c ∈ p.optionals → Fixes c t → Fixes p t

/-- A pattern that binds only variables fixes nothing else. -/
theorem Fixes.isVariable (h : p.Fixes t) (hp : p.BindsVariables) : t.isVariable := by
  induction h with
  | initial ht => exact hp.initial _ ht
  | clause hc _ ih => exact ih (hp.optionals.mem hc)

end Pattern

namespace Frame

/-- **What is bound on a path is a variable, or its pattern fixes it.** -/
theorem Route.isVariable_or_fixes (h : (root search p).Route ds f) (ht : t ∈ f.bindings) :
    t.isVariable ∨ p.Fixes t := by
  -- what the clauses fix that are still before the path, the pattern fixes
  suffices hall : (∀ t ∈ f.bindings, t.isVariable ∨ p.Fixes t) ∧
      ∀ t, f.scope.pattern.Fixes t → p.Fixes t from hall.1 t ht
  clear ht
  induction h with
  | refl => exact ⟨fun t ht => .inr (.initial ht), fun t ht => ht⟩
  | waited _ _ ih => exact ih
  | @matched f f' ds g fs _ he hf ih =>
    refine ⟨fun t ht => ?_, fun t ht => ih.2 t (by rwa [scope_of_mem_expand he hf] at ht)⟩
    rcases (draws_of_expand he hf).grown ht with ht | ht
    · exact ih.1 t ht
    · exact .inl ht
  | @clause f ds c branch _ _ hc ih =>
    have hfixes : ∀ t, c.pattern.Fixes t → p.Fixes t := by
      obtain ⟨q, hq, rfl⟩ := List.mem_map.1 hc
      exact fun t ht => ih.2 t (.clause hq ht)
    refine ⟨fun t ht => ?_, hfixes⟩
    rcases Std.ExtTreeMap.mem_union_iff.1 ht with ht | ht
    · exact .inr (hfixes t (.initial ht))
    · exact ih.1 t ht

end Frame

end TripleQuery
