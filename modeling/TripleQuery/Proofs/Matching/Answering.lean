import TripleQuery.Pattern
import TripleQuery.Proofs.Matching.Planning
import TripleQuery.Proofs.Matching.Unifying
/-!
# Answering — triples that a stored statement answers

A triple is answered under a binding set when the set binds all its variables
and some stored statement is the same as what the triple becomes
(`Graph.IsAnswered`). What is answered stays answered by the same statement,
whatever is bound in addition, added to the store, or merged in it
(`Graph.Answers.grow`, `Graph.IsAnswered.mono`). A path that goes on has one
more of its triples answered and keeps all that were
(`Frame.matches_of_mem_expand`).
-/

namespace TripleQuery

namespace Graph

variable {g g' g'' : Graph} {b b' : Bindings} {triple s : Statement} {x y keep : Term}

/-! ## Stores that grow -/

/-- Nothing that was stored is lost, and no terms that were the same are
parted. -/
structure Grows (g g' : Graph) : Prop where
  statements {s : Statement} : s ∈ g.statements → s ∈ g'.statements
  same {x y : Term} : g.same x y → g'.same x y

theorem Grows.refl (g : Graph) : g.Grows g := ⟨id, id⟩

theorem Grows.trans (h : g.Grows g') (h' : g'.Grows g'') : g.Grows g'' :=
  ⟨fun hs => h'.statements (h.statements hs), fun hs => h'.same (h.same hs)⟩

/-- Adding a statement loses none. -/
theorem grows_add (g : Graph) (s : Statement) : g.Grows (g.add s) where
  statements hs := mem_add.2 (.inl hs)
  same h := by
    rw [same, redirections_add]
    exact h

/-- **Merging parts no terms that were the same.** -/
theorem grows_equate (h : g.equate x y = .ok (g', keep)) : g.Grows g' where
  statements hs := by rwa [statements_equate h]
  same hsame := by
    obtain ⟨-, rfl, -⟩ | ⟨-, lose, rfl, -⟩ := equate_cases h
    · exact hsame
    · exact Redirections.same_cons lose keep hsame

/-! ## Answered triples -/

/-- A stored statement is the same as what a triple becomes. -/
structure Answers (g : Graph) (b : Bindings) (triple s : Statement) : Prop where
  mem : s ∈ g.statements
  same (p : Position) : g.same (b.substitute (triple.term p)) (s.term p)

/-- All variables of a triple are bound, and a statement answers it. -/
structure IsAnswered (g : Graph) (b : Bindings) (triple : Statement) : Prop where
  bound {v : Term} : v ∈ triple.variableList → v ∈ b
  answered : ∃ s, g.Answers b triple s

/-- In a store that grows a statement goes on to answer. -/
theorem Answers.grow (h : g.Answers b triple s) (hg : g.Grows g') : g'.Answers b triple s :=
  ⟨hg.statements h.mem, fun p => hg.same (h.same p)⟩

theorem mem_variableList_of_term {v : Term} {p : Position} (h : v ∈ (triple.term p).variableList) :
    v ∈ triple.variableList := by
  refine Term.mem_variableLists.2 ⟨triple.term p, ?_, h⟩
  rw [Statement.terms_eq_map_term]
  exact List.mem_map.2 ⟨p, Position.mem_all p, rfl⟩

/-- **What is answered stays answered.** -/
theorem IsAnswered.mono (h : g.IsAnswered b triple) (hg : g.Grows g') (hb : b'.Extends b)
    (hv : b'.OnVariables) : g'.IsAnswered b' triple where
  bound hm := hb.mem (h.bound hm)
  answered := by
    obtain ⟨s, hs⟩ := h.answered
    refine ⟨s, hg.statements hs.mem, fun p => ?_⟩
    rw [hb.substitute_eq hv fun v hm => h.bound (mem_variableList_of_term hm)]
    exact hg.same (hs.same p)

/-- A triple that was unified with a stored statement is answered. -/
theorem Unifies.isAnswered (h : g.Unifies b b' triple.terms s.terms) (hs : s ∈ g.statements) :
    g.IsAnswered b' triple where
  bound hm := (h.mem_iff _).2 (.inr hm)
  answered := ⟨s, hs, h.same_term⟩

/-! ## Patterns that match -/

/-- A binding set goes beyond the fixed values of a pattern, and of its triples
only some remain to be answered. -/
structure Matches (g : Graph) (p : Pattern) (remaining : List Statement) (b : Bindings) :
    Prop where
  initial : b.Extends p.initial
  answered {triple : Statement} : triple ∈ p.triples → triple ∈ remaining ∨ g.IsAnswered b triple

variable {p : Pattern} {remaining : List Statement}

/-- Binding more, in a store that has grown, leaves no more to be answered. -/
theorem Matches.mono (h : g.Matches p remaining b) (hg : g.Grows g') (hb : b'.Extends b)
    (hv : b'.OnVariables) : g'.Matches p remaining b' where
  initial := hb.trans h.initial
  answered hm := (h.answered hm).imp_right fun ha => ha.mono hg hb hv

/-- Nothing is answered yet when a search starts. -/
theorem matches_initial (g : Graph) (p : Pattern) : g.Matches p p.triples p.initial :=
  ⟨.refl _, .inl⟩

end Graph

/-! ## Paths that go on -/

namespace Frame

variable {g : Graph} {f f' : Frame} {fs : List Frame} {p : Pattern}

/-- **A path that goes on binds more**, and answers what remains no longer. -/
theorem extends_of_mem_expand (hg : g.Orderly) (hv : f.bindings.OnVariables)
    (h : f.expand g = .ok fs) (hf : f' ∈ fs) :
    f'.bindings.OnVariables ∧ f'.bindings.Extends f.bindings ∧
      ∀ triple ∈ f.remaining, triple ∈ f'.remaining ∨ g.IsAnswered f'.bindings triple := by
  obtain ⟨plan, triple, bs, b, hp, ht, hbs, hb, -, rfl⟩ := mem_expand h hf
  obtain ⟨triple', ht', he, -⟩ := Graph.plan_eq_some hp
  obtain rfl : triple = triple' := Option.some.inj (ht.symm.trans ht')
  obtain ⟨s, hs, hu⟩ := mem_alternatives hv hbs hb
  have hstored : s ∈ g.statements := by
    rw [he] at hs
    exact hg.mem_statements_of_mem_candidates (Array.mem_toList_iff.1 hs)
  refine ⟨hu.onVariables hv, hu.extends_, fun other hother => ?_⟩
  obtain ⟨k, hk⟩ := List.mem_iff_getElem?.1 hother
  by_cases hsel : k = plan.selected
  · -- the triple that was selected is answered now
    obtain rfl : other = triple := Option.some.inj (hk.symm.trans (hsel ▸ ht))
    exact .inr (hu.isAnswered hstored)
  · exact .inl (List.mem_eraseIdx_iff_getElem?.2 ⟨k, hsel, hk⟩)

/-- The pattern matches as far as the path has come. -/
theorem matches_of_mem_expand (hg : g.Orderly) (hv : f.bindings.OnVariables)
    (hm : g.Matches p f.remaining f.bindings) (h : f.expand g = .ok fs) (hf : f' ∈ fs) :
    g.Matches p f'.remaining f'.bindings := by
  obtain ⟨hv', hext, hall⟩ := extends_of_mem_expand hg hv h hf
  refine ⟨hext.trans hm.initial, fun ht => ?_⟩
  rcases hm.answered ht with hr | ha
  · exact hall _ hr
  · exact .inr (ha.mono (.refl g) hext hv')

end Frame

/-! ## Fixed values of variables -/

namespace Pattern

mutual

/-- The values that are fixed before the search starts are values of variables
and blank nodes, in the pattern and all its clauses. -/
def BindsVariables : Pattern → Prop
  | ⟨_, optionals, _, initial⟩ => initial.OnVariables ∧ AllBindVariables optionals

/-- So they are in all of some patterns. -/
def AllBindVariables : List Pattern → Prop
  | [] => True
  | p :: ps => BindsVariables p ∧ AllBindVariables ps

end

variable {p : Pattern} {ps : List Pattern}

theorem BindsVariables.initial (h : p.BindsVariables) : p.initial.OnVariables := by
  cases p
  exact h.1

theorem BindsVariables.optionals (h : p.BindsVariables) : AllBindVariables p.optionals := by
  cases p
  exact h.2

theorem AllBindVariables.mem (h : AllBindVariables ps) (hp : p ∈ ps) : p.BindsVariables := by
  induction ps with
  | nil => cases hp
  | cons q ps ih =>
    rcases List.mem_cons.1 hp with rfl | hp
    · exact h.1
    · exact ih h.2 hp

theorem allBindVariables_iff : AllBindVariables ps ↔ ∀ p ∈ ps, p.BindsVariables := by
  induction ps with
  | nil => simp [AllBindVariables]
  | cons p ps ih => simp [AllBindVariables, ih]

theorem bindsVariables_iff :
    p.BindsVariables ↔ p.initial.OnVariables ∧ ∀ c ∈ p.optionals, c.BindsVariables := by
  rw [← allBindVariables_iff]
  cases p
  rfl

end Pattern

end TripleQuery
