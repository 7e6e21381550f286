import TripleQuery.Proofs.Searching.Restrained
import TripleQuery.Proofs.Sessions.Collecting
import TripleQuery.Proofs.Sessions.Ending
/-!
# Restrained searches — constraints outlast clauses, junctions and waiting

Whatever happens while a search is under way, and whatever is said of the state
of documents, a constraint of the whole pattern that no clause replaces holds of
all matches that the caller is told of, wherever in the pattern the value was
bound (`Scene.Steps.passes_of_found`, and for sessions
`Moment.Leads.keeps_constraint`).
-/

namespace TripleQuery

variable {g : Graph} {w : Scene} {m : Moment} {source : Option Source} {config : SearchConfig}
  {i : Id} {p q : Pattern} {v value : Term} {c : Constraint} {b : Bindings}

namespace Scene

/-- Whatever has happened since there was nothing but a store, searches are
restrained. -/
theorem Steps.isRestrained (h : Steps ⟨g, {}, [], []⟩ w) : w.IsRestrained := by
  have hstart := Moment.isSound_start g none {}
  refine h.restrained hstart.sound hstart.faithful (fun f hf => ?_) fun i p v c hnone _ => ?_
  · -- nobody has entered any scope yet
    cases hf with
    | order ho _ => cases ho
    | parked hn => simp at hn
  · cases hnone

/-- **Constraints survive clauses, junctions and waiting.** Where the pattern of
a search constrains a variable, and none of its clauses, at any depth, constrains
it again, every match that the caller is told of has no value for the variable
or one that passes, whatever happens between the steps of the search. -/
theorem Steps.passes_of_found (h : Steps ⟨g, {}, [], []⟩ w) (hi : .started i p ∈ w.told)
    (hc : p.constraints[v]? = some c)
    (hclauses : ∀ q : Pattern, q.IsClauseOf p → v ∉ q.constraints)
    (hb : .found i b ∈ w.told) (hvalue : b[v]? = some value) : c.test value :=
  (h.isRestrained i p v c hi (Scope.enforces_ofPattern hc hclauses)).told hb value hvalue

end Scene

namespace Moment

/-! ## An address that comes with a document -/

/-- A store that knows of one acquaintance. -/
def acquaintance : Graph :=
  .add .empty ⟨.symbol "ann", .symbol "knows", .symbol "bob", none⟩

/-- Who knows whom, with the address if there is one that is a literal. The
constraint is on the whole pattern, and only the clause binds the variable. -/
def literalAddresses : Pattern :=
  { addresses with constraints := .ofPairs [(.var "m", .isLiteral)] }

/-- The clause waits for a document, which turns out to give two addresses, one
of them a literal. -/
def literalSearch : Moment :=
  carryOutAll 60
    [.search "addresses" literalAddresses [] [],
      .edit (.add ⟨.symbol "bob", .symbol "mail", .symbol "b", none⟩),
      .edit (.add ⟨.symbol "bob", .symbol "mail", .literal ⟨"b", none, none⟩, none⟩),
      .script (.fire 0 none)]
    (start acquaintance (some (.scripted { mode := .hold })) {})

/-- The match with the literal. -/
def literalMatch : Bindings :=
  .ofPairs [(.var "x", .symbol "ann"), (.var "y", .symbol "bob"),
    (.var "m", .literal ⟨"b", none, none⟩)]

/-- The other one is not found. -/
theorem told_literalSearch : literalSearch.told =
    [.started 0 literalAddresses, .found 0 literalMatch,
      .done 0 (.ok ⟨1, 1, false, false⟩)] := by
  cbv

/-- The clause itself constrains nothing. -/
theorem not_mem_constraints_literalAddresses (hq : q.IsClauseOf literalAddresses) :
    v ∉ q.constraints := by
  cases hq with
  | clause hmem =>
    obtain rfl := List.mem_singleton.1 hmem
    exact Std.ExtTreeMap.not_mem_empty
  | deeper hdeep hmem =>
    obtain rfl := List.mem_singleton.1 hmem
    cases hdeep with
    | clause hmem | deeper _ hmem => cases hmem

/-- The address that is found is a literal. -/
theorem literalSearch_passes :
    Scene.Steps ⟨acquaintance, {}, [], []⟩ literalSearch.scene ∧
    .started 0 literalAddresses ∈ literalSearch.scene.told ∧
    literalAddresses.constraints[Term.var "m"]? = some .isLiteral ∧
    (∀ q : Pattern, q.IsClauseOf literalAddresses → Term.var "m" ∉ q.constraints) ∧
    .found 0 literalMatch ∈ literalSearch.scene.told ∧
    literalMatch[Term.var "m"]? = some (.literal ⟨"b", none, none⟩) ∧
    Constraint.isLiteral.test (.literal ⟨"b", none, none⟩) := by
  have hleads : Leads (start acquaintance (some (.scripted { mode := .hold })) {}) literalSearch :=
    leads_carryOutAll 60 _ _
  have hsteps : Scene.Steps ⟨acquaintance, {}, [], []⟩ literalSearch.scene :=
    (hleads.steps (isSound_start _ _ _)).1
  have htold : literalSearch.scene.told = _ := told_literalSearch
  have hstarted : .started 0 literalAddresses ∈ literalSearch.scene.told := by
    rw [htold]
    exact List.mem_cons_self
  have hfound : .found 0 literalMatch ∈ literalSearch.scene.told := by
    rw [htold]
    exact List.mem_cons_of_mem _ List.mem_cons_self
  have hconstraint : literalAddresses.constraints[Term.var "m"]? = some .isLiteral := by rfl
  have hclauses : ∀ q : Pattern, q.IsClauseOf literalAddresses → Term.var "m" ∉ q.constraints :=
    fun _ => not_mem_constraints_literalAddresses
  have hvalue : literalMatch[Term.var "m"]? = some (.literal ⟨"b", none, none⟩) := by rfl
  exact ⟨hsteps, hstarted, hconstraint, hclauses, hfound, hvalue,
    hsteps.passes_of_found hstarted hconstraint hclauses hfound hvalue⟩

/-! ## Sessions -/

/-- **In a session**, whatever its callbacks do: a match that the caller was told
of keeps every constraint that no clause replaces. -/
theorem Leads.keeps_constraint (h : Leads (start g source config) m) (hi : .started i p ∈ m.told)
    (hp : (Scope.ofPattern p).Enforces v c) (hb : .found i b ∈ m.told) : b.Passes v c := by
  have hsteps : Scene.Steps ⟨g, {}, [], []⟩ m.scene := (h.steps (isSound_start _ _ _)).1
  exact (hsteps.isRestrained i p v c hi hp).told hb

end Moment

end TripleQuery
