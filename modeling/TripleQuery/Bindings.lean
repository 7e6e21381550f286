import TripleQuery.Term.Variables
import TripleQuery.Term.Display
import Std.Data.ExtTreeMap
/-!
# Bindings

A binding set gives values to variables. It is a finite map over terms in the order of terms, and
equal sets are equal as values. A path of a search extends its set and never changes the set it
started from. Any term may be a key, though a search only ever binds variables and blank nodes.
-/

namespace TripleQuery

/-- A finite map from variables to their values. In a union `a ∪ b` the values of `b` win. -/
abbrev Bindings := Std.ExtTreeMap Term Term

namespace Bindings

/-- The set with a value for one more variable, replacing the value it may have had. -/
def bind (b : Bindings) (v value : Term) : Bindings :=
  b.insert v value

/-- The set built from pairs, of which a later one replaces an earlier one for the same variable. -/
def ofPairs (ps : List (Term × Term)) : Bindings :=
  ps.foldl (fun b p => b.bind p.1 p.2) ∅

/-- The value of a term, or the term itself if it has none. -/
def resolve (b : Bindings) (t : Term) : Term :=
  b[t]?.getD t

mutual

/-- Put the values of bound variables in their place, also inside collections. -/
def substitute (b : Bindings) : Term → Term
  | .collection items => .collection (substituteAll b items)
  | .var name => b.resolve (.var name)
  | .blank id => b.resolve (.blank id)
  | .symbol iri => b.resolve (.symbol iri)
  | .literal l => b.resolve (.literal l)

/-- Put the values of bound variables in their place in each term of a list. -/
def substituteAll (b : Bindings) : List Term → List Term
  | [] => []
  | t :: ts => substitute b t :: substituteAll b ts

end

mutual

/-- Whether a variable or blank node without a value occurs in a term. -/
def hasUnbound (b : Bindings) : Term → Bool
  | .var name => !b.contains (.var name)
  | .blank id => !b.contains (.blank id)
  | .symbol _ | .literal _ => false
  | .collection items => hasUnboundAny b items

/-- Whether a variable or blank node without a value occurs in a list of terms. -/
def hasUnboundAny (b : Bindings) : List Term → Bool
  | [] => false
  | t :: ts => hasUnbound b t || hasUnboundAny b ts

end

/-- A binding set as text: each variable with its value, in the order of terms. -/
def display (b : Bindings) : String :=
  "\x7b" ++ ", ".intercalate (b.toList.map fun p => p.1.display ++ " -> " ++ p.2.display) ++ "\x7d"

theorem getElem?_bind (b : Bindings) (v value t : Term) :
    (b.bind v value)[t]? = if v = t then some value else b[t]? := by
  simp [bind, Std.ExtTreeMap.getElem?_insert]

/-- A bound variable stands for its value. -/
theorem resolve_of_getElem? {b : Bindings} {t value : Term} (h : b[t]? = some value) :
    b.resolve t = value := by
  simp [resolve, h]

/-- An unbound one stands for itself. -/
theorem resolve_of_getElem?_eq_none {b : Bindings} {t : Term} (h : b[t]? = none) :
    b.resolve t = t := by
  simp [resolve, h]

theorem substitute_of_isAtomic (b : Bindings) {t : Term} (h : t.isAtomic) :
    b.substitute t = b.resolve t := by
  cases t <;> simp_all [substitute, Term.isAtomic]

theorem substituteAll_eq_map (b : Bindings) (ts : List Term) :
    b.substituteAll ts = ts.map b.substitute := by
  induction ts with
  | nil => simp [substituteAll]
  | cons t ts ih => simp [substituteAll, ih]

mutual

/-- **A term has an unbound variable exactly when one of its variables is unbound.** -/
theorem hasUnbound_iff (b : Bindings) :
    ∀ t : Term, b.hasUnbound t ↔ ∃ v ∈ t.variableList, v ∉ b
  | .var _ | .blank _ => by
    simp [hasUnbound, Term.variableList, ← Std.ExtTreeMap.contains_iff_mem]
  | .symbol _ | .literal _ => by simp [hasUnbound, Term.variableList]
  | .collection items => by
    simpa [hasUnbound, Term.variableList] using hasUnboundAny_iff b items

theorem hasUnboundAny_iff (b : Bindings) :
    ∀ ts : List Term, b.hasUnboundAny ts ↔ ∃ v ∈ Term.variableLists ts, v ∉ b
  | [] => by simp [hasUnboundAny, Term.variableLists]
  | t :: ts => by
    simp only [hasUnboundAny, Bool.or_eq_true, hasUnbound_iff b t, hasUnboundAny_iff b ts,
      Term.variableLists, List.mem_append]
    constructor
    · rintro (⟨v, hv, hb⟩ | ⟨v, hv, hb⟩)
      · exact ⟨v, .inl hv, hb⟩
      · exact ⟨v, .inr hv, hb⟩
    · rintro ⟨v, hv | hv, hb⟩
      · exact .inl ⟨v, hv, hb⟩
      · exact .inr ⟨v, hv, hb⟩

end

end Bindings

end TripleQuery
