import TripleQuery.Bindings
import TripleQuery.Regex.Basic
/-!
# Constraints

A constraint is a test on the value of a variable, with a name to be shown. A set of constraints is
satisfied when every constrained variable that has a value passes its test (`satisfiedBy_iff`): a
variable without a value, and a value without a constraint, are let through.
-/

namespace TripleQuery

/-- A test on one value. -/
inductive Constraint where
  /-- The value is one of the listed terms. -/
  | oneOf (allowed : List Term)
  /-- The value is not the given term. -/
  | notEqual (excluded : Term)
  /-- The value is a literal. -/
  | isLiteral
  /-- The value is a symbol. -/
  | isSymbol
  /-- The value is a literal whose text matches. -/
  | lexicalMatches (re : Regex)
  /-- The value fails another test. -/
  | negation (c : Constraint)
  /-- The value passes a test of the caller's own. -/
  | custom (name : String) (passes : Term → Bool)
deriving Inhabited

namespace Constraint

/-- Every value passes, or none does. -/
def constant (name : String) (verdict : Bool) : Constraint :=
  .custom name fun _ => verdict

/-- The name that a constraint is shown by. -/
def name : Constraint → String
  | oneOf allowed => "one_of(" ++ toString allowed.length ++ ")"
  | notEqual excluded => "!= " ++ excluded.display
  | isLiteral => "is_literal"
  | isSymbol => "is_symbol"
  | lexicalMatches re => "matches /" ++ re.source ++ "/"
  | negation c => "not(" ++ c.name ++ ")"
  | custom name _ => name

/-- Whether a value passes. -/
def test : Constraint → Term → Bool
  | oneOf allowed, t => allowed.contains t
  | notEqual excluded, t => t ≠ excluded
  | isLiteral, t => t.isLiteral
  | isSymbol, t => t.isSymbol
  | lexicalMatches re, t =>
    match t with
    | .literal l => re.isMatch l.lexical
    | _ => false
  | negation c, t => !c.test t
  | custom _ passes, t => passes t

/-- A constraint as shown to a developer: its name in quotes. -/
def debug (c : Constraint) : String :=
  "Constraint \x7b name: " ++ quoted c.name ++ " \x7d"

end Constraint

/-- At most one constraint for each variable. In a union `a ∪ b` the constraints of `b` win. -/
abbrev Constraints := Std.ExtTreeMap Term Constraint

namespace Constraints

/-- The constraints built from pairs, of which a later one replaces an earlier one for the same
variable. -/
def ofPairs (ps : List (Term × Constraint)) : Constraints :=
  ps.foldl (fun cs p => cs.insert p.1 p.2) ∅

/-- Whether every bound and constrained variable passes its test. -/
def satisfiedBy (cs : Constraints) (b : Bindings) : Bool :=
  cs.toList.all fun p => b[p.1]?.all p.2.test

/-- **Only values of constrained variables are tested, and all of them are.** -/
theorem satisfiedBy_iff {cs : Constraints} {b : Bindings} :
    cs.satisfiedBy b ↔
      ∀ (v : Term) (c : Constraint) (value : Term), cs[v]? = some c → b[v]? = some value →
        c.test value := by
  simp only [satisfiedBy, List.all_eq_true, Option.all_eq_true, Prod.forall,
    Std.ExtTreeMap.mem_toList_iff_getElem?_eq_some]
  exact ⟨fun h v c value hc hv => h v c hc value hv, fun h v c hc value hv => h v c value hc hv⟩

end Constraints

end TripleQuery
