import TripleQuery.Graph.Basic
/-!
# Merging terms

Two terms that are found to denote the same thing are merged: one of their keys is kept, the other
is redirected to it, and what was filed under the other moves to the bucket of the kept one. A
symbol is kept rather than a literal, a literal rather than a collection, a collection rather than a
blank node, and of two terms of a kind the lesser. A variable is no data and cannot be merged.
-/

namespace TripleQuery

/-- Why two terms cannot be merged. -/
inductive MergeError where
  /-- The key of one of them is a variable. -/
  | variable (t : Term)
deriving DecidableEq

/-- The wording of the error. -/
def MergeError.message : MergeError → String
  | .variable t => "cannot merge variable " ++ t.display ++ ": only data terms can be equated"

/-- Whether `a` is kept when `a` and `b` are merged. -/
def Term.isPreferred (a b : Term) : Bool :=
  a.mergeRank < b.mergeRank || (a.mergeRank = b.mergeRank && a.le b)

namespace Graph

/-- Redirect one key to another, and bring all statements under their present keys. -/
def redirect (g : Graph) (source target : Term) : Graph :=
  let rs := (source, target) :: g.redirections
  { g with
    index := .ofFn fun p => ((g.index.get p).move source target).rekey rs
    redirections := rs
    generation := g.generation + 1 }

/-- Record that two terms denote the same thing. The answer is the store afterwards and the term
that stands for both. -/
def equate (g : Graph) (a b : Term) : Except MergeError (Graph × Term) :=
  let ka := g.key a
  let kb := g.key b
  if ka.isNamedVariable then .error (.variable ka)
  else if kb.isNamedVariable then .error (.variable kb)
  else if ka = kb then .ok (g, ka)
  else if ka.isPreferred kb then .ok (g.redirect kb ka, ka)
  else .ok (g.redirect ka kb, kb)

@[simp] theorem statements_redirect (g : Graph) (source target : Term) :
    (g.redirect source target).statements = g.statements := rfl

@[simp] theorem redirections_redirect (g : Graph) (source target : Term) :
    (g.redirect source target).redirections = (source, target) :: g.redirections := rfl

/-- Merging adds no statement and loses none. -/
theorem statements_equate {g g' : Graph} {a b keep : Term} (h : g.equate a b = .ok (g', keep)) :
    g'.statements = g.statements := by
  simp only [equate] at h
  split at h
  · simp at h
  split at h
  · simp at h
  split at h
  · simp_all
  split at h <;> obtain ⟨rfl, -⟩ := Prod.mk.inj (Except.ok.inj h) <;> rfl

end Graph

end TripleQuery
