import TripleQuery.Term.Order
/-!
# Redirections

When two terms are found to denote the same thing, one of them is kept and the other redirected to
it. The redirections of a store, in the order in which they were made, decide what a term currently
stands for (`canonical`), under which key it is filed (`key`), and which terms are the same
(`same`). A new redirection only replaces its source by its target in what the earlier ones say
(`canonical_cons`).
-/

namespace TripleQuery

/-- Pairs of a redirected term and the term that stands for it from then on, the latest first. -/
abbrev Redirections := List (Term × Term)

namespace Redirections

/-- What a term stands for, after every redirection in the order in which they were made. -/
def canonical : Redirections → Term → Term
  | [], t => t
  | (source, target) :: earlier, t =>
    let c := canonical earlier t
    if c = source then target else c

@[simp] theorem canonical_nil (t : Term) : canonical [] t = t := rfl

/-- **A new redirection acts after all earlier ones.** -/
theorem canonical_cons (source target : Term) (rs : Redirections) (t : Term) :
    canonical ((source, target) :: rs) t =
      if canonical rs t = source then target else canonical rs t := by
  rw [canonical]

mutual

/-- The key that a term is filed under: what it stands for, a collection being rebuilt from the keys
of its elements first. -/
def key (rs : Redirections) : Term → Term
  | .collection items => rs.canonical (.collection (keys rs items))
  | .var name => rs.canonical (.var name)
  | .blank id => rs.canonical (.blank id)
  | .symbol iri => rs.canonical (.symbol iri)
  | .literal l => rs.canonical (.literal l)

/-- The keys of a list of terms. -/
def keys (rs : Redirections) : List Term → List Term
  | [] => []
  | t :: ts => key rs t :: keys rs ts

end

/-- A term that is not a collection is filed under what it stands for. -/
theorem key_of_isAtomic (rs : Redirections) {t : Term} (h : t.isAtomic) :
    rs.key t = rs.canonical t := by
  cases t <;> simp_all [key, Term.isAtomic]

theorem key_collection (rs : Redirections) (items : List Term) :
    rs.key (.collection items) = rs.canonical (.collection (rs.keys items)) := by
  simp [key]

theorem keys_eq_map (rs : Redirections) (ts : List Term) : rs.keys ts = ts.map rs.key := by
  induction ts with
  | nil => simp [keys]
  | cons t ts ih => simp [keys, ih]

mutual

/-- Whether two terms denote the same thing as far as is known: two collections element by element,
all other terms by what they stand for. -/
def same (rs : Redirections) : Term → Term → Bool
  | .collection xs, .collection ys => sameAll rs xs ys
  | a, b => rs.canonical a = rs.canonical b

/-- Whether two lists have the same length and the same terms at each place. -/
def sameAll (rs : Redirections) : List Term → List Term → Bool
  | [], [] => true
  | x :: xs, y :: ys => same rs x y && sameAll rs xs ys
  | _, _ => false

end

theorem same_collection (rs : Redirections) (xs ys : List Term) :
    rs.same (.collection xs) (.collection ys) = rs.sameAll xs ys := by
  simp [same]

/-- Outside of two collections, terms are the same when they stand for the same term. -/
theorem same_of_isAtomic (rs : Redirections) {a b : Term} (h : a.isAtomic ∨ b.isAtomic) :
    rs.same a b = decide (rs.canonical a = rs.canonical b) := by
  cases a <;> cases b <;> simp_all [same, Term.isAtomic]

end Redirections

end TripleQuery
