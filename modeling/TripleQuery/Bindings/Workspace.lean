import TripleQuery.Constraint
/-!
# Working with binding sets step by step

A workspace has one current binding set and others that were saved under a name. Steps extend the
current set, save it, take a saved one in its place, or ask something about it. What was saved is
never changed by what happens to the current set afterwards.
-/

namespace TripleQuery

/-- A current binding set and saved ones. -/
structure Workspace where
  current : Bindings := ∅
  saved : Std.ExtTreeMap String Bindings := ∅

namespace Workspace

/-- A step of work. -/
inductive Step where
  | bind (v value : Term)
  | union (other : Bindings)
  | save (name : String)
  | use (name : String)
  | get (v : Term)
  | contains (v : Term)
  | resolve (t : Term)
  | substitute (t : Term)
  | hasUnbound (t : Term)
  | keys
  | size
  | isEmpty
  | display
  | equals (other : Bindings)
  | satisfied (cs : Constraints)
deriving Inhabited

/-- The answer to a step. -/
inductive Answer where
  | bindings (b : Bindings)
  | value (t : Option Term)
  | term (t : Term)
  | terms (ts : List Term)
  | verdict (holds : Bool)
  | count (n : Nat)
  | text (s : String)
deriving Inhabited

/-- Make a set the current one. -/
def switchTo (w : Workspace) (b : Bindings) : Workspace × Answer :=
  ({ w with current := b }, .bindings b)

/-- Do one step. -/
def step (w : Workspace) : Step → Workspace × Answer
  | .bind v value => w.switchTo (w.current.bind v value)
  | .union other => w.switchTo (w.current ∪ other)
  | .save name =>
    ({ w with saved := w.saved.insert name w.current }, .count w.current.size)
  | .use name => w.switchTo (w.saved[name]?.getD ∅)
  | .get v => (w, .value w.current[v]?)
  | .contains v => (w, .verdict (w.current.contains v))
  | .resolve t => (w, .term (w.current.resolve t))
  | .substitute t => (w, .term (w.current.substitute t))
  | .hasUnbound t => (w, .verdict (w.current.hasUnbound t))
  | .keys => (w, .terms w.current.keys)
  | .size => (w, .count w.current.size)
  | .isEmpty => (w, .verdict w.current.isEmpty)
  | .display => (w, .text w.current.display)
  | .equals other => (w, .verdict (w.current = other))
  | .satisfied cs => (w, .verdict (cs.satisfiedBy w.current))

/-- Do steps one after the other. -/
def steps : Workspace → List Step → List Answer
  | _, [] => []
  | w, s :: ss =>
    let (w, a) := w.step s
    a :: steps w ss

end Workspace

end TripleQuery
