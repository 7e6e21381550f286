import Mathlib.Logic.Relation
import TripleQuery.Graph.Merge
import TripleQuery.Proofs.Searching.Sound
/-!
# Scenes — searches at work among others

A scene is a store, the table of searches, the orders that are left, and what
callers were told so far. It goes on in two ways: its first order is carried
out, or the surroundings do what they may do at any time — add to the store,
merge terms, start, stop or cancel a search, resume or give up a parked path.
Nothing is assumed of when they do it, nor of what they say of the state of
documents.

Every scene that comes about in this way is sound (`Scene.Step.sound`).
-/

namespace TripleQuery

open Relation (ReflTransGen)

/-- What callers are told. -/
inductive Notice where
  /-- A search for a pattern was accepted and started. -/
  | started (search : Id) (p : Pattern)
  /-- A match was found. -/
  | found (search : Id) (m : Bindings)
  /-- A search is done. -/
  | done (search : Id) (result : Except QueryError SearchSummary)

/-- The search that a notice is about. -/
def Notice.search : Notice → Id
  | started i _ | found i _ | done i _ => i

/-- What a caller is told when an order is carried out. -/
def Order.notices : Order → List Notice
  | .deliver i m => [.found i m]
  | .finish i r => [.done i r]
  | _ => []

/-- What was told of one search. -/
def newsOf (i : Id) (told : List Notice) : List Notice :=
  told.filter fun n => n.search = i

/-- Searches at work. -/
structure Scene where
  graph : Graph
  table : Searches
  /-- The orders that are left, the first one first. -/
  orders : List Order
  /-- What callers were told, the earliest first. -/
  told : List Notice

namespace Scene

/-- One thing that happens in a scene. -/
inductive Step : Scene → Scene → Prop
  /-- The first order is a job, and is done. -/
  | work {g : Graph} {t : Searches} {job : Job} {os : List Order} {told : List Notice}
      (state? : Option (String → FetchState)) :
      Step ⟨g, t, .job job :: os, told⟩
        ⟨g, (t.run ⟨g, state?⟩ job).1, (t.run ⟨g, state?⟩ job).2 ++ os, told⟩
  /-- The first order is for somebody else. -/
  | handOver {g : Graph} {t : Searches} {o : Order} {os : List Order} {told : List Notice} :
      (∀ job, o ≠ .job job) → Step ⟨g, t, o :: os, told⟩ ⟨g, t, os, told ++ o.notices⟩
  /-- A statement is added. -/
  | add {g : Graph} {t : Searches} {os : List Order} {told : List Notice} (s : Statement) :
      Step ⟨g, t, os, told⟩ ⟨g.add s, t, os, told⟩
  /-- Two terms are merged. -/
  | equate {g g' : Graph} {t : Searches} {os : List Order} {told : List Notice}
      {a b keep : Term} :
      g.equate a b = .ok (g', keep) → Step ⟨g, t, os, told⟩ ⟨g', t, os, told⟩
  /-- A search for a pattern that makes sense is started. -/
  | launch {g : Graph} {t : Searches} {os : List Order} {told : List Notice}
      (config : SearchConfig) (linked : Bool) {p : Pattern} :
      p.validate = .ok () →
      Step ⟨g, t, os, told⟩
        ⟨g, (t.launch config linked p).1, .job (t.launch config linked p).2.2 :: os,
          told ++ [.started t.next p]⟩
  /-- A search is stopped. -/
  | stop {g : Graph} {t : Searches} {os : List Order} {told : List Notice} (i : Id) :
      Step ⟨g, t, os, told⟩ ⟨g, t.update i .stop, os, told⟩
  /-- A search is cancelled. -/
  | cancel {g : Graph} {t : Searches} {os : List Order} {told : List Notice} (i : Id) :
      Step ⟨g, t, os, told⟩ ⟨g, t.update i .cancel, os, told⟩
  /-- A parked path is resumed. -/
  | resume {g : Graph} {t : Searches} {os : List Order} {told : List Notice} (ticket : Id) :
      Step ⟨g, t, os, told⟩ ⟨g, (t.resume ticket).1, (t.resume ticket).2 ++ os, told⟩
  /-- A parked path is given up. -/
  | discard {g : Graph} {t : Searches} {os : List Order} {told : List Notice} (ticket : Id) :
      Step ⟨g, t, os, told⟩ ⟨g, (t.discard ticket).1, (t.discard ticket).2 ++ os, told⟩

/-- Whatever happens in a scene. -/
abbrev Steps : Scene → Scene → Prop :=
  ReflTransGen Step

/-- The table and the orders of a scene are sound. -/
def IsSound (w : Scene) : Prop :=
  Sound w.table w.orders

variable {w w' : Scene}

/-- An order that is no job holds nothing. -/
theorem held?_of_not_job {o : Order} (h : ∀ job, o ≠ .job job) : o.held? = none := by
  cases o with
  | job job => exact absurd rfl (h job)
  | _ => rfl

/-- **Whatever happens leaves a scene sound.** -/
theorem Step.sound (h : Step w w') (hw : w.IsSound) : w'.IsSound := by
  cases h with
  | work state? => exact Sound.run hw (Sound.transition hw _)
  | handOver ho => exact Sound.handOver hw (held?_of_not_job ho)
  | add _ | equate _ => exact hw
  | launch config linked _ => exact Sound.launch hw config linked _
  | stop i | cancel i => exact Sound.update hw i _
  | resume ticket => exact Sound.resume hw ticket
  | discard ticket => exact Sound.discard hw ticket

/-- **What every step keeps of a sound scene holds in the end.** -/
theorem Steps.preserves {P : Scene → Prop} (step : ∀ {w w'}, Step w w' → w.IsSound → P w → P w')
    (h : Steps w w') (hw : w.IsSound) (hp : P w) : w'.IsSound ∧ P w' := by
  induction h with
  | refl => exact ⟨hw, hp⟩
  | tail _ hstep ih => exact ⟨hstep.sound ih.1, step hstep ih.1 ih.2⟩

end Scene

end TripleQuery
