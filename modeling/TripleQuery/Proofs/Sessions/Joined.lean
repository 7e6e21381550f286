import TripleQuery.Proofs.Searching.Junctions
import TripleQuery.Proofs.Searching.Reports
import TripleQuery.Proofs.Sessions.Agreeing
/-!
# Joined clauses — what is reported for a trunk

Whatever happens in a session can be recorded (`Moment.Leads.exists_recorded`),
so what chronicles say of junctions is so in every session: a junction reports
its product, once, when its last clause is complete
(`Moment.junctions_report`).
-/

namespace TripleQuery

open Std (ExtTreeMap)

namespace Chronicle

variable {c : Chronicle}

/-- A chronicle after its first order was carried out, without a source of
documents. -/
def proceed : Chronicle → Chronicle
  | ⟨g, t, (.job job, mark) :: rest, told, log⟩ =>
    ⟨g, (t.run ⟨g, none⟩ job).1,
      (t.run ⟨g, none⟩ job).2.map (fun o => (o, t.behalf job mark o)) ++ rest,
      told, log ++ t.entries job mark⟩
  | ⟨g, t, (o, _) :: rest, told, log⟩ => ⟨g, t, rest, told ++ o.notices, log⟩
  | c => c

/-- A chronicle after some orders were carried out. -/
def after : Nat → Chronicle → Chronicle
  | 0, c => c
  | n + 1, c => after n c.proceed

theorem recorded_proceed (c : Chronicle) : c.Recorded c.proceed := by
  obtain ⟨g, t, orders, told, log⟩ := c
  cases orders with
  | nil => exact .refl
  | cons o rest =>
    obtain ⟨o, mark⟩ := o
    cases o with
    | job job => exact .single (.work none)
    | _ => exact .single (.handOver (by simp))

theorem recorded_after (n : Nat) (c : Chronicle) : c.Recorded (after n c) := by
  induction n generalizing c with
  | zero => exact .refl
  | succ n ih => exact (recorded_proceed c).trans (ih _)

end Chronicle

namespace Moment

variable {m m' : Moment} {g : Graph} {source : Option Source} {settings : SearchConfig}
  {c : Chronicle}

/-- **What searches do in a session can be recorded.** -/
theorem Leads.exists_recorded (h : Leads (start g source settings) m) :
    ∃ c, Chronicle.Recorded (.start g) c ∧ c.scene = m.scene :=
  Scene.Steps.exists_recorded (c := .start g) (h.steps (isSound_start g source settings)).1

/-- And a chronicle can be kept up. -/
theorem Leads.exists_continued (h : Leads (start g source settings) m) (h' : Leads m m')
    (hc : c.scene = m.scene) : ∃ c', c.Recorded c' ∧ c'.scene = m'.scene :=
  Scene.Steps.exists_recorded (hc ▸ (h'.steps h.isSound).1)

/-- **A junction reports its product, once.** Whatever searches do in a session
over a store can be recorded. What such a chronicle says was reported to a branch
is what the branch keeps, if it is the branch of a clause, and what the caller of
the search hears, if it is the root branch. Whatever happens to a junction from
the time when it is there on, and in whatever order its clauses are complete, it
reports nothing while one of them is at work; when the last one is complete every
way to choose one result of each, the first clause varying slowest and a clause
without results contributing an empty one, is to be reported next, put together
with the trunk, to the branch which had matched it; and nothing else is ever
reported. If the search is stopped before, nothing is. -/
theorem junctions_report (g : Graph) :
    (∀ (source : Option Source) (settings : SearchConfig) (m m' : Moment),
      Leads (start g source settings) m → Leads m m' →
        (∃ c, Chronicle.Recorded (.start g) c ∧ c.scene = m.scene) ∧
        ∀ c : Chronicle, c.scene = m.scene → ∃ c', c.Recorded c' ∧ c'.scene = m'.scene) ∧
    (∀ c, Chronicle.Recorded (.start g) c →
      (∀ (b j k : Nat) (y : Branch), c.table.branches[b]? = some y → y.role = .clause j k →
        y.found = c.reportedTo b) ∧
      ∀ (i : Nat) (x : Search), c.table.searches[i]? = some x →
        c.reportedTo (i + 1) = c.scene.taken i) ∧
    ∀ (c c' : Chronicle) (j : Nat) (jn : Junction), Chronicle.Recorded (.start g) c →
      c.table.junctions[j]? = some jn → c.Recorded c' →
        ∃ y, c.table.branches[jn.parent]? = some y ∧ c.Joins c' j jn y.search := by
  refine ⟨fun source settings m m' h h' => ⟨h.exists_recorded, fun c hc => ?_⟩,
    fun c hc => ⟨fun b j k y hy hr => ?_, fun i x hx => ?_⟩, fun c c' j jn h₁ hj h₂ => ?_⟩
  · exact h.exists_continued h' hc
  · exact (Chronicle.Recorded.isTrue hc).kept hy hr
  · exact Chronicle.Recorded.reportedTo_root hc hx
  · exact Chronicle.Recorded.joins h₁ hj h₂

/-! ## How somebody is reached -/

/-- A search for whom somebody knows, and how to reach them, before it is at
work. -/
def reachingStarted : Chronicle :=
  ⟨.ofList contacts, (({} : Searches).launch {} false (reaching [byMail, byPhone])).1,
    [(.job (({} : Searches).launch {} false (reaching [byMail, byPhone])).2.2, none)],
    [.started 0 (reaching [byMail, byPhone])], []⟩

/-- The clauses are about to be looked at. -/
def reachingSplit : Chronicle :=
  .after 3 reachingStarted

/-- The same after the search was cancelled. -/
def reachingCancelled : Chronicle :=
  { reachingSplit with table := reachingSplit.table.update 0 .cancel }

/-- The junction that waits for the clauses. -/
def awaitingBoth : Junction :=
  ⟨.ofPairs [(.var "y", .symbol "bob")], 1, [none, none]⟩

theorem recorded_reachingSplit : Chronicle.Recorded (.start (.ofList contacts)) reachingSplit := by
  have hlaunch : Chronicle.Recorded (.start (.ofList contacts)) reachingStarted :=
    .single (.aside (.launch {} false (by cbv)))
  exact hlaunch.trans (Chronicle.recorded_after 3 _)

theorem recorded_reachingCancelled :
    Chronicle.Recorded (.start (.ofList contacts)) reachingCancelled :=
  recorded_reachingSplit.tail (.aside (.cancel 0))

/-- Both addresses go with both numbers, unless the search was cancelled. -/
theorem awaitingBoth_reports :
    (Chronicle.after 42 reachingSplit).heardFrom 2 =
      [wayOf "b" "1", wayOf "b" "2", wayOf "c" "1", wayOf "c" "2"] ∧
    (Chronicle.after 42 reachingCancelled).heardFrom 2 = [] := by
  obtain ⟨-, -, hjoins⟩ := junctions_report (.ofList contacts)
  refine ⟨?_, ?_⟩
  · have hj : reachingSplit.table.junctions[2]? = some awaitingBoth := by cbv
    obtain ⟨y, hy, hreports⟩ := hjoins _ _ 2 _ recorded_reachingSplit hj
      (Chronicle.recorded_after 42 reachingSplit)
    have hparent : reachingSplit.table.branches[1]? = some ⟨0, .root, [], 2⟩ := by cbv
    obtain rfl := Option.some.inj (hy.symm.trans hparent)
    have hend : ((Chronicle.after 42 reachingSplit).table.junctions[2]?,
        (Chronicle.after 42 reachingSplit).table.searches[0]?.map Search.stopped,
        (Chronicle.after 42 reachingSplit).orders,
        (Chronicle.after 42 reachingSplit).product 2 awaitingBoth) =
      (none, some false, [],
        [wayOf "b" "1", wayOf "b" "2", wayOf "c" "1", wayOf "c" "2"]) := by cbv
    simp only [Prod.mk.injEq] at hend
    obtain ⟨hnone, hsearch, hidle, hproduct⟩ := hend
    have hgone : 2 ∉ (Chronicle.after 42 reachingSplit).table.junctions := by
      rw [ExtTreeMap.mem_iff_isSome_getElem?, hnone]
      exact Bool.false_ne_true
    have hgoes : (Chronicle.after 42 reachingSplit).table.GoesOn 0 := by
      intro x hx
      rw [hx] at hsearch
      exact Option.some.inj hsearch
    rw [hreports.settled hgone hgoes hidle, hproduct]
  · have hj : reachingCancelled.table.junctions[2]? = some awaitingBoth := by cbv
    obtain ⟨y, hy, hreports⟩ := hjoins _ _ 2 _ recorded_reachingCancelled hj
      (Chronicle.recorded_after 42 reachingCancelled)
    have hparent : reachingCancelled.table.branches[1]? = some ⟨0, .root, [], 2⟩ := by cbv
    obtain rfl := Option.some.inj (hy.symm.trans hparent)
    refine hreports.stopped fun hgoes => ?_
    have hsearch : (reachingCancelled.table.searches[0]?.map Search.stopped) = some true := by cbv
    obtain ⟨x, hx, hstopped⟩ := Option.map_eq_some_iff.1 hsearch
    rw [hgoes x hx] at hstopped
    cases hstopped

end Moment

end TripleQuery
