import TripleQuery.Proofs.Matching.Answering
import TripleQuery.Proofs.Searching.Scene
/-!
# Lasting — what later scenes leave as it was

Numbers are never given twice. A branch that had a number stays in its place
until it goes away, a junction keeps its trunk and whom it reports to, and the
store only grows (`Scene.Before`). This is so for every step of a scene
(`Scene.Step.before`), so that what was found out about a branch by then is
true of it later.
-/

namespace TripleQuery

open Std (ExtTreeMap)

variable {t t' : Searches} {os : List Order} {job : Job} {env : Surroundings}
  {b i j n : Nat} {jn : Junction} {seat : Id × BranchRole}

/-- A later table: whatever is there of what had a number is in its place. -/
structure Searches.Before (t t' : Searches) : Prop where
  next_le : t.next ≤ t'.next
  seat {b : Nat} {seat : Id × BranchRole} : b < t.next → t'.seat? b = some seat →
    t.seat? b = some seat
  junction {j : Nat} {jn : Junction} : j < t.next → t'.junctions[j]? = some jn →
    ∃ jn' : Junction, t.junctions[j]? = some jn' ∧ jn.trunk = jn'.trunk ∧ jn.parent = jn'.parent

namespace Searches.Before

/-- What writes neither branches nor junctions leaves them in their place. -/
theorem of_eq (hb : t'.branches = t.branches) (hj : t'.junctions = t.junctions)
    (hn : t.next ≤ t'.next) : t.Before t' where
  next_le := hn
  seat _ h := by
    unfold Searches.seat? at h ⊢
    rwa [← hb]
  junction _ h := ⟨_, hj ▸ h, rfl, rfl⟩

theorem refl (t : Searches) : t.Before t := of_eq rfl rfl (Nat.le_refl _)

/-- What comes later than a later table is later. -/
theorem trans {t'' : Searches} (h : t.Before t') (h' : t'.Before t'') : t.Before t'' where
  next_le := Nat.le_trans h.next_le h'.next_le
  seat hb hs := h.seat hb (h'.seat (Nat.lt_of_lt_of_le hb h.next_le) hs)
  junction hj h₂ := by
    obtain ⟨jn', hjn', htrunk, hparent⟩ := h'.junction (Nat.lt_of_lt_of_le hj h.next_le) h₂
    obtain ⟨jn, hjn, htrunk', hparent'⟩ := h.junction hj hjn'
    exact ⟨jn, hjn, htrunk.trans htrunk', hparent.trans hparent'⟩

/-- What puts no branch in another place leaves junctions alone. -/
theorem of_seat? (hs : ∀ b seat, t'.seat? b = some seat → t.seat? b = some seat)
    (hj : t'.junctions = t.junctions) (hn : t.next ≤ t'.next) : t.Before t' where
  next_le := hn
  seat _ h := hs _ _ h
  junction _ h := ⟨_, hj ▸ h, rfl, rfl⟩

end Searches.Before

/-- The branch that goes away was in its place before. -/
theorem Searches.seat?_of_erase
    (h : ((t.branches.erase n)[b]?.map fun y => (y.search, y.role)) = some seat) :
    t.seat? b = some seat := by
  rw [Searches.seat?_erase] at h
  split at h
  · cases h
  · exact h

/-- **A job leaves everything in its place that it does not take away.** -/
theorem Transition.before (h : Transition env t job t' os) : t.Before t' := by
  cases h with
  | barred _ | entered _ | halted _ _ | asked _ _ _ _ | awaited _ _ _ _ | exhausted _ _ _ _ _
  | reported | refused _ _ _ => exact .refl t
  | failed _ _ _ _ _ | queued _ _ _ _ _ | announced _ _ _ _ _ | drained _ _ | delivered _ _ =>
    exact .of_eq rfl rfl (Nat.le_refl _)
  | parked | parkedAsked _ => exact .of_eq rfl rfl (Nat.le_succ _)
  | @split f _ _ _ _ _ _ =>
    have hnext : (t.split f).1.next = t.next + 1 + f.scope.clauses.length := rfl
    refine ⟨?_, fun {b seat} hb h => ?_, fun {j jn} hj h => ?_⟩
    · rw [hnext]
      exact Nat.le_trans (Nat.le_succ _) (Nat.le_add_right _ _)
    · rwa [Searches.seat?_split, if_neg (by omega)] at h
    · rw [Searches.getElem?_junctions_split, if_neg (Nat.ne_of_gt hj)] at h
      exact ⟨jn, h, rfl, rfl⟩
  | expanded _ _ _ _ _ hy | kept hy _ _ _ | released hy _ =>
    refine .of_seat? (fun b seat h => ?_) rfl (Nat.le_refl _)
    refine (Searches.seat?_insert hy ?_ ?_ b).symm.trans h
    · rfl
    · rfl
  | finished _ _ _ _ =>
    exact .of_seat? (fun b seat h => Searches.seat?_of_erase h) rfl (Nat.le_refl _)
  | @filled b y j slot jn hy hle hr hj hc =>
    refine ⟨Nat.le_refl _, fun _ h => Searches.seat?_of_erase h, fun {k jn'} _ h => ?_⟩
    rcases of_getElem?_insert h with ⟨rfl, rfl⟩ | h
    · exact ⟨jn, hj, rfl, rfl⟩
    · exact ⟨jn', h, rfl, rfl⟩
  | combined _ _ _ _ _ =>
    refine ⟨Nat.le_refl _, fun _ h => Searches.seat?_of_erase h, fun {k jn'} _ h => ?_⟩
    exact ⟨jn', of_getElem?_erase h, rfl, rfl⟩

/-- A search that is started is put in a new place. -/
theorem Searches.before_launch (t : Searches) (config : SearchConfig) (linked : Bool)
    (p : Pattern) : t.Before (t.launch config linked p).1 where
  next_le := Nat.le_add_right _ 2
  seat {b seat} hb h := by
    have hne : b ≠ t.next + 1 := by omega
    rwa [Sound.seat?_launch, if_neg hne.symm] at h
  junction _ h := ⟨_, h, rfl, rfl⟩

/-- A later scene. -/
structure Scene.Before (w w' : Scene) : Prop where
  table : w.table.Before w'.table
  graph : w.graph.Grows w'.graph

namespace Scene

variable {w w' : Scene}

/-- **Every step leads to a later scene.** -/
theorem Step.before (h : Step w w') (hw : w.IsSound) : w.Before w' := by
  cases h with
  | work state? => exact ⟨(Sound.transition hw _).before, .refl _⟩
  | handOver _ => exact ⟨.refl _, .refl _⟩
  | add s => exact ⟨.refl _, Graph.grows_add _ s⟩
  | equate he => exact ⟨.refl _, Graph.grows_equate he⟩
  | @launch g t os told config linked p _ =>
    exact ⟨t.before_launch config linked p, .refl g⟩
  | stop i | cancel i =>
    refine ⟨?_, .refl _⟩
    unfold Searches.update
    split
    · exact .refl _
    · exact .of_eq rfl rfl (Nat.le_refl _)
  | resume ticket =>
    refine ⟨?_, .refl _⟩
    unfold Searches.resume
    split
    · exact .refl _
    · exact .of_eq rfl rfl (Nat.le_refl _)
  | discard ticket =>
    refine ⟨?_, .refl _⟩
    unfold Searches.discard
    split
    · exact .refl _
    · exact .of_eq rfl rfl (Nat.le_refl _)

/-- **The store only grows.** -/
theorem Steps.grows (h : Steps w w') (hw : w.IsSound) : w.graph.Grows w'.graph := by
  have hkeep := h.preserves (P := fun v => w.graph.Grows v.graph)
    (fun hstep hs hg => hg.trans (hstep.before hs).graph) hw (.refl _)
  exact hkeep.2

/-- A store that came about by adding and merging does so further on. -/
theorem Step.reachable (h : Step w w') (hg : w.graph.Reachable) : w'.graph.Reachable := by
  cases h with
  | add s => exact hg.add s
  | equate he => exact hg.equate he
  | _ => exact hg

end Scene

end TripleQuery
