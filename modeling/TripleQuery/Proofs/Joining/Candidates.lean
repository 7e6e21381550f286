import TripleQuery.Proofs.Matching.Unifying
import TripleQuery.Proofs.Merging.Atoms
import TripleQuery.Proofs.Merging.Sameness
/-!
# Candidates — matching a few statements in place of all

A triple is matched with its candidates, which the planner takes from an index
by what stands at a bound position once values are in place; unification walks
the triple as it was written, value by value. What unification makes of a bound
position is what the planner looked for, up to merged terms, and so every
statement that the triple may become is a candidate
(`Graph.Reachable.mem_candidates`), wherever a lookup finds all statements with
the same term: where no collection was merged. There is one way at most to unify
the triple with a statement (`Graph.unified?`), so that the alternatives of some
statements are one list with a place for each of them that unifies
(`Graph.alternatives_eq_ok_iff`), and it does not matter whether those are the
candidates or all statements.
-/

namespace TripleQuery

namespace Graph

variable {g : Graph} {b b' : Bindings} {bs : List Bindings} {triple s : Statement}
  {ss : List Statement}

/-! ## One way at most -/

/-- The way in which a triple is unified with a statement, if there is one and
no error. -/
def unified? (g : Graph) (b : Bindings) (triple s : Statement) : Option Bindings :=
  match g.unifyStatement b triple s with
  | .ok found => found.head?
  | .error _ => none

/-- **Unification answers with that way**, unless with an error. -/
theorem eq_toList_unified? (hb : b.OnVariables) (h : g.unifyStatement b triple s = .ok bs) :
    bs = (g.unified? b triple s).toList := by
  unfold unified?
  rw [h]
  rcases unifyStatement_oneWay hb h with rfl | ⟨b', rfl, -⟩ <;> rfl

/-- It is a right one. -/
theorem unifies_of_unified? (hb : b.OnVariables) (h : g.unified? b triple s = some b') :
    g.Unifies b b' triple.terms s.terms := by
  unfold unified? at h
  split at h
  · rename_i found hfound
    exact unifies_of_mem_unifyStatement hb hfound (List.mem_of_head? h)
  · cases h

/-! ## The alternatives of some statements -/

/-- The alternatives of one more candidate. -/
theorem alternatives_cons (g : Graph) (b : Bindings) (triple s : Statement)
    (ss : List Statement) : Frame.alternatives g b triple (s :: ss) =
      (g.unifyStatement b triple s).bind fun bs =>
        (Frame.alternatives g b triple ss).map (bs ++ ·) := by
  unfold Frame.alternatives
  rw [List.mapM_cons]
  cases g.unifyStatement b triple s with
  | error e => rfl
  | ok bs => cases ss.mapM (g.unifyStatement b triple) <;> rfl

/-- **The alternatives of some statements**: there is no error exactly when there
is none for any of them, and then each of them that unifies has its place. -/
theorem alternatives_eq_ok_iff (hb : b.OnVariables) :
    Frame.alternatives g b triple ss = .ok bs ↔
      (∀ s ∈ ss, ∃ found, g.unifyStatement b triple s = .ok found) ∧
        bs = ss.filterMap (g.unified? b triple) := by
  induction ss generalizing bs with
  | nil => simp [Frame.alternatives, Except.map, pure, Except.pure, eq_comm]
  | cons s ss ih =>
    rw [alternatives_cons]
    cases hs : g.unifyStatement b triple s with
    | error e => simp [hs, Except.bind]
    | ok found =>
      have hfirst : found = (g.unified? b triple s).toList := eq_toList_unified? hb hs
      have hplaces : (s :: ss).filterMap (g.unified? b triple) =
          found ++ ss.filterMap (g.unified? b triple) := by
        rw [hfirst, List.filterMap_cons]
        cases g.unified? b triple s <;> rfl
      have hfine : (∀ s' ∈ s :: ss, ∃ found, g.unifyStatement b triple s' = .ok found) ↔
          ∀ s' ∈ ss, ∃ found, g.unifyStatement b triple s' = .ok found := by
        rw [List.forall_mem_cons]
        exact and_iff_right ⟨found, hs⟩
      rw [hplaces, hfine]
      cases hrest : Frame.alternatives g b triple ss with
      | error e =>
        constructor
        · intro h
          cases h
        · rintro ⟨hall, -⟩
          rw [ih.2 ⟨hall, rfl⟩] at hrest
          cases hrest
      | ok rest =>
        obtain ⟨hall, rfl⟩ := ih.1 hrest
        rw [and_iff_right hall]
        exact ⟨fun h => (Except.ok.inj h).symm, fun h => congrArg _ h.symm⟩

/-! ## What the triple may become is a candidate -/

/-- **What a triple may become is a candidate**, where no collection was merged. -/
theorem Reachable.mem_candidates (hg : g.Reachable) (ha : g.redirections.Atomic)
    (hb : b.OnVariables) (hs : s ∈ g.statements) (hu : g.Unifies b b' triple.terms s.terms) :
    s ∈ (g.prepare b triple).candidates := by
  rcases g.candidates_cases b triple with hall | ⟨pos, hbound, hone⟩
  · rwa [hall]
  · have hvars : ∀ v ∈ (triple.term pos).variableList, v ∈ b := by
      intro v hv
      by_contra hnot
      rw [← Bool.not_eq_true, Bindings.hasUnbound_iff] at hbound
      exact hbound ⟨v, hv, hnot⟩
    -- so what is looked for is what unification leaves there
    have hkept : b'.substitute (triple.term pos) = b.substitute (triple.term pos) :=
      hu.extends_.substitute_eq (hu.onVariables hb) hvars
    rw [hone, hg.mem_indexFor ha, ← hkept]
    exact ⟨hs, same_symm (hu.same_term pos)⟩

/-- **Looking among the candidates is as good as looking among all
statements.** -/
theorem Reachable.filterMap_unified?_perm (hg : g.Reachable) (ha : g.redirections.Atomic)
    (hb : b.OnVariables) (triple : Statement) :
    ((g.prepare b triple).candidates.toList.filterMap (g.unified? b triple)).Perm
      (g.statements.toList.filterMap (g.unified? b triple)) := by
  have hsame : (g.prepare b triple).candidates.toList.Perm
      (g.statements.toList.filter fun s => s ∈ (g.prepare b triple).candidates) := by
    refine (List.perm_ext_iff_of_nodup (hg.orderly.nodup_candidates b triple)
      (hg.orderly.nodup.filter _)).2 fun s => ?_
    rw [List.mem_filter, decide_eq_true_iff, Array.mem_toList_iff, Array.mem_toList_iff]
    exact ⟨fun hs => ⟨hg.orderly.mem_statements_of_mem_candidates hs, hs⟩, fun hs => hs.2⟩
  refine (hsame.filterMap _).trans (.of_eq ?_)
  rw [List.filterMap_filter]
  refine List.filterMap_congr fun s hs => ?_
  split
  · rfl
  · rename_i hnot
    -- what is no candidate does not unify
    cases hu : g.unified? b triple s with
    | none => rfl
    | some b' =>
      have hm := hg.mem_candidates ha hb (Array.mem_toList_iff.1 hs) (unifies_of_unified? hb hu)
      exact absurd (decide_eq_true hm) hnot

/-! ## A scan in their place -/

/-- **A statement that the triple unifies with is one candidate.** -/
theorem AtomReachable.count_candidates (hg : g.AtomReachable) (hb : b.OnVariables)
    (hs : s ∈ g.statements) (h : g.unifyStatement b triple s = .ok bs) (hne : bs ≠ []) :
    (g.prepare b triple).candidates.toList.count s = 1 := by
  obtain ⟨b', hm⟩ := List.exists_mem_of_ne_nil bs hne
  have hu : g.Unifies b b' triple.terms s.terms := unifies_of_mem_unifyStatement hb h hm
  have hcandidate := hg.reachable.mem_candidates hg.atomic hb hs hu
  exact List.count_eq_one_of_mem (hg.orderly.nodup_candidates b triple)
    (Array.mem_toList_iff.2 hcandidate)

/-- There is an answer where there is no mismatch. -/
theorem exists_ok_of_no_mismatch
    (h : ∀ xs y, g.unifyStatement b triple s ≠ .error (.shapeMismatch xs y)) :
    ∃ found, g.unifyStatement b triple s = .ok found := by
  cases hs : g.unifyStatement b triple s with
  | ok found => exact ⟨found, rfl⟩
  | error e =>
    obtain ⟨xs, y, rfl, -⟩ := exists_shapeMismatch_of_unifyAll _ _ _ hs
    exact absurd hs (h _ y)

/-- **The alternatives are those of a scan**, if that meets no mismatch. -/
theorem AtomReachable.alternatives_perm_scan (hg : g.AtomReachable) (hb : b.OnVariables)
    (h : ∀ s ∈ g.statements, ∀ xs y, g.unifyStatement b triple s ≠ .error (.shapeMismatch xs y)) :
    ∃ narrowed scanned,
      Frame.alternatives g b triple (g.prepare b triple).candidates.toList = .ok narrowed ∧
        Frame.alternatives g b triple g.statements.toList = .ok scanned ∧
          narrowed.Perm scanned := by
  have hfine : ∀ s ∈ g.statements, ∃ found, g.unifyStatement b triple s = .ok found :=
    fun s hs => exists_ok_of_no_mismatch (h s hs)
  refine ⟨_, _, (alternatives_eq_ok_iff hb).2 ⟨fun s hs => hfine s ?_, rfl⟩,
    (alternatives_eq_ok_iff hb).2 ⟨fun s hs => hfine s ?_, rfl⟩,
    hg.reachable.filterMap_unified?_perm hg.atomic hb triple⟩
  · exact hg.orderly.mem_statements_of_mem_candidates (Array.mem_toList_iff.1 hs)
  · exact Array.mem_toList_iff.1 hs

/-- **Where nothing is planned**, some triple unifies with no statement. -/
theorem AtomReachable.exists_unmatched_of_plan_eq_none (hg : g.AtomReachable)
    (hb : b.OnVariables) {remaining : List Statement} (hne : remaining ≠ [])
    (hp : g.plan b remaining = none) :
    ∃ triple ∈ remaining, ∀ s ∈ g.statements, ∀ found,
      g.unifyStatement b triple s = .ok found → found = [] := by
  obtain ⟨triple, hm, hnone⟩ := plan_eq_none hp hne
  refine ⟨triple, hm, fun s hs found h => ?_⟩
  by_contra hfound
  have hone := hg.count_candidates hb hs h hfound
  rw [hnone] at hone
  cases hone

end Graph

end TripleQuery
