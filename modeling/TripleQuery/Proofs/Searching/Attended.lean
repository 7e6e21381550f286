import TripleQuery.Proofs.Searching.Ending
import TripleQuery.Proofs.Searching.Origin
/-!
# Attended junctions — no search is left behind

A junction that is there waits for the branch of some clause, and that branch is
there (`Searches.Attended`); every job keeps this (`Attended.run`), and so does
whatever the surroundings may do. The branches that a junction waits for were
numbered after the one it reports to, so going from a branch to one that it
waits for comes to an end, at an order or at a parked path
(`Attended.work_of_seat`). A search without either has told its end
(`Scene.done_of_idle`).
-/

namespace TripleQuery

open Std (ExtTreeMap)

variable {t t' : Searches} {os : List Order} {job : Job} {env : Surroundings}
  {b i j k slot : Nat} {x : Search} {y : Branch} {jn : Junction} {f : Frame} {r : BranchRole}

/-- Every junction waits for a clause, the branches that it waits for are there,
and what is complete has results. -/
structure Searches.Attended (t : Searches) : Prop where
  waits {j : Nat} {jn : Junction} : t.junctions[j]? = some jn → ∃ k : Nat, jn.slots[k]? = some none
  seated {j k : Nat} {jn : Junction} : t.junctions[j]? = some jn → jn.slots[k]? = some none →
    ∃ i, t.seat? (j + 1 + k) = some (i, .clause j k)
  nonempty {j k : Nat} {jn : Junction} {rs : List Bindings} :
    t.junctions[j]? = some jn → jn.slots[k]? = some (some rs) → rs ≠ []

/-! ## What jobs do to junctions -/

theorem mapM_id_eq_none_iff {α : Type} {l : List (Option α)} : l.mapM id = none ↔ none ∈ l := by
  induction l with
  | nil => simp
  | cons a l ih =>
    rw [List.mapM_cons]
    cases a with
    | none => simp
    | some a =>
      cases hl : l.mapM id with
      | none => simpa [hl] using ih.1 hl
      | some as =>
        have hnot : none ∉ l := fun hm => by
          rw [ih.2 hm] at hl
          cases hl
        simp [hnot]

/-- A junction that does not report yet waits for some clause. -/
theorem Junction.exists_open (h : jn.combinations? = none) :
    ∃ k : Nat, jn.slots[k]? = some none := by
  rw [combinations?, Option.map_eq_none_iff, mapM_id_eq_none_iff] at h
  exact List.mem_iff_getElem?.1 h

/-- A place that is still open once another one was filled was open before. -/
theorem Junction.getElem?_of_fill {rs : List Bindings}
    (h : (jn.fill slot rs).slots[k]? = some none) : slot ≠ k ∧ jn.slots[k]? = some none := by
  by_cases hslot : slot = k
  · subst hslot
    simp only [Junction.fill, List.getElem?_set, if_true] at h
    split at h <;> cases h
  · rw [Junction.getElem?_fill_of_ne hslot] at h
    exact ⟨hslot, h⟩

namespace Searches.Attended

/-- What leaves the junctions and the branches of clauses as they are keeps
them attended. -/
theorem keep (ha : t.Attended) (hj : t'.junctions = t.junctions)
    (hseat : ∀ b i j k, t.seat? b = some (i, .clause j k) → t'.seat? b = some (i, .clause j k)) :
    t'.Attended where
  waits h := ha.waits (hj ▸ h)
  seated h hk := by
    obtain ⟨i, hi⟩ := ha.seated (hj ▸ h) hk
    exact ⟨i, hseat _ _ _ _ hi⟩
  nonempty h := ha.nonempty (hj ▸ h)

/-- Starting the clauses of a path adds a junction that waits for all of
them. -/
theorem split (ha : t.Attended) (hl : Layout t) (hc : f.scope.clauses ≠ []) :
    (t.split f).1.Attended := by
  have hjunction := Searches.getElem?_junctions_split t f
  have hpos : 0 < f.scope.clauses.length := List.length_pos_iff.2 hc
  refine ⟨fun {j jn} h => ?_, fun {j k jn} h hk => ?_, fun {j k jn rs} h hk => ?_⟩
  · rw [hjunction] at h
    split at h
    · cases h
      exact ⟨0, by rw [List.getElem?_replicate, if_pos hpos]⟩
    · exact ha.waits h
  · rw [hjunction] at h
    split at h
    · rename_i he
      subst he
      cases h
      rw [List.getElem?_replicate] at hk
      split at hk
      · rename_i hlt
        refine ⟨f.search, (Searches.seat?_split t f _).trans ((if_pos ?_).trans ?_)⟩
        · omega
        · rw [Nat.add_sub_cancel_left]
      · cases hk
    · obtain ⟨i, hi⟩ := ha.seated h hk
      exact ⟨i, (hl.seat?_split f (Searches.mem_of_seat? hi)).trans hi⟩
  · rw [hjunction] at h
    split at h
    · cases h
      rw [List.getElem?_replicate] at hk
      split at hk <;> cases hk
    · exact ha.nonempty h hk

/-- The branch of a clause may go away once its place is filled, if the junction
then waits for another clause or is gone. -/
theorem vacate (ha : t.Attended) (hl : Layout t) (hb : t.seat? b = some (i, .clause j slot))
    (hj : t.junctions[j]? = some jn)
    (hseat : ∀ c, t'.seat? c = if b = c then none else t.seat? c)
    (hothers : ∀ k, j ≠ k → t'.junctions[k]? = t.junctions[k]?)
    (hfilled : ∀ jn', t'.junctions[j]? = some jn' →
      jn' = jn.fill slot y.results ∧ jn'.combinations? = none) : t'.Attended := by
  have hnum : b = j + 1 + slot := (hl.clause hb).1
  -- another branch of a clause stays
  have hstay : ∀ {i' j' k' : Nat}, t.seat? (j' + 1 + k') = some (i', .clause j' k') →
      (j' = j → k' ≠ slot) → t'.seat? (j' + 1 + k') = some (i', .clause j' k') := by
    intro i' j' k' h hne
    rw [hseat, if_neg, h]
    intro he
    rw [← he, hb] at h
    cases h
    exact hne rfl rfl
  refine ⟨fun {j' jn'} h => ?_, fun {j' k jn'} h hk => ?_, fun {j' k jn' rs} h hk => ?_⟩
  · by_cases he : j = j'
    · subst he
      exact Junction.exists_open (hfilled jn' h).2
    · rw [hothers j' he] at h
      exact ha.waits h
  · by_cases he : j = j'
    · subst he
      obtain ⟨rfl, -⟩ := hfilled jn' h
      obtain ⟨hne, hk⟩ := Junction.getElem?_of_fill hk
      obtain ⟨i', hi'⟩ := ha.seated hj hk
      exact ⟨i', hstay hi' fun _ => hne.symm⟩
    · rw [hothers j' he] at h
      obtain ⟨i', hi'⟩ := ha.seated h hk
      exact ⟨i', hstay hi' fun h => absurd h.symm he⟩
  · by_cases he : j = j'
    · subst he
      obtain ⟨rfl, -⟩ := hfilled jn' h
      rcases Junction.getElem?_fill hk with ⟨-, rfl⟩ | hk
      · exact y.results_ne_nil
      · exact ha.nonempty hj hk
    · rw [hothers j' he] at h
      exact ha.nonempty h hk

/-- **A job leaves junctions attended.** -/
theorem run (ha : t.Attended) (hl : Layout t) (h : Transition env t job t' os) :
    t'.Attended := by
  cases h with
  | split _ _ _ _ hc => exact ha.split hl hc
  | expanded _ _ _ _ _ hy | kept hy _ _ _ | released hy _ =>
    refine ha.keep rfl fun b i j k hb => (Searches.seat?_insert hy ?_ ?_ b).trans hb
    · rfl
    · rfl
  | @finished b y x hy _ hr _ =>
    -- the root branch is the branch of no clause
    refine ha.keep rfl fun c i j k hc => (Searches.seat?_erase t b c).trans ((if_neg ?_).trans hc)
    rintro rfl
    rw [Searches.seat?_of_getElem? hy, hr] at hc
    cases hc
  | @filled b y j slot jn hy _ hr hj hc =>
    have hb := Searches.seat?_of_role hy hr
    refine ha.vacate (y := y) hl hb hj (Searches.seat?_erase t b) (fun k hk => ?_)
      fun jn' hjn' => ?_
    · simp [ExtTreeMap.getElem?_insert, hk]
    · obtain rfl : jn.fill slot y.results = jn' := by simpa using hjn'
      exact ⟨rfl, hc⟩
  | @combined b y j slot jn _ hy _ hr hj hc =>
    have hb := Searches.seat?_of_role hy hr
    refine ha.vacate (y := y) hl hb hj (Searches.seat?_erase t b) (fun k hk => ?_)
      fun jn' hjn' => ?_
    · simp [ExtTreeMap.getElem?_erase, hk]
    · simp at hjn'
  | _ => exact ha.keep rfl fun _ _ _ _ hb => hb

/-! ## Going from a branch to what it waits for -/

/-- **Where a branch of a search is, some work of the search is left**, or a
path of it is parked. -/
theorem work_of_seat (ha : t.Attended) (h : Sound t os) (hb : t.seat? b = some (i, r)) :
    (∃ o ∈ os, t.worksFor? o = some i) ∨
      ∃ (n : Nat) (f : Frame), t.parked[n]? = some f ∧ f.search = i := by
  -- by induction on how many numbers lie behind that of the branch
  induction hn : t.next - b using Nat.strongRecOn generalizing b r with
  | ind n ih =>
    rcases h.holder_of_seat hb with hwork | hparked | ⟨j, jn, hj, hpar⟩
    · exact .inl hwork
    · exact .inr hparked
    · obtain ⟨k, hk⟩ := ha.waits hj
      obtain ⟨i', hi'⟩ := ha.seated hj hk
      obtain ⟨-, jn', hj', -, r', hr'⟩ := h.layout.clause hi'
      obtain rfl : jn = jn' := Option.some.inj (hj.symm.trans hj')
      -- the junction waits on behalf of this branch, so for the same search
      rw [hpar, hb] at hr'
      cases hr'
      have hlt : b < j := hpar ▸ h.layout.parent_lt hj
      have hnext : j + 1 + k < t.next := h.layout.branch_lt (Searches.mem_of_seat? hi')
      exact ih (t.next - (j + 1 + k)) (hn ▸ by omega) hi' rfl

end Searches.Attended

/-! ## Scenes -/

namespace Scene

variable {w w' : Scene}

/-- **Whatever happens leaves junctions attended.** -/
theorem Step.attended (h : Step w w') (hs : w.IsSound) (ha : w.table.Attended) :
    w'.table.Attended := by
  cases h with
  | work state? => exact ha.run hs.layout (Sound.transition hs _)
  | handOver _ | add _ | equate _ => exact ha
  | @launch g t os told config linked p _ =>
    refine ha.keep rfl fun b i j k hb => ?_
    have hnew : t.next + 1 ≠ b := by
      rintro rfl
      exact hs.layout.not_mem_branches (Nat.le_succ _) (Searches.mem_of_seat? hb)
    exact (Sound.seat?_launch t config linked p b).trans ((if_neg hnew).trans hb)
  | @stop g t os told i | @cancel g t os told i =>
    change Searches.Attended (t.update i _)
    cases hx : t.searches[i]? with
    | none => simpa only [Searches.update, hx] using ha
    | some x =>
      rw [Searches.update_of_getElem? hx]
      exact ha.keep rfl fun _ _ _ _ hb => hb
  | @resume g t os told ticket =>
    change (t.resume ticket).1.Attended
    unfold Searches.resume
    split
    · exact ha
    · exact ha.keep rfl fun _ _ _ _ hb => hb
  | @discard g t os told ticket =>
    change (t.discard ticket).1.Attended
    unfold Searches.discard
    split
    · exact ha
    · exact ha.keep rfl fun _ _ _ _ hb => hb

/-- No junction is there at the start. -/
theorem attended_empty : Searches.Attended {} :=
  ⟨fun h => by simp at h, fun h => by simp at h, fun h => by simp at h⟩

/-- **A search of which no work is left, and no path is parked, is finished**,
and has told its end. -/
theorem done_of_idle (hs : w.IsSound) (hw : w.IsFaithful) (ha : w.table.Attended)
    (hx : w.table.searches[i]? = some x)
    (hidle : ∀ o ∈ w.orders, w.table.worksFor? o ≠ some i)
    (hparked : ∀ (n : Nat) (f : Frame), w.table.parked[n]? = some f → f.search ≠ i) :
    x.finished = true ∧ ∃ result, .done i result ∈ w.told := by
  obtain ⟨p, found, ending, hst⟩ := hw.story hx
  have hrest : ¬ w.table.IsBusy w.orders i := by
    rintro (⟨o, ho, hwork⟩ | ⟨n, f, hf, hi⟩ | ⟨j, jn, hj, hown⟩)
    · exact hidle o ho hwork
    · exact hparked n f hf hi
    · obtain ⟨r, hr⟩ := Searches.owner?_eq_some_iff.1 hown
      rcases ha.work_of_seat hs hr with ⟨o, ho, hwork⟩ | ⟨n, f, hf, hi⟩
      · exact hidle o ho hwork
      · exact hparked n f hf hi
  obtain ⟨result, rfl⟩ := Option.isSome_iff_exists.1 ((story_ended_iff hs hw hx hst).2 hrest)
  have hend := hst.endings
  refine ⟨by_contra fun hne => ?_, result, ?_⟩
  · rw [if_neg hne] at hend
    simp at hend
  have hnews : .done i result ∈ newsOf i w.told := by
    rw [hst.news]
    simp
  exact (List.mem_filter.1 hnews).1

end Scene

end TripleQuery
