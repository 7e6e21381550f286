import TripleQuery.Proofs.Searching.Story
/-!
# Endings — when the end of a search is told

The end of a search has been told exactly when nothing of the search is left
(`Scene.story_ended_iff`). As long as the root branch is there, an order, a
parked path or a junction holds it; and every piece of work of a search is on a
branch that leads to the root branch.
-/

namespace TripleQuery

variable {t : Searches} {os : List Order} {b i : Nat} {x : Search} {o : Order} {f : Frame}
  {r : BranchRole}

/-- The search that a branch belongs to. -/
def Searches.owner? (t : Searches) (b : Id) : Option Id :=
  (t.seat? b).map (·.1)

/-- The search that carrying out an order is work of. -/
def Searches.worksFor? (t : Searches) : Order → Option Id
  | .job (.start f) | .job (.step f) | .job (.await f _ _) => some f.search
  | .job (.report b _) | .job (.release b) => t.owner? b
  | .job (.drain i) | .deliver i _ | .finish i _ => some i
  | .enterSource | .leaveSource | .request _ | .watch _ _ => none

/-- Something of a search is left: an order that is work of it, a parked path,
or a junction that waits to report to one of its branches. -/
def Searches.IsBusy (t : Searches) (os : List Order) (i : Id) : Prop :=
  (∃ o ∈ os, t.worksFor? o = some i) ∨
    (∃ (n : Nat) (f : Frame), t.parked[n]? = some f ∧ f.search = i) ∨
    ∃ (j : Nat) (jn : Junction), t.junctions[j]? = some jn ∧ t.owner? jn.parent = some i

theorem Searches.owner?_eq_some_iff : t.owner? b = some i ↔ ∃ r, t.seat? b = some (i, r) := by
  simp [owner?]

/-- Who holds a branch without going on with a path, releases it. -/
theorem Order.eq_release_of_held? (hb : o.held? = some b) (hf : o.frame? = none) :
    o = .job (.release b) := by
  cases o with
  | job job =>
    cases job with
    | release c => exact congrArg _ (congrArg _ (Option.some.inj hb))
    | start f | step f | await f d asked => cases hf
    | _ => cases hb
  | _ => cases hb

/-- A branch that is there is held by an order that is work of its search, by a
parked path of it, or by a junction. -/
theorem Sound.holder_of_seat (h : Sound t os) (hb : t.seat? b = some (i, r)) :
    (∃ o ∈ os, t.worksFor? o = some i) ∨
      (∃ (n : Nat) (f : Frame), t.parked[n]? = some f ∧ f.search = i) ∨
      ∃ (j : Nat) (jn : Junction), t.junctions[j]? = some jn ∧ jn.parent = b := by
  have hheld : b ∈ t.held + heldBy os :=
    h.accounted ▸ h.layout.mem_granted.2 (Searches.mem_of_seat? hb)
  have hpath : ∀ {f : Frame}, t.Seats f → f.branch = b → f.search = i := by
    rintro f ⟨r', hf⟩ rfl
    rw [hb] at hf
    cases hf
    rfl
  rcases Multiset.mem_add.1 hheld with hheld | horder
  · rcases Multiset.mem_add.1 hheld with hparked | hjunction
    · obtain ⟨n, f, hf, hmem⟩ := exists_mem_of_mem_tally hparked
      have hbranch : f.branch = b := (Multiset.mem_singleton.1 hmem).symm
      exact .inr (.inl ⟨n, f, hf, hpath (h.parked hf) hbranch⟩)
    · obtain ⟨j, jn, hj, hmem⟩ := exists_mem_of_mem_tally hjunction
      exact .inr (.inr ⟨j, jn, hj, (Multiset.mem_singleton.1 hmem).symm⟩)
  · obtain ⟨o, ho, hbo⟩ := List.mem_filterMap.1 (Multiset.mem_coe.1 horder)
    refine .inl ⟨o, ho, ?_⟩
    -- an order that holds the branch goes on with a path, or releases the branch
    cases hf : o.frame? with
    | some f =>
      have hbranch := Order.held?_of_frame? hf
      have hsearch := hpath (h.seated ho hf) (Option.some.inj (hbranch.symm.trans hbo))
      unfold Order.frame? at hf
      split at hf <;> cases hf <;> exact congrArg some hsearch
    | none =>
      rw [Order.eq_release_of_held? hbo hf]
      exact Searches.owner?_eq_some_iff.2 ⟨r, hb⟩

/-- **A search whose root branch is there has work left.** -/
theorem Sound.isBusy_of_root (h : Sound t os) (hr : t.seat? (i + 1) = some (i, .root)) :
    t.IsBusy os i := by
  rcases h.holder_of_seat hr with hwork | hparked | ⟨j, jn, hj, hparent⟩
  · exact .inl hwork
  · exact .inr (.inl hparked)
  · refine .inr (.inr ⟨j, jn, hj, ?_⟩)
    rw [hparent]
    exact Searches.owner?_eq_some_iff.2 ⟨_, hr⟩

/-- **Work that is left keeps the root branch**, unless it is only to tell of
the end. -/
theorem Sound.root_of_isBusy (h : Sound t os) (hfin : finishesOf i os = [])
    (hb : t.IsBusy os i) : t.seat? (i + 1) = some (i, .root) := by
  rcases hb with ⟨o, ho, hi⟩ | ⟨n, f, hf, rfl⟩ | ⟨j, jn, -, hown⟩
  · cases o with
    | job job =>
      cases job with
      | start f | step f | await f d asked =>
        cases hi
        exact h.root_of_frame? ho rfl
      | report b ms | release b =>
        obtain ⟨r, hr⟩ := Searches.owner?_eq_some_iff.1 hi
        exact h.root_of_seat hr
      | drain k =>
        cases hi
        exact h.rooted ho rfl
    | deliver k m =>
      cases hi
      exact h.rooted ho rfl
    | finish k r =>
      cases hi
      refine absurd (List.filterMap_eq_nil_iff.1 hfin _ ho) ?_
      simp [Order.finish?]
    | _ => cases hi
  · obtain ⟨r, hr⟩ := h.parked hf
    exact h.root_of_seat hr
  · obtain ⟨r, hr⟩ := Searches.owner?_eq_some_iff.1 hown
    exact h.root_of_seat hr

/-- **The end of a search was told exactly when nothing of it is left.** -/
theorem Scene.story_ended_iff {w : Scene} {p : Pattern} {found : List Bindings}
    {ending : Option (Except QueryError SearchSummary)} (hs : w.IsSound) (hw : w.IsFaithful)
    (hx : w.table.searches[i]? = some x) (hst : Story w.orders w.told i x p found ending) :
    ending.isSome ↔ ¬ w.table.IsBusy w.orders i := by
  have hp := hw.paced hx
  have hend := hst.endings
  constructor
  · intro hsome hbusy
    obtain ⟨r, rfl⟩ := Option.isSome_iff_exists.1 hsome
    have hover : x.finished = true := by
      by_contra hne
      rw [if_neg hne] at hend
      simp at hend
    rw [if_pos hover] at hend
    have hfin : finishesOf i w.orders = [] := by simpa using hend
    have hr := Sound.root_of_isBusy hs hfin hbusy
    exact hp.gone hover (Searches.mem_of_seat? hr)
  · intro hrest
    have hover : x.finished = true := by
      by_contra hne
      exact hrest (Sound.isBusy_of_root hs (hp.running (by simpa using hne)))
    rw [if_pos hover] at hend
    by_contra hnone
    rw [Option.not_isSome_iff_eq_none] at hnone
    subst hnone
    -- the end is still to be told, which is work of the search
    obtain ⟨r, hr⟩ := List.length_eq_one_iff.1 (by simpa using hend)
    have hmem : r ∈ finishesOf i w.orders := by rw [hr]; exact List.mem_singleton_self r
    obtain ⟨o, ho, hf⟩ := List.mem_filterMap.1 hmem
    refine hrest (.inl ⟨o, ho, ?_⟩)
    unfold Order.finish? at hf
    split at hf
    · rename_i k r'
      split at hf
      · rename_i hk
        exact congrArg some hk
      · cases hf
    · cases hf

end TripleQuery
