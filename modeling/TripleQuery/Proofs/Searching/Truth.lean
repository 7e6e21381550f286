import TripleQuery.Proofs.Searching.Origin
import TripleQuery.Proofs.Searching.Story
/-!
# Truth — what the matches of a search say

What is found on the way to the root branch of a search goes beyond the fixed
values of its pattern, with a stored statement for every triple that no longer
remains; what is found on the way to the branch of a clause goes beyond the
trunk of its junction (`Scene.Fits`). Since nothing is bound anew, nothing
stored is lost and no terms are parted, this is kept from step to step, and so
the caller of a search is told of true matches only
(`Scene.Step.truthful`).
-/

namespace TripleQuery

open Std (ExtTreeMap)

variable {w w' : Scene} {i j k b : Nat} {p : Pattern} {remaining : List Statement}
  {x x' trunk : Bindings} {f : Frame} {r : BranchRole}

/-! ## Combinations -/

/-- **A combination goes beyond the trunk**, if the results of every clause do
or are empty. -/
theorem Junction.extends_of_mem_combine {results : List (List Bindings)}
    (hall : ∀ rs ∈ results, ∀ r ∈ rs, r.OnVariables ∧ (r = ∅ ∨ r.Extends trunk))
    (hv : x'.OnVariables) (he : x'.Extends trunk) (hx : x ∈ combine x' results) :
    x.OnVariables ∧ x.Extends trunk := by
  induction results generalizing x' with
  | nil =>
    obtain rfl := List.mem_singleton.1 hx
    exact ⟨hv, he⟩
  | cons rs results ih =>
    rw [combine_cons] at hx
    obtain ⟨r, hr, hx⟩ := List.mem_flatMap.1 hx
    obtain ⟨hrv, hre⟩ := hall rs List.mem_cons_self r hr
    have hrest : ∀ rs ∈ results, ∀ r ∈ rs, r.OnVariables ∧ (r = ∅ ∨ r.Extends trunk) :=
      fun rs hrs => hall rs (List.mem_cons_of_mem _ hrs)
    have hext : (x' ∪ r).Extends trunk := by
      rcases hre with rfl | hre
      · have hunion : x' ∪ (∅ : Bindings) = x' := by
          ext v value
          simp [ExtTreeMap.getElem?_union]
        rwa [hunion]
      · exact (Bindings.extends_union x' r).trans hre
    exact ih hrest (hv.union hrv) hext hx

/-- **What a junction reports are combinations** of its trunk with results that
it has, and those of the clause that is complete now. -/
theorem Junction.Reports.exists_combine {t : Searches} {jn : Junction} {combos : List Bindings}
    (h : jn.Reports t combos) :
    ∃ (j : Nat) (rss : List (List Bindings)),
      t.junctions[j]? = some jn ∧ combos = combine jn.trunk rss ∧ ∀ rs ∈ rss,
        (∃ (c slot : Nat) (y : Branch), t.branches[c]? = some y ∧ y.role = .clause j slot ∧
          rs = y.results) ∨ ∃ k : Nat, jn.slots[k]? = some (some rs) := by
  obtain ⟨j, slot, c, y, hj, hy, hrole, hc⟩ := h.filled
  obtain ⟨rss, hslots, rfl⟩ := combinations?_eq_some_iff.1 hc
  refine ⟨j, rss, hj, rfl, fun rs hrs => ?_⟩
  obtain ⟨k, hk⟩ := List.mem_iff_getElem?.1 hrs
  have hk' : (jn.fill slot y.results).slots[k]? = some (some rs) := by
    rw [hslots, List.getElem?_map, hk]
    rfl
  rcases getElem?_fill hk' with ⟨-, hrs⟩ | hold
  · exact .inl ⟨c, slot, y, hy, hrole, hrs⟩
  · exact .inr ⟨k, hold⟩

namespace Scene

/-- **A result of a complete clause** is empty, or on its way to the branch of
the clause, which is of the search that the junction reports to. -/
theorem carries_of_mem_results {jn : Junction} {y : Branch} {c slot : Nat} (hs : w.IsSound)
    (hj : w.table.junctions[j]? = some jn) (hp : w.table.seat? jn.parent = some (i, r))
    (hy : w.table.branches[c]? = some y) (hr : y.role = .clause j slot) (hx : x ∈ y.results) :
    x = ∅ ∨ (w.Carries c x ∧ w.table.seat? c = some (i, .clause j slot)) := by
  have hseat := Searches.seat?_of_role hy hr
  rw [hs.layout.search_eq hy hr hj hp] at hseat
  unfold Branch.results at hx
  split at hx
  · exact .inl (List.mem_singleton.1 hx)
  · exact .inr ⟨.kept hy hx, hseat⟩

/-- A path that goes on is on a branch of its search. -/
theorem Walks.seats (h : w.Walks f) (hw : w.IsSound) : w.table.Seats f := by
  cases h with
  | order ho hf => exact hw.seated ho hf
  | parked hf => exact hw.parked hf

/-! ## What fits a branch -/

/-- What is true of bindings that are found for a branch of search `i`, which
is for pattern `p`. -/
structure Fits (w : Scene) (i : Nat) (p : Pattern) (remaining : List Statement) (b : Nat)
    (x : Bindings) : Prop where
  onVariables {r : BranchRole} : w.table.seat? b = some (i, r) → x.OnVariables
  /-- On the way to the caller they answer the triples. -/
  root : w.table.seat? b = some (i, .root) → w.graph.Matches p remaining x
  /-- On the way to a junction they go beyond its trunk. -/
  clause {j slot : Nat} {jn : Junction} : w.table.seat? b = some (i, .clause j slot) →
    w.table.junctions[j]? = some jn → x.Extends jn.trunk

/-- What fitted a branch fits it later. -/
theorem Fits.later (h : w.Fits i p remaining b x) (hl : Layout w.table) (hb : b < w.table.next)
    (hw : w.Before w') : w'.Fits i p remaining b x where
  onVariables hs := h.onVariables (hw.table.seat hb hs)
  root hs := by
    have hseat := hw.table.seat hb hs
    exact (h.root hseat).mono hw.graph (.refl x) (h.onVariables hseat)
  clause hs hj := by
    have hseat := hw.table.seat hb hs
    obtain ⟨-, jn', hjn', -⟩ := hl.clause hseat
    have hlt := hl.junction_lt (mem_of_getElem? hjn')
    obtain ⟨jn'', hjn'', htrunk, -⟩ := hw.table.junction hlt hj
    rw [htrunk]
    exact h.clause hseat hjn''

/-- What goes further fits too. -/
theorem Fits.more (h : w.Fits i p remaining b x)
    (hx : ∀ r, w.table.seat? b = some (i, r) → x'.OnVariables ∧ x'.Extends x) :
    w.Fits i p remaining b x' where
  onVariables hs := (hx _ hs).1
  root hs := (h.root hs).mono (.refl _) (hx _ hs).2 (hx _ hs).1
  clause hs hj := (hx _ hs).2.trans (h.clause hs hj)

/-- A path of search `i` is in a scope that fixes values of variables only, and
its bindings fit its branch. -/
structure FitsPath (w : Scene) (i : Nat) (p : Pattern) (f : Frame) : Prop where
  scope {r : BranchRole} : w.table.seat? f.branch = some (i, r) → f.scope.pattern.BindsVariables
  fits : w.Fits i p f.remaining f.branch f.bindings

theorem FitsPath.later (h : w.FitsPath i p f) (hl : Layout w.table) (hb : f.branch < w.table.next)
    (hw : w.Before w') : w'.FitsPath i p f where
  scope hs := h.scope (hw.table.seat hb hs)
  fits := h.fits.later hl hb hw

/-- What is true in a scene of search `i`, which is for pattern `p`. -/
structure Truthful (w : Scene) (i : Nat) (p : Pattern) : Prop where
  path {f : Frame} : w.Walks f → w.FitsPath i p f
  carried {b : Nat} {x : Bindings} : w.Carries b x → w.Fits i p [] b x
  /-- The results of a clause are empty or go beyond the trunk. -/
  slot {j k : Nat} {jn : Junction} {rs : List Bindings} {r : BranchRole} {x : Bindings} :
    w.table.junctions[j]? = some jn → w.table.seat? jn.parent = some (i, r) →
    jn.slots[k]? = some (some rs) → x ∈ rs → x.OnVariables ∧ (x = ∅ ∨ x.Extends jn.trunk)
  told {x : Bindings} : .found i x ∈ w.told → w.graph.Matches p [] x ∧ x.OnVariables

/-! ## What becomes of it -/

namespace Truthful

variable {jn : Junction} {y : Branch} {c slot : Nat} {combos : List Bindings}

/-- Nothing is known of a search that was not started, and nothing is said. -/
theorem of_not_mem (hs : w.IsSound) (hf : w.IsFaithful) (hi : i ∉ w.table.searches) :
    w.Truthful i p := by
  have hseat : ∀ {b r}, w.table.seat? b ≠ some (i, r) := fun h => hi (hs.layout.launched h)
  have hnone : ∀ {remaining b x}, w.Fits i p remaining b x := by
    intro remaining b x
    exact ⟨fun h => absurd h hseat, fun h => absurd h hseat, fun h => absurd h hseat⟩
  refine ⟨fun _ => ⟨fun h => absurd h hseat, hnone⟩, fun _ => hnone,
    fun _ h => absurd h hseat, fun {x} hm => ?_⟩
  exact absurd (hf.mem_of_told hm) hi

/-- The results of a clause are empty or go beyond the trunk. -/
theorem results (h : w.Truthful i p) (hs : w.IsSound)
    (hj : w.table.junctions[j]? = some jn) (hp : w.table.seat? jn.parent = some (i, r))
    (hy : w.table.branches[c]? = some y) (hr : y.role = .clause j slot) (hx : x ∈ y.results) :
    x.OnVariables ∧ (x = ∅ ∨ x.Extends jn.trunk) := by
  rcases carries_of_mem_results hs hj hp hy hr hx with rfl | ⟨hx, hseat⟩
  · exact ⟨Bindings.onVariables_empty, .inl rfl⟩
  · have hfit := h.carried hx
    exact ⟨hfit.onVariables hseat, .inr (hfit.clause hseat hj)⟩

/-- What a junction reports fits the branch that it reports to. -/
theorem combination (h : w.Truthful i p) (hs : w.IsSound) (hr : jn.Reports w.table combos)
    (hx : x ∈ combos) : w.Fits i p [] jn.parent x := by
  obtain ⟨j, rss, hj, rfl, hrss⟩ := hr.exists_combine
  have htrunk := h.carried (.trunk hj)
  refine htrunk.more fun r hp => ?_
  refine Junction.extends_of_mem_combine (fun rs hrs v hv => ?_) (htrunk.onVariables hp)
    (.refl _) hx
  rcases hrss rs hrs with ⟨c, slot, y, hy, hrole, rfl⟩ | ⟨k, hold⟩
  · exact h.results hs hj hp hy hrole hv
  · exact h.slot hj hp hold hv

/-- **A path fits its branch, wherever it comes from.** -/
theorem path_of_origin (h : w.Truthful i p) (hs : w.IsSound) (hg : w.graph.Orderly)
    (hw : w.Before w') (hp : p.BindsVariables)
    (hstart : ∀ q, w'.told = w.told ++ [.started i q] → w.table.next = i → q = p)
    (ho : PathOrigin w w' f) : w'.FitsPath i p f := by
  cases ho with
  | same hf => exact (h.path hf).later hs.layout (hf.branch_lt hs) hw
  | waiting d hf =>
    have hold := (h.path hf).later hs.layout (hf.branch_lt hs) hw
    exact ⟨hold.scope, hold.fits⟩
  | @matched f₀ _ fs hf he hm =>
    have hold := h.path hf
    have hbranch := Frame.branch_of_mem_expand he hm
    have hnew : w.FitsPath i p f := by
      refine ⟨fun hseat => ?_, fun hseat => ?_, fun hseat => ?_, fun hseat hj => ?_⟩ <;>
        rw [hbranch] at hseat
      · rw [Frame.scope_of_mem_expand he hm]
        exact hold.scope hseat
      · exact (Frame.extends_of_mem_expand hg (hold.fits.onVariables hseat) he hm).1
      · exact Frame.matches_of_mem_expand hg (hold.fits.onVariables hseat)
          (hold.fits.root hseat) he hm
      · exact (Frame.extends_of_mem_expand hg (hold.fits.onVariables hseat) he hm).2.1.trans
          (hold.fits.clause hseat hj)
    exact hnew.later hs.layout (by rw [hbranch]; exact hf.branch_lt hs) hw
  | @clause f k c hf hr hc ht =>
    have hold := h.path hf
    obtain ⟨hk, -⟩ := List.getElem?_eq_some_iff.1 hc
    -- the branch of the clause is new, and so is the junction
    have hseat : ∀ {r : BranchRole}, w'.table.seat? (w.table.next + 1 + k) = some (i, r) →
        f.search = i ∧ r = .clause w.table.next k := by
      intro r hr'
      rw [ht, Searches.seat?_split_clause _ hk] at hr'
      cases hr'
      exact ⟨rfl, rfl⟩
    have hwas : f.search = i → ∃ r, w.table.seat? f.branch = some (i, r) := by
      rintro rfl
      exact hf.seats hs
    obtain ⟨q, hq, rfl⟩ : ∃ q ∈ f.scope.pattern.optionals, .inside f.scope.constraints q = c := by
      have hm := List.mem_of_getElem? hc
      exact List.mem_map.1 hm
    have hbinds : f.search = i → q.BindsVariables := by
      intro hi
      obtain ⟨r, hr'⟩ := hwas hi
      exact (hold.scope hr').optionals.mem hq
    refine ⟨fun hb => hbinds (hseat hb).1, fun hb => ?_, fun hb => ?_, fun hb hj => ?_⟩
    · obtain ⟨r, hr'⟩ := hwas (hseat hb).1
      exact (hbinds (hseat hb).1).initial.union (hold.fits.onVariables hr')
    · cases (hseat hb).2
    · cases (hseat hb).2
      rw [ht] at hj
      rcases of_getElem?_insert hj with ⟨-, rfl⟩ | hj
      · exact Bindings.extends_union _ _
      · change w.table.junctions[w.table.next]? = _ at hj
        exact absurd (mem_of_getElem? hj)
          hs.layout.next_not_mem_junctions
  | @launched config linked q ht htold =>
    have hseat : ∀ {r : BranchRole}, w'.table.seat? (w.table.next + 1) = some (i, r) →
        q = p ∧ r = .root := by
      intro r hr
      rw [ht, Sound.seat?_launch_root] at hr
      obtain ⟨hi, hrole⟩ := Prod.mk.inj (Option.some.inj hr)
      exact ⟨hstart q (hi ▸ htold) hi, hrole.symm⟩
    refine ⟨fun hb => ?_, fun hb => ?_, fun hb => ?_, fun hb hj => ?_⟩
    · exact (hseat hb).1 ▸ hp
    · exact (hseat hb).1 ▸ hp.initial
    · rw [← (hseat hb).1]
      exact Graph.matches_initial _ _
    · cases (hseat hb).2

end Truthful

/-- What a caller was told after a step: what he was told before, what the first
order tells, or that a search was started. -/
theorem Step.told_cases {n : Notice} (h : Step w w') (hn : n ∈ w'.told) :
    n ∈ w.told ∨ (∃ o ∈ w.orders, n ∈ o.notices) ∨
      ∃ q, n = .started w.table.next q ∧ w'.told = w.told ++ [.started w.table.next q] := by
  cases h with
  | handOver _ =>
    rcases List.mem_append.1 hn with hn | hn
    · exact .inl hn
    · exact .inr (.inl ⟨_, List.mem_cons_self, hn⟩)
  | @launch g t os told config linked q _ =>
    rcases List.mem_append.1 hn with hn | hn
    · exact .inl hn
    · exact .inr (.inr ⟨q, List.mem_singleton.1 hn, rfl⟩)
  | _ => exact .inl hn

/-- A match that a caller was told of after a step he was told of before, or it
was on its way to the root branch. -/
theorem Step.found_cases (h : Step w w') (hs : w.IsSound) (hn : .found i x ∈ w'.told) :
    .found i x ∈ w.told ∨
      (w.Carries (i + 1) x ∧ w.table.seat? (i + 1) = some (i, .root)) := by
  rcases h.told_cases hn with hn | ⟨o, ho, hn⟩ | ⟨q, hq, -⟩
  · exact .inl hn
  · obtain rfl : o = .deliver i x := by
      cases o with
      | deliver k m =>
        obtain ⟨rfl, rfl⟩ : i = k ∧ x = m := by simpa [Order.notices] using hn
        rfl
      | _ => simp [Order.notices] at hn
    exact .inr ⟨.order ho ⟨rfl, rfl⟩, hs.rooted ho rfl⟩
  · cases hq

/-- **A search is started once.** What is true of searches that were not started
and of this one, and what a step keeps unless it starts the search for another
pattern, is true of the search after the step. -/
theorem Step.of_started {P : Scene → Prop} (h : Step w w') (hs : w.IsSound) (hf : w.IsFaithful)
    (hi : .started i p ∈ w'.told) (hnew : i ∉ w.table.searches → P w)
    (hold : .started i p ∈ w.told → P w)
    (hkeep : P w → (∀ q, w'.told = w.told ++ [.started i q] → w.table.next = i → q = p) → P w') :
    P w' := by
  rcases h.told_cases hi with hstarted | ⟨o, -, hn⟩ | ⟨q, hq, htold⟩
  · refine hkeep (hold hstarted) fun q _ hnext => ?_
    have hlt : i + 1 < w.table.next := hs.layout.search_lt (hf.mem_of_told hstarted)
    subst hnext
    omega
  · cases o <;> simp [Order.notices] at hn
  · obtain ⟨rfl, rfl⟩ : i = w.table.next ∧ p = q := by simpa using hq
    refine hkeep (hnew hs.layout.next_not_mem_searches) fun q htold' _ => ?_
    have heq := List.append_cancel_left (htold.symm.trans htold')
    cases heq
    rfl

/-- What was true stays true, and no search is started anew for another
pattern. -/
theorem Truthful.step (h : w.Truthful i p) (hstep : Step w w') (hs : w.IsSound)
    (hg : w.graph.Orderly) (hp : p.BindsVariables)
    (hstart : ∀ q, w'.told = w.told ++ [.started i q] → w.table.next = i → q = p) :
    w'.Truthful i p := by
  have hbefore := hstep.before hs
  refine ⟨fun hf => ?_, fun {b x} hx => ?_, fun {j k jn rs r x} hj hseat hk hx => ?_,
    fun {x} hn => ?_⟩
  · exact h.path_of_origin hs hg hbefore hp hstart (hstep.pathOrigin hs hf)
  · cases hstep.matchOrigin hs hx with
    | same hx => exact (h.carried hx).later hs.layout (hx.branch_lt hs) hbefore
    | found hf hr =>
      have hfit := (h.path hf.walks).fits
      rw [hr] at hfit
      exact hfit.later hs.layout (hf.walks.branch_lt hs) hbefore
    | combined hr hm =>
      obtain ⟨j, slot, c, y, hj, -⟩ := hr.filled
      exact (h.combination hs hr hm).later hs.layout (hs.parent_lt hj) hbefore
  · have hold : ∀ {jn' : Junction}, w.table.junctions[j]? = some jn' →
        jn.parent = jn'.parent → w.table.seat? jn'.parent = some (i, r) := by
      intro jn' hj' hparent
      rw [hparent] at hseat
      exact hbefore.table.seat (hs.parent_lt hj') hseat
    cases hstep.slotOrigin hs hj hk with
    | same hj' htrunk hparent hk' =>
      rw [htrunk]
      exact h.slot hj' (hold hj' hparent) hk' hx
    | filled hj' htrunk hparent hy hr hrs =>
      subst hrs
      rw [htrunk]
      exact h.results hs hj' (hold hj' hparent) hy hr hx
  · rcases hstep.found_cases hs hn with hn | ⟨hx, hseat⟩
    · obtain ⟨hm, hv⟩ := h.told hn
      exact ⟨hm.mono hbefore.graph (.refl x) hv, hv⟩
    · have hfit := h.carried hx
      have hv := hfit.onVariables hseat
      exact ⟨(hfit.root hseat).mono hbefore.graph (.refl x) hv, hv⟩

/-- What is true of a search that callers know of, for a pattern that fixes
values of variables only. -/
def IsTruthful (w : Scene) : Prop :=
  ∀ i p, .started i p ∈ w.told → p.BindsVariables → w.Truthful i p

/-- **Whatever happens, callers are told of true matches only.** -/
theorem Step.truthful (h : Step w w') (hs : w.IsSound) (hf : w.IsFaithful)
    (hg : w.graph.Orderly) (ht : w.IsTruthful) : w'.IsTruthful := by
  intro i p hstarted hp
  exact h.of_started (P := fun u => u.Truthful i p) hs hf hstarted
    (fun hi => .of_not_mem hs hf hi) (fun hold => ht i p hold hp)
    fun htrue hstart => htrue.step h hs hg hp hstart

end Scene

end TripleQuery
