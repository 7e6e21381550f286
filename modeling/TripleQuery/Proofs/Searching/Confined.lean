import TripleQuery.Proofs.Joining.Pursuit
import TripleQuery.Proofs.Searching.Truth
/-!
# Confinement — what the branches of a search may bind

Every branch of a search stands at a pattern of the tree, with what its
junction's trunk binds (`Searches.Stands`). Its paths go after the variables of
that pattern, so a trunk binds what validation takes to be bound, no more and
no less, and each clause goes beyond it by variables of its own
(`Scene.Confined`). This is kept from step to step, whatever the store. In a
pattern that makes sense the clauses of a junction are therefore apart
(`Scene.Confined.apart`), and one result of each is put together with the trunk
without conflict (`Scene.Confined.conflictFree`).
-/

namespace TripleQuery

open Std (ExtTreeMap)

variable {t t' : Searches} {w w' : Scene} {i j k b : Nat} {p q c : Pattern}
  {base x : Bindings} {f : Frame} {jn : Junction}

/-! ## Where branches stand -/

namespace Searches

/-- Branch `b` of search `i`, which is for pattern `p`, is for one pattern of the
tree, and starts from what is bound there. -/
inductive Stands (t : Searches) (i : Nat) (p : Pattern) : Nat → Pattern → Bindings → Prop
  /-- The root branch is for the whole pattern. -/
  | root {b : Nat} : t.seat? b = some (i, .root) → Stands t i p b p ∅
  /-- The branch of a clause is for the clause, and starts from the trunk. -/
  | clause {b j k : Nat} {jn : Junction} {q c : Pattern} {base : Bindings} :
      t.seat? b = some (i, .clause j k) → t.junctions[j]? = some jn →
      Stands t i p jn.parent q base → q.optionals[k]? = some c → Stands t i p b c jn.trunk

namespace Stands

theorem seat (h : t.Stands i p b q base) : ∃ r, t.seat? b = some (i, r) := by
  cases h with
  | root hs => exact ⟨_, hs⟩
  | clause hs _ _ _ => exact ⟨_, hs⟩

/-- Every pattern of the tree fixes values of variables only. -/
theorem bindsVariables (h : t.Stands i p b q base) (hp : p.BindsVariables) :
    q.BindsVariables := by
  induction h with
  | root _ => exact hp
  | clause _ _ _ hc ih => exact ih.optionals.mem (List.mem_of_getElem? hc)

/-- **Where a branch stands now, it stood before.** -/
theorem earlier (h : t'.Stands i p b q base) (hl : Layout t) (hb : b < t.next)
    (ht : t.Before t') : t.Stands i p b q base := by
  induction h with
  | root hs => exact .root (ht.seat hb hs)
  | @clause b j k jn q c base hs hj _ hc ih =>
    have hseat := ht.seat hb hs
    -- the junction that the branch reports to was there, and so was its parent
    obtain ⟨-, jn', hjn', -⟩ := hl.clause hseat
    have hjlt := hl.junction_lt (mem_of_getElem? hjn')
    obtain ⟨jn₀, hjn₀, htrunk, hparent⟩ := ht.junction hjlt hj
    have hplt : jn.parent < t.next := by
      rw [hparent]
      exact Nat.lt_trans (hl.parent_lt hjn₀) hjlt
    have hstood := ih hplt
    rw [hparent] at hstood
    rw [htrunk]
    exact .clause hseat hjn₀ hstood hc

end Stands

end Searches

/-! ## Junctions that are complete -/

/-- The last clause of a junction of search `i` hands over what it found: these
are the results of all its clauses. -/
structure Junction.Combines (t : Searches) (i : Nat) (jn : Junction)
    (rss : List (List Bindings)) : Prop where
  filled : ∃ (j slot b : Nat) (y : Branch), t.junctions[j]? = some jn ∧
    t.branches[b]? = some y ∧ y.search = i ∧ y.role = .clause j slot ∧
    (jn.fill slot y.results).slots = rss.map some

/-- The branch that is reported to belongs to that search. -/
theorem Junction.Combines.seat {rss : List (List Bindings)} (h : jn.Combines t i rss)
    (hl : Layout t) : ∃ r, t.seat? jn.parent = some (i, r) := by
  obtain ⟨j, slot, b, y, hj, hy, rfl, hr, -⟩ := h.filled
  exact (hl.waits_for hy hr hj).2.2

/-- What is reported then is what is combined then. -/
theorem Junction.Reports.combines {combos : List Bindings} (h : jn.Reports t combos) :
    ∃ i rss, jn.Combines t i rss ∧ combos = combine jn.trunk rss := by
  obtain ⟨j, slot, b, y, hj, hy, hr, hc⟩ := h.filled
  obtain ⟨rss, hslots, rfl⟩ := combinations?_eq_some_iff.1 hc
  exact ⟨y.search, rss, ⟨j, slot, b, y, hj, hy, rfl, hr, hslots⟩, rfl⟩

namespace Scene

/-! ## What is confined -/

/-- **What search `i`, which is for pattern `p`, binds in a scene.** -/
structure Confined (w : Scene) (i : Nat) (p : Pattern) : Prop where
  /-- Paths bind the variables of the pattern that they are at. -/
  path {f : Frame} {q : Pattern} {base : Bindings} :
    w.Walks f → w.table.Stands i p f.branch q base → f.Pursues q base
  /-- So do matches. -/
  carried {b : Nat} {x : Bindings} {q : Pattern} {base : Bindings} :
    w.Carries b x → w.table.Stands i p b q base → q.Spans base x
  /-- A junction has a place for each clause, and its trunk binds the variables
  of the triples and nothing else. -/
  places {j : Nat} {jn : Junction} {q : Pattern} {base : Bindings} :
    w.table.junctions[j]? = some jn → w.table.Stands i p jn.parent q base →
    jn.slots.length = q.optionals.length
  trunk {j : Nat} {jn : Junction} {q : Pattern} {base : Bindings} :
    w.table.junctions[j]? = some jn → w.table.Stands i p jn.parent q base →
    q.IsTrunk base jn.trunk
  /-- What fills a place is what the clause may contribute. -/
  slot {j k : Nat} {jn : Junction} {q c : Pattern} {base x : Bindings} {rs : List Bindings} :
    w.table.junctions[j]? = some jn → w.table.Stands i p jn.parent q base →
    jn.slots[k]? = some (some rs) → q.optionals[k]? = some c → x ∈ rs →
    c.Contributes jn.trunk x

namespace Confined

variable {y : Branch} {slot n : Nat} {rss : List (List Bindings)} {choice combos : List Bindings}

/-- Nothing is known of a search that was not started. -/
theorem of_not_mem (hs : w.IsSound) (hi : i ∉ w.table.searches) : w.Confined i p := by
  have hnone : ∀ {b q base}, ¬ w.table.Stands i p b q base := fun h => by
    obtain ⟨r, hr⟩ := h.seat
    exact hi (hs.layout.launched hr)
  exact ⟨fun _ h => absurd h hnone, fun _ h => absurd h hnone, fun _ h => absurd h hnone,
    fun _ h => absurd h hnone, fun _ h => absurd h hnone⟩

/-- **Every branch of the search stands at some pattern of the tree.** -/
theorem exists_stands (h : w.Confined i p) (hs : w.IsSound) {r : BranchRole}
    (hb : w.table.seat? b = some (i, r)) : ∃ q base, w.table.Stands i p b q base := by
  induction b using Nat.strong_induction_on generalizing r with
  | _ b ih =>
    cases r with
    | root => exact ⟨p, ∅, .root hb⟩
    | clause j k =>
      obtain ⟨-, jn, hjn, hopen, r', hparent⟩ := hs.layout.clause hb
      obtain ⟨q, base, hq⟩ := ih _ (hs.layout.parent_lt_clause hb hjn) hparent
      -- the place that is kept open for the branch is one of a clause
      obtain ⟨hk, -⟩ := List.getElem?_eq_some_iff.1 hopen
      rw [h.places hjn hq] at hk
      exact ⟨_, _, .clause hb hjn hq (List.getElem?_eq_getElem hk)⟩

/-- **Every pattern of the tree makes sense where a branch stands at it**, if
the whole pattern does. -/
theorem valid (h : w.Confined i p) (hp : p.validate = .ok ())
    (hq : w.table.Stands i p b q base) : q.validateIn base.keySet = .ok () := by
  induction hq with
  | root _ =>
    rw [Bindings.keySet_empty]
    exact hp
  | clause _ hj hparent hc ih =>
    exact (h.trunk hj hparent).validateIn ih (List.mem_of_getElem? hc)

/-- **The clauses of a junction are apart**: the trunk binds every variable
that two of them have in common. -/
theorem apart (h : w.Confined i p) (hp : p.validate = .ok ()) (hj : w.table.junctions[j]? = some jn)
    (hq : w.table.Stands i p jn.parent q base) :
    q.optionals.Pairwise (Pattern.ApartFrom jn.trunk) :=
  (h.trunk hj hq).apart (h.valid hp hq)

/-! ## What junctions put together -/

/-- What a complete clause hands to its junction is what it may contribute. -/
theorem results (h : w.Confined i p) (hs : w.IsSound) (hj : w.table.junctions[j]? = some jn)
    (hq : w.table.Stands i p jn.parent q base) (hy : w.table.branches[b]? = some y)
    (hr : y.role = .clause j slot) (hc : q.optionals[slot]? = some c) (hx : x ∈ y.results) :
    c.Contributes jn.trunk x := by
  obtain ⟨r, hparent⟩ := hq.seat
  rcases carries_of_mem_results hs hj hparent hy hr hx with hempty | ⟨hx, hseat⟩
  · exact .inl hempty
  · exact .inr (h.carried hx (.clause hseat hj hq hc))

/-- **One result of each clause is a contribution of each clause.** -/
theorem contributions (h : w.Confined i p) (hs : w.IsSound)
    (hq : w.table.Stands i p jn.parent q base) (hcombines : jn.Combines w.table i rss)
    (hchoice : List.Forall₂ (· ∈ ·) choice rss) :
    List.Forall₂ (fun c r => c.Contributes jn.trunk r) q.optionals choice := by
  obtain ⟨j, slot, b, y, hj, hy, -, hr, hslots⟩ := hcombines.filled
  have hlen : q.optionals.length = choice.length := by
    have hplaces : (jn.fill slot y.results).slots.length = rss.length := by
      rw [hslots, List.length_map]
    rw [← h.places hj hq, hchoice.length_eq, ← hplaces]
    exact List.length_set.symm
  refine List.forall₂_iff_get.2 ⟨hlen, fun n hn hn' => ?_⟩
  obtain ⟨hrss, hmem⟩ := List.forall₂_iff_get.1 hchoice
  have hn'' : n < rss.length := hrss ▸ hn'
  have hfilled : (jn.fill slot y.results).slots[n]? = some (some (rss.get ⟨n, hn''⟩)) := by
    rw [hslots, List.getElem?_map, List.getElem?_eq_getElem hn'']
    rfl
  have hclause : q.optionals[n]? = some (q.optionals.get ⟨n, hn⟩) := List.getElem?_eq_getElem hn
  rcases Junction.getElem?_fill hfilled with ⟨hslot, hrs⟩ | hold
  · refine h.results hs hj hq hy hr (hslot ▸ hclause) ?_
    rw [← hrs]
    exact hmem n hn' hn''
  · exact h.slot hj hq hold hclause (hmem n hn' hn'')

/-- **What a junction puts together goes together.** -/
theorem conflictFree (h : w.Confined i p) (hs : w.IsSound) (hp : p.validate = .ok ())
    (hcombines : jn.Combines w.table i rss) (hchoice : List.Forall₂ (· ∈ ·) choice rss) :
    jn.trunk.ConflictFree choice := by
  obtain ⟨r, hseat⟩ := hcombines.seat hs.layout
  obtain ⟨q, base, hq⟩ := h.exists_stands hs hseat
  obtain ⟨j, -, -, -, hj, -⟩ := hcombines.filled
  exact Bindings.conflictFree_of_pairwise
    (Pattern.pairwise_agrees (h.apart hp hj hq) (h.contributions hs hq hcombines hchoice))

/-- What a junction reports spans the pattern of the branch it reports to. -/
theorem combination (h : w.Confined i p) (hs : w.IsSound) (hp : p.validate = .ok ())
    (hr : jn.Reports w.table combos) (hx : x ∈ combos)
    (hq : w.table.Stands i p jn.parent q base) : q.Spans base x := by
  obtain ⟨k, rss, hcombines, rfl⟩ := hr.combines
  obtain ⟨choice, hchoice, rfl⟩ := Junction.mem_combine_iff.1 hx
  -- the search is the one that the branch belongs to
  obtain ⟨r, hseat⟩ := hcombines.seat hs.layout
  obtain ⟨r', hseat'⟩ := hq.seat
  obtain rfl : k = i := by
    rw [hseat] at hseat'
    exact congrArg Prod.fst (Option.some.inj hseat')
  obtain ⟨j, -, -, -, hj, -⟩ := hcombines.filled
  exact (h.carried (.trunk hj) hq).joined (h.apart hp hj hq)
    (h.contributions hs hq hcombines hchoice)

/-! ## What becomes of it -/

/-- **A path is confined, wherever it comes from.** -/
theorem path_of_origin (h : w.Confined i p) (hs : w.IsSound) (hw : w.Before w')
    (hp : p.BindsVariables)
    (hstart : ∀ q, w'.told = w.told ++ [.started i q] → w.table.next = i → q = p)
    (ho : PathOrigin w w' f) (hq : w'.table.Stands i p f.branch q base) : f.Pursues q base := by
  cases ho with
  | same hf => exact h.path hf (hq.earlier hs.layout (hf.branch_lt hs) hw.table)
  | waiting d hf =>
    have hold := h.path hf (hq.earlier hs.layout (hf.branch_lt hs) hw.table)
    exact ⟨hold.pattern, hold.onVariables, hold.extends_, hold.mem_iff⟩
  | @matched f₀ _ fs hf he hm =>
    rw [Frame.branch_of_mem_expand he hm] at hq
    exact (h.path hf (hq.earlier hs.layout (hf.branch_lt hs) hw.table)).expand he hm
  | @clause f k s hf hr hc ht =>
    obtain ⟨hk, -⟩ := List.getElem?_eq_some_iff.1 hc
    have hseat : w'.table.seat? (w.table.next + 1 + k) =
        some (f.search, .clause w.table.next k) := by
      rw [ht, Searches.seat?_split_clause _ hk]
    have hjunction : w'.table.junctions[w.table.next]? =
        some ⟨f.bindings, f.branch, List.replicate f.scope.clauses.length none⟩ := by
      rw [ht]
      exact ExtTreeMap.getElem?_insert_self
    change w'.table.Stands i p (w.table.next + 1 + k) q base at hq
    cases hq with
    | root hs' => simp [hseat] at hs'
    | clause hs' hj hparent hclause =>
      -- the new branch is the one of the clause, and the trunk is what the path has bound
      obtain ⟨rfl, rfl, rfl⟩ : f.search = i ∧ w.table.next = _ ∧ k = _ := by
        simpa [hseat] using hs'
      obtain rfl := Option.some.inj (hjunction.symm.trans hj)
      have hstood := hparent.earlier hs.layout (hf.branch_lt hs) hw.table
      have hold := h.path hf hstood
      obtain rfl : s = .inside f.scope.constraints q := by
        rw [Scope.clauses, List.getElem?_map, hold.pattern, hclause] at hc
        exact (Option.some.inj hc).symm
      have hbinds := (hstood.bindsVariables hp).optionals.mem (List.mem_of_getElem? hclause)
      exact Frame.pursues_enter (Pattern.starts_clause hbinds.initial hold.onVariables)
  | @launched config linked q' ht htold =>
    have hseat : w'.table.seat? (w.table.next + 1) = some (w.table.next, .root) := by
      rw [ht, Sound.seat?_launch_root]
    change w'.table.Stands i p (w.table.next + 1) q base at hq
    cases hq with
    | root hs' =>
      obtain rfl : w.table.next = i := by simpa [hseat] using hs'
      obtain rfl := hstart q' htold rfl
      exact Frame.pursues_enter (s := .ofPattern q') (Pattern.starts_root hp.initial)
    | clause hs' _ _ _ => simp [hseat] at hs'

/-- **What is confined stays confined.** -/
theorem step (h : w.Confined i p) (hstep : Step w w') (hs : w.IsSound) (hp : p.BindsVariables)
    (hv : p.validate = .ok ())
    (hstart : ∀ q, w'.told = w.told ++ [.started i q] → w.table.next = i → q = p) :
    w'.Confined i p := by
  have hbefore := hstep.before hs
  have hparent : ∀ {j : Nat} {jn jn' : Junction} {q base}, w.table.junctions[j]? = some jn' →
      jn.parent = jn'.parent → w'.table.Stands i p jn.parent q base →
      w.table.Stands i p jn'.parent q base := by
    intro j jn jn' q base hj' hpar hq
    rw [hpar] at hq
    exact hq.earlier hs.layout (hs.parent_lt hj')
      hbefore.table
  -- a path that has come to its clauses stood where its junction reports to
  have hopened : ∀ {jn : Junction} {f : Frame} {q base}, w.Explores f → jn.parent = f.branch →
      w'.table.Stands i p jn.parent q base → f.Pursues q base := by
    intro jn f q base hf hpar hq
    rw [hpar] at hq
    exact h.path hf.walks (hq.earlier hs.layout (hf.walks.branch_lt hs) hbefore.table)
  refine ⟨fun hf hq => ?_, fun hx hq => ?_, fun hj hq => ?_, fun hj hq => ?_,
    fun hj hq hk hc hx => ?_⟩
  · exact h.path_of_origin hs hbefore hp hstart (hstep.pathOrigin hs hf) hq
  · cases hstep.matchOrigin hs hx with
    | same hx => exact h.carried hx (hq.earlier hs.layout (hx.branch_lt hs) hbefore.table)
    | found hf hr =>
      have hold := h.path hf.walks (hq.earlier hs.layout (hf.walks.branch_lt hs) hbefore.table)
      exact (hold.isTrunk hr).spans
    | combined hr hm =>
      obtain ⟨j, slot, c, y, hj, -⟩ := hr.filled
      exact h.combination hs hv hr hm (hparent hj rfl hq)
  · cases hstep.junctionOrigin hs hj with
    | same hj' _ hpar hlen =>
      rw [hlen]
      exact h.places hj' (hparent hj' hpar hq)
    | opened hf _ _ hpar hlen =>
      rw [hlen, Scope.clauses, List.length_map, (hopened hf hpar hq).pattern]
  · cases hstep.junctionOrigin hs hj with
    | same hj' htrunk hpar _ =>
      rw [htrunk]
      exact h.trunk hj' (hparent hj' hpar hq)
    | opened hf hr htrunk hpar _ =>
      rw [htrunk]
      exact (hopened hf hpar hq).isTrunk hr
  · cases hstep.slotOrigin hs hj hk with
    | same hj' htrunk hpar hk' =>
      rw [htrunk]
      exact h.slot hj' (hparent hj' hpar hq) hk' hc hx
    | filled hj' htrunk hpar hy hr hrs =>
      rw [htrunk]
      exact h.results hs hj' (hparent hj' hpar hq) hy hr hc (hrs ▸ hx)

end Confined

/-- Every search that callers know of is confined, if its pattern makes sense
and fixes values of variables only. -/
def IsConfined (w : Scene) : Prop :=
  ∀ i p, .started i p ∈ w.told → p.BindsVariables → p.validate = .ok () → w.Confined i p

/-- **Whatever happens, searches stay confined.** -/
theorem Step.confined (h : Step w w') (hs : w.IsSound) (hf : w.IsFaithful) (hc : w.IsConfined) :
    w'.IsConfined := by
  intro i p hstarted hp hv
  exact h.of_started (P := fun u => u.Confined i p) hs hf hstarted
    (fun hi => .of_not_mem hs hi) (fun hold => hc i p hold hp hv)
    fun hconfined hstart => hconfined.step h hs hp hv hstart

/-- Every scene that follows on a confined one is confined. -/
theorem Steps.confined (h : Steps w w') (hs : w.IsSound) (hf : w.IsFaithful)
    (hc : w.IsConfined) : w'.IsConfined := by
  have hkeep := h.preserves (P := fun v => v.IsFaithful ∧ v.IsConfined)
    (fun hstep hs hv => ⟨hstep.faithful hs hv.1, hstep.confined hs hv.1 hv.2⟩) hs ⟨hf, hc⟩
  exact hkeep.2.2

end Scene

end TripleQuery
