import TripleQuery.Proofs.Searching.Ledger
/-!
# Forecasts — what a job changes in what is foreseen

A job of a search that reaches no documents leaves the forecast of the search as
it is, or takes the first match that was foreseen, or meets the error that was
foreseen; and the work of other searches does not touch it (`Outlook`,
`Transition.outlook`).
-/

namespace TripleQuery

open Std (ExtTreeMap)

variable {g : Graph} {t t' : Searches} {os rest : List Order} {job : Job} {env : Surroundings}
  {f : Frame} {x x' : Search} {i n : Nat}

/-- A search that goes on as it did, but for what concerns its caller. -/
structure Search.Abides (x x' : Search) : Prop where
  config : x'.config = x.config
  linked : x'.linked = x.linked
  stopped : x'.stopped = x.stopped
  cancelled : x'.cancelled = x.cancelled
  truncated : x'.truncated = x.truncated
  error : x'.error = x.error
  matchCount : x'.matchCount = x.matchCount
  fetches : x'.fetches = x.fetches

theorem Search.Abides.refl (x : Search) : x.Abides x :=
  ⟨rfl, rfl, rfl, rfl, rfl, rfl, rfl, rfl⟩

/-- What a job means to the forecast of a search that reaches no documents. -/
inductive Outlook (g : Graph) (L L' : Ledger) (x : Search) (job : Job) (x' : Search)
    (os : List Order) : Prop
  /-- What was foreseen stays the same. -/
  | same : x.Abides x' →
      (x.stopped = false → ∀ k, L.carryOut g k (.job job) = foresee g os k L') →
      Outlook g L L' x job x' os
  /-- The first match that was foreseen is taken. -/
  | took {b : Id} {m : Bindings} {ms : List Bindings} : job = .report b (m :: ms) →
      x.stopped = false → (x.take m).Abides x' →
      (∀ k, L.carryOut g k (.job job) = .of [m] + foresee g os k L') →
      Outlook g L L' x job x' os
  /-- The error that was foreseen is met. -/
  | failed {e : QueryError} : x.stopped = false → (x.fail e).Abides x' →
      (∀ k, L.carryOut g k (.job job) = .failing e) → Outlook g L L' x job x' os

/-- What is written for one search leaves the others as they are. -/
theorem outlook_insert {L L' : Ledger} {z z' : Search} (hz : t.searches[n]? = some z)
    (hx : t.searches[i]? = some x) (hown : n = i → z = x → Outlook g L L' x job z' os)
    (hother : n ≠ i → Outlook g L L' x job x os) :
    ∃ x', (t.searches.insert n z')[i]? = some x' ∧ Outlook g L L' x job x' os := by
  rw [ExtTreeMap.getElem?_insert]
  by_cases hn : n = i
  · subst hn
    obtain rfl : z = x := Option.some.inj (hz.symm.trans hx)
    exact ⟨z', by simp, hown rfl rfl⟩
  · exact ⟨x, by simp [hn, hx], hother hn⟩

/-- Work for other searches leaves the forecast as it is. -/
theorem outlook_of_ignores {L : Ledger}
    (hjob : ∀ b, (Order.job job).branch? = some b → L.branch b = none) (hos : L.Ignores os) :
    Outlook g L L x job x os :=
  .same (.refl x) fun _ k => by rw [Ledger.carryOut_of_none hjob, foresee_of_ignores hos]

/-- Work on a branch of another search leaves the forecast as it is. -/
theorem outlook_of_none {L : Ledger} {b : Id} (hb : L.branch b = none)
    (hjob : (Order.job job).branch? = some b)
    (hos : ∀ o ∈ os, ∀ c, o.branch? = some c → c = b) : Outlook g L L x job x os := by
  refine outlook_of_ignores (fun c hc => ?_) fun o ho c hc => ?_
  · rwa [← Option.some.inj (hjob.symm.trans hc)]
  · rwa [hos o ho c hc]

/-! ## Paths -/

/-- A path is on a branch of its search. -/
theorem Sound.branch_of_frame? (hs : Sound t (.job job :: rest))
    (hf : (Order.job job).frame? = some f) :
    ∃ y, t.branches[f.branch]? = some y ∧ y.search = f.search := by
  obtain ⟨r, hr⟩ := hs.seated List.mem_cons_self hf
  obtain ⟨y, hy⟩ := exists_getElem? (Searches.mem_of_seat? hr)
  rw [Searches.seat?_of_getElem? hy] at hr
  exact ⟨y, hy, congrArg Prod.fst (Option.some.inj hr)⟩

/-- The paths of other searches are on branches that are not in the ledger. -/
theorem Sound.ledger_of_frame? (hs : Sound t (.job job :: rest))
    (hf : (Order.job job).frame? = some f) (hne : f.search ≠ i) :
    (t.ledger i).branch f.branch = none := by
  obtain ⟨y, hy, hi⟩ := hs.branch_of_frame? hf
  exact Searches.branch_ledger_of_ne hy (hi ▸ hne)

/-- **Going on into the clauses finds what was foreseen.** -/
theorem foresee_split (hs : Sound t (.job (.step f) :: rest)) (hi : f.search = i)
    (hr : f.remaining = []) (hc : f.scope.clauses ≠ []) (k : Ledger → Course) :
    (t.ledger i).carryOut g k (.job (.step f)) =
      foresee g (t.split f).2 k ((t.split f).1.ledger i) := by
  have hl := hs.layout
  obtain ⟨r, hseat⟩ : t.Seats f := hs.seated List.mem_cons_self rfl
  obtain ⟨y, hy⟩ := exists_getElem? (Searches.mem_of_seat? hseat)
  have hsearch : y.search = i := by
    rw [Searches.seat?_of_getElem? hy] at hseat
    rw [← hi]
    exact congrArg Prod.fst (Option.some.inj hseat)
  have hne : f.scope.pattern.optionals ≠ [] := fun h => hc (List.map_eq_nil_iff.2 h)
  have hnew : (t.ledger i).IsNew t.next := by
    refine ⟨fun hle => Searches.branch_ledger_of_not_mem (hl.not_mem_branches hle), ?_⟩
    have hnone : t.junctions[t.next]? = none :=
      ExtTreeMap.getElem?_eq_none hl.next_not_mem_junctions
    simp only [Searches.ledger, hnone]
    rfl
  have hclauses := Ledger.foresee_clauses (g := g) (i := i) hnew
    (hl.branch_lt (mem_of_getElem? hy)) (Searches.branch_ledger hy hsearch) hne []
    f.scope.constraints f.bindings f.awaited k
  have hos : (t.split f).2 = f.scope.pattern.optionals.mapIdx fun n p => .job (.start
      (.enter i (t.next + 1 + (0 + n)) (.inside f.scope.constraints p) (p.initial ∪ f.bindings)
        f.awaited)) := by
    refine List.ext_getElem? fun n => ?_
    rw [Searches.split, List.getElem?_mapIdx, List.getElem?_mapIdx, Scope.clauses,
      List.getElem?_map, Option.map_map, hi, Nat.zero_add]
    rfl
  rw [Searches.ledger_split hl hseat fun j jn hj => hs.accounted.mem_of_junction hj, if_pos hi,
    Ledger.carryOut, Frame.course_of_nil hr, hos]
  simpa [Scope.clauses, Course.join] using hclauses.symm

/-- **What going on with a path means to a forecast.** -/
theorem Transition.outlook_step (hs : Sound t (.job (.step f) :: rest))
    (ht : Transition env t (.step f) t' os) (hx : t.searches[i]? = some x)
    (hlink : x.linked = false) :
    ∃ x', t'.searches[i]? = some x' ∧
      Outlook env.graph (t.ledger i) (t'.ledger i) x (.step f) x' os := by
  cases ht with
  | @halted _ z hz hstop =>
    by_cases hi : f.search = i
    · subst hi
      obtain rfl := Option.some.inj (hz.symm.trans hx)
      refine ⟨z, hx, .same (.refl z) fun hgoes => ?_⟩
      rw [hstop] at hgoes
      cases hgoes
    · exact ⟨x, hx, outlook_of_none (hs.ledger_of_frame? rfl hi) rfl (by simp [Order.branch?])⟩
  | @asked _ z d hz _ hd _ | @awaited _ z d hz _ hd _ =>
    by_cases hi : f.search = i
    · subst hi
      obtain rfl := Option.some.inj (hz.symm.trans hx)
      simp [Search.nextFetch, hlink] at hd
    · exact ⟨x, hx, outlook_of_none (hs.ledger_of_frame? rfl hi) rfl (by simp [Order.branch?])⟩
  | exhausted _ _ _ hr hc =>
    refine ⟨x, hx, .same (.refl x) fun _ k => ?_⟩
    have hcourse : f.course env.graph = .of [f.bindings] := by
      have hnone : f.scope.pattern.optionals = [] := List.map_eq_nil_iff.1 hc
      rw [Frame.course_of_nil hr, hnone]
      simp only [clauseCourses]
      rfl
    rw [Ledger.carryOut, hcourse]
    rfl
  | split _ _ _ hr hc =>
    obtain ⟨r, hseat⟩ : t.Seats f := hs.seated List.mem_cons_self rfl
    have hpar : ∀ (j : Nat) (jn : Junction), t.junctions[j]? = some jn → jn.parent ∈ t.branches :=
      fun j jn hj => hs.accounted.mem_of_junction hj
    by_cases hi : f.search = i
    · exact ⟨x, hx, .same (.refl x) fun _ k => foresee_split hs hi hr hc k⟩
    · have hnone := hs.ledger_of_frame? rfl hi
      rw [Searches.ledger_split hs.layout hseat hpar, if_neg hi]
      refine ⟨x, hx, outlook_of_ignores (by simpa [Order.branch?] using hnone) fun o ho b hb => ?_⟩
      -- the branches of the clauses are new
      obtain ⟨n, hn, rfl⟩ := List.mem_mapIdx.1 ho
      cases hb
      refine Searches.branch_ledger_of_not_mem (hs.layout.not_mem_branches ?_)
      exact Nat.le_trans (Nat.le_succ _) (Nat.le_add_right ..)
  | @failed _ z e hz hgoes _ hr he =>
    refine outlook_insert hz hx (fun hi hzx => ?_) fun hi => ?_
    · subst hzx
      obtain ⟨y, hy, hsearch⟩ := hs.branch_of_frame? rfl
      have hbranch := Searches.branch_ledger hy (hsearch.trans hi)
      refine .failed hgoes (.refl _) fun k => ?_
      rw [Ledger.carryOut, Frame.course_of_error hr he]
      exact Ledger.add_failing hbranch e _
    · exact outlook_of_none (hs.ledger_of_frame? rfl hi) rfl (by simp [Order.branch?])
  | @expanded _ z y fs _ _ _ hr he hy =>
    refine ⟨x, hx, ?_⟩
    rw [Searches.ledger_insert hy { y with holders := y.holders + fs.length } rfl rfl]
    have hbranch : ∀ f' ∈ fs, f'.branch = f.branch := fun f' hf' =>
      Frame.branch_of_mem_expand he hf'
    by_cases hi : y.search = i
    · rw [if_pos hi]
      have hL := Searches.branch_ledger hy hi
      refine .same (.refl x) fun _ k => ?_
      rw [Ledger.carryOut, Frame.course_of_expand hr he, foresee_append,
        ← Ledger.hold_of_branch hL, Ledger.foresee_steps hL (hs.layout.positive hy) hbranch]
      rfl
    · rw [if_neg hi]
      refine outlook_of_none (Searches.branch_ledger_of_ne hy hi) rfl fun o ho b hb => ?_
      rcases List.mem_append.1 ho with ho | ho
      · obtain ⟨f', hf', rfl⟩ := List.mem_map.1 ho
        cases hb
        exact hbranch f' hf'
      · obtain rfl := List.mem_singleton.1 ho
        cases hb
        rfl

/-! ## Reports and complete branches -/

/-- **What a report means to a forecast.** -/
theorem Transition.outlook_report {b : Id} {ms : List Bindings}
    (ht : Transition env t (.report b ms) t' os) (hx : t.searches[i]? = some x) :
    ∃ x', t'.searches[i]? = some x' ∧
      Outlook env.graph (t.ledger i) (t'.ledger i) x (.report b ms) x' os := by
  cases ht with
  | reported =>
    refine ⟨x, hx, .same (.refl x) fun _ k => ?_⟩
    rw [Ledger.carryOut, Course.of_nil, Ledger.add_zero]
    rfl
  | @refused _ m ms y z hy hz hstop =>
    by_cases hi : y.search = i
    · rw [hi] at hz
      obtain rfl := Option.some.inj (hz.symm.trans hx)
      refine ⟨z, hx, .same (.refl z) fun hgoes => ?_⟩
      rw [hstop] at hgoes
      cases hgoes
    · exact ⟨x, hx, outlook_of_none (Searches.branch_ledger_of_ne hy hi) rfl
        (by simp [Order.branch?])⟩
  | @kept _ m ms y z j slot hy hz _ hr =>
    refine ⟨x, hx, ?_⟩
    rw [Searches.ledger_insert hy { y with found := y.found ++ [m] } rfl rfl]
    by_cases hi : y.search = i
    · rw [if_pos hi]
      refine .same (.refl x) fun _ k => ?_
      have hL := Searches.branch_ledger hy hi
      rw [Ledger.carryOut, show m :: ms = [m] ++ ms from rfl, Course.of_append, Ledger.add_add,
        Ledger.add_of_clause hL hr]
      rfl
    · rw [if_neg hi]
      exact outlook_of_none (Searches.branch_ledger_of_ne hy hi) rfl (by simp [Order.branch?])
  | @queued _ m ms y z hy hz hgoes hr _ | @announced _ m ms y z hy hz hgoes hr _ =>
    refine outlook_insert hz hx (fun hi hzx => ?_) fun hi => ?_
    · subst hzx
      have hL := Searches.branch_ledger hy hi
      refine .took rfl hgoes ⟨rfl, rfl, rfl, rfl, rfl, rfl, rfl, rfl⟩ fun k => ?_
      rw [Ledger.carryOut, Ledger.add_of_root hL hr, show m :: ms = [m] ++ ms from rfl,
        Course.of_append, add_assoc]
      refine congrArg _ ?_
      exact (Ledger.add_of_root hL hr _ _).symm
    · exact outlook_of_none (Searches.branch_ledger_of_ne hy hi) rfl (by simp [Order.branch?])

/-- **What the end of some work on a branch means to a forecast.** -/
theorem Transition.outlook_release {b : Id} (hs : Sound t (.job (.release b) :: rest))
    (ht : Transition env t (.release b) t' os) (hx : t.searches[i]? = some x) :
    ∃ x', t'.searches[i]? = some x' ∧
      Outlook env.graph (t.ledger i) (t'.ledger i) x (.release b) x' os := by
  have hparent : ∀ {j : Nat} {jn : Junction}, t'.junctions[j]? = some jn →
      jn.parent ∈ t'.branches := fun hj => (hs.run ht).accounted.mem_of_junction hj
  cases ht with
  | @released _ y hy hlt =>
    refine ⟨x, hx, ?_⟩
    rw [Searches.ledger_insert hy { y with holders := y.holders - 1 } rfl rfl]
    by_cases hi : y.search = i
    · rw [if_pos hi]
      refine .same (.refl x) fun _ k => ?_
      rw [Ledger.carryOut, Ledger.release_of_lt (Searches.branch_ledger hy hi) hlt]
      rfl
    · rw [if_neg hi]
      exact outlook_of_none (Searches.branch_ledger_of_ne hy hi) rfl (by simp)
  | @finished _ y z hy hle hr hz =>
    have hled : Searches.ledger { t with
        branches := t.branches.erase b
        searches := t.searches.insert y.search { z with finished := true } } i =
        (t.ledger i).close b :=
      Searches.ledger_erase rfl fun j jn hj => Searches.ne_of_mem_erase (hparent hj)
    rw [hled]
    refine outlook_insert hz hx (fun hi hzx => ?_) fun hi => ?_
    · subst hzx
      refine .same ⟨rfl, rfl, rfl, rfl, rfl, rfl, rfl, rfl⟩ fun _ k => ?_
      exact Ledger.release_of_root (Searches.branch_ledger hy hi) hle hr k
    · have hnone := Searches.branch_ledger_of_ne hy hi
      refine .same (.refl x) fun _ k => ?_
      rw [Ledger.carryOut, Ledger.release_of_none hnone]
      exact congrArg k (Ledger.close_of_none hnone).symm
  | @filled _ y j slot jn hy hle hr hj hc =>
    refine ⟨x, hx, .same (.refl x) fun _ k => ?_⟩
    obtain ⟨-, -, r, hr'⟩ := hs.layout.waits_for hy hr hj
    have howner : t.owner? jn.parent = some y.search := Searches.owner?_eq_some_iff.2 ⟨r, hr'⟩
    rw [Searches.ledger_fill (b := b) rfl (fun j jn hj => Searches.ne_of_mem_erase (hparent hj))
      hj slot y.results rfl, howner]
    by_cases hi : y.search = i
    · rw [if_pos (congrArg some hi)]
      exact Ledger.release_of_filled (Searches.branch_ledger hy hi) hle hr
        (Searches.junction_ledger hj (howner.trans (congrArg some hi))) hc k
    · have hnone := Searches.branch_ledger_of_ne hy hi
      rw [if_neg fun h => hi (Option.some.inj h), Ledger.close_of_none hnone]
      exact Ledger.release_of_none hnone k
  | @combined _ y j slot jn combos hy hle hr hj hc =>
    refine ⟨x, hx, .same (.refl x) fun _ k => ?_⟩
    obtain ⟨-, -, r, hr'⟩ := hs.layout.waits_for hy hr hj
    have howner : t.owner? jn.parent = some y.search := Searches.owner?_eq_some_iff.2 ⟨r, hr'⟩
    rw [Searches.ledger_combine (b := b) rfl
      (fun j jn hj => Searches.ne_of_mem_erase (hparent hj)) rfl]
    by_cases hi : y.search = i
    · have hlt := hs.layout.parent_lt_clause (Searches.seat?_of_role hy hr) hj
      exact Ledger.release_of_combined (Searches.branch_ledger hy hi) hle hr
        (Searches.junction_ledger hj (howner.trans (congrArg some hi))) hc hlt k
    · have hne : t.owner? jn.parent ≠ some i := by
        rw [howner]
        exact fun h => hi (Option.some.inj h)
      have hnone := Searches.branch_ledger_of_ne hy hi
      have hpar := Searches.branch_ledger_of_owner?_ne hne
      rw [Ledger.close_of_none hnone,
        Ledger.closeJunction_of_none (Searches.junction_ledger_of_ne hj hne),
        foresee_of_ignores (by simpa [Ledger.Ignores, Order.branch?] using hpar)]
      exact Ledger.release_of_none hnone k

/-- **What a job means to a forecast.** -/
theorem Transition.outlook (hs : Sound t (.job job :: rest)) (ht : Transition env t job t' os)
    (hx : t.searches[i]? = some x) (hlink : x.linked = false)
    (hawait : ∀ f d asked, job = .await f d asked → f.search ≠ i) :
    ∃ x', t'.searches[i]? = some x' ∧
      Outlook env.graph (t.ledger i) (t'.ledger i) x job x' os := by
  cases job with
  | step f => exact ht.outlook_step hs hx hlink
  | report b ms => exact ht.outlook_report hx
  | release b => exact ht.outlook_release hs hx
  | start f =>
    cases ht with
    | barred ha =>
      refine ⟨x, hx, .same (.refl x) fun _ k => ?_⟩
      rw [Ledger.carryOut, ha]
      exact Ledger.add_zero ..
    | entered ha =>
      refine ⟨x, hx, .same (.refl x) fun _ k => ?_⟩
      rw [Ledger.carryOut, if_pos ha]
      rfl
  | await f d asked =>
    cases ht with
    | parked => exact ⟨x, hx, .same (.refl x) fun _ _ => rfl⟩
    | parkedAsked hz =>
      exact outlook_insert hz hx (fun hi _ => absurd hi (hawait _ _ _ rfl)) fun _ =>
        .same (.refl x) fun _ _ => rfl
  | drain k =>
    cases ht with
    | drained hz _ | delivered hz _ =>
      refine outlook_insert hz hx (fun _ hzx => ?_) fun _ => .same (.refl x) fun _ _ => rfl
      exact hzx ▸ .same ⟨rfl, rfl, rfl, rfl, rfl, rfl, rfl, rfl⟩ fun _ _ => rfl

end TripleQuery
