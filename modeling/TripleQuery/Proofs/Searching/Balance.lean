import TripleQuery.Proofs.Searching.Reckoning
/-!
# Balance — what a search amounts to stays the same

No job changes what a branch of a search will have, until the search meets an
error (`Balanced.run`). Most jobs exchange an order for others that amount to
the same. A path that goes on into the clauses leaves a junction that amounts to
what the path did, and one new branch for each clause (`Balanced.split`); a
clause that is complete hands over all that its branch will ever have.
-/

namespace TripleQuery

open Std (ExtTreeMap)

variable {g : Graph} {t t' : Searches} {os rest : List Order} {job : Job}
  {state? : Option (String → FetchState)} {b c i j k n : Nat} {V V' : Nat → Yield}
  {told : List Notice} {f : Frame} {o : Order} {x x' : Search} {y : Branch} {jn : Junction}

/-! ## Into the clauses -/

/-- Of the places of a list, one counts. -/
theorem sum_mapIdx_single {α M : Type} [AddCommMonoid M] (weight : α → M) (l : List α) (k : Nat) :
    (l.mapIdx fun n a => if n = k then weight a else 0).sum = (l[k]?.map weight).getD 0 := by
  induction l generalizing k with
  | nil => rfl
  | cons a l ih =>
    rw [List.mapIdx_cons, List.sum_cons]
    cases k with
    | zero =>
      have hrest : (l.mapIdx fun n a => if n + 1 = 0 then weight a else 0).sum = 0 := by
        refine List.sum_eq_zero fun z hz => ?_
        obtain ⟨n, hn, rfl⟩ := List.mem_mapIdx.1 hz
        exact if_neg (Nat.succ_ne_zero n)
      rw [hrest, if_pos rfl, add_zero]
      rfl
    | succ k =>
      simp only [Nat.add_right_cancel_iff]
      rw [ih, if_neg (Nat.succ_ne_zero k).symm, zero_add]
      rfl

/-- **The start of a clause amounts to the answers to it.** -/
theorem sum_yield_split {clause : Pattern} (hk : f.scope.pattern.optionals[k]? = some clause) :
    ((t.split f).2.map (Order.yield g (t.next + 1 + k))).sum =
      answers g f.scope.constraints clause (clause.initial ∪ f.bindings) := by
  have hlist : (t.split f).2.map (Order.yield g (t.next + 1 + k)) =
      f.scope.pattern.optionals.mapIdx fun n p =>
        if n = k then answers g f.scope.constraints p (p.initial ∪ f.bindings) else 0 := by
    refine List.ext_getElem? fun n => ?_
    unfold Searches.split Scope.clauses
    simp only [List.getElem?_map, List.getElem?_mapIdx, Option.map_map]
    cases f.scope.pattern.optionals[n]? with
    | none => rfl
    | some p =>
      refine congrArg some ((Order.yield_enter ..).trans (if_congr ?_ rfl rfl))
      exact Nat.add_left_cancel_iff
  rw [hlist, sum_mapIdx_single, hk]
  rfl

/-- What a junction amounts to depends on the branches of its clauses only. -/
theorem Junction.yield_congr (h : ∀ k < jn.slots.length, V' (j + 1 + k) = V (j + 1 + k)) :
    jn.yield V' j = jn.yield V j := by
  unfold yield
  refine congrArg _ (List.ext_getElem? fun k => ?_)
  rw [List.getElem?_mapIdx, List.getElem?_mapIdx]
  cases hk : jn.slots[k]? with
  | none => rfl
  | some slot =>
    obtain ⟨hlt, -⟩ := List.getElem?_eq_some_iff.1 hk
    rw [h k hlt]

/-- **A path that is exhausted amounts to the junction that takes its place.** -/
theorem Junction.yield_split (hr : f.remaining = [])
    (hV : ∀ k clause, f.scope.pattern.optionals[k]? = some clause →
      V (j + 1 + k) = answers g f.scope.constraints clause (clause.initial ∪ f.bindings)) :
    yield V j ⟨f.bindings, f.branch, List.replicate f.scope.clauses.length none⟩ =
      f.yield g := by
  rw [Frame.yield_of_nil hr, clauseAnswers_eq_map, yield]
  refine congrArg _ (List.ext_getElem? fun k => ?_)
  have hlen : f.scope.clauses.length = f.scope.pattern.optionals.length := List.length_map _
  rw [List.getElem?_mapIdx, List.getElem?_map, List.getElem?_replicate, hlen]
  cases hk : f.scope.pattern.optionals[k]? with
  | none =>
    have hle : f.scope.pattern.optionals.length ≤ k := List.getElem?_eq_none_iff.1 hk
    rw [if_neg (by omega)]
    rfl
  | some clause =>
    obtain ⟨hlt, -⟩ := List.getElem?_eq_some_iff.1 hk
    rw [if_pos hlt]
    change some (V (j + 1 + k)).orEmpty = _
    rw [hV k clause hk]
    rfl

/-- Whether a branch is one of those for the clauses of a path. -/
abbrev Searches.IsNewAt (t : Searches) (f : Frame) (b : Nat) : Prop :=
  b ≥ t.next + 1 ∧ b < t.next + 1 + f.scope.clauses.length

/-- What the branches will have once the clauses of a path were started. -/
def Searches.afterSplit (t : Searches) (g : Graph) (f : Frame) (V : Nat → Yield) (b : Nat) :
    Yield :=
  if t.IsNewAt f b then ((t.split f).2.map (Order.yield g b)).sum else V b

namespace Searches

/-- Old branches will have what they would have had. -/
theorem afterSplit_of_lt (h : b < t.next + 1) : t.afterSplit g f V b = V b :=
  if_neg fun hnew => Nat.not_lt.2 hnew.1 h

/-- A new branch will have the answers to its clause. -/
theorem afterSplit_of_clause {clause : Pattern}
    (hk : f.scope.pattern.optionals[k]? = some clause) :
    t.afterSplit g f V (t.next + 1 + k) =
      answers g f.scope.constraints clause (clause.initial ∪ f.bindings) := by
  obtain ⟨hlt, -⟩ := List.getElem?_eq_some_iff.1 hk
  have hlen : f.scope.clauses.length = f.scope.pattern.optionals.length := List.length_map _
  have hnew : t.IsNewAt f (t.next + 1 + k) :=
    ⟨Nat.le_add_right _ _, Nat.add_lt_add_left (hlen ▸ hlt) _⟩
  rw [afterSplit, if_pos hnew, sum_yield_split hk]

/-- The junction adds what the path added, the others what they did. -/
theorem joining_split (hl : Layout t) (hr : f.remaining = []) :
    (t.split f).1.joining (t.afterSplit g f V) b =
      (if f.branch = b then f.yield g else 0) + t.joining V b := by
  have hclauses : ∀ k clause, f.scope.pattern.optionals[k]? = some clause →
      t.afterSplit g f V (t.next + 1 + k) =
        answers g f.scope.constraints clause (clause.initial ∪ f.bindings) :=
    fun k clause hk => afterSplit_of_clause hk
  -- the clauses of an old junction have old branches
  have hold : t.joining (t.afterSplit g f V) b = t.joining V b := by
    refine tally_congr fun j jn hj => if_congr Iff.rfl (Junction.yield_congr fun k hk => ?_) rfl
    have hle := hl.slots_le hj
    exact afterSplit_of_lt (by omega)
  change tally (t.junctions.insert t.next _) _ = _
  rw [tally_insert hl.next_not_mem_junctions, Junction.yield_split hr hclauses]
  exact congrArg (_ + ·) hold

/-- The new branches belong to the search of the path, the others to whom they
did. -/
theorem owner?_split (t : Searches) (f : Frame) (b : Nat) :
    (t.split f).1.owner? b = if t.IsNewAt f b then some f.search else t.owner? b := by
  unfold owner?
  rw [seat?_split]
  by_cases hnew : t.IsNewAt f b
  · rw [if_pos hnew, if_pos hnew]
    rfl
  · rw [if_neg hnew, if_neg hnew]

theorem foundAt_split (t : Searches) (f : Frame) (b : Nat) :
    (t.split f).1.foundAt b = if t.IsNewAt f b then [] else t.foundAt b := by
  unfold foundAt
  rw [getElem?_branches_split]
  by_cases hnew : t.IsNewAt f b
  · rw [if_pos hnew, if_pos hnew]
    rfl
  · rw [if_neg hnew, if_neg hnew]

end Searches

/-- The orders to start the clauses add to new branches only. -/
theorem sum_yield_split_eq_zero (h : ¬ t.IsNewAt f b) :
    ((t.split f).2.map (Order.yield g b)).sum = 0 := by
  refine sum_yield_eq_zero fun o ho => ?_
  obtain ⟨k, hk, rfl⟩ := List.mem_mapIdx.1 ho
  refine ⟨fun he => h ?_, fun he => by cases he⟩
  -- each of them holds the branch of its clause
  have heq : t.next + 1 + k = b := Option.some.inj he
  exact heq ▸ ⟨Nat.le_add_right _ _, Nat.add_lt_add_left hk _⟩

/-- **A path may go on into the clauses.** -/
theorem Balanced.split (hs : Sound t (.job (.step f) :: rest)) (hi : i ∈ t.searches)
    (hr : f.remaining = []) (h : Balanced g t (.job (.step f) :: rest) told i V) :
    Balanced g (t.split f).1 ((t.split f).2 ++ rest) told i (t.afterSplit g f V) := by
  have hl := hs.layout
  have hroot : i + 1 < t.next + 1 := Nat.lt_succ_of_lt (hl.search_lt hi)
  intro b hin
  have hqueue : (t.split f).1.queueOf i = t.queueOf i := rfl
  have hwaiting : (t.split f).1.waiting g b = t.waiting g b := rfl
  have hjoining := Searches.joining_split (g := g) (V := V) (b := b) hl hr
  by_cases hnew : t.IsNewAt f b
  · -- a new branch has what its clause amounts to, and nobody else works for it
    have hb : b ∉ t.branches := hl.not_mem_branches (Nat.le_of_succ_le hnew.1)
    have hne : b ≠ i + 1 := Nat.ne_of_gt (Nat.lt_of_lt_of_le hroot hnew.1)
    have hfound : (t.split f).1.settled told i b = 0 := by
      rw [Searches.settled, if_neg hne, Searches.foundAt_split, if_pos hnew, Yield.of_nil]
    have hothers : (rest.map (Order.yield g b)).sum = 0 :=
      sum_yield_eq_zero fun o ho => hs.not_held hb (List.mem_cons_of_mem _ ho)
    have hparked : t.waiting g b = 0 :=
      Searches.waiting_eq_zero fun n f hf => hs.parked_branch_ne hb hf
    have hwaits : t.joining V b = 0 :=
      Searches.joining_eq_zero fun j jn hj => hs.parent_ne hb hj
    have hbranch : f.branch ≠ b := by
      rintro rfl
      exact hb (hs.accounted.mem_of_mem_orders List.mem_cons_self rfl)
    unfold Searches.pending
    rw [Searches.afterSplit, if_pos hnew, hfound, hwaiting, hjoining, List.map_append,
      List.sum_append, hothers, hparked, hwaits, if_neg hbranch]
    simp only [add_zero, zero_add]
  · -- what the path added to an old branch, the junction adds
    have hin' : t.Concerns i b := by
      rcases hin with ho | rfl
      · rw [Searches.owner?_split, if_neg hnew] at ho
        exact .inl ho
      · exact .inr rfl
    have hstarts : ((t.split f).2.map (Order.yield g b)).sum = 0 := sum_yield_split_eq_zero hnew
    have hfound : (t.split f).1.foundAt b = t.foundAt b := by
      rw [Searches.foundAt_split, if_neg hnew]
    have hold := h b hin'
    unfold Searches.pending at hold ⊢
    rw [Searches.afterSplit, if_neg hnew, hold, hwaiting, hjoining, List.map_append,
      List.sum_append, hstarts, Searches.settled_eq (fun _ => hfound) fun _ => hqueue,
      List.map_cons, List.sum_cons]
    simp only [Order.yield, zero_add]
    generalize (if f.branch = b then f.yield g else 0) = path
    ac_rfl

/-! ## A search that nothing hinders -/

/-- Nothing but an error stops a search. -/
structure Search.IsUnhindered (x : Search) : Prop where
  /-- It reaches no source of documents. -/
  unlinked : x.linked = false
  unlimited : x.config.maxMatches = none
  stopped : x.stopped = true → x.error.isSome

/-- How a job changes the course of a search: not at all, unless a match reaches
the limit or a path meets an error. -/
theorem Transition.course {env : Surroundings} (ht : Transition env t job t' os)
    (hx : t.searches[i]? = some x) :
    ∃ x', t'.searches[i]? = some x' ∧ x'.linked = x.linked ∧ x'.config = x.config ∧
      ((x'.error = x.error ∧ (x.config.maxMatches = none → x'.stopped = x.stopped)) ∨
        x'.error.isSome ∧ ∃ f e, job = .step f ∧ f.search = i ∧ f.remaining ≠ [] ∧
          f.expand env.graph = .error e) := by
  have hwrite : ∀ {k : Nat} {z z' : Search}, t.searches[k]? = some z → z'.linked = z.linked →
      z'.config = z.config →
      ((z'.error = z.error ∧ (z.config.maxMatches = none → z'.stopped = z.stopped)) ∨
        z'.error.isSome ∧ ∃ f e, job = .step f ∧ f.search = k ∧ f.remaining ≠ [] ∧
          f.expand env.graph = .error e) →
      ∃ x', (t.searches.insert k z')[i]? = some x' ∧ x'.linked = x.linked ∧
        x'.config = x.config ∧
        ((x'.error = x.error ∧ (x.config.maxMatches = none → x'.stopped = x.stopped)) ∨
          x'.error.isSome ∧ ∃ f e, job = .step f ∧ f.search = i ∧ f.remaining ≠ [] ∧
            f.expand env.graph = .error e) := by
    intro k z z' hz hl hc he
    by_cases hk : k = i
    · subst hk
      obtain rfl : z = x := Option.some.inj (hz.symm.trans hx)
      exact ⟨z', by simp, hl, hc, he⟩
    · have hsame : (t.searches.insert k z')[i]? = some x := by
        rw [ExtTreeMap.getElem?_insert]
        simp [hk, hx]
      exact ⟨x, hsame, rfl, rfl, .inl ⟨rfl, fun _ => rfl⟩⟩
  cases ht with
  | failed hz _ _ hr he => exact hwrite hz rfl rfl (.inr ⟨rfl, _, _, rfl, rfl, hr, he⟩)
  | parkedAsked hz | drained hz _ | delivered hz _ | finished _ _ _ hz =>
    exact hwrite hz rfl rfl (.inl ⟨rfl, fun _ => rfl⟩)
  | queued _ hz _ _ _ =>
    exact hwrite hz Search.linked_take Search.config_take
      (.inl ⟨Search.error_take, Search.stopped_take⟩)
  | announced _ hz _ _ _ =>
    exact hwrite hz Search.linked_take Search.config_take
      (.inl ⟨Search.error_take, Search.stopped_take⟩)
  | _ => exact ⟨x, hx, rfl, rfl, .inl ⟨rfl, fun _ => rfl⟩⟩

/-- A search that nothing hinders stays so. -/
theorem Search.IsUnhindered.run {env : Surroundings} (h : x.IsUnhindered)
    (hs : Sound t (.job job :: rest)) (ht : Transition env t job t' os)
    (hx : t.searches[i]? = some x) : ∃ x', t'.searches[i]? = some x' ∧ x'.IsUnhindered ∧
      (x'.error = x.error ∨ x'.error.isSome ∧ t.seat? (i + 1) = some (i, .root)) := by
  obtain ⟨x', hx', hl, hc, he⟩ := ht.course hx
  have hlimit : x'.config.maxMatches = none := by rw [hc, h.unlimited]
  refine ⟨x', hx', ⟨by rw [hl, h.unlinked], hlimit, fun hstop => ?_⟩, ?_⟩
  · rcases he with ⟨he, hsame⟩ | ⟨he, -⟩
    · rw [hsame h.unlimited] at hstop
      rw [he]
      exact h.stopped hstop
    · exact he
  · rcases he with ⟨he, -⟩ | ⟨he, f, e, rfl, rfl, -⟩
    · exact .inl he
    · -- the path that met the error is on a branch of the search
      exact .inr ⟨he, hs.root_of_frame? List.mem_cons_self rfl⟩

/-! ## Every job keeps the balance -/

/-- A branch that concerns a search belongs to it while it is there. -/
theorem Searches.Concerns.search_eq {r : BranchRole} (hb : t.Concerns i b) (hp : Paced t os i x)
    (h : t.seat? b = some (k, r)) : k = i := by
  rcases hb with ho | rfl
  · obtain ⟨r', hr⟩ := Searches.owner?_eq_some_iff.1 ho
    rw [h] at hr
    cases hr
    rfl
  · exact (hp.eq_root h).1

/-- What the paths that go on from a triple add together. -/
theorem sum_yield_steps {fs : List Frame} (h : ∀ f' ∈ fs, f'.branch = c) :
    ((fs.map fun f' => Order.job (.step f')).map (Order.yield g b)).sum =
      if c = b then (fs.map (Frame.yield g)).sum else 0 := by
  rw [List.map_map]
  by_cases hc : c = b
  · rw [if_pos hc]
    refine congrArg List.sum (List.map_congr_left fun f' hf' => if_pos ?_)
    rw [h f' hf', hc]
  · rw [if_neg hc]
    refine List.sum_eq_zero fun z hz => ?_
    obtain ⟨f', hf', rfl⟩ := List.mem_map.1 hz
    refine if_neg fun he => hc ?_
    rw [← h f' hf', he]

namespace Balanced

variable {m : Bindings} {ms : List Bindings} {z z' : Search}

/-- A clause keeps a match that it was reported. -/
theorem keep {slot : Nat} (hp : Paced t (.job (.report c (m :: ms)) :: rest) i x)
    (hy : t.branches[c]? = some y) (hr : y.role = .clause j slot)
    (hown : ∀ b : Nat, t'.owner? b = some i → t.owner? b = some i)
    (hb : t'.branches = t.branches.insert c { y with found := y.found ++ [m] })
    (hs : t'.searches = t.searches) (hpk : t'.parked = t.parked) (hj : t'.junctions = t.junctions)
    (h : Balanced g t (.job (.report c (m :: ms)) :: rest) told i V) :
    Balanced g t' ([.job (.report c ms)] ++ rest) told i V := by
  have hseat := Searches.seat?_of_getElem? hy
  have hne : c ≠ i + 1 := by
    rintro rfl
    rw [hr] at hseat
    have hroot := (hp.eq_root hseat).2
    cases hroot
  refine h.exchange hown hpk hj fun b _ _ => ?_
  have hfound := Searches.foundAt_insert hb b
  have hqueue : t'.queueOf i = t.queueOf i := by
    rw [Searches.queueOf, hs, Searches.queueOf]
  rw [List.map_singleton, List.sum_singleton]
  change _ + (if c = b then Yield.of ms else 0) = _ + if c = b then Yield.of (m :: ms) else 0
  by_cases hc : c = b
  · subst hc
    rw [if_pos rfl] at hfound
    rw [if_pos rfl, if_pos rfl, Searches.settled, Searches.settled, if_neg hne, if_neg hne, hfound,
      Searches.foundAt_of_getElem? hy, ← Yield.of_append, ← Yield.of_append,
      List.append_assoc, List.singleton_append]
  · rw [if_neg hc] at hfound
    rw [if_neg hc, if_neg hc, Searches.settled_eq (fun _ => hfound) fun _ => hqueue]

/-- A match that is reported to a root branch is queued. -/
theorem take (hs : Sound t (.job (.report c (m :: ms)) :: rest))
    (hp : Paced t (.job (.report c (m :: ms)) :: rest) i x)
    (hy : t.branches[c]? = some y) (hr : y.role = .root)
    (hz : t.searches[y.search]? = some z) (hq : z'.queue = z.queue ++ [m])
    (hos : ∀ b : Nat, (os.map (Order.yield g b)).sum = if c = b then .of ms else 0)
    (hss : t'.searches = t.searches.insert y.search z') (hb : t'.branches = t.branches)
    (hpk : t'.parked = t.parked) (hj : t'.junctions = t.junctions)
    (h : Balanced g t (.job (.report c (m :: ms)) :: rest) told i V) :
    Balanced g t' (os ++ rest) told i V := by
  have hseat := Searches.seat?_of_getElem? hy
  have hroot : c = y.search + 1 := by
    rw [hr] at hseat
    exact hs.layout.root hseat
  have hown : ∀ b : Nat, t'.owner? b = some i → t.owner? b = some i := by
    intro b ho
    rwa [Searches.owner?, Searches.seat?, hb] at ho
  have hqueue := Searches.queueOf_insert (i := i) hss
  refine h.exchange hown hpk hj fun b hin _ => ?_
  rw [hos b]
  change _ + (if c = b then Yield.of ms else 0) = _ + if c = b then Yield.of (m :: ms) else 0
  by_cases hc : c = b
  · -- the root branch is that of this search
    subst hc
    have hi : y.search = i := hin.search_eq hp hseat
    have hnum : c = i + 1 := by rw [hroot, hi]
    rw [if_pos hi, hq] at hqueue
    rw [if_pos rfl, if_pos rfl, Searches.settled, Searches.settled, if_pos hnum, if_pos hnum,
      hqueue, Searches.queueOf_of_getElem? (hi ▸ hz), ← Yield.of_append, ← Yield.of_append]
    simp only [List.append_assoc, List.singleton_append]
  · have hne : y.search + 1 ≠ b := fun he => hc (hroot.trans he)
    rw [if_neg hc, if_neg hc, Searches.settled_insert hb hss hne]

/-- The caller is told of the first queued match. -/
theorem deliver (hs : Sound t (.job (.drain k) :: rest))
    (hp : Paced t (.job (.drain k) :: rest) i x) (hz : t.searches[k]? = some z)
    (hq : z.queue = m :: ms) (hq' : z'.queue = ms)
    (hss : t'.searches = t.searches.insert k z') (hb : t'.branches = t.branches)
    (hpk : t'.parked = t.parked) (hj : t'.junctions = t.junctions)
    (h : Balanced g t (.job (.drain k) :: rest) told i V) :
    Balanced g t' ([.deliver k m, .job (.drain k)] ++ rest) told i V := by
  have hseat := hs.rooted List.mem_cons_self rfl
  have hown : ∀ b : Nat, t'.owner? b = some i → t.owner? b = some i := by
    intro b ho
    rwa [Searches.owner?, Searches.seat?, hb] at ho
  have hqueue := Searches.queueOf_insert (i := i) hss
  refine h.exchange hown hpk hj fun b hin _ => ?_
  have hsum : ([.deliver k m, .job (.drain k)].map (Order.yield g b)).sum =
      if k + 1 = b then Yield.of [m] else 0 := by
    simp [Order.yield]
  rw [hsum]
  change _ = _ + 0
  rw [add_zero]
  by_cases hc : k + 1 = b
  · -- the root branch is that of this search
    subst hc
    have hi : k = i := hin.search_eq hp hseat
    subst hi
    rw [if_pos rfl, hq'] at hqueue
    rw [if_pos rfl, Searches.settled, Searches.settled, if_pos rfl, if_pos rfl, hqueue,
      Searches.queueOf_of_getElem? hz, hq, ← Yield.of_append]
    refine Yield.of_eq_of_perm ?_
    rw [List.append_assoc]
    exact List.Perm.append_left _ (List.perm_append_singleton m ms)
  · rw [if_neg hc, add_zero, Searches.settled_insert hb hss hc]

/-- **What the branch of a clause that is complete has, is all its junction
waits for.** -/
theorem of_clause {slot : Nat} (h : Balanced g t (.job (.release c) :: rest) told i V)
    (hs : Sound t (.job (.release c) :: rest)) (hs' : Sound t' (os ++ rest))
    (hp : Paced t (.job (.release c) :: rest) i x) (hy : t.branches[c]? = some y)
    (hr : y.role = .clause j slot) (hj : t.junctions[j]? = some jn)
    (hb : t'.branches = t.branches.erase c) (hpk : t'.parked = t.parked)
    (hjs : ∀ k : Nat, j ≠ k → t'.junctions[k]? = t.junctions[k]?) :
    c ≠ i + 1 ∧ jn.slots[slot]? = some none ∧
      ∀ b : Nat, t.Concerns i b → jn.parent = b → V (j + 1 + slot) = .of y.found := by
  have hseat := Searches.seat?_of_role hy hr
  have hne : c ≠ i + 1 := by
    rintro rfl
    have hroot := (hp.eq_root hseat).2
    cases hroot
  obtain ⟨hnum, hslot, r, hparent⟩ := hs.layout.waits_for hy hr hj
  refine ⟨hne, hslot, fun b hin hpar => ?_⟩
  -- a junction that reports to the search waits for its branches
  subst hpar
  have hi : y.search = i := hin.search_eq hp hparent
  have hgone : c ∉ t'.branches := by
    rw [hb]
    simp
  rw [← hnum]
  exact h.eq_of_closed hs hs' hy hr hi hgone hne hpk hjs

/-- **What orders for others tell, the caller has.** -/
theorem handOver (hs : Sound t (o :: rest)) (hp : Paced t (o :: rest) i x)
    (ho : ∀ job, o ≠ .job job) (h : Balanced g t (o :: rest) told i V) :
    Balanced g t rest (told ++ o.notices) i V := by
  have hquiet : matchesOf i o.notices = [] → (∀ b : Nat, t.Concerns i b → o.yield g b = 0) →
      Balanced g t rest (told ++ o.notices) i V := by
    intro hnone hzero
    change Balanced g t ([] ++ rest) _ i V
    refine h.exchange (fun _ ho => ho) rfl rfl fun b hin _ => ?_
    rw [hzero b hin, Searches.settled, matchesOf_append, hnone, List.append_nil, Searches.settled]
    rfl
  cases o with
  | job job => exact absurd rfl (ho job)
  | deliver k m =>
    have hseat := hs.rooted List.mem_cons_self rfl
    by_cases hk : k = i
    · subst hk
      change Balanced g t ([] ++ rest) _ k V
      refine h.exchange (fun _ ho => ho) rfl rfl fun b hin _ => ?_
      change _ + 0 = _ + if k + 1 = b then Yield.of [m] else 0
      have hone : matchesOf k (Order.deliver k m).notices = [m] := by
        simp [matchesOf, Order.notices, Notice.match?]
      rw [add_zero, Searches.settled, matchesOf_append, hone, Searches.settled]
      by_cases hc : b = k + 1
      · rw [if_pos hc, if_pos hc, if_pos hc.symm, ← Yield.of_append]
        refine Yield.of_eq_of_perm ?_
        rw [List.append_assoc, List.append_assoc]
        exact List.Perm.append_left _ List.perm_append_comm
      · rw [if_neg hc, if_neg hc, if_neg (Ne.symm hc), add_zero]
    · -- the root branch of another search is none of this one
      refine hquiet ?_ fun b hin => if_neg ?_
      · simp [matchesOf, Order.notices, Notice.match?, hk]
      · rintro rfl
        exact hk (hin.search_eq hp hseat)
  | _ => exact hquiet rfl fun b _ => rfl

end Balanced

/-- **No job changes what the branches of a search will have**, as long as no
error is met. -/
theorem Balanced.run (hs : Sound t (.job job :: rest)) (hp : Paced t (.job job :: rest) i x)
    (hx : t.searches[i]? = some x) (hstop : x.stopped = false)
    (ht : Transition ⟨g, state?⟩ t job t' os) (hx' : t'.searches[i]? = some x')
    (he : x'.error = none) (h : Balanced g t (.job job :: rest) told i V) :
    ∃ V', V' (i + 1) = V (i + 1) ∧ Balanced g t' (os ++ rest) told i V' := by
  have hs' := hs.run ht
  -- a branch that stays stays with its search
  have hown : (∀ c : Nat, c ∈ t'.branches → c ∈ t.branches) →
      ∀ c : Nat, t'.owner? c = some i → t.owner? c = some i := by
    intro hmem c ho
    obtain ⟨r, hr⟩ := Searches.owner?_eq_some_iff.1 ho
    have hc : c ∈ t'.branches := Searches.mem_of_seat? hr
    rw [ht.seat?_eq hs.layout (hmem c hc) hc] at hr
    exact Searches.owner?_eq_some_iff.2 ⟨r, hr⟩
  -- a search that was stopped is another one
  have hother : ∀ {k : Nat} {z : Search}, t.searches[k]? = some z → z.stopped = true → k ≠ i := by
    rintro k z hz hstopped rfl
    obtain rfl : z = x := Option.some.inj (hz.symm.trans hx)
    rw [hstop] at hstopped
    cases hstopped
  -- and so are the branches of its paths
  have hpath : ∀ {f : Frame} {b : Nat}, job = .step f → f.search ≠ i → t.Concerns i b →
      f.branch ≠ b := by
    rintro f b rfl hne hb rfl
    obtain ⟨r, hr⟩ := hs.seated List.mem_cons_self rfl
    exact hne (hb.search_eq hp hr)
  cases ht with
  | barred hf | entered hf =>
    refine ⟨V, rfl, h.exchange_of_eq (fun _ ho => ho) rfl rfl (fun _ _ => rfl) rfl fun b _ => ?_⟩
    simp [Order.yield, hf]
  | halted hz hstopped =>
    refine ⟨V, rfl, h.exchange_of_eq (fun _ ho => ho) rfl rfl (fun _ _ => rfl) rfl fun b hb => ?_⟩
    simp [Order.yield, hpath rfl (hother hz hstopped) hb]
  | asked _ _ _ _ | awaited _ _ _ _ | reported =>
    refine ⟨V, rfl, h.exchange_of_eq (fun _ ho => ho) rfl rfl (fun _ _ => rfl) rfl fun b _ => ?_⟩
    simp [Order.yield]
  | @exhausted f _ _ _ _ hr hc =>
    have hnone : f.scope.pattern.optionals = [] := List.map_eq_nil_iff.1 hc
    have hyield : f.yield g = .of [f.bindings] := by
      rw [Frame.yield_of_nil hr, hnone, clauseAnswers]
      rfl
    refine ⟨V, rfl, h.exchange_of_eq (fun _ ho => ho) rfl rfl (fun _ _ => rfl) rfl fun b _ => ?_⟩
    simp [Order.yield, hyield]
  | split _ _ _ hr _ =>
    have hi : i ∈ t.searches := mem_of_getElem? hx
    exact ⟨_, Searches.afterSplit_of_lt (Nat.lt_succ_of_lt (hs.layout.search_lt hi)),
      h.split hs hi hr⟩
  | @failed f z e hz _ _ _ _ =>
    -- the path of another search, since this one has no error
    have hne : f.search ≠ i := by
      rintro rfl
      have hsame : (t.searches.insert f.search (z.fail e))[f.search]? = some (z.fail e) := by simp
      obtain rfl : x' = z.fail e := Option.some.inj (hx'.symm.trans hsame)
      cases he
    refine ⟨V, rfl, h.exchange_of_eq (fun _ ho => ho) rfl rfl (fun _ _ => rfl)
      (Searches.queueOf_rewrite rfl hz rfl) fun b hb => ?_⟩
    simp [Order.yield, hpath rfl hne hb]
  | @expanded f _ _ fs _ _ _ hr hfs hy =>
    have hbranch : ∀ f' ∈ fs, f'.branch = f.branch := fun f' hf' =>
      Frame.branch_of_mem_expand hfs hf'
    refine ⟨V, rfl, h.exchange_of_eq (hown fun c => (mem_insert_of_getElem? hy _ c).1) rfl rfl
      (fun b _ => Searches.foundAt_rewrite rfl hy rfl) rfl fun b _ => ?_⟩
    rw [List.map_append, List.sum_append, sum_yield_steps hbranch, ← Frame.yield_of_expand hr hfs]
    exact add_zero _
  | parked => exact ⟨V, rfl, h.park hs.layout rfl rfl rfl rfl⟩
  | parkedAsked hz =>
    exact ⟨V, rfl, h.park hs.layout rfl rfl rfl (Searches.queueOf_rewrite rfl hz rfl)⟩
  | @refused c m ms y z hy hz hstopped =>
    refine ⟨V, rfl, h.exchange_of_eq (fun _ ho => ho) rfl rfl (fun _ _ => rfl) rfl fun b hb => ?_⟩
    have hne : c ≠ b := by
      rintro rfl
      exact hother hz hstopped (hb.search_eq hp (Searches.seat?_of_getElem? hy))
    simp [Order.yield, hne]
  | kept hy _ _ hr =>
    exact ⟨V, rfl, h.keep hp hy hr (hown fun c => (mem_insert_of_getElem? hy _ c).1) rfl rfl rfl
      rfl⟩
  | queued hy hz _ hr _ =>
    exact ⟨V, rfl, h.take hs hp hy hr hz Search.queue_take (fun b => by simp [Order.yield])
      rfl rfl rfl rfl⟩
  | @announced c m ms y z hy hz _ hr _ =>
    have hqueue : { z.take m with delivering := true }.queue = z.queue ++ [m] := Search.queue_take
    exact ⟨V, rfl, h.take hs hp hy hr hz hqueue (fun b => by simp [Order.yield])
      rfl rfl rfl rfl⟩
  | drained hz _ =>
    refine ⟨V, rfl, h.exchange_of_eq (fun _ ho => ho) rfl rfl (fun _ _ => rfl)
      (Searches.queueOf_rewrite rfl hz rfl) fun b _ => ?_⟩
    simp [Order.yield]
  | @delivered k z m ms hz hq =>
    have hqueue : { z with queue := ms }.queue = ms := rfl
    exact ⟨V, rfl, h.deliver hs hp hz hq hqueue rfl rfl rfl rfl⟩
  | released hy _ =>
    refine ⟨V, rfl, h.exchange_of_eq (hown fun c => (mem_insert_of_getElem? hy _ c).1) rfl rfl
      (fun b _ => Searches.foundAt_rewrite rfl hy rfl) rfl fun b _ => ?_⟩
    simp [Order.yield]
  | finished hy _ _ hz =>
    refine ⟨V, rfl, h.exchange_of_eq (fun b ho => (Searches.owner?_of_erase rfl ho).1) rfl rfl
      (fun b ho => Searches.foundAt_erase rfl (Searches.owner?_of_erase rfl ho).2)
      (Searches.queueOf_rewrite rfl hz rfl) fun b _ => ?_⟩
    simp [Order.yield]
  | filled hy _ hr hj _ =>
    obtain ⟨hne, hslot, hwill⟩ := h.of_clause hs hs' hp hy hr hj rfl rfl fun k hk => by
      simp [ExtTreeMap.getElem?_insert, hk]
    refine ⟨V, rfl, h.close hne rfl rfl rfl fun b hb => ?_⟩
    change _ = 0 + _
    rw [zero_add]
    exact Searches.joining_fill hj hslot (hwill b hb) rfl
  | @combined c y j slot jn combos hy _ hr hj hcombos =>
    obtain ⟨hne, hslot, hwill⟩ := h.of_clause hs hs' hp hy hr hj rfl rfl fun k hk => by
      simp [ExtTreeMap.getElem?_erase, hk]
    refine ⟨V, rfl, h.close hne rfl rfl rfl fun b hb => ?_⟩
    have hreport : ([.job (.report jn.parent combos), .job (.release jn.parent)].map
        (Order.yield g b)).sum = if jn.parent = b then Yield.of combos else 0 := by
      simp [Order.yield]
    rw [hreport]
    exact Searches.joining_combine hj hslot (hwill b hb) hcombos rfl

end TripleQuery
