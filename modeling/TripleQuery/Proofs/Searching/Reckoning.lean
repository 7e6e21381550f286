import TripleQuery.Proofs.Joining.Answers
import TripleQuery.Proofs.Searching.Ending
/-!
# Reckoning — what the work that is left amounts to

While a search is at work, each of its branches has some matches already
(`Searches.settled`), and the work that is left will add others
(`Searches.pending`): every path that goes on or waits adds what it amounts to,
and every junction the combinations of what its clauses will have. The two
together stay the same from job to job as long as the store does and no error
is met (`Balanced.run`), so that what the root branch has in the end is what
the search amounted to at its start.
-/

namespace TripleQuery

open Std (ExtTreeMap)

variable {g : Graph} {t t' : Searches} {os rest : List Order} {job : Job}
  {b c i j n : Nat} {V : Nat → Yield} {told : List Notice} {f : Frame} {o : Order}
  {x : Search} {y : Branch} {jn : Junction}

/-! ## What is left -/

/-- What a path amounts to. -/
def Frame.yield (g : Graph) (f : Frame) : Yield :=
  (trunks g f.scope.constraints f.remaining f.bindings).bind fun trunk =>
    .combine trunk (clauseAnswers g f.scope.constraints trunk f.scope.pattern.optionals)

/-- What a junction amounts to, if `V` says what each branch will have. -/
def Junction.yield (V : Nat → Yield) (j : Nat) (jn : Junction) : Yield :=
  .combine jn.trunk
    (jn.slots.mapIdx fun k slot => (slot.map Yield.of).getD (V (j + 1 + k)).orEmpty)

/-- What an order adds to a branch. -/
def Order.yield (g : Graph) (b : Nat) : Order → Yield
  | .job (.start f) => if f.branch = b ∧ f.isAllowed f.bindings then f.yield g else 0
  | .job (.step f) | .job (.await f _ _) => if f.branch = b then f.yield g else 0
  | .job (.report c ms) => if c = b then .of ms else 0
  | .deliver i m => if i + 1 = b then .of [m] else 0
  | _ => 0

/-- What the parked paths add to a branch. -/
def Searches.waiting (t : Searches) (g : Graph) (b : Nat) : Yield :=
  tally t.parked fun _ f => if f.branch = b then f.yield g else 0

/-- What the junctions add to a branch. -/
def Searches.joining (t : Searches) (V : Nat → Yield) (b : Nat) : Yield :=
  tally t.junctions fun j jn => if jn.parent = b then jn.yield V j else 0

/-- What the work that is left adds to a branch. -/
def Searches.pending (t : Searches) (g : Graph) (V : Nat → Yield) (os : List Order) (b : Nat) :
    Yield :=
  (os.map (Order.yield g b)).sum + t.waiting g b + t.joining V b

/-! ## What is there already -/

/-- The match of one search that a notice tells. -/
def Notice.match? (i : Id) : Notice → Option Bindings
  | .found k m => if k = i then some m else none
  | _ => none

/-- The matches of one search that its caller was told. -/
def matchesOf (i : Id) (told : List Notice) : List Bindings :=
  told.filterMap (Notice.match? i)

theorem matchesOf_append (i : Id) (told told' : List Notice) :
    matchesOf i (told ++ told') = matchesOf i told ++ matchesOf i told' := by
  simp [matchesOf]

/-- Of a search of which nothing was told, no match was told. -/
theorem matchesOf_eq_nil (h : newsOf i told = []) : matchesOf i told = [] := by
  refine List.filterMap_eq_nil_iff.2 fun n hn => ?_
  have hother := List.filter_eq_nil_iff.1 h n hn
  unfold Notice.match?
  split
  · rename_i k m
    refine if_neg fun hk => hother ?_
    simp [Notice.search, hk]
  · rfl

/-- No match of a search is told before the search is started. -/
theorem Scene.IsFaithful.matchesOf_started {w : Scene} {p : Pattern} (hw : w.IsFaithful)
    (hi : i ∉ w.table.searches) : matchesOf i (w.told ++ [.started i p]) = [] := by
  rw [matchesOf_append, matchesOf_eq_nil (hw.unheard hi).1]
  rfl

namespace Searches

/-- The matches that a branch keeps. -/
def foundAt (t : Searches) (b : Nat) : List Bindings :=
  (t.branches[b]?.map (·.found)).getD []

/-- The matches of a search that are queued for its caller. -/
def queueOf (t : Searches) (i : Nat) : List Bindings :=
  (t.searches[i]?.map (·.queue)).getD []

/-- What a branch has already. For the root branch of search `i` that is what
the caller was told, or is queued for him. -/
def settled (t : Searches) (told : List Notice) (i b : Nat) : Yield :=
  if b = i + 1 then .of (matchesOf i told ++ t.queueOf i) else .of (t.foundAt b)

end Searches

/-- A branch of a search, or the number of its root branch, which may have gone. -/
def Searches.Concerns (t : Searches) (i b : Nat) : Prop :=
  t.owner? b = some i ∨ b = i + 1

/-- What a branch of a search has and what the work that is left adds to it are
together what it will have. -/
def Balanced (g : Graph) (t : Searches) (os : List Order) (told : List Notice) (i : Nat)
    (V : Nat → Yield) : Prop :=
  ∀ b, t.Concerns i b → V b = t.settled told i b + t.pending g V os b

/-! ## Paths -/

namespace Frame

variable {fs : List Frame}

/-- A path with no triple left goes on into the clauses. -/
theorem yield_of_nil (h : f.remaining = []) : f.yield g =
    .combine f.bindings
      (clauseAnswers g f.scope.constraints f.bindings f.scope.pattern.optionals) := by
  rw [yield, h, trunks_nil, Yield.bind_of, List.map_singleton, List.sum_singleton]

/-- **A path amounts to what the paths that go on amount to.** -/
theorem yield_of_expand (hne : f.remaining ≠ []) (h : f.expand g = .ok fs) :
    f.yield g = (fs.map (Frame.yield g)).sum := by
  rw [yield, trunks_of_expand hne h, Yield.sum_bind, List.map_map]
  refine congrArg List.sum (List.map_congr_left fun f' hf' => ?_)
  have hscope := scope_of_mem_expand h hf'
  simp only [Function.comp_apply, yield, hscope]

/-- **A scope that is entered amounts to the answers to its pattern.** -/
theorem answers_eq_yield (g : Graph) (outer : Constraints) (p : Pattern) (b : Bindings)
    (search branch : Id) (awaited : List String) : answers g outer p b =
      if (enter search branch (.inside outer p) b awaited).isAllowed b then
        (enter search branch (.inside outer p) b awaited).yield g
      else 0 := by
  cases p
  rw [answers]
  rfl

end Frame

/-- So does the order to enter it. -/
theorem Order.yield_enter (g : Graph) (b c search : Nat) (outer : Constraints) (p : Pattern)
    (start : Bindings) (awaited : List String) :
    Order.yield g b (.job (.start (.enter search c (.inside outer p) start awaited))) =
      if c = b then answers g outer p start else 0 := by
  by_cases hc : c = b
  · rw [if_pos hc, Frame.answers_eq_yield g outer p start search c awaited]
    exact if_congr (and_iff_right hc) rfl rfl
  · rw [if_neg hc]
    exact if_neg fun h => hc h.1

/-! ## Branches that nobody works for -/

/-- An order adds to a branch that it holds or reports to. -/
theorem Order.yield_eq_zero (hh : o.held? ≠ some b) (hr : o.reportsTo? ≠ some b) :
    o.yield g b = 0 := by
  unfold Order.yield
  split
  · refine if_neg fun h => hh ?_
    rw [← h.1]
    rfl
  · refine if_neg fun h => hh ?_
    rw [← h]
    rfl
  · refine if_neg fun h => hh ?_
    rw [← h]
    rfl
  · refine if_neg fun h => hr ?_
    rw [← h]
    rfl
  · refine if_neg fun h => hr ?_
    rw [← h]
    rfl
  · rfl

/-- What orders add to a branch is nothing if none of them works for it. -/
theorem sum_yield_eq_zero (h : ∀ o ∈ os, o.held? ≠ some b ∧ o.reportsTo? ≠ some b) :
    (os.map (Order.yield g b)).sum = 0 := by
  refine List.sum_eq_zero fun z hz => ?_
  obtain ⟨o, ho, rfl⟩ := List.mem_map.1 hz
  exact Order.yield_eq_zero (h o ho).1 (h o ho).2

theorem Searches.waiting_eq_zero
    (h : ∀ (n : Nat) (f : Frame), t.parked[n]? = some f → f.branch ≠ b) :
    t.waiting g b = 0 :=
  tally_eq_zero fun n f hf => if_neg (h n f hf)

theorem Searches.joining_eq_zero
    (h : ∀ (j : Nat) (jn : Junction), t.junctions[j]? = some jn → jn.parent ≠ b) :
    t.joining V b = 0 :=
  tally_eq_zero fun j jn hj => if_neg (h j jn hj)

namespace Sound

/-- Nobody works for a branch that is not there. -/
theorem not_held (h : Sound t os) (hb : b ∉ t.branches) (ho : o ∈ os) :
    o.held? ≠ some b ∧ o.reportsTo? ≠ some b :=
  ⟨fun hh => hb (h.accounted.mem_of_mem_orders ho hh),
    fun hr => hb (h.accounted.mem_of_mem_orders (h.covered.mem ho hr) rfl)⟩

theorem parked_branch_ne (h : Sound t os) (hb : b ∉ t.branches) (hf : t.parked[n]? = some f) :
    f.branch ≠ b := by
  rintro rfl
  exact hb (h.accounted.mem_of_parked hf)

theorem parent_ne (h : Sound t os) (hb : b ∉ t.branches) (hj : t.junctions[j]? = some jn) :
    jn.parent ≠ b := by
  rintro rfl
  exact hb (h.accounted.mem_of_junction hj)

/-- **Nothing is left to be added to a branch that is not there.** -/
theorem pending_eq_zero (h : Sound t os) (hb : b ∉ t.branches) : t.pending g V os b = 0 := by
  rw [Searches.pending, sum_yield_eq_zero fun o ho => h.not_held hb ho,
    Searches.waiting_eq_zero fun n f hf => h.parked_branch_ne hb hf,
    Searches.joining_eq_zero fun j jn hj => h.parent_ne hb hj, add_zero, add_zero]

end Sound

/-! ## What a job does to the balance -/

namespace Searches

/-- A branch that is written keeps what was written. -/
theorem foundAt_insert {y' : Branch} (h : t'.branches = t.branches.insert c y') (b : Nat) :
    t'.foundAt b = if c = b then y'.found else t.foundAt b := by
  unfold foundAt
  rw [h, ExtTreeMap.getElem?_insert]
  by_cases hc : c = b <;> simp [hc]

/-- The other branches keep what they have when one goes away. -/
theorem foundAt_erase (h : t'.branches = t.branches.erase c) (hb : c ≠ b) :
    t'.foundAt b = t.foundAt b := by
  unfold foundAt
  rw [h, ExtTreeMap.getElem?_erase, if_neg (by simpa using hb)]

theorem foundAt_of_getElem? (h : t.branches[b]? = some y) : t.foundAt b = y.found := by
  rw [foundAt, h]
  rfl

theorem queueOf_insert {x' : Search} (h : t'.searches = t.searches.insert n x') :
    t'.queueOf i = if n = i then x'.queue else t.queueOf i := by
  unfold queueOf
  rw [h, ExtTreeMap.getElem?_insert]
  by_cases hn : n = i <;> simp [hn]

theorem queueOf_of_getElem? (h : t.searches[i]? = some x) : t.queueOf i = x.queue := by
  rw [queueOf, h]
  rfl

/-- A branch that is written with what it kept keeps it. -/
theorem foundAt_rewrite {y' : Branch} (hb : t'.branches = t.branches.insert c y')
    (hy : t.branches[c]? = some y) (hf : y'.found = y.found) : t'.foundAt b = t.foundAt b := by
  rw [foundAt_insert hb]
  by_cases hc : c = b
  · rw [if_pos hc, hf, foundAt_of_getElem? (hc ▸ hy)]
  · rw [if_neg hc]

/-- A search that is written with its queue keeps it. -/
theorem queueOf_rewrite {x' : Search} (hs : t'.searches = t.searches.insert n x')
    (hx : t.searches[n]? = some x) (hq : x'.queue = x.queue) : t'.queueOf i = t.queueOf i := by
  rw [queueOf_insert hs]
  by_cases hn : n = i
  · rw [if_pos hn, hq, queueOf_of_getElem? (hn ▸ hx)]
  · rw [if_neg hn]

/-- What a branch has depends on what it keeps, or what is queued. -/
theorem settled_eq (hf : b ≠ i + 1 → t'.foundAt b = t.foundAt b)
    (hq : b = i + 1 → t'.queueOf i = t.queueOf i) :
    t'.settled told i b = t.settled told i b := by
  unfold settled
  split
  · rename_i heq
    rw [hq heq]
  · rename_i hne
    rw [hf hne]

/-- What is queued for a search concerns no branch but its root. -/
theorem settled_insert {x' : Search} (hb : t'.branches = t.branches)
    (hs : t'.searches = t.searches.insert n x') (hne : n + 1 ≠ b) :
    t'.settled told i b = t.settled told i b := by
  have hfound : t'.foundAt b = t.foundAt b := by
    rw [foundAt, hb, foundAt]
  refine settled_eq (fun _ => hfound) ?_
  rintro rfl
  rw [queueOf_insert hs, if_neg]
  rintro rfl
  exact hne rfl

end Searches

namespace Balanced

variable {told' : List Notice}

/-- An order may be exchanged for others, if they add to each branch of the
search what it adds, or the branch has that already. -/
theorem exchange (h : Balanced g t (o :: rest) told i V)
    (hown : ∀ b : Nat, t'.owner? b = some i → t.owner? b = some i) (hp : t'.parked = t.parked)
    (hj : t'.junctions = t.junctions)
    (hb : ∀ b : Nat, t.Concerns i b → t'.Concerns i b →
      t'.settled told' i b + (os.map (Order.yield g b)).sum =
        t.settled told i b + o.yield g b) :
    Balanced g t' (os ++ rest) told' i V := by
  intro b hin
  have hin' : t.Concerns i b := hin.imp_left (hown b)
  have hold := h b hin'
  have hnew := hb b hin' hin
  have hwaiting : t'.waiting g b = t.waiting g b := by rw [Searches.waiting, hp, Searches.waiting]
  have hjoining : t'.joining V b = t.joining V b := by rw [Searches.joining, hj, Searches.joining]
  unfold Searches.pending at hold ⊢
  rw [List.map_cons, List.sum_cons] at hold
  rw [List.map_append, List.sum_append, hwaiting, hjoining, hold]
  generalize (rest.map (Order.yield g b)).sum = others
  calc t.settled told i b + (o.yield g b + others + t.waiting g b + t.joining V b)
      = (t.settled told i b + o.yield g b) + (others + t.waiting g b + t.joining V b) := by ac_rfl
    _ = (t'.settled told' i b + (os.map (Order.yield g b)).sum) +
          (others + t.waiting g b + t.joining V b) := by rw [hnew]
    _ = t'.settled told' i b +
          ((os.map (Order.yield g b)).sum + others + t.waiting g b + t.joining V b) := by ac_rfl

/-- In particular if the branches have what they had. -/
theorem exchange_of_eq (h : Balanced g t (o :: rest) told i V)
    (hown : ∀ b : Nat, t'.owner? b = some i → t.owner? b = some i) (hp : t'.parked = t.parked)
    (hj : t'.junctions = t.junctions)
    (hf : ∀ b : Nat, t'.owner? b = some i → t'.foundAt b = t.foundAt b)
    (hq : t'.queueOf i = t.queueOf i)
    (hy : ∀ b : Nat, t.Concerns i b → (os.map (Order.yield g b)).sum = o.yield g b) :
    Balanced g t' (os ++ rest) told i V := by
  refine h.exchange hown hp hj fun b hin hin' => ?_
  have hfound : b ≠ i + 1 → t'.foundAt b = t.foundAt b := fun hne => hf b (hin'.resolve_right hne)
  rw [hy b hin, Searches.settled_eq hfound fun _ => hq]

/-- A parked path amounts to what it did. -/
theorem park {d : String} {asked : Bool} (hl : Layout t)
    (h : Balanced g t (.job (.await f d asked) :: rest) told i V)
    (hb : t'.branches = t.branches) (hj : t'.junctions = t.junctions)
    (hp : t'.parked = t.parked.insert t.next (f.awaiting d)) (hq : t'.queueOf i = t.queueOf i) :
    Balanced g t' ([.watch d t.next] ++ rest) told i V := by
  intro b hin
  have hin' : t.Concerns i b := by
    unfold Searches.Concerns Searches.owner? Searches.seat? at hin ⊢
    rwa [hb] at hin
  have hold := h b hin'
  have hwaiting : t'.waiting g b = (if f.branch = b then f.yield g else 0) + t.waiting g b := by
    rw [Searches.waiting, hp, tally_insert hl.next_not_mem_parked]
    rfl
  have hjoining : t'.joining V b = t.joining V b := by rw [Searches.joining, hj, Searches.joining]
  have hfound : t'.foundAt b = t.foundAt b := by
    unfold Searches.foundAt
    rw [hb]
  unfold Searches.pending at hold ⊢
  rw [hold, Searches.settled_eq (fun _ => hfound) fun _ => hq, hwaiting, hjoining, List.map_cons,
    List.sum_cons, List.singleton_append, List.map_cons, List.sum_cons]
  simp only [Order.yield, zero_add]
  generalize (if f.branch = b then f.yield g else 0) = path
  ac_rfl

/-! ### Junctions -/

variable {slot : Nat} {combos : List Bindings}

/-- **A branch of a clause that is about to go has all it will have.** -/
theorem eq_of_closed (h : Balanced g t (.job (.release c) :: rest) told i V)
    (hs : Sound t (.job (.release c) :: rest)) (hs' : Sound t' (os ++ rest))
    (hy : t.branches[c]? = some y) (hr : y.role = .clause j slot) (hi : y.search = i)
    (hb : c ∉ t'.branches) (hc : c ≠ i + 1) (hp : t'.parked = t.parked)
    (hjs : ∀ k : Nat, j ≠ k → t'.junctions[k]? = t.junctions[k]?) : V c = .of y.found := by
  have hseat := Searches.seat?_of_getElem? hy
  rw [hr, hi] at hseat
  have hin : t.Concerns i c := .inl (Searches.owner?_eq_some_iff.2 ⟨_, hseat⟩)
  have horders : ((Order.job (.release c) :: rest).map (Order.yield g c)).sum = 0 := by
    rw [List.map_cons, List.sum_cons,
      sum_yield_eq_zero fun o ho => hs'.not_held hb (List.mem_append_right _ ho), add_zero]
    rfl
  have hwaiting : t.waiting g c = 0 :=
    Searches.waiting_eq_zero fun n f hf => hs'.parked_branch_ne hb (by rwa [hp])
  have hjoining : t.joining V c = 0 := by
    refine Searches.joining_eq_zero fun k jn' hk => ?_
    by_cases he : j = k
    · -- the junction of the clause reports to an earlier branch
      subst he
      exact Nat.ne_of_lt (hs.layout.parent_lt_clause hseat hk)
    · exact hs'.parent_ne hb (by rw [hjs k he, hk])
  rw [h c hin, Searches.settled, if_neg hc, Searches.foundAt_of_getElem? hy,
    Searches.pending, horders, hwaiting, hjoining, add_zero, add_zero, add_zero]

end Balanced

/-- **Filling the place of a clause that has all it will have changes nothing.**
-/
theorem Junction.yield_fill {slot : Nat} (hslot : jn.slots[slot]? = some none)
    (hV : V (j + 1 + slot) = .of y.found) :
    (jn.fill slot y.results).yield V j = jn.yield V j := by
  unfold Junction.yield Junction.fill
  refine congrArg _ (List.ext_getElem? fun k => ?_)
  rw [List.getElem?_mapIdx, List.getElem?_mapIdx, List.getElem?_set]
  by_cases hk : slot = k
  · subst hk
    have hlt : slot < jn.slots.length := (List.getElem?_eq_some_iff.1 hslot).1
    rw [if_pos rfl, if_pos hlt, hslot]
    simp only [Option.map_some, Option.getD_some, Option.map_none, Option.getD_none]
    rw [hV, Yield.orEmpty_of_found]
  · rw [if_neg hk]

/-- A junction whose clauses are all complete amounts to the combinations. -/
theorem Junction.yield_of_combinations? {combos : List Bindings}
    (h : jn.combinations? = some combos) : jn.yield V j = .of combos := by
  obtain ⟨rss, hslots, rfl⟩ := Junction.combinations?_eq_some_iff.1 h
  rw [Junction.yield, hslots, ← Yield.combine_map_of]
  refine congrArg _ (List.ext_getElem? fun k => ?_)
  rw [List.getElem?_mapIdx, List.getElem?_map, List.getElem?_map]
  cases rss[k]? <;> rfl

/-- What a junction adds to a branch stays the same when a clause is complete
that has all it will have. -/
theorem Junction.yield_fill_of_parent {slot : Nat} (hslot : jn.slots[slot]? = some none)
    (hV : jn.parent = b → V (j + 1 + slot) = .of y.found) :
    (if jn.parent = b then (jn.fill slot y.results).yield V j else 0) =
      if jn.parent = b then jn.yield V j else 0 := by
  by_cases hpar : jn.parent = b
  · rw [if_pos hpar, if_pos hpar, yield_fill hslot (hV hpar)]
  · rw [if_neg hpar, if_neg hpar]

namespace Searches

variable {slot : Nat} {combos : List Bindings}

/-- A junction that waits for other clauses adds what it did. -/
theorem joining_fill (hj : t.junctions[j]? = some jn) (hslot : jn.slots[slot]? = some none)
    (hV : jn.parent = b → V (j + 1 + slot) = .of y.found)
    (hjs : t'.junctions = t.junctions.insert j (jn.fill slot y.results)) :
    t.joining V b = t'.joining V b := by
  rw [joining, tally_erase hj, joining, hjs, tally_write]
  exact congrArg (· + _) (Junction.yield_fill_of_parent hslot hV).symm

/-- What a junction added is reported when it has all clauses. -/
theorem joining_combine (hj : t.junctions[j]? = some jn) (hslot : jn.slots[slot]? = some none)
    (hV : jn.parent = b → V (j + 1 + slot) = .of y.found)
    (hcombos : (jn.fill slot y.results).combinations? = some combos)
    (hjs : t'.junctions = t.junctions.erase j) :
    t.joining V b = (if jn.parent = b then .of combos else 0) + t'.joining V b := by
  rw [joining, tally_erase hj, joining, hjs, ← Junction.yield_fill_of_parent hslot hV,
    Junction.yield_of_combinations? hcombos]

/-- The branches that stay when one goes away stay with their search. -/
theorem owner?_of_erase (hb : t'.branches = t.branches.erase c) (ho : t'.owner? b = some i) :
    t.owner? b = some i ∧ c ≠ b := by
  have hseat : t'.seat? b = if c = b then none else t.seat? b := by
    rw [← seat?_erase, ← hb, seat?]
  unfold owner? at ho ⊢
  rw [hseat] at ho
  by_cases hc : c = b
  · simp [hc] at ho
  · rw [if_neg hc] at ho
    exact ⟨ho, hc⟩

end Searches

/-- The branch of a clause may go away if the junctions see to what it had. -/
theorem Balanced.close (h : Balanced g t (.job (.release c) :: rest) told i V)
    (hc : c ≠ i + 1) (hb : t'.branches = t.branches.erase c) (hp : t'.parked = t.parked)
    (hq : t'.queueOf i = t.queueOf i)
    (hj : ∀ b : Nat, t.Concerns i b →
      t.joining V b = (os.map (Order.yield g b)).sum + t'.joining V b) :
    Balanced g t' (os ++ rest) told i V := by
  intro b hin
  have hne : c ≠ b := by
    rcases hin with ho | rfl
    · exact (Searches.owner?_of_erase hb ho).2
    · exact hc
  have hin' : t.Concerns i b := hin.imp_left fun ho => (Searches.owner?_of_erase hb ho).1
  have hwaiting : t'.waiting g b = t.waiting g b := by rw [Searches.waiting, hp, Searches.waiting]
  have hfound : t'.foundAt b = t.foundAt b := Searches.foundAt_erase hb hne
  have hold := h b hin'
  unfold Searches.pending at hold ⊢
  rw [hold, hj b hin', hwaiting, Searches.settled_eq (fun _ => hfound) fun _ => hq, List.map_cons,
    List.sum_cons, List.map_append, List.sum_append]
  simp only [Order.yield, zero_add]
  generalize (os.map (Order.yield g b)).sum = reported
  ac_rfl

end TripleQuery
