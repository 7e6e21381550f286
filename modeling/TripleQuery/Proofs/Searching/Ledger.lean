import TripleQuery.Proofs.Joining.Course
import TripleQuery.Proofs.Searching.Ending
/-!
# Ledgers — what the orders that are left will find, in their order

The branches and junctions of one search are its ledger (`Searches.ledger`).
Where no path has to wait, the orders that are left are carried out one after
the other, each with all that it leads to before the next one: what a path finds
goes to its branch, and when the branch is complete, what the junction makes of
it goes to the branch before (`Ledger.carryOut`). So the ledger and the orders
tell beforehand which matches the caller will be told of, and in which order
(`foresee`).

What comes after an order is a function of the ledger that it leaves. It is
looked at only if no error is met.
-/

namespace TripleQuery

open Std (ExtTreeMap)

/-- The branches and junctions of one search. -/
@[ext]
structure Ledger where
  branch : Id → Option Branch
  junction : Id → Option Junction

namespace Ledger

variable {L : Ledger} {b c j n : Nat} {y : Branch} {jn : Junction} {e : QueryError}
  {k k' : Ledger → Course}

/-- Write a branch. -/
def write (L : Ledger) (b : Id) (y : Branch) : Ledger :=
  { L with branch := Function.update L.branch b (some y) }

/-- A branch goes away. -/
def close (L : Ledger) (b : Id) : Ledger :=
  { L with branch := Function.update L.branch b none }

/-- Write a junction. -/
def writeJunction (L : Ledger) (j : Id) (jn : Junction) : Ledger :=
  { L with junction := Function.update L.junction j (some jn) }

/-- A junction goes away. -/
def closeJunction (L : Ledger) (j : Id) : Ledger :=
  { L with junction := Function.update L.junction j none }

/-- Count more pieces of work on a branch. -/
def hold (L : Ledger) (b : Id) (n : Nat) : Ledger :=
  match L.branch b with
  | none => L
  | some y => L.write b { y with holders := y.holders + n }

/-- Something is found on a branch. A clause keeps it, the caller is told of it,
and after an error nothing is found any more. -/
def add (L : Ledger) (b : Id) (c : Course) (k : Ledger → Course) : Course :=
  match L.branch b with
  | none => k L
  | some y =>
    match y.role with
    | .root => c + k L
    | .clause _ _ =>
      match c.error with
      | some e => .failing e
      | none => k (L.write b { y with found := y.found ++ c.found })

/-- A piece of work on a branch is done. The last one completes the branch. -/
def release (L : Ledger) (b : Id) (k : Ledger → Course) : Course :=
  match L.branch b with
  | none => k L
  | some y =>
    if 1 < y.holders then k (L.write b { y with holders := y.holders - 1 })
    else
      match y.role with
      | .root => k (L.close b)
      | .clause j slot =>
        match L.junction j with
        | none => k (L.close b)
        | some jn =>
          match (jn.fill slot y.results).combinations? with
          | none => k ((L.close b).writeJunction j (jn.fill slot y.results))
          | some combos =>
            -- a junction reports to an earlier branch
            if jn.parent < b then
              ((L.close b).closeJunction j).add jn.parent (.of combos) fun L =>
                L.release jn.parent k
            else k L
termination_by b

/-- Carry out an order, and all that it leads to. -/
def carryOut (g : Graph) (L : Ledger) (k : Ledger → Course) : Order → Course
  | .job (.start f) =>
    L.add f.branch (if f.isAllowed f.bindings then f.course g else 0) fun L =>
      L.release f.branch k
  | .job (.step f) => L.add f.branch (f.course g) fun L => L.release f.branch k
  | .job (.report b ms) => L.add b (.of ms) k
  | .job (.release b) => L.release b k
  | _ => k L

end Ledger

/-- What is found by carrying out some orders, and then what comes after. -/
def foresee (g : Graph) : List Order → (Ledger → Course) → Ledger → Course
  | [], k => k
  | o :: os, k => fun L => L.carryOut g (foresee g os k) o

theorem foresee_cons (g : Graph) (o : Order) (os : List Order) (k : Ledger → Course) (L : Ledger) :
    foresee g (o :: os) k L = L.carryOut g (foresee g os k) o := rfl

theorem foresee_append (g : Graph) (os os' : List Order) (k : Ledger → Course) :
    foresee g (os ++ os') k = foresee g os (foresee g os' k) := by
  induction os with
  | nil => rfl
  | cons o os ih => rw [List.cons_append, foresee, ih, foresee]

namespace Junction

/-- One more clause of some is complete. -/
theorem fill_next (trunk : Bindings) (parent : Nat) (complete : List (List Bindings)) (n : Nat)
    (rs : List Bindings) :
    fill ⟨trunk, parent, complete.map some ++ .replicate (n + 1) none⟩
        complete.length rs =
      ⟨trunk, parent, (complete ++ [rs]).map some ++ .replicate n none⟩ := by
  simp [fill, List.replicate_succ]

/-- The combinations are there once all clauses are complete. -/
theorem combinations?_eq (trunk : Bindings) (parent : Nat) (complete : List (List Bindings))
    (n : Nat) :
    combinations? ⟨trunk, parent, complete.map some ++ .replicate n none⟩ =
      if n = 0 then some (combine trunk complete) else none := by
  by_cases hn : n = 0
  · subst hn
    rw [if_pos rfl, combinations?_eq_some_iff]
    exact ⟨complete, by simp, rfl⟩
  · rw [if_neg hn]
    refine Option.eq_none_iff_forall_ne_some.2 fun combos hc => ?_
    refine getElem?_ne_none_of_combinations? hc complete.length ?_
    simp [Nat.pos_of_ne_zero hn]

end Junction

namespace Ledger

variable {g : Graph} {L : Ledger} {b i j n : Nat} {y : Branch} {jn : Junction} {e : QueryError}
  {k k' : Ledger → Course} {c d : Course} {o : Order} {os : List Order} {r : BranchRole}

@[simp] theorem branch_write (L : Ledger) (b : Nat) (y : Branch) :
    (L.write b y).branch b = some y := by
  simp [write]

/-- What is written last stands. -/
@[simp] theorem write_write (L : Ledger) (b : Nat) (y y' : Branch) :
    (L.write b y).write b y' = L.write b y' := by
  simp [write]

/-- A branch may be written as it is. -/
theorem write_of_branch (h : L.branch b = some y) : L.write b y = L := by
  unfold write
  rw [← h, Function.update_eq_self]

@[simp] theorem close_write (L : Ledger) (b : Nat) (y : Branch) :
    (L.write b y).close b = L.close b := by
  simp [write, close]

/-- A branch that is not there may go away. -/
theorem close_of_none (h : L.branch b = none) : L.close b = L := by
  unfold close
  rw [← h, Function.update_eq_self]

theorem closeJunction_of_none (h : L.junction j = none) : L.closeJunction j = L := by
  unfold closeJunction
  rw [← h, Function.update_eq_self]

theorem hold_of_branch (h : L.branch b = some y) (n : Nat) :
    L.hold b n = L.write b { y with holders := y.holders + n } := by
  simp [hold, h]

/-! ## What is found on a branch -/

theorem add_of_none (h : L.branch b = none) (c : Course) (k : Ledger → Course) :
    L.add b c k = k L := by
  simp [add, h]

theorem add_of_root (h : L.branch b = some y) (hr : y.role = .root) (c : Course)
    (k : Ledger → Course) : L.add b c k = c + k L := by
  simp [add, h, hr]

theorem add_of_clause (h : L.branch b = some y) {slot : Nat} (hr : y.role = .clause j slot)
    (c : Course) (k : Ledger → Course) : L.add b c k =
      match c.error with
      | some e => .failing e
      | none => k (L.write b { y with found := y.found ++ c.found }) := by
  simp [add, h, hr]

/-- Where nothing is found, what comes after is next. -/
@[simp] theorem add_zero (L : Ledger) (b : Nat) (k : Ledger → Course) : L.add b 0 k = k L := by
  cases h : L.branch b with
  | none => exact add_of_none h 0 k
  | some y =>
    cases hr : y.role with
    | root => rw [add_of_root h hr, zero_add]
    | clause j slot =>
      rw [add_of_clause h hr]
      change k (L.write b { y with found := y.found ++ [] }) = k L
      rw [List.append_nil, write_of_branch h]

/-- After an error nothing comes. -/
theorem add_failing (h : L.branch b = some y) (e : QueryError) (k : Ledger → Course) :
    L.add b (.failing e) k = .failing e := by
  cases hr : y.role with
  | root => rw [add_of_root h hr, Course.failing_add]
  | clause j slot => rw [add_of_clause h hr]; rfl

/-- **What is found first and what is found later are found one after the
other.** -/
theorem add_add (L : Ledger) (b : Nat) (c d : Course) (k : Ledger → Course) :
    L.add b (c + d) k = L.add b c fun L => L.add b d k := by
  cases h : L.branch b with
  | none => rw [add_of_none h, add_of_none h, add_of_none h]
  | some y =>
    cases hr : y.role with
    | root => rw [add_of_root h hr, add_of_root h hr, add_of_root h hr, add_assoc]
    | clause j slot =>
      rw [add_of_clause h hr, add_of_clause h hr]
      cases he : c.error with
      | some e => rw [Course.add_of_error he, he]
      | none =>
        have hwrite : (L.write b { y with found := y.found ++ c.found }).branch b =
            some { y with found := y.found ++ c.found } := branch_write ..
        rw [Course.add_of_no_error he]
        simp only [add_of_clause hwrite hr, write_write, List.append_assoc]

/-- What comes after is looked at with the branch there as before, but for what
it keeps. -/
theorem add_congr (h : L.branch b = some y)
    (hk : ∀ L' y', L'.branch b = some y' → y'.holders = y.holders → k L' = k' L') :
    L.add b c k = L.add b c k' := by
  cases hr : y.role with
  | root => rw [add_of_root h hr, add_of_root h hr, hk L y h rfl]
  | clause j slot =>
    rw [add_of_clause h hr, add_of_clause h hr]
    cases c.error with
    | some e => rfl
    | none => exact hk _ _ (branch_write ..) rfl

/-- What is found does not depend on how many pieces of work there are. -/
theorem hold_add (h : L.branch b = some y) (n : Nat) (c : Course) (k : Ledger → Course) :
    (L.hold b n).add b c k = L.add b c fun L => k (L.hold b n) := by
  have hheld : (L.hold b n).branch b = some { y with holders := y.holders + n } := by
    rw [hold_of_branch h, branch_write]
  cases hr : y.role with
  | root => rw [add_of_root hheld hr, add_of_root h hr]
  | clause j slot =>
    rw [add_of_clause hheld hr, add_of_clause h hr]
    cases c.error with
    | some e => rfl
    | none =>
      simp only [hold_of_branch h, write_write]
      rw [hold_of_branch (branch_write ..), write_write]

/-! ## Completion -/

theorem release_of_none (h : L.branch b = none) (k : Ledger → Course) : L.release b k = k L := by
  rw [release, h]

/-- A piece of work that is not the last one leaves the others. -/
theorem release_of_lt (h : L.branch b = some y) (hlt : 1 < y.holders) (k : Ledger → Course) :
    L.release b k = k (L.write b { y with holders := y.holders - 1 }) := by
  rw [release, h]
  simp only [if_pos hlt]

theorem release_of_root (h : L.branch b = some y) (hle : y.holders ≤ 1) (hr : y.role = .root)
    (k : Ledger → Course) : L.release b k = k (L.close b) := by
  rw [release, h]
  simp only [if_neg (Nat.not_lt.2 hle), hr]

/-- A clause is complete, and others are not. -/
theorem release_of_filled (h : L.branch b = some y) (hle : y.holders ≤ 1) {slot : Nat}
    (hr : y.role = .clause j slot) (hj : L.junction j = some jn)
    (hc : (jn.fill slot y.results).combinations? = none) (k : Ledger → Course) :
    L.release b k = k ((L.close b).writeJunction j (jn.fill slot y.results)) := by
  rw [release, h]
  simp only [if_neg (Nat.not_lt.2 hle), hr, hj, hc]

/-- The last clause is complete. -/
theorem release_of_combined (h : L.branch b = some y) (hle : y.holders ≤ 1) {slot : Nat}
    (hr : y.role = .clause j slot) (hj : L.junction j = some jn) {combos : List Bindings}
    (hc : (jn.fill slot y.results).combinations? = some combos) (hlt : jn.parent < b)
    (k : Ledger → Course) : L.release b k =
      ((L.close b).closeJunction j).add jn.parent (.of combos) fun L =>
        L.release jn.parent k := by
  rw [release, h]
  simp only [if_neg (Nat.not_lt.2 hle), hr, hj, hc, if_pos hlt]

/-- One of several further pieces of work is done. -/
theorem hold_release (h : L.branch b = some y) (hpos : 0 < y.holders) (n : Nat)
    (k : Ledger → Course) : (L.hold b (n + 1)).release b k = k (L.hold b n) := by
  rw [hold_of_branch h, release_of_lt (branch_write ..) (by simp only; omega), write_write,
    hold_of_branch h]
  rfl

/-- **Paths on one branch find what they find one after the other.** -/
theorem foresee_steps (h : L.branch b = some y) (hpos : 0 < y.holders) {fs : List Frame}
    (hfs : ∀ f ∈ fs, f.branch = b) (k : Ledger → Course) :
    foresee g (fs.map fun f => .job (.step f)) k (L.hold b fs.length) =
      L.add b (fs.map (Frame.course g)).sum k := by
  induction fs generalizing L y with
  | nil =>
    have hsame : L.hold b 0 = L := by rw [hold_of_branch h]; exact write_of_branch h
    rw [List.map_nil, List.map_nil, List.sum_nil, add_zero]
    exact congrArg k hsame
  | cons f fs ih =>
    have hf : f.branch = b := hfs f List.mem_cons_self
    simp only [List.map_cons, List.sum_cons, foresee, carryOut, List.length_cons, hf]
    rw [hold_add h, add_add]
    refine add_congr h fun L' y' hy' hh => ?_
    have hpos' : 0 < y'.holders := hh ▸ hpos
    rw [hold_release hy' hpos']
    exact ih hy' hpos' fun f' hf' => hfs f' (List.mem_cons_of_mem _ hf')

/-! ## Clauses -/

/-- The ledger with a junction whose clauses have a branch each, unless they are
complete. -/
def opened (L : Ledger) (i j : Id) (jn : Junction) : Ledger where
  branch b :=
    if j + 1 ≤ b ∧ jn.slots[b - (j + 1)]? = some none then
      some { search := i, role := .clause j (b - (j + 1)) }
    else L.branch b
  junction := Function.update L.junction j (some jn)

/-- Nothing that is numbered from `j` on is there. -/
structure IsNew (L : Ledger) (j : Nat) : Prop where
  branch {b : Nat} : j ≤ b → L.branch b = none
  junction : L.junction j = none

theorem branch_opened {slot : Nat} (h : jn.slots[slot]? = some none) :
    (L.opened i j jn).branch (j + 1 + slot) =
      some { search := i, role := .clause j slot } := by
  have hsub : j + 1 + slot - (j + 1) = slot := Nat.add_sub_cancel_left ..
  simp only [opened, hsub, h, Nat.le_add_right, and_self, if_true]

@[simp] theorem junction_opened (L : Ledger) (i j : Nat) (jn : Junction) :
    (L.opened i j jn).junction j = some jn := by
  simp [opened]

/-- **A clause that is complete has its place filled, and no branch any more.**
-/
theorem close_opened (hn : L.IsNew j) (slot : Nat) (rs : List Bindings) :
    ((L.opened i j jn).close (j + 1 + slot)).writeJunction j (jn.fill slot rs) =
      L.opened i j (jn.fill slot rs) := by
  ext1
  · funext b
    change Function.update (L.opened i j jn).branch (j + 1 + slot) none b = _
    by_cases hb : b = j + 1 + slot
    · subst hb
      have hsub : j + 1 + slot - (j + 1) = slot := Nat.add_sub_cancel_left ..
      have hfull : (jn.fill slot rs).slots[slot]? ≠ some none := by
        unfold Junction.fill
        rw [List.getElem?_set_self']
        cases jn.slots[slot]? <;> simp
      have hnone : L.branch (j + 1 + slot) = none := hn.branch (by omega)
      rw [Function.update_self]
      refine (Eq.trans (if_neg fun h => hfull ?_) hnone).symm
      rw [← h.2, hsub]
    · rw [Function.update_of_ne hb]
      refine if_congr (and_congr_right fun hle => ?_) rfl rfl
      have hne : slot ≠ b - (j + 1) := by
        rintro rfl
        exact hb (Nat.add_sub_of_le hle).symm
      rw [Junction.getElem?_fill_of_ne hne]
  · simp [close, writeJunction, opened]

/-- Once all clauses are complete, the ledger is as it was before them. -/
theorem closeJunction_opened (hn : L.IsNew j) (hall : ∀ n : Nat, jn.slots[n]? ≠ some none) :
    (L.opened i j jn).closeJunction j = L := by
  ext1
  · funext b
    exact if_neg fun h => hall _ h.2
  · change Function.update (Function.update L.junction j (some jn)) j none = L.junction
    rw [Function.update_idem, ← hn.junction, Function.update_eq_self]

/-- **One clause is gone through.** If it meets no error, it fills its place, and
the last one has the combinations reported. -/
theorem opened_add (hn : L.IsNew j) (hlt : jn.parent < j) {slot : Nat}
    (hslot : jn.slots[slot]? = some none) (c : Course) (k : Ledger → Course) :
    ((L.opened i j jn).add (j + 1 + slot) c fun L => L.release (j + 1 + slot) k) =
      match c.error with
      | some e => .failing e
      | none =>
        match (jn.fill slot c.results).combinations? with
        | none => k (L.opened i j (jn.fill slot c.results))
        | some combos => L.add jn.parent (.of combos) fun L => L.release jn.parent k := by
  have hy : (L.opened i j jn).branch (j + 1 + slot) =
      some { search := i, role := .clause j slot } :=
    branch_opened hslot
  rw [add_of_clause hy rfl]
  cases c.error with
  | some e => rfl
  | none =>
    have hwrite := branch_write (L.opened i j jn) (j + 1 + slot)
      { search := i, role := .clause j slot, found := c.found }
    have hjn : ((L.opened i j jn).write (j + 1 + slot)
        { search := i, role := .clause j slot, found := c.found }).junction j = some jn :=
      junction_opened L i j jn
    change Ledger.release (Ledger.write _ _ { found := c.found, .. }) _ _ = _
    cases hc : (jn.fill slot c.results).combinations? with
    | none =>
      rw [release_of_filled hwrite (Nat.le_refl 1) rfl hjn hc, close_write]
      exact congrArg k (close_opened hn slot c.results)
    | some combos =>
      have hbefore : ((L.opened i j jn).close (j + 1 + slot)).closeJunction j = L := by
        have hsame : (L.opened i j (jn.fill slot c.results)).closeJunction j = L :=
          closeJunction_opened hn fun n => Junction.getElem?_ne_none_of_combinations? hc n
        rw [← close_opened hn] at hsame
        simpa [closeJunction, writeJunction] using hsame
      have hparent : jn.parent < j + 1 + slot :=
        Nat.lt_of_lt_of_le hlt (Nat.le_add_right_of_le (Nat.le_succ j))
      rw [release_of_combined hwrite (Nat.le_refl 1) rfl hjn hc hparent, close_write, hbefore]

/-- A scope is entered. -/
theorem carryOut_enter (g : Graph) (L : Ledger) (k : Ledger → Course) (search b : Nat)
    (outer : Constraints) (p : Pattern) (start : Bindings) (awaited : List String) :
    L.carryOut g k (.job (.start (.enter search b (.inside outer p) start awaited))) =
      L.add b (course g outer p start) fun L => L.release b k := by
  rw [Frame.course_enter g outer p start search b awaited]
  rfl

/-- The rest of the clauses of a junction, gone through one after the other. -/
theorem foresee_clauses (hn : L.IsNew j) {parent : Nat} (hlt : parent < j)
    (hy : L.branch parent = some y) {clauses : List Pattern} (hne : clauses ≠ [])
    (complete : List (List Bindings)) (cs : Constraints) (trunk : Bindings)
    (awaited : List String) (k : Ledger → Course) :
    foresee g (clauses.mapIdx fun n p => .job (.start
        (.enter i (j + 1 + (complete.length + n)) (.inside cs p) (p.initial ∪ trunk) awaited))) k
        (L.opened i j ⟨trunk, parent, complete.map some ++ .replicate clauses.length none⟩) =
      L.add parent (.joinFrom trunk complete (clauseCourses g cs trunk clauses))
        fun L => L.release parent k := by
  induction clauses generalizing complete with
  | nil => exact absurd rfl hne
  | cons p ps ih =>
    have hslot : (complete.map some ++ List.replicate (ps.length + 1) none)[complete.length]? =
        some (none : Option (List Bindings)) := by
      simp
    rw [List.mapIdx_cons, foresee_cons, carryOut_enter, clauseCourses, Course.joinFrom,
      List.findSome?_cons]
    refine (opened_add (L := L) hn hlt hslot _ _).trans ?_
    cases he : (course g cs p (p.initial ∪ trunk)).error with
    | some e => exact (add_failing hy e _).symm
    | none =>
      simp only [List.length_cons, Nat.add_zero, Junction.fill_next, Junction.combinations?_eq]
      cases ps with
      | nil => rfl
      | cons q qs =>
        have hrest := ih (List.cons_ne_nil q qs)
          (complete ++ [(course g cs p (p.initial ∪ trunk)).results])
        simp only [Course.joinFrom, List.length_append, List.length_singleton, List.append_assoc,
          List.singleton_append, Nat.add_assoc, Nat.add_comm 1] at hrest ⊢
        exact hrest

end Ledger

section

variable {g : Graph} {t t' : Searches} {os : List Order} {o : Order} {f : Frame} {y : Branch}
  {jn : Junction} {b c i j n : Nat} {r : BranchRole}

/-! ## The ledger of a search -/

/-- The branches and junctions of one search. -/
def Searches.ledger (t : Searches) (i : Id) : Ledger where
  branch b := t.branches[b]?.filter fun y => y.search == i
  junction j := t.junctions[j]?.filter fun jn => t.owner? jn.parent == some i

/-- The branch that an order works for, if it does not wait. -/
def Order.branch? : Order → Option Id
  | .job (.start f) | .job (.step f) => some f.branch
  | .job (.report b _) | .job (.release b) => some b
  | _ => none

/-- Orders for branches that are not in a ledger. -/
def Ledger.Ignores (L : Ledger) (os : List Order) : Prop :=
  ∀ o ∈ os, ∀ b, o.branch? = some b → L.branch b = none

/-- An order for a branch that is not there changes nothing. -/
theorem Ledger.carryOut_of_none {L : Ledger} (h : ∀ b, o.branch? = some b → L.branch b = none)
    (k : Ledger → Course) : L.carryOut g k o = k L := by
  unfold carryOut
  split
  · rw [add_of_none (h _ rfl), release_of_none (h _ rfl)]
  · rw [add_of_none (h _ rfl), release_of_none (h _ rfl)]
  · exact add_of_none (h _ rfl) _ _
  · exact release_of_none (h _ rfl) _
  · rfl

theorem foresee_of_ignores {L : Ledger} (h : L.Ignores os) (k : Ledger → Course) :
    foresee g os k L = k L := by
  induction os with
  | nil => rfl
  | cons o os ih =>
    rw [foresee_cons, Ledger.carryOut_of_none (h o List.mem_cons_self)]
    exact ih fun o' ho' => h o' (List.mem_cons_of_mem _ ho')

namespace Searches

theorem branch_ledger (h : t.branches[b]? = some y) (hi : y.search = i) :
    (t.ledger i).branch b = some y := by
  simp [ledger, h, Option.filter, hi]

theorem branch_ledger_of_ne (h : t.branches[b]? = some y) (hi : y.search ≠ i) :
    (t.ledger i).branch b = none := by
  simp [ledger, h, Option.filter, hi]

theorem branch_ledger_of_not_mem (h : b ∉ t.branches) : (t.ledger i).branch b = none := by
  have hnone : t.branches[b]? = none := ExtTreeMap.getElem?_eq_none h
  simp [ledger, hnone]

theorem branch_ledger_of_owner?_ne (h : t.owner? b ≠ some i) : (t.ledger i).branch b = none := by
  cases hy : t.branches[b]? with
  | none => simp [ledger, hy]
  | some y =>
    refine branch_ledger_of_ne hy fun hi => h ?_
    rw [owner?, seat?_of_getElem? hy, ← hi]
    rfl

theorem junction_ledger (h : t.junctions[j]? = some jn) (hi : t.owner? jn.parent = some i) :
    (t.ledger i).junction j = some jn := by
  simp [ledger, h, Option.filter, hi]

theorem junction_ledger_of_ne (h : t.junctions[j]? = some jn) (hi : t.owner? jn.parent ≠ some i) :
    (t.ledger i).junction j = none := by
  simp [ledger, h, Option.filter, hi]

/-- A ledger depends on nothing but the branches and junctions. -/
theorem ledger_congr (hb : t'.branches = t.branches) (hj : t'.junctions = t.junctions) :
    t'.ledger i = t.ledger i := by
  simp only [ledger, owner?, seat?, hb, hj]

/-- A branch of the search is written in its place. -/
theorem ledger_insert (hy : t.branches[b]? = some y) (y' : Branch) (hs : y'.search = y.search)
    (hr : y'.role = y.role) :
    { t with branches := t.branches.insert b y' }.ledger i =
      if y.search = i then (t.ledger i).write b y' else t.ledger i := by
  generalize ht : ({ t with branches := t.branches.insert b y' } : Searches) = t'
  have hb : t'.branches = t.branches.insert b y' := ht ▸ rfl
  have hj : t'.junctions = t.junctions := ht ▸ rfl
  have howner : ∀ c, t'.owner? c = t.owner? c := fun c => by
    have hseat := seat?_insert hy hs hr c
    rw [owner?, seat?, hb, hseat, owner?]
  have hbranch : ∀ c : Nat, (t'.ledger i).branch c =
      if b = c then (if y.search = i then some y' else none) else (t.ledger i).branch c := by
    intro c
    simp only [ledger, hb, ExtTreeMap.getElem?_insert, Std.LawfulEqCmp.compare_eq_iff_eq]
    by_cases hc : b = c
    · simp [hc, Option.filter, hs]
    · simp [hc]
  have hjunction : (t'.ledger i).junction = (t.ledger i).junction := by
    simp only [ledger, hj, howner]
  by_cases hi : y.search = i
  · rw [if_pos hi]
    ext1
    · funext c
      rw [hbranch, if_pos hi]
      simp only [Ledger.write, Function.update_apply]
      exact if_congr eq_comm rfl rfl
    · exact hjunction
  · rw [if_neg hi]
    ext1
    · funext c
      rw [hbranch, if_neg hi]
      split
      · rename_i hc
        exact (branch_ledger_of_ne (hc ▸ hy) hi).symm
      · rfl
    · exact hjunction

/-- What is there without a branch is another one. -/
theorem ne_of_mem_erase (h : c ∈ t.branches.erase b) : c ≠ b := by
  rintro rfl
  simp at h

/-- A branch to which no junction reports goes away. -/
theorem ledger_erase (hb : t'.branches = t.branches.erase b)
    (hpar : ∀ (j : Nat) (jn : Junction), t'.junctions[j]? = some jn → jn.parent ≠ b) :
    t'.ledger i = { (t.ledger i).close b with
      junction := fun j => t'.junctions[j]?.filter fun jn => t.owner? jn.parent == some i } := by
  ext1
  · funext c
    simp only [ledger, Ledger.close, Function.update_apply, hb, ExtTreeMap.getElem?_erase,
      Std.LawfulEqCmp.compare_eq_iff_eq]
    by_cases hc : b = c
    · simp [hc]
    · rw [if_neg hc, if_neg (Ne.symm hc)]
  · funext j
    simp only [ledger]
    cases hj : t'.junctions[j]? with
    | none => rfl
    | some jn =>
      have hne : b ≠ jn.parent := (hpar j jn hj).symm
      have hseat : t'.seat? jn.parent = t.seat? jn.parent := by
        rw [seat?, hb, seat?_erase, if_neg hne]
      have howner : t'.owner? jn.parent = t.owner? jn.parent := congrArg (Option.map _) hseat
      exact if_congr (by simp only [howner]) rfl rfl

/-- With it a place of a junction may be filled. -/
theorem ledger_fill (hb : t'.branches = t.branches.erase b)
    (hpar : ∀ (j : Nat) (jn : Junction), t'.junctions[j]? = some jn → jn.parent ≠ b)
    (hjn : t.junctions[j]? = some jn) (slot : Nat) (rs : List Bindings)
    (hj : t'.junctions = t.junctions.insert j (jn.fill slot rs)) :
    t'.ledger i = if t.owner? jn.parent = some i then
        ((t.ledger i).close b).writeJunction j (jn.fill slot rs)
      else (t.ledger i).close b := by
  rw [ledger_erase hb hpar]
  by_cases hi : t.owner? jn.parent = some i
  · rw [if_pos hi]
    ext1
    · rfl
    · funext n
      simp only [Ledger.writeJunction, Function.update_apply, hj, ExtTreeMap.getElem?_insert,
        Std.LawfulEqCmp.compare_eq_iff_eq]
      by_cases hn : j = n
      · simp [hn, Option.filter, Junction.fill, hi]
      · rw [if_neg hn, if_neg (Ne.symm hn)]
        rfl
  · rw [if_neg hi]
    ext1
    · rfl
    · funext n
      simp only [Ledger.close, ledger, hj, ExtTreeMap.getElem?_insert,
        Std.LawfulEqCmp.compare_eq_iff_eq]
      by_cases hn : j = n
      · subst hn
        simp [hjn, Option.filter, Junction.fill, hi]
      · rw [if_neg hn]

/-- Or go away. -/
theorem ledger_combine (hb : t'.branches = t.branches.erase b)
    (hpar : ∀ (j : Nat) (jn : Junction), t'.junctions[j]? = some jn → jn.parent ≠ b)
    (hj : t'.junctions = t.junctions.erase j) :
    t'.ledger i = ((t.ledger i).close b).closeJunction j := by
  rw [ledger_erase hb hpar]
  ext1
  · rfl
  · funext n
    simp only [Ledger.closeJunction, Function.update_apply, hj, ExtTreeMap.getElem?_erase,
      Std.LawfulEqCmp.compare_eq_iff_eq]
    by_cases hn : j = n
    · simp [hn]
    · rw [if_neg hn, if_neg (Ne.symm hn)]
      rfl

/-- The clauses of a path are opened in the ledger of its search. -/
theorem ledger_split (hl : Layout t) (hf : t.seat? f.branch = some (f.search, r))
    (hpar : ∀ (j : Nat) (jn : Junction), t.junctions[j]? = some jn → jn.parent ∈ t.branches) :
    (t.split f).1.ledger i =
      if f.search = i then
        (t.ledger i).opened i t.next
          ⟨f.bindings, f.branch, .replicate f.scope.clauses.length none⟩
      else t.ledger i := by
  have hmem : f.branch ∈ t.branches := mem_of_seat? hf
  have howner : ∀ {c : Nat}, c ∈ t.branches → (t.split f).1.owner? c = t.owner? c := fun hc => by
    rw [owner?, hl.seat?_split f hc, owner?]
  have hbranch : ∀ c : Nat, ((t.split f).1.ledger i).branch c =
      if t.next + 1 ≤ c ∧ c < t.next + 1 + f.scope.clauses.length then
        (if f.search = i then some ⟨i, .clause t.next (c - (t.next + 1)), [], 1⟩ else none)
      else (t.ledger i).branch c := by
    intro c
    change Option.filter _ (t.split f).1.branches[c]? = _
    rw [getElem?_branches_split]
    split
    · by_cases hi : f.search = i <;> simp [Option.filter, hi]
    · rfl
  have hjunction : ∀ n : Nat, ((t.split f).1.ledger i).junction n =
      if t.next = n then
        (if f.search = i then
          some ⟨f.bindings, f.branch, .replicate f.scope.clauses.length none⟩ else none)
      else (t.ledger i).junction n := by
    intro n
    change Option.filter _ (t.split f).1.junctions[n]? = _
    rw [getElem?_junctions_split]
    by_cases hn : t.next = n
    · have hown : t.owner? f.branch = some f.search := owner?_eq_some_iff.2 ⟨r, hf⟩
      by_cases hi : f.search = i <;> simp [hn, Option.filter, howner hmem, hown, hi]
    · simp only [hn, if_false, ledger]
      cases hj : t.junctions[n]? with
      | none => rfl
      | some jn => exact if_congr (by simp only [howner (hpar n jn hj)]) rfl rfl
  by_cases hi : f.search = i
  · rw [if_pos hi]
    ext1
    · refine funext fun (c : Nat) => ?_
      rw [hbranch, if_pos hi]
      refine if_congr (and_congr_right fun hle => ?_) rfl rfl
      rw [List.getElem?_replicate]
      rw [← Nat.sub_lt_iff_lt_add' hle]
      split
      · exact iff_of_true ‹_› rfl
      · exact iff_of_false ‹_› (by simp)
    · funext n
      rw [hjunction, if_pos hi]
      simp only [Ledger.opened, Function.update_apply]
      exact if_congr eq_comm rfl rfl
  · rw [if_neg hi]
    ext1
    · funext c
      rw [hbranch, if_neg hi]
      split
      · rename_i hin
        exact (branch_ledger_of_not_mem (hl.not_mem_branches (Nat.le_of_succ_le hin.1))).symm
      · rfl
    · funext n
      rw [hjunction, if_neg hi]
      split
      · rename_i hn
        subst hn
        have hnone : t.junctions[t.next]? = none :=
          ExtTreeMap.getElem?_eq_none hl.next_not_mem_junctions
        simp only [ledger, hnone]
        rfl
      · rfl

/-- A search that is started leaves the ledgers of others as they are. -/
theorem ledger_launch {os : List Order} (hs : Sound t os) (config : SearchConfig) (linked : Bool)
    (p : Pattern) (hi : i ≠ t.next) : (t.launch config linked p).1.ledger i = t.ledger i := by
  have hl := hs.layout
  have hnew : t.next + 1 ∉ t.branches := hl.not_mem_branches (Nat.le_succ _)
  ext1
  · funext c
    change Option.filter _ (t.branches.insert (t.next + 1) _)[c]? = _
    rw [ExtTreeMap.getElem?_insert]
    split
    · rename_i hc
      rw [Std.LawfulEqCmp.compare_eq_iff_eq] at hc
      subst hc
      rw [branch_ledger_of_not_mem hnew]
      simpa [Option.filter] using Ne.symm hi
    · rfl
  · funext j
    simp only [ledger]
    cases hj : t.junctions[j]? with
    | none =>
      change Option.filter _ t.junctions[j]? = _
      rw [hj]
      rfl
    | some jn =>
      have hpar : t.next + 1 ≠ jn.parent := by
        intro he
        exact hnew (he ▸ hs.accounted.mem_of_junction hj)
      have howner : (t.launch config linked p).1.owner? jn.parent = t.owner? jn.parent := by
        rw [owner?, Sound.seat?_launch, if_neg hpar, owner?]
      change Option.filter _ t.junctions[j]? = _
      rw [hj]
      exact if_congr (by simp only [howner]) rfl rfl

end Searches

end

end TripleQuery
