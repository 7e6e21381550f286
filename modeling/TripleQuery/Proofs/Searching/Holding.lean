import Mathlib.Data.List.Induction
import TripleQuery.Proofs.Tally
import TripleQuery.Proofs.Searching.Transition
/-!
# Holding — what keeps a branch from being complete

A branch is held by orders, by parked paths and by junctions. What they hold
together is what the branches count (`Accounted`), and every transition keeps
it so (`Transition.balance`). A branch that has gone is therefore held by
nobody, and one that is there by somebody.

The layout of a table says which numbers go with which: the root branch of a
search follows its number, the branches of clauses follow that of their
junction, and a junction reports to an earlier branch (`Layout`).
-/

namespace TripleQuery

open Std (ExtTreeMap)

/-- The branch that an order holds. -/
def Order.held? : Order → Option Id
  | .job (.start f) | .job (.step f) | .job (.await f _ _) => some f.branch
  | .job (.release b) => some b
  | _ => none

/-- What orders hold together. -/
def heldBy (os : List Order) : Multiset Id :=
  (os.filterMap Order.held? : List Id)

@[simp] theorem heldBy_nil : heldBy [] = 0 := rfl

theorem heldBy_append (os os' : List Order) : heldBy (os ++ os') = heldBy os + heldBy os' := by
  simp [heldBy, List.filterMap_append]

theorem heldBy_cons (o : Order) (os : List Order) : heldBy (o :: os) = heldBy [o] + heldBy os :=
  heldBy_append [o] os

namespace Searches

variable {t : Searches} {b c i j n : Nat} {y : Branch} {jn : Junction} {r : BranchRole}

/-- What parked paths and junctions hold together. -/
def held (t : Searches) : Multiset Id :=
  tally t.parked (fun _ f => {f.branch}) + tally t.junctions fun _ jn => {jn.parent}

/-- What the branches count. -/
def granted (t : Searches) : Multiset Id :=
  tally t.branches fun b y => Multiset.replicate y.holders b

/-- The search and the purpose of a branch. -/
def seat? (t : Searches) (b : Id) : Option (Id × BranchRole) :=
  t.branches[b]?.map fun y => (y.search, y.role)

theorem seat?_of_getElem? (h : t.branches[b]? = some y) : t.seat? b = some (y.search, y.role) := by
  simp [seat?, h]

theorem seat?_of_role {r : BranchRole} (h : t.branches[b]? = some y) (hr : y.role = r) :
    t.seat? b = some (y.search, r) :=
  hr ▸ seat?_of_getElem? h

/-- A branch that counts or keeps more stays in its place. -/
theorem seat?_insert (h : t.branches[b]? = some y) {y' : Branch} (hs : y'.search = y.search)
    (hr : y'.role = y.role) (c : Id) :
    ((t.branches.insert b y')[c]?.map fun y => (y.search, y.role)) = t.seat? c := by
  rw [seat?, ExtTreeMap.getElem?_insert]
  by_cases hc : b = c
  · subst hc; simp [h, hs, hr]
  · simp [hc]

theorem seat?_erase (t : Searches) (b c : Id) :
    ((t.branches.erase b)[c]?.map fun y => (y.search, y.role)) =
      if b = c then none else t.seat? c := by
  rw [seat?, ExtTreeMap.getElem?_erase]
  by_cases hc : b = c <;> simp [hc]

/-! ## The branches of clauses -/

/-- The branches for the clauses are new, and the others stay as they are. -/
theorem getElem?_addClauses (t : Searches) (i j first n b : Nat) :
    (t.addClauses i j first n).branches[b]? =
      if first ≤ b ∧ b < first + n then some ⟨i, .clause j (b - first), [], 1⟩
      else t.branches[b]? := by
  unfold addClauses
  induction n with
  | zero => rw [if_neg (by omega)]; rfl
  | succ n ih =>
    simp only at ih
    rw [List.range_succ, List.foldl_append, List.foldl_cons, List.foldl_nil,
      ExtTreeMap.getElem?_insert, ih]
    by_cases hb : first + n = b
    · subst hb
      simp
    · rw [if_neg (by simpa using hb)]
      by_cases hin : first ≤ b ∧ b < first + n
      · rw [if_pos hin, if_pos ⟨hin.1, by omega⟩]
      · rw [if_neg hin, if_neg (by omega)]

/-- The clauses of a path get branches of their own. -/
theorem getElem?_branches_split (t : Searches) (f : Frame) (c : Nat) :
    (t.split f).1.branches[c]? =
      if t.next + 1 ≤ c ∧ c < t.next + 1 + f.scope.clauses.length then
        some ⟨f.search, .clause t.next (c - (t.next + 1)), [], 1⟩
      else t.branches[c]? :=
  getElem?_addClauses t f.search t.next (t.next + 1) _ c

/-- A junction waits for the clauses of a path. -/
theorem getElem?_junctions_split (t : Searches) (f : Frame) (j : Nat) :
    (t.split f).1.junctions[j]? =
      if t.next = j then
        some ⟨f.bindings, f.branch, List.replicate f.scope.clauses.length none⟩
      else t.junctions[j]? := by
  change (t.junctions.insert t.next _)[j]? = _
  simp [ExtTreeMap.getElem?_insert]

/-- The branches for the clauses weigh what they weigh, and the others what
they did. -/
theorem tally_addClauses {M : Type} [AddCommMonoid M] {first : Nat}
    (h : ∀ c, first ≤ c → c ∉ t.branches) (i j n : Nat) (weight : Id → Branch → M) :
    tally (t.addClauses i j first n).branches weight =
      ((List.range n).map fun k => weight (first + k) ⟨i, .clause j k, [], 1⟩).sum +
        tally t.branches weight := by
  have hget := fun n c => getElem?_addClauses t i j first n c
  induction n with
  | zero => simp [addClauses]
  | succ n ih =>
    have hfold : (t.addClauses i j first (n + 1)).branches =
        (t.addClauses i j first n).branches.insert (first + n) ⟨i, .clause j n, [], 1⟩ := by
      simp [addClauses, List.range_succ]
    have hnew : first + n ∉ (t.addClauses i j first n).branches := by
      rw [ExtTreeMap.mem_iff_isSome_getElem?, hget, if_neg (by omega),
        ← ExtTreeMap.mem_iff_isSome_getElem?]
      exact h _ (by omega)
    rw [hfold, tally_insert hnew, ih, List.range_succ, List.map_append, List.sum_append]
    simp only [List.map_cons, List.map_nil, List.sum_cons, List.sum_nil]
    rw [add_zero, add_left_comm, add_assoc]

/-- The orders that start the clauses hold their branches, one each. -/
theorem heldBy_clauses (i first : Nat) (cs : List Scope) (b : Scope → Bindings)
    (awaited : List String) :
    heldBy (cs.mapIdx fun k c => .job (.start (.enter i (first + k) c (b c) awaited))) =
      ((List.range cs.length).map fun k => ({first + k} : Multiset Id)).sum := by
  induction cs using List.reverseRecOn with
  | nil => rfl
  | append_singleton cs c ih =>
    rw [List.mapIdx_concat, heldBy_append, ih, List.length_append, List.length_singleton,
      List.range_succ, List.map_append, List.sum_append]
    simp [heldBy, Order.held?, Frame.enter]

/-- The alternatives of a path hold its branch, each once. -/
theorem heldBy_steps {fs : List Frame} (h : ∀ f ∈ fs, f.branch = b) :
    heldBy (fs.map fun f => .job (.step f)) = Multiset.replicate fs.length b := by
  induction fs with
  | nil => rfl
  | cons f fs ih =>
    rw [List.map_cons, heldBy_cons, ih fun f hf => h f (List.mem_cons_of_mem _ hf),
      List.length_cons, Multiset.replicate_succ, ← Multiset.singleton_add]
    simp [heldBy, Order.held?, h f List.mem_cons_self]

end Searches

/-! ## The layout of a table -/

/-- Which numbers go with which. -/
structure Layout (t : Searches) : Prop where
  /-- The root branch of a search was numbered with it. -/
  search_lt {i : Nat} : i ∈ t.searches → i + 1 < t.next
  branch_lt {b : Nat} : b ∈ t.branches → b < t.next
  junction_lt {j : Nat} : j ∈ t.junctions → j < t.next
  ticket_lt {n : Nat} : n ∈ t.parked → n < t.next
  /-- A branch that is there is held. -/
  positive {b : Nat} {y : Branch} : t.branches[b]? = some y → 0 < y.holders
  launched {b i : Nat} {r : BranchRole} : t.seat? b = some (i, r) → i ∈ t.searches
  /-- The root branch follows its search. -/
  root {b i : Nat} : t.seat? b = some (i, .root) → b = i + 1
  /-- The branch of a clause follows its junction, which waits for it on behalf
  of a branch of the same search. -/
  clause {b i j slot : Nat} : t.seat? b = some (i, .clause j slot) →
    b = j + 1 + slot ∧ ∃ jn, t.junctions[j]? = some jn ∧ jn.slots[slot]? = some none ∧
      ∃ r, t.seat? jn.parent = some (i, r)
  parent_lt {j : Nat} {jn : Junction} : t.junctions[j]? = some jn → jn.parent < j
  /-- The branches of the clauses were numbered with their junction. -/
  slots_le {j : Nat} {jn : Junction} :
    t.junctions[j]? = some jn → j + 1 + jn.slots.length ≤ t.next

/-- What is held is what the branches count. -/
def Accounted (t : Searches) (os : List Order) : Prop :=
  t.granted = t.held + heldBy os

variable {t t' : Searches} {os os' rest : List Order} {job : Job} {env : Surroundings}
  {b i j n : Nat} {y : Branch} {jn : Junction} {f : Frame}

/-- A junction reports to a branch before those of its clauses. -/
theorem Layout.parent_lt_clause {slot : Nat} (hl : Layout t)
    (hb : t.seat? b = some (i, .clause j slot)) (hj : t.junctions[j]? = some jn) :
    jn.parent < b := by
  rw [(hl.clause hb).1, Nat.add_assoc]
  exact Nat.lt_of_lt_of_le (hl.parent_lt hj) (Nat.le_add_right _ _)

/-- The junction of a clause waits for it, on behalf of a branch of the same
search. -/
theorem Layout.waits_for {slot : Nat} (hl : Layout t) (hy : t.branches[b]? = some y)
    (hr : y.role = .clause j slot) (hj : t.junctions[j]? = some jn) :
    b = j + 1 + slot ∧ jn.slots[slot]? = some none ∧
      ∃ r, t.seat? jn.parent = some (y.search, r) := by
  obtain ⟨hb, jn', hj', hopen, hparent⟩ := hl.clause (Searches.seat?_of_role hy hr)
  obtain rfl : jn = jn' := Option.some.inj (hj.symm.trans hj')
  exact ⟨hb, hopen, hparent⟩

theorem Layout.search_eq {slot : Nat} {r : BranchRole} (hl : Layout t)
    (hy : t.branches[b]? = some y) (hr : y.role = .clause j slot)
    (hj : t.junctions[j]? = some jn) (hp : t.seat? jn.parent = some (i, r)) : y.search = i := by
  obtain ⟨-, -, r', hr'⟩ := hl.waits_for hy hr hj
  rw [hp] at hr'
  exact (congrArg Prod.fst (Option.some.inj hr')).symm

/-- A branch that is there is held by somebody. -/
theorem Layout.mem_granted (h : Layout t) : b ∈ t.granted ↔ b ∈ t.branches := by
  constructor
  · intro hb
    obtain ⟨c, y, hy, hc⟩ := exists_mem_of_mem_tally hb
    rw [Multiset.eq_of_mem_replicate hc]
    exact mem_of_getElem? hy
  · intro hb
    obtain ⟨y, hy⟩ := exists_getElem? hb
    rw [Searches.granted, tally_erase hy]
    refine Multiset.mem_add.2 (.inl (Multiset.mem_replicate.2 ⟨?_, rfl⟩))
    exact Nat.ne_of_gt (h.positive hy)

/-- A number from the next one on names no branch. -/
theorem Layout.not_mem_branches (h : Layout t) (hn : t.next ≤ b) : b ∉ t.branches :=
  fun hb => Nat.not_lt.2 hn (h.branch_lt hb)

theorem Layout.next_not_mem_searches (h : Layout t) : t.next ∉ t.searches := fun hi => by
  have hlt := h.search_lt hi
  omega

theorem Layout.next_not_mem_junctions (h : Layout t) : t.next ∉ t.junctions :=
  fun hj => Nat.lt_irrefl _ (h.junction_lt hj)

theorem Layout.next_not_mem_parked (h : Layout t) : t.next ∉ t.parked :=
  fun hp => Nat.lt_irrefl _ (h.ticket_lt hp)

/-- A parked path holds its branch. -/
theorem held_park (h : Layout t) (f : Frame) :
    tally (t.parked.insert t.next f) (fun _ f => ({f.branch} : Multiset Id)) +
      tally t.junctions (fun _ jn => {jn.parent}) = {f.branch} + t.held := by
  rw [tally_insert h.next_not_mem_parked, add_assoc, Searches.held]

/-- Once the clauses are started, their branches are counted. -/
theorem granted_split (h : Layout t) (f : Frame) :
    (t.split f).1.granted = t.granted + heldBy (t.split f).2 := by
  have hnew : ∀ c : Nat, t.next + 1 ≤ c → c ∉ t.branches :=
    fun c hc => h.not_mem_branches (Nat.le_of_succ_le hc)
  have hg := Searches.tally_addClauses hnew f.search t.next f.scope.clauses.length
    fun b y => Multiset.replicate y.holders b
  simp only [Multiset.replicate_one] at hg
  change tally (t.addClauses f.search t.next (t.next + 1) f.scope.clauses.length).branches _ = _
  rw [hg, Searches.split, Searches.heldBy_clauses, add_comm]
  rfl

/-- The junction holds the branch that the path held. -/
theorem held_split (h : Layout t) (f : Frame) :
    (t.split f).1.held = {f.branch} + t.held := by
  change tally t.parked _ + tally (t.junctions.insert t.next _) _ = _
  rw [tally_insert h.next_not_mem_junctions, add_left_comm, Searches.held]

/-- The last piece of work on a branch is all that the branch counts. -/
theorem granted_erase (h : Layout t) (hy : t.branches[b]? = some y) (hle : y.holders ≤ 1) :
    t.granted =
      {b} + tally (t.branches.erase b) fun b y => Multiset.replicate y.holders b := by
  have hone : y.holders = 1 := by have := h.positive hy; omega
  rw [Searches.granted, tally_erase hy, hone, Multiset.replicate_one]

/-- **Every transition keeps what is held and what is counted in balance.** -/
theorem Transition.balance (hl : Layout t) (h : Transition env t job t' os) :
    t'.granted + t.held + heldBy [.job job] = t.granted + t'.held + heldBy os := by
  cases h with
  -- what only changes the searches leaves the branches and their holders alone
  | barred _ | entered _ | halted _ _ | asked _ _ _ _ | awaited _ _ _ _ | exhausted _ _ _ _ _
  | failed _ _ _ _ _ | reported | refused _ _ _ | queued _ _ _ _ _ | announced _ _ _ _ _
  | drained _ _ | delivered _ _ => rfl
  | @split f _ _ _ _ _ _ =>
    have hf : heldBy [.job (.step f)] = {f.branch} := rfl
    rw [granted_split hl, held_split hl, hf]
    ac_rfl
  | @expanded f x y fs _ _ _ _ he hy =>
    have hg := tally_replace hy { y with holders := y.holders + fs.length }
      fun b y => Multiset.replicate y.holders b
    simp only [Multiset.replicate_add] at hg
    rw [heldBy_append, Searches.heldBy_steps fun f' hf' => Frame.branch_of_mem_expand he hf']
    change tally (t.branches.insert f.branch _) _ + t.held + {f.branch} =
      _ + t.held + (_ + {f.branch})
    rw [add_comm (Multiset.replicate y.holders _), ← add_assoc] at hg
    rw [add_right_cancel hg, Searches.granted]
    ac_rfl
  | @parked f d =>
    have hf : heldBy [.job (.await f d false)] = {f.branch} := rfl
    have hh := held_park hl (f.awaiting d)
    change t.granted + t.held + _ = t.granted + (tally (t.parked.insert t.next _) _ + _) + 0
    rw [hh, hf, add_zero]
    change _ = t.granted + ({f.branch} + t.held)
    ac_rfl
  | @parkedAsked f d x _ =>
    have hf : heldBy [.job (.await f d true)] = {f.branch} := rfl
    have hh := held_park hl (f.awaiting d)
    change t.granted + t.held + _ = t.granted + (tally (t.parked.insert t.next _) _ + _) + 0
    rw [hh, hf, add_zero]
    change _ = t.granted + ({f.branch} + t.held)
    ac_rfl
  | @kept b m ms y _ _ _ hy _ _ _ =>
    have hg := tally_replace hy { y with found := y.found ++ [m] }
      fun b y => Multiset.replicate y.holders b
    change tally (t.branches.insert b _) _ + t.held + 0 = t.granted + t.held + 0
    rw [add_right_cancel hg, Searches.granted]
  | @released b y hy hlt =>
    have hg := tally_replace hy { y with holders := y.holders - 1 }
      fun b y => Multiset.replicate y.holders b
    have hone : Multiset.replicate y.holders b = Multiset.replicate (y.holders - 1) b + {b} := by
      rw [← Multiset.replicate_one, ← Multiset.replicate_add]
      congr 1
      omega
    rw [hone, add_comm (Multiset.replicate _ b) {b}, ← add_assoc] at hg
    change tally (t.branches.insert b _) _ + t.held + {b} = t.granted + t.held + 0
    rw [add_right_comm, add_right_cancel hg, Searches.granted, add_zero]
  | @finished b y _ hy hle _ _ =>
    rw [granted_erase hl hy hle]
    change tally (t.branches.erase b) _ + t.held + {b} = _ + t.held + 0
    rw [add_zero]
    ac_rfl
  | @filled b y j slot jn hy hle _ hj _ =>
    have hh := tally_replace hj (jn.fill slot y.results) fun _ jn => ({jn.parent} : Multiset Id)
    rw [granted_erase hl hy hle]
    change tally (t.branches.erase b) _ + t.held + {b} =
      _ + (tally t.parked _ + tally (t.junctions.insert j _) _) + 0
    rw [add_right_cancel hh, add_zero, Searches.held]
    ac_rfl
  | @combined b y j slot jn _ hy hle _ hj _ =>
    rw [granted_erase hl hy hle, Searches.held, tally_erase hj]
    change tally (t.branches.erase b) _ + _ + {b} =
      _ + (tally t.parked _ + tally (t.junctions.erase j) _) + {jn.parent}
    ac_rfl

end TripleQuery
