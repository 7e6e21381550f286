import TripleQuery.Proofs.Searching.Holding
/-!
# The layout of a table — which numbers stay with which

A branch that somebody holds is there (`Accounted.mem_branches`), so a branch
that goes away takes nothing along: no junction reports to it, and no other
branch loses the junction that waits for it. Every job therefore keeps what is
held in balance with what is counted (`Accounted.run`), and keeps the layout
(`Layout.run`).
-/

namespace TripleQuery

open Std (ExtTreeMap)

variable {t t' : Searches} {os rest : List Order} {job : Job} {env : Surroundings}
  {b c i j n slot : Nat} {y : Branch} {jn : Junction} {f : Frame} {o : Order} {r : BranchRole}

/-! ## Junctions -/

/-- The combinations are there once every clause is complete. -/
theorem mapM_id_eq_some_iff {α : Type} {l : List (Option α)} {as : List α} :
    l.mapM id = some as ↔ l = as.map some := by
  induction l generalizing as with
  | nil => cases as <;> simp
  | cons a l ih =>
    rw [List.mapM_cons]
    cases a with
    | none => cases as <;> simp
    | some a =>
      simp only [id, Option.bind_eq_bind, Option.bind_some, Option.bind_eq_some_iff, ih]
      cases as with
      | nil => simp
      | cons a' as => simp [and_comm]

theorem Junction.combinations?_eq_some_iff {combos : List Bindings} :
    jn.combinations? = some combos ↔
      ∃ rs, jn.slots = rs.map some ∧ combine jn.trunk rs = combos := by
  rw [combinations?, Option.map_eq_some_iff]
  simp only [mapM_id_eq_some_iff]

/-- A junction that reports waits for no clause. -/
theorem Junction.getElem?_ne_none_of_combinations? {combos : List Bindings}
    (h : jn.combinations? = some combos) (slot : Nat) : jn.slots[slot]? ≠ some none := by
  obtain ⟨rs, hs, -⟩ := combinations?_eq_some_iff.1 h
  rw [hs, List.getElem?_map]
  cases rs[slot]? <;> simp

/-- Filling one place leaves the others open. -/
theorem Junction.getElem?_fill_of_ne {k : Nat} (h : slot ≠ k) (rs : List Bindings) :
    (jn.fill slot rs).slots[k]? = jn.slots[k]? :=
  List.getElem?_set_ne h

/-! ## Nobody holds a branch that is not there -/

namespace Accounted

/-- A branch that somebody holds is there. -/
theorem mem_branches (h : Accounted t os) (hb : b ∈ t.held + heldBy os) : b ∈ t.branches := by
  rw [← h] at hb
  obtain ⟨c, y, hy, hc⟩ := exists_mem_of_mem_tally hb
  rw [Multiset.eq_of_mem_replicate hc]
  exact mem_of_getElem? hy

theorem mem_of_mem_orders (h : Accounted t os) (ho : o ∈ os) (hb : o.held? = some b) :
    b ∈ t.branches := by
  refine h.mem_branches (Multiset.mem_add.2 (.inr ?_))
  exact Multiset.mem_coe.2 (List.mem_filterMap.2 ⟨o, ho, hb⟩)

theorem mem_of_parked (h : Accounted t os) (hf : t.parked[n]? = some f) :
    f.branch ∈ t.branches := by
  refine h.mem_branches (Multiset.mem_add.2 (.inl (Multiset.mem_add.2 (.inl ?_))))
  rw [tally_erase hf]
  exact Multiset.mem_add.2 (.inl (Multiset.mem_singleton_self _))

theorem mem_of_junction (h : Accounted t os) (hj : t.junctions[j]? = some jn) :
    jn.parent ∈ t.branches := by
  refine h.mem_branches (Multiset.mem_add.2 (.inl (Multiset.mem_add.2 (.inr ?_))))
  rw [tally_erase hj]
  exact Multiset.mem_add.2 (.inl (Multiset.mem_singleton_self _))

/-- **A job passes on what it held.** -/
theorem run (hl : Layout t) (h : Accounted t (.job job :: rest))
    (ht : Transition env t job t' os) : Accounted t' (os ++ rest) := by
  have hbal := ht.balance hl
  unfold Accounted at h ⊢
  rw [heldBy_cons] at h
  rw [h] at hbal
  have heq : t'.granted + (t.held + heldBy [.job job]) =
      t'.held + (heldBy os + heldBy rest) + (t.held + heldBy [.job job]) := by
    rw [← add_assoc, hbal]
    ac_rfl
  rw [heldBy_append]
  exact add_right_cancel heq

end Accounted

/-! ## The layout is kept -/

theorem Searches.mem_branches_iff : b ∈ t.branches ↔ (t.seat? b).isSome := by
  rw [ExtTreeMap.mem_iff_isSome_getElem?, Searches.seat?, Option.isSome_map]

/-- A branch that has a seat is there. -/
theorem Searches.mem_of_seat? {seat : Id × BranchRole} (h : t.seat? b = some seat) :
    b ∈ t.branches :=
  mem_branches_iff.2 (by rw [h]; rfl)

/-- What leaves every branch in its place and every junction as it is keeps the
layout. -/
theorem Layout.keep (hl : Layout t) (hseat : ∀ b, t'.seat? b = t.seat? b)
    (hj : t'.junctions = t.junctions) (hs : ∀ i, i ∈ t'.searches ↔ i ∈ t.searches)
    (hn : t.next ≤ t'.next) (hp : ∀ n ∈ t'.parked, n < t'.next)
    (hpos : ∀ (b : Nat) (y : Branch), t'.branches[b]? = some y → 0 < y.holders) : Layout t' where
  search_lt hi := Nat.lt_of_lt_of_le (hl.search_lt ((hs _).1 hi)) hn
  branch_lt hb := by
    rw [Searches.mem_branches_iff, hseat, ← Searches.mem_branches_iff] at hb
    exact Nat.lt_of_lt_of_le (hl.branch_lt hb) hn
  junction_lt h := Nat.lt_of_lt_of_le (hl.junction_lt (hj ▸ h)) hn
  ticket_lt h := hp _ h
  positive h := hpos _ _ h
  launched h := (hs _).2 (hl.launched (hseat _ ▸ h))
  root h := hl.root (hseat _ ▸ h)
  clause h := by
    obtain ⟨hb, jn, hjn, hslot, r, hr⟩ := hl.clause (hseat _ ▸ h)
    exact ⟨hb, jn, by rw [hj, hjn], hslot, r, by rw [hseat, hr]⟩
  parent_lt h := hl.parent_lt (hj ▸ h)
  slots_le h := Nat.le_trans (hl.slots_le (hj ▸ h)) hn

/-- What takes one branch away, to which no junction reports, keeps the layout
if no other branch loses the junction that waits for it. -/
theorem Layout.vacate (hl : Layout t)
    (hseat : ∀ c, t'.seat? c = if b = c then none else t.seat? c)
    (hparent : ∀ (j : Nat) (jn : Junction), t'.junctions[j]? = some jn →
      jn.parent ≠ b ∧ ∃ jn' : Junction, t.junctions[j]? = some jn' ∧ jn.parent = jn'.parent ∧
        jn.slots.length = jn'.slots.length)
    (hwait : ∀ (c j slot i : Nat) (jn : Junction), c ≠ b → t.seat? c = some (i, .clause j slot) →
      t.junctions[j]? = some jn → jn.slots[slot]? = some none →
      ∃ jn' : Junction, t'.junctions[j]? = some jn' ∧ jn'.slots[slot]? = some none ∧
        jn'.parent = jn.parent)
    (hs : ∀ i, i ∈ t'.searches ↔ i ∈ t.searches) (hn : t'.next = t.next)
    (hp : t'.parked = t.parked)
    (hpos : ∀ (b : Nat) (y : Branch), t'.branches[b]? = some y → 0 < y.holders) : Layout t' := by
  have hold : ∀ {c i r}, t'.seat? c = some (i, r) → c ≠ b ∧ t.seat? c = some (i, r) := by
    intro c i r h
    rw [hseat] at h
    split at h
    · cases h
    · rename_i hc
      exact ⟨Ne.symm hc, h⟩
  refine ⟨fun hi => hn ▸ hl.search_lt ((hs _).1 hi), fun hb => ?_, fun h => ?_,
    fun h => hn ▸ hl.ticket_lt (hp ▸ h), fun h => hpos _ _ h,
    fun h => (hs _).2 (hl.launched (hold h).2), fun h => hl.root (hold h).2, fun h => ?_,
    fun h => ?_, fun h => ?_⟩
  · obtain ⟨⟨i, r⟩, hc⟩ := Option.isSome_iff_exists.1 (Searches.mem_branches_iff.1 hb)
    rw [hn]
    exact hl.branch_lt (Searches.mem_of_seat? (hold hc).2)
  · obtain ⟨jn, hjn⟩ := exists_getElem? h
    obtain ⟨-, jn', hjn', -⟩ := hparent _ _ hjn
    rw [hn]
    exact hl.junction_lt (mem_of_getElem? hjn')
  · obtain ⟨hc, h⟩ := hold h
    obtain ⟨hnum, jn, hjn, hslot, r, hr⟩ := hl.clause h
    obtain ⟨jn', hjn', hslot', hpar⟩ := hwait _ _ _ _ jn hc h hjn hslot
    refine ⟨hnum, jn', hjn', hslot', r, ?_⟩
    rw [hseat, if_neg (hparent _ _ hjn').1.symm, hpar, hr]
  · obtain ⟨-, jn', hjn', hpar, -⟩ := hparent _ _ h
    rw [hpar]
    exact hl.parent_lt hjn'
  · obtain ⟨-, jn', hjn', -, hslots⟩ := hparent _ _ h
    rw [hslots, hn]
    exact hl.slots_le hjn'

theorem Layout.positive_insert (hl : Layout t) {y' : Branch} (hpos : 0 < y'.holders) :
    ∀ (c : Nat) (z : Branch), (t.branches.insert b y')[c]? = some z → 0 < z.holders := by
  intro c z hz
  rcases of_getElem?_insert hz with ⟨-, rfl⟩ | hz
  · exact hpos
  · exact hl.positive hz

theorem Layout.positive_erase (hl : Layout t) :
    ∀ (c : Nat) (z : Branch), (t.branches.erase b)[c]? = some z → 0 < z.holders := by
  intro c z hz
  exact hl.positive (of_getElem?_erase hz)

/-- What only changes searches keeps the layout. -/
theorem Layout.insert_search (hl : Layout t) {x x' : Search} (hx : t.searches[i]? = some x) :
    Layout { t with searches := t.searches.insert i x' } :=
  hl.keep (fun _ => rfl) rfl (mem_insert_of_getElem? hx x') (Nat.le_refl _)
    (fun _ => hl.ticket_lt) fun _ _ => hl.positive

/-- What only writes a branch anew keeps the layout. -/
theorem Layout.insert_branch (hl : Layout t) {y' : Branch} (hy : t.branches[b]? = some y)
    (hs : y'.search = y.search) (hr : y'.role = y.role) (hpos : 0 < y'.holders) :
    Layout { t with branches := t.branches.insert b y' } :=
  hl.keep (Searches.seat?_insert hy hs hr) rfl (fun _ => Iff.rfl) (Nat.le_refl _)
    (fun _ => hl.ticket_lt) (hl.positive_insert hpos)

/-- Parking a path keeps the layout. -/
theorem Layout.park (hl : Layout t) (f : Frame) :
    Layout { t with parked := t.parked.insert t.next f, next := t.next + 1 } := by
  refine hl.keep (fun _ => rfl) rfl (fun _ => Iff.rfl) (Nat.le_succ _) (fun n hn => ?_)
    fun _ _ => hl.positive
  rcases ExtTreeMap.mem_insert.1 hn with hn | hn
  · rw [Std.LawfulEqCmp.compare_eq_iff_eq] at hn
    exact hn ▸ Nat.lt_succ_self _
  · exact Nat.lt_succ_of_lt (hl.ticket_lt hn)

/-- The seats after the clauses were started. -/
theorem Searches.seat?_split (t : Searches) (f : Frame) (c : Nat) :
    (t.split f).1.seat? c =
      if c ≥ t.next + 1 ∧ c < t.next + 1 + f.scope.clauses.length then
        some (f.search, .clause t.next (c - (t.next + 1)))
      else t.seat? c := by
  rw [seat?, getElem?_branches_split]
  split
  · rfl
  · rfl

/-- The branch of a clause is seated at the place of the clause. -/
theorem Searches.seat?_split_clause (t : Searches) {f : Frame} {k : Nat}
    (hk : k < f.scope.clauses.length) :
    (t.split f).1.seat? (t.next + 1 + k) = some (f.search, .clause t.next k) := by
  rw [seat?_split, if_pos ⟨Nat.le_add_right _ _, Nat.add_lt_add_left hk _⟩,
    Nat.add_sub_cancel_left]

/-- A branch that was there before the clauses keeps its seat. -/
theorem Layout.seat?_split (hl : Layout t) (f : Frame) (hc : c ∈ t.branches) :
    (t.split f).1.seat? c = t.seat? c := by
  have hlt : c < t.next := hl.branch_lt hc
  rw [Searches.seat?_split, if_neg]
  exact fun h => absurd h.1 (by simp only [Nat.not_le]; exact Nat.lt_succ_of_lt hlt)

/-- Starting the clauses keeps the layout. -/
theorem Layout.split (hl : Layout t) (hf : t.seat? f.branch = some (f.search, r)) :
    Layout (t.split f).1 := by
  have hmem : f.branch ∈ t.branches := Searches.mem_of_seat? hf
  have hnext : (t.split f).1.next = t.next + 1 + f.scope.clauses.length := rfl
  have hbranch := Searches.getElem?_branches_split t f
  have hjunction := Searches.getElem?_junctions_split t f
  refine ⟨fun hi => ?_, fun {c} hc => ?_, fun {j} hj => ?_, fun hn => ?_, fun {c z} hz => ?_,
    fun {c i r} h => ?_, fun {c i} h => ?_, fun {c i j slot} h => ?_, fun {j jn} h => ?_,
    fun {j jn} h => ?_⟩
  · have := hl.search_lt hi
    rw [hnext]
    omega
  · rw [ExtTreeMap.mem_iff_isSome_getElem?, hbranch] at hc
    rw [hnext]
    split at hc
    · rename_i hin
      exact hin.2
    · have := hl.branch_lt (ExtTreeMap.mem_iff_isSome_getElem?.2 hc)
      omega
  · rw [ExtTreeMap.mem_iff_isSome_getElem?, hjunction] at hj
    rw [hnext]
    split at hj
    · rename_i he
      subst he
      omega
    · have := hl.junction_lt (ExtTreeMap.mem_iff_isSome_getElem?.2 hj)
      omega
  · have := hl.ticket_lt hn
    rw [hnext]
    omega
  · rw [hbranch] at hz
    split at hz
    · cases hz
      exact Nat.one_pos
    · exact hl.positive hz
  · rw [Searches.seat?_split] at h
    split at h
    · cases h
      exact hl.launched hf
    · exact hl.launched h
  · rw [Searches.seat?_split] at h
    split at h
    · cases h
    · exact hl.root h
  · rw [Searches.seat?_split] at h
    split at h
    · rename_i hin
      cases h
      refine ⟨by omega, _, by rw [hjunction, if_pos rfl], ?_, r, ?_⟩
      · rw [List.getElem?_replicate, if_pos (by omega)]
      · rw [hl.seat?_split f hmem, hf]
    · obtain ⟨hnum, jn, hjn, hslot, r', hr'⟩ := hl.clause h
      have hne : t.next ≠ j := fun he =>
        hl.next_not_mem_junctions (mem_of_getElem? (he ▸ hjn))
      have hpar : jn.parent ∈ t.branches := Searches.mem_of_seat? hr'
      exact ⟨hnum, jn, by rw [hjunction, if_neg hne, hjn], hslot, r', by
        rw [hl.seat?_split f hpar, hr']⟩
  · rw [hjunction] at h
    split at h
    · rename_i he
      cases h
      exact he ▸ hl.branch_lt hmem
    · exact hl.parent_lt h
  · rw [hjunction] at h
    rw [hnext]
    split at h
    · rename_i he
      cases h
      subst he
      rw [List.length_replicate]
    · have := hl.slots_le h
      omega

/-- The branch of another clause waits for another place of the junction. -/
theorem Layout.slot_ne (hl : Layout t) (hb : t.seat? b = some (i, .clause j slot)) {k i' : Nat}
    (hc : t.seat? c = some (i', .clause j k)) (hne : c ≠ b) : slot ≠ k := by
  rintro rfl
  exact hne ((hl.clause hc).1.trans (hl.clause hb).1.symm)

/-- **A job keeps the layout.** -/
theorem Layout.run (hl : Layout t) (ha : Accounted t (.job job :: rest))
    (hf : ∀ f, job = .step f → ∃ r, t.seat? f.branch = some (f.search, r))
    (h : Transition env t job t' os) : Layout t' := by
  -- whatever goes away was held by nobody any more
  have hheld : ∀ {j : Nat} {jn : Junction}, t'.junctions[j]? = some jn → jn.parent ∈ t'.branches :=
    fun hj => (ha.run hl h).mem_of_junction hj
  cases h with
  | barred _ | entered _ | halted _ _ | asked _ _ _ _ | awaited _ _ _ _ | exhausted _ _ _ _ _
  | reported | refused _ _ _ => exact hl
  | split _ _ _ _ _ =>
    obtain ⟨r, hr⟩ := hf _ rfl
    exact hl.split hr
  | failed hx _ _ _ _ => exact hl.insert_search hx
  | expanded _ _ _ _ _ hy =>
    exact hl.insert_branch hy rfl rfl (Nat.lt_of_lt_of_le (hl.positive hy) (Nat.le_add_right _ _))
  | parked => exact hl.park _
  | parkedAsked hx => exact (hl.insert_search hx).park _
  | kept hy _ _ _ =>
    have hpos := hl.positive hy
    exact hl.insert_branch hy rfl rfl hpos
  | queued _ hx _ _ _ => exact hl.insert_search hx
  | announced _ hx _ _ _ => exact hl.insert_search hx
  | drained hx _ => exact hl.insert_search hx
  | delivered hx _ => exact hl.insert_search hx
  | released hy hlt => exact hl.insert_branch hy rfl rfl (Nat.sub_pos_of_lt hlt)
  | @finished b y x hy hle hr hx =>
    refine hl.vacate (t.seat?_erase b) (fun j jn hj => ⟨?_, jn, hj, rfl, rfl⟩)
      (fun c j slot i jn _ _ hj hs => ⟨jn, hj, hs, rfl⟩) (mem_insert_of_getElem? hx _) rfl rfl
      hl.positive_erase
    rintro rfl
    simpa using hheld hj
  | @filled b y j slot jn hy hle hr hj hc =>
    have hb := Searches.seat?_of_role hy hr
    refine hl.vacate (t.seat?_erase b) (fun k jn' hk => ⟨?_, ?_⟩)
      (fun c k slot' i jn' hne hseat hk hs => ?_) (fun _ => Iff.rfl) rfl rfl hl.positive_erase
    · rintro rfl
      simpa using hheld hk
    · rcases of_getElem?_insert hk with ⟨rfl, rfl⟩ | hk
      · exact ⟨jn, hj, rfl, List.length_set⟩
      · exact ⟨jn', hk, rfl, rfl⟩
    · simp only [ExtTreeMap.getElem?_insert, Std.LawfulEqCmp.compare_eq_iff_eq]
      by_cases he : j = k
      · subst he
        obtain rfl : jn = jn' := Option.some.inj (hj.symm.trans hk)
        refine ⟨_, if_pos rfl, ?_, rfl⟩
        rw [Junction.getElem?_fill_of_ne (hl.slot_ne hb hseat hne), hs]
      · exact ⟨jn', by rw [if_neg he, hk], hs, rfl⟩
  | @combined b y j slot jn combos hy hle hr hj hc =>
    have hb := Searches.seat?_of_role hy hr
    refine hl.vacate (t.seat?_erase b) (fun k jn' hk => ⟨?_, ?_⟩)
      (fun c k slot' i jn' hne hseat hk hs => ?_) (fun _ => Iff.rfl) rfl rfl hl.positive_erase
    · rintro rfl
      simpa using hheld hk
    · exact ⟨jn', of_getElem?_erase hk, rfl, rfl⟩
    · simp only [ExtTreeMap.getElem?_erase, Std.LawfulEqCmp.compare_eq_iff_eq]
      by_cases he : j = k
      · -- a junction that has reported waited for no other clause
        subst he
        obtain rfl : jn = jn' := Option.some.inj (hj.symm.trans hk)
        refine absurd ?_ (Junction.getElem?_ne_none_of_combinations? hc slot')
        rw [Junction.getElem?_fill_of_ne (hl.slot_ne hb hseat hne), hs]
      · exact ⟨jn', by rw [if_neg he, hk], hs, rfl⟩

end TripleQuery
