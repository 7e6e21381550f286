import TripleQuery.Proofs.Searching.Layout
/-!
# Sound tables — what holds at every moment of a search's work

A table with the orders that are left is `Sound` when its numbers are laid out,
what is held is what is counted, every path is on a branch of its own search,
and whoever reports to a branch releases it later (`Covered`). Every job keeps
this (`Sound.run`), and so does whatever the surroundings may do in between:
starting a search (`Sound.launch`), resuming and giving up a parked path
(`Sound.resume`, `Sound.discard`), and stopping a search (`Sound.update`).
-/

namespace TripleQuery

open Std (ExtTreeMap)

variable {t t' : Searches} {os rest : List Order} {job : Job} {env : Surroundings}
  {b c i n : Nat} {f : Frame} {o : Order}

/-! ## Paths stay with their search -/

/-- The branch of a path is there and belongs to the path's search. -/
def Searches.Seats (t : Searches) (f : Frame) : Prop :=
  ∃ r, t.seat? f.branch = some (f.search, r)

/-- The path that an order goes on with. -/
def Order.frame? : Order → Option Frame
  | .job (.start f) | .job (.step f) | .job (.await f _ _) => some f
  | _ => none

/-- Whoever goes on with a path holds its branch. -/
theorem Order.held?_of_frame? (h : o.frame? = some f) : o.held? = some f.branch := by
  unfold frame? at h
  split at h <;> cases h <;> rfl

theorem Searches.Seats.mem (h : t.Seats f) : f.branch ∈ t.branches := by
  obtain ⟨r, hr⟩ := h
  exact Searches.mem_of_seat? hr

/-- **A branch that stays keeps its seat.** -/
theorem Transition.seat?_eq (hl : Layout t) (h : Transition env t job t' os)
    (hc : c ∈ t.branches) (hc' : c ∈ t'.branches) : t'.seat? c = t.seat? c := by
  cases h with
  | barred _ | entered _ | halted _ _ | asked _ _ _ _ | awaited _ _ _ _ | exhausted _ _ _ _ _
  | failed _ _ _ _ _ | parked | parkedAsked _ | reported | refused _ _ _ | queued _ _ _ _ _
  | announced _ _ _ _ _ | drained _ _ | delivered _ _ => rfl
  | split _ _ _ _ _ => exact hl.seat?_split _ hc
  | expanded _ _ _ _ _ hy | kept hy _ _ _ | released hy _ =>
    refine Searches.seat?_insert hy ?_ ?_ c
    · rfl
    · rfl
  | finished _ _ _ _ | filled _ _ _ _ _ | combined _ _ _ _ _ =>
    refine (Searches.seat?_erase t _ c).trans (if_neg ?_)
    rintro rfl
    simp at hc'

/-- A path whose branch stays keeps its seat. -/
theorem Transition.seats (hl : Layout t) (h : Transition env t job t' os) (hf : t.Seats f)
    (hmem : f.branch ∈ t'.branches) : t'.Seats f := by
  obtain ⟨r, hr⟩ := hf
  exact ⟨r, by rw [h.seat?_eq hl (Searches.mem_of_seat? hr) hmem, hr]⟩

/-- **The paths that a job goes on with**: the path it is about, what this
path goes on as when a triple is matched, and the paths that enter the clauses
when none is left. -/
theorem Transition.frame?_cases (h : Transition env t job t' os) (ho : o ∈ os)
    (hf : o.frame? = some f) :
    Order.frame? (.job job) = some f ∨
      (∃ f' fs, job = .step f' ∧ f'.expand env.graph = .ok fs ∧ f ∈ fs) ∨
      ∃ f' k c, job = .step f' ∧ f'.remaining = [] ∧ f'.scope.clauses[k]? = some c ∧
        t' = (t.split f').1 ∧
        f = .enter f'.search (t.next + 1 + k) c (c.startFrom f'.bindings) f'.awaited := by
  cases h.leaves ho with
  | entered _ | await _ _ _ =>
    cases hf
    exact .inl rfl
  | matched he hf' =>
    cases hf
    exact .inr (.inl ⟨_, _, rfl, he, hf'⟩)
  | clause hr hc ht =>
    cases hf
    exact .inr (.inr ⟨_, _, _, rfl, hr, hc, ht, rfl⟩)
  | _ => cases hf

/-- A job parks the path it is about, and no other. -/
theorem Transition.parked_cases (h : Transition env t job t' os) (hf : t'.parked[n]? = some f) :
    t.parked[n]? = some f ∨ ∃ f' d asked, job = .await f' d asked ∧ f = f'.awaiting d := by
  have hnew : ∀ {f' : Frame} {d : String} {asked : Bool}, job = .await f' d asked →
      (t.parked.insert t.next (f'.awaiting d))[n]? = some f →
      t.parked[n]? = some f ∨ ∃ f' d asked, job = .await f' d asked ∧ f = f'.awaiting d := by
    intro f' d asked hjob hn
    rcases of_getElem?_insert hn with ⟨-, rfl⟩ | hn
    · exact .inr ⟨f', d, asked, hjob, rfl⟩
    · exact .inl hn
  cases h with
  | parked | parkedAsked _ => exact hnew rfl hf
  | _ => exact .inl hf

/-! ## Whoever reports to a branch releases it later -/

/-- The branch that an order reports to. -/
def Order.reportsTo? : Order → Option Id
  | .job (.report b _) => some b
  | .job (.drain i) | .deliver i _ => some (i + 1)
  | _ => none

/-- Behind every report to a branch a release of it is to come. -/
def Covered : List Order → Prop
  | [] => True
  | o :: os => (∀ b, o.reportsTo? = some b → .job (.release b) ∈ os) ∧ Covered os

theorem Covered.cons (ho : ∀ b, o.reportsTo? = some b → .job (.release b) ∈ os)
    (h : Covered os) : Covered (o :: os) := ⟨ho, h⟩

/-- Orders that report to no branch are covered. -/
theorem Covered.append (ho : ∀ o ∈ os, o.reportsTo? = none) (h : Covered rest) :
    Covered (os ++ rest) := by
  induction os with
  | nil => exact h
  | cons o os ih =>
    refine .cons (fun b hb => ?_) (ih fun o' ho' => ho o' (List.mem_cons_of_mem _ ho'))
    rw [ho o List.mem_cons_self] at hb
    cases hb

/-- What is covered stays so wherever it stands. -/
theorem Covered.mem (h : Covered os) (ho : o ∈ os) (hb : o.reportsTo? = some b) :
    .job (.release b) ∈ os := by
  induction os with
  | nil => simp at ho
  | cons o' os ih =>
    rcases List.mem_cons.1 ho with rfl | ho
    · exact List.mem_cons_of_mem _ (h.1 b hb)
    · exact List.mem_cons_of_mem _ (ih h.2 ho)

/-- **A job that reports to a branch leaves the release of it for later.** -/
theorem Covered.run (hl : Layout t) (hc : Covered (.job job :: rest))
    (h : Transition env t job t' os) : Covered (os ++ rest) := by
  obtain ⟨hjob, hrest⟩ := hc
  cases h with
  | barred _ | entered _ | halted _ _ | asked _ _ _ _ | awaited _ _ _ _ | failed _ _ _ _ _
  | parked | parkedAsked _ | reported | drained _ _ | released _ _ | finished _ _ _ _
  | filled _ _ _ _ _ => exact hrest.append (by simp [Order.reportsTo?])
  | split _ _ _ _ _ => exact hrest.append (Searches.forall_mem_split t _ fun _ => rfl)
  | expanded _ _ _ _ _ _ => exact hrest.append (forall_mem_steps (fun _ _ => rfl) rfl)
  | exhausted _ _ _ _ _ | combined _ _ _ _ _ =>
    refine .cons (fun b hb => ?_) (.cons (fun b hb => by cases hb) hrest)
    cases hb
    exact List.mem_cons_self
  | refused _ _ _ | kept _ _ _ _ | queued _ _ _ _ _ =>
    exact .cons (fun b hb => hjob b hb) hrest
  | announced hy _ _ hr _ =>
    -- the branch reported to is the root branch
    have hb := Searches.seat?_of_role hy hr
    have hroot := hl.root hb
    refine .cons (fun c hc => ?_) (.cons (fun c hc => hjob c hc) hrest)
    cases hc
    exact List.mem_cons_of_mem _ (hjob _ (congrArg some hroot))
  | delivered _ _ =>
    refine .cons (fun c hc => ?_) (.cons (fun c hc => hjob c hc) hrest)
    exact List.mem_cons_of_mem _ (hjob c hc)

/-! ## Sound tables -/

/-- The search whose caller an order tells of matches. -/
def Order.tells? : Order → Option Id
  | .job (.drain i) | .deliver i _ => some i
  | _ => none

/-- Whoever tells a caller of matches reports to the root branch. -/
theorem Order.reportsTo?_of_tells? (h : o.tells? = some i) :
    o.reportsTo? = some (i + 1) := by
  unfold tells? at h
  split at h <;> cases h <;> rfl

/-- What holds of a table of searches and the orders that are left. -/
structure Sound (t : Searches) (os : List Order) : Prop where
  layout : Layout t
  accounted : Accounted t os
  /-- Paths on the move are on branches of their search. -/
  seated {o : Order} {f : Frame} : o ∈ os → o.frame? = some f → t.Seats f
  /-- And so are parked paths. -/
  parked {n : Nat} {f : Frame} : t.parked[n]? = some f → t.Seats f
  covered : Covered os
  /-- Callers are told of matches while the root branch is there. -/
  rooted {o : Order} {i : Nat} : o ∈ os → o.tells? = some i → t.seat? (i + 1) = some (i, .root)

/-- Changing a search starts no other one. -/
theorem Searches.mem_of_mem_update {k : Id} {change : Search → Search}
    (h : k ∈ (t.update i change).searches) : k ∈ t.searches := by
  cases hx : t.searches[i]? with
  | none => simpa only [Searches.update, hx] using h
  | some x =>
    rw [Searches.update_of_getElem? hx] at h
    exact (mem_insert_of_getElem? hx _ k).1 h

namespace Sound

/-- **What a job refers to is there.** -/
theorem serves (h : Sound t (.job job :: rest)) : t.Serves job := by
  cases job with
  | start f => trivial
  | step f =>
    have hf := h.seated List.mem_cons_self rfl
    obtain ⟨r, hr⟩ := hf
    exact ⟨h.layout.launched hr, Searches.Seats.mem ⟨r, hr⟩⟩
  | await f d asked =>
    obtain ⟨r, hr⟩ := h.seated List.mem_cons_self rfl
    exact h.layout.launched hr
  | report b ms =>
    have hrel := h.covered.1 b rfl
    have hb := h.accounted.mem_of_mem_orders (List.mem_cons_of_mem _ hrel) rfl
    obtain ⟨y, hy⟩ := exists_getElem? hb
    exact ⟨y, hy, h.layout.launched (Searches.seat?_of_getElem? hy)⟩
  | drain i => exact h.layout.launched (h.rooted List.mem_cons_self rfl)
  | release b =>
    have hb := h.accounted.mem_of_mem_orders List.mem_cons_self rfl
    obtain ⟨y, hy⟩ := exists_getElem? hb
    have hseat := Searches.seat?_of_getElem? hy
    refine ⟨y, hy, h.layout.launched hseat, fun j slot hr => ?_⟩
    rw [hr] at hseat
    obtain ⟨-, jn, hjn, -⟩ := h.layout.clause hseat
    exact mem_of_getElem? hjn

/-- A junction reports to a branch that is there. -/
theorem parent_lt {j : Nat} {jn : Junction} (h : Sound t os) (hj : t.junctions[j]? = some jn) :
    jn.parent < t.next :=
  h.layout.branch_lt (h.accounted.mem_of_junction hj)

/-- What a job does is one of the listed things. -/
theorem transition (h : Sound t (.job job :: rest)) (env : Surroundings) :
    Transition env t job (t.run env job).1 (t.run env job).2 :=
  Searches.transition_run env h.serves

/-- The callers that a job goes on to tell of matches have their root branch. -/
theorem tells_root (h : Sound t (.job job :: rest)) (ht : Transition env t job t' os)
    (ho : o ∈ os) (hi : o.tells? = some i) : t.seat? (i + 1) = some (i, .root) := by
  cases ht.leaves ho with
  | announced hy hr =>
    cases hi
    have hb := Searches.seat?_of_role hy hr
    rw [← hb, h.layout.root hb]
  | delivered _ _ | again =>
    cases hi
    exact h.rooted List.mem_cons_self rfl
  | _ => cases hi

/-- **A job keeps the table sound.** -/
theorem run (h : Sound t (.job job :: rest)) (ht : Transition env t job t' os) :
    Sound t' (os ++ rest) := by
  have hacc := h.accounted.run h.layout ht
  have hlay := h.layout.run h.accounted
    (fun f hf => by subst hf; exact h.seated List.mem_cons_self rfl) ht
  have hcov := Covered.run h.layout h.covered ht
  have hkeep : ∀ {f : Frame}, t.Seats f → f.branch ∈ t'.branches → t'.Seats f :=
    ht.seats h.layout
  refine ⟨hlay, hacc, fun {o f} ho hf => ?_, fun {n f} hf => ?_, hcov, fun {o i} ho hi => ?_⟩
  · have hmem := hacc.mem_of_mem_orders ho (Order.held?_of_frame? hf)
    rcases List.mem_append.1 ho with ho | ho
    · rcases ht.frame?_cases ho hf with hf' | ⟨f', fs, rfl, he, hf'⟩ |
        ⟨f', k, c, rfl, -, hc, rfl, rfl⟩
      · exact hkeep (h.seated List.mem_cons_self hf') hmem
      · obtain ⟨r, hr⟩ : t.Seats f' := h.seated List.mem_cons_self rfl
        refine hkeep ⟨r, ?_⟩ hmem
        rw [Frame.search_of_mem_expand he hf', Frame.branch_of_mem_expand he hf', hr]
      · obtain ⟨hk, -⟩ := List.getElem?_eq_some_iff.1 hc
        refine ⟨_, (Searches.seat?_split t f' _).trans (if_pos ⟨?_, ?_⟩)⟩
        · exact Nat.le_add_right _ _
        · exact Nat.add_lt_add_left hk _
    · exact hkeep (h.seated (List.mem_cons_of_mem _ ho) hf) hmem
  · refine hkeep ?_ (hacc.mem_of_parked hf)
    rcases ht.parked_cases hf with hf | ⟨f', d, asked, rfl, rfl⟩
    · exact h.parked hf
    · obtain ⟨r, hr⟩ : t.Seats f' := h.seated List.mem_cons_self rfl
      exact ⟨r, hr⟩
  · have hrel := hcov.mem ho (Order.reportsTo?_of_tells? hi)
    have hmem := hacc.mem_of_mem_orders hrel rfl
    have hseat : t.seat? (i + 1) = some (i, .root) := by
      rcases List.mem_append.1 ho with ho | ho
      · exact h.tells_root ht ho hi
      · exact h.rooted (List.mem_cons_of_mem _ ho) hi
    have hold : i + 1 ∈ t.branches := Searches.mem_of_seat? hseat
    rw [ht.seat?_eq h.layout hold hmem, hseat]

/-! ## What the surroundings may do -/

/-- An order that is no job can be handed over. -/
theorem handOver (h : Sound t (o :: rest)) (ho : o.held? = none) : Sound t rest where
  layout := h.layout
  accounted := by
    have hacc := h.accounted
    unfold Accounted at hacc ⊢
    rw [heldBy_cons] at hacc
    simpa [heldBy, ho] using hacc
  seated ho' := h.seated (List.mem_cons_of_mem _ ho')
  parked := h.parked
  covered := h.covered.2
  rooted ho' := h.rooted (List.mem_cons_of_mem _ ho')

/-- A search can be stopped or cancelled. -/
theorem update (h : Sound t os) (i : Nat) (change : Search → Search) :
    Sound (t.update i change) os := by
  cases hx : t.searches[i]? with
  | none => simpa only [Searches.update, hx] using h
  | some x =>
    rw [Searches.update_of_getElem? hx]
    exact ⟨h.layout.insert_search hx, h.accounted, h.seated, h.parked, h.covered, h.rooted⟩

/-- A parked path that is taken from the table holds its branch through an
order. -/
theorem takeParked (h : Sound t os) (hf : t.parked[n]? = some f) (ho : o.held? = some f.branch)
    (hframe : ∀ f', o.frame? = some f' → f' = f) (hreport : o.reportsTo? = none) :
    Sound { t with parked := t.parked.erase n } (o :: os) where
  layout := by
    refine h.layout.keep (fun _ => rfl) rfl (fun _ => Iff.rfl) (Nat.le_refl _) (fun m hm => ?_)
      fun _ _ => h.layout.positive
    exact h.layout.ticket_lt (ExtTreeMap.mem_of_mem_erase hm)
  accounted := by
    have hacc := h.accounted
    have hone : heldBy [o] = {f.branch} := by simp [heldBy, ho]
    unfold Accounted at hacc ⊢
    rw [heldBy_cons, hone]
    change t.granted = tally (t.parked.erase n) _ + tally t.junctions _ + _
    rw [hacc, Searches.held, tally_erase hf]
    ac_rfl
  seated {o' f'} ho' hf' := by
    rcases List.mem_cons.1 ho' with rfl | ho'
    · rw [hframe f' hf']
      exact h.parked hf
    · exact h.seated ho' hf'
  parked {m f'} hm := by
    rw [ExtTreeMap.getElem?_erase] at hm
    split at hm
    · cases hm
    · exact h.parked hm
  covered := .cons (fun b hb => by rw [hreport] at hb; cases hb) h.covered
  rooted {o' i} ho' hi := by
    rcases List.mem_cons.1 ho' with rfl | ho'
    · rw [Order.reportsTo?_of_tells? hi] at hreport
      cases hreport
    · exact h.rooted ho' hi

/-- A parked path can be resumed. -/
theorem resume (h : Sound t os) (ticket : Nat) :
    Sound (t.resume ticket).1 ((t.resume ticket).2 ++ os) := by
  unfold Searches.resume
  cases hf : t.parked[ticket]? with
  | none => exact h
  | some f => exact h.takeParked hf rfl (fun f' hf' => by cases hf'; rfl) rfl

/-- A parked path can be given up. -/
theorem discard (h : Sound t os) (ticket : Nat) :
    Sound (t.discard ticket).1 ((t.discard ticket).2 ++ os) := by
  unfold Searches.discard
  cases hf : t.parked[ticket]? with
  | none => exact h
  | some f => exact h.takeParked hf rfl (fun f' hf' => by cases hf') rfl

/-- The seats once a search was started. -/
theorem seat?_launch (t : Searches) (config : SearchConfig) (linked : Bool) (p : Pattern)
    (c : Nat) : (t.launch config linked p).1.seat? c =
      if t.next + 1 = c then some (t.next, .root) else t.seat? c := by
  change ((t.branches.insert (t.next + 1) _)[c]?.map fun y => (y.search, y.role)) = _
  rw [ExtTreeMap.getElem?_insert]
  by_cases hc : t.next + 1 = c
  · rw [if_pos hc, if_pos (by simpa using hc)]
    rfl
  · rw [if_neg hc, if_neg (by simpa using hc), Searches.seat?]

/-- The branch of a search that was started is its root branch. -/
theorem seat?_launch_root (t : Searches) (config : SearchConfig) (linked : Bool) (p : Pattern) :
    (t.launch config linked p).1.seat? (t.next + 1) = some (t.next, .root) := by
  rw [seat?_launch, if_pos rfl]

/-- A search can be started. -/
theorem launch (h : Sound t os) (config : SearchConfig) (linked : Bool) (p : Pattern) :
    Sound (t.launch config linked p).1 (.job (t.launch config linked p).2.2 :: os) := by
  have hl := h.layout
  have hnew : t.next + 1 ∉ t.branches := hl.not_mem_branches (Nat.le_succ _)
  have hnext : (t.launch config linked p).1.next = t.next + 2 := rfl
  have hseat := seat?_launch t config linked p
  have hold : ∀ c ∈ t.branches, (t.launch config linked p).1.seat? c = t.seat? c := by
    intro c hc
    rw [hseat, if_neg]
    rintro rfl
    exact hnew hc
  have hseats : ∀ {f : Frame}, t.Seats f → (t.launch config linked p).1.Seats f := by
    rintro f ⟨r, hr⟩
    exact ⟨r, by rw [hold _ (Searches.mem_of_seat? hr), hr]⟩
  have hsearch : ∀ i, i ∈ (t.launch config linked p).1.searches ↔ t.next = i ∨ i ∈ t.searches := by
    intro i
    change i ∈ t.searches.insert t.next _ ↔ _
    rw [ExtTreeMap.mem_insert, Std.LawfulEqCmp.compare_eq_iff_eq]
  refine ⟨⟨fun {i} hi => ?_, fun {c} hc => ?_, fun hj => ?_, fun hn => ?_, fun {c z} hz => ?_,
    fun {c i r} hc => ?_, fun {c i} hc => ?_, fun {c i j slot} hc => ?_, hl.parent_lt,
    fun hj => Nat.le_trans (hl.slots_le hj) (Nat.le_add_right _ 2)⟩, ?_,
    fun {o f} ho hf => ?_, fun hf => hseats (h.parked hf), ?_, fun {o i} ho hi => ?_⟩
  · rw [hnext]
    rcases (hsearch i).1 hi with rfl | hi
    · exact Nat.lt_succ_self _
    · have := hl.search_lt hi
      omega
  · rw [Searches.mem_branches_iff, hseat] at hc
    rw [hnext]
    split at hc
    · rename_i he
      subst he
      exact Nat.lt_succ_self _
    · have := hl.branch_lt (Searches.mem_branches_iff.2 hc)
      omega
  · have := hl.junction_lt hj
    rw [hnext]
    omega
  · have := hl.ticket_lt hn
    rw [hnext]
    omega
  · exact hl.positive_insert Nat.one_pos c z hz
  · rw [hseat] at hc
    split at hc
    · cases hc
      exact (hsearch _).2 (.inl rfl)
    · exact (hsearch _).2 (.inr (hl.launched hc))
  · rw [hseat] at hc
    split at hc
    · rename_i he
      cases hc
      exact he.symm
    · exact hl.root hc
  · rw [hseat] at hc
    split at hc
    · cases hc
    · obtain ⟨hnum, jn, hjn, hslot, r, hr⟩ := hl.clause hc
      exact ⟨hnum, jn, hjn, hslot, r, by
        rw [hold _ (Searches.mem_of_seat? hr), hr]⟩
  · have hacc := h.accounted
    unfold Accounted at hacc ⊢
    rw [heldBy_cons]
    change tally (t.branches.insert (t.next + 1) _) _ = t.held + ({t.next + 1} + _)
    rw [tally_insert hnew, Multiset.replicate_one]
    change _ + t.granted = _
    rw [hacc, add_left_comm]
  · rcases List.mem_cons.1 ho with rfl | ho
    · cases hf
      exact ⟨.root, by rw [hseat]; exact if_pos rfl⟩
    · exact hseats (h.seated ho hf)
  · exact .cons (fun b hb => by cases hb) h.covered
  · rcases List.mem_cons.1 ho with rfl | ho
    · cases hi
    · have hr := h.rooted ho hi
      rw [hold _ (Searches.mem_of_seat? hr), hr]

/-- No search was started yet. -/
theorem empty : Sound {} [] := by
  have hnone : ∀ c, ({} : Searches).seat? c = none := fun c => by simp [Searches.seat?]
  refine ⟨⟨by simp, by simp, by simp, by simp, by simp, fun h => ?_, fun h => ?_, fun h => ?_,
    by simp, by simp⟩, ?_, by simp, by simp, trivial, by simp⟩
  · rw [hnone] at h
    cases h
  · rw [hnone] at h
    cases h
  · rw [hnone] at h
    cases h
  · simp [Accounted, Searches.granted, Searches.held]

end Sound

end TripleQuery
