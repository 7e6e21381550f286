import TripleQuery.Proofs.Searching.Balance
import TripleQuery.Proofs.Searching.Lasting
/-!
# The outcome — what a search has found in the end

A search amounts, when it is started, to the answers to its pattern
(`Scene.balanced_launch`), and once it is over, to what its caller was told
(`Balanced.eq_of_finished`). As long as only its own work goes on, and nothing
hinders it, what it amounts to stays the same (`Scene.Reckoned.work`,
`Scene.Reckoned.handOver`), so that in the end the answers are what was told
(`Scene.Reckoned.eq_of_done`).
-/

namespace TripleQuery

variable {g : Graph} {t t' : Searches} {os rest : List Order} {job : Job}
  {state? : Option (String → FetchState)} {i : Nat} {Y : Yield} {told : List Notice} {o : Order}
  {x : Search} {p : Pattern}

/-! ## Its own work -/

/-- A branch that is there after a job belongs to whom it did. -/
theorem Transition.owner?_eq {env : Surroundings} {b : Nat} (hl : Layout t)
    (ht : Transition env t job t' os) (hb : t.owner? b = some i) (hb' : b ∈ t'.branches) :
    t'.owner? b = some i := by
  obtain ⟨r, hr⟩ := Searches.owner?_eq_some_iff.1 hb
  have hmem : b ∈ t.branches := Searches.mem_of_seat? hr
  exact Searches.owner?_eq_some_iff.2 ⟨r, by rw [ht.seat?_eq hl hmem hb', hr]⟩

/-- **Work that was left in a table is still work of the same search later**, if
it is work of any that was there. -/
theorem Sound.worksFor?_of_before {t t' : Searches} {os : List Order} {o : Order} {i : Id}
    (hs : Sound t os) (h : t.Before t') (ho : o ∈ os) (hi : t'.worksFor? o = some i) :
    t.worksFor? o = some i := by
  have hold : ∀ {b : Nat}, b ∈ t.branches → t'.owner? b = some i → t.owner? b = some i := by
    intro b hb hown
    obtain ⟨r, hr⟩ := Searches.owner?_eq_some_iff.1 hown
    exact Searches.owner?_eq_some_iff.2 ⟨r, h.seat (hs.layout.branch_lt hb) hr⟩
  cases o with
  | job job =>
    cases job with
    | report b ms =>
      exact hold (hs.accounted.mem_of_mem_orders (hs.covered.mem ho rfl) rfl) hi
    | release b => exact hold (hs.accounted.mem_of_mem_orders ho rfl) hi
    | _ => exact hi
  | _ => exact hi

/-- Whether an order is for a source of documents. -/
def Order.isForSource : Order → Bool
  | .enterSource | .leaveSource | .request _ | .watch _ _ => true
  | _ => false

/-- Which is no work of a search. -/
theorem Searches.worksFor?_of_isForSource (t : Searches) (h : o.isForSource) :
    t.worksFor? o = none := by
  cases o <;> first | rfl | cases h

/-- Work of a search that is left is work of the same search after a job. -/
theorem Sound.worksFor?_run {env : Surroundings} (hs : Sound t (.job job :: rest))
    (ht : Transition env t job t' os) (ho : o ∈ os ++ rest) (hwork : t.worksFor? o = some i) :
    t'.worksFor? o = some i := by
  have hs' := hs.run ht
  cases o with
  | job work =>
    cases work with
    | report b ms =>
      have hrelease := hs'.covered.mem ho rfl
      exact ht.owner?_eq hs.layout hwork (hs'.accounted.mem_of_mem_orders hrelease rfl)
    | release b => exact ht.owner?_eq hs.layout hwork (hs'.accounted.mem_of_mem_orders ho rfl)
    | _ => exact hwork
  | _ => exact hwork

/-- **Work of a search leads to work of the same search**, or to orders that are
for its source of documents. -/
theorem Transition.worksFor?_of_mem {env : Surroundings} (hs : Sound t (.job job :: rest))
    (ht : Transition env t job t' os) (hwork : t.worksFor? (.job job) = some i) (ho : o ∈ os) :
    t.worksFor? o = some i ∨ o.isForSource := by
  have hpath : ∀ {f : Frame}, Order.frame? (.job job) = some f → f.search = i →
      t.owner? f.branch = some i := by
    intro f hf hi
    obtain ⟨r, hr⟩ := hs.seated List.mem_cons_self hf
    exact Searches.owner?_eq_some_iff.2 ⟨r, by rw [hr, hi]⟩
  have howner : ∀ {b : Nat} {y : Branch}, t.branches[b]? = some y → t.owner? b = some i →
      y.search = i := by
    intro b y hy hb
    obtain ⟨r, hr⟩ := Searches.owner?_eq_some_iff.1 hb
    rw [Searches.seat?_of_getElem? hy] at hr
    cases hr
    rfl
  cases ht.leaves ho with
  | barred | ended | found _ => exact .inl (hpath rfl (Option.some.inj hwork))
  | entered _ | await _ _ _ | clause _ _ _ | others | delivered _ _ | again => exact .inl hwork
  | enterSource _ _ | request _ _ | leaveSource _ _ | watch _ _ => exact .inr rfl
  | matched he hf' =>
    have hi := Option.some.inj hwork
    exact .inl (congrArg some ((Frame.search_of_mem_expand he hf').trans hi))
  | announced hy _ | finished hy _ _ => exact .inl (congrArg some (howner hy hwork))
  | combined hy hr hj _ | completed hy hr hj =>
    -- the junction reports to a branch of the same search
    obtain ⟨-, -, r, hparent⟩ := hs.layout.waits_for hy hr hj
    rw [howner hy hwork] at hparent
    exact .inl (Searches.owner?_eq_some_iff.2 ⟨r, hparent⟩)

/-- Whoever comes to wait had a document to wait for. -/
theorem Transition.nextFetch_of_await {env : Surroundings} (ht : Transition env t job t' os)
    {f : Frame} {d : String} {asked : Bool} (ho : .job (.await f d asked) ∈ os) :
    ∃ x, t.searches[f.search]? = some x ∧ x.nextFetch env f = some d := by
  cases ht.leaves ho with
  | await hx hd _ => exact ⟨_, hx, hd⟩

/-- Orders for a source of documents are left by whoever has to wait. -/
theorem Transition.waits_of_isForSource {env : Surroundings} (ht : Transition env t job t' os)
    (ho : o ∈ os) (hsource : o.isForSource) :
    (∃ f x d, job = .step f ∧ t.searches[f.search]? = some x ∧ x.nextFetch env f = some d) ∨
      ∃ f d asked, job = .await f d asked := by
  cases ht.leaves ho with
  | enterSource hx hd | request hx hd | leaveSource hx hd => exact .inl ⟨_, _, _, rfl, hx, hd⟩
  | watch _ _ => exact .inr ⟨_, _, _, rfl⟩
  | _ => cases hsource

/-- An order is work of a search, and has no document to wait for. -/
structure Searches.IsOwnWork (t : Searches) (i : Nat) (o : Order) : Prop where
  worksFor : t.worksFor? o = some i
  not_await {f : Frame} {d : String} {asked : Bool} : o ≠ .job (.await f d asked)

namespace Searches.IsOwnWork

variable {env : Surroundings}

/-- The work that is left is work of the same search after a job. -/
theorem keep (h : t.IsOwnWork i o) (hs : Sound t (.job job :: rest))
    (ht : Transition env t job t' os) (ho : o ∈ os ++ rest) : t'.IsOwnWork i o :=
  ⟨hs.worksFor?_run ht ho h.worksFor, h.not_await⟩

/-- **Work of a search that reaches no documents leads to its own work only.** -/
theorem run (h : t.IsOwnWork i (.job job)) (hs : Sound t (.job job :: rest))
    (hx : t.searches[i]? = some x) (hx' : x.linked = false)
    (ht : Transition env t job t' os) : ∀ o ∈ os, t'.IsOwnWork i o := by
  -- a search without a source of documents has none to wait for
  have hnever : ∀ {f : Frame} {z : Search} {d : String}, f.search = i →
      t.searches[f.search]? = some z → z.nextFetch env f ≠ some d := by
    rintro f z d rfl hz hd
    obtain rfl := Option.some.inj (hz.symm.trans hx)
    simp [Search.nextFetch, hx'] at hd
  intro o ho
  rcases ht.worksFor?_of_mem hs h.worksFor ho with hown | hsource
  · refine ⟨hs.worksFor?_run ht (List.mem_append_left _ ho) hown, fun he => ?_⟩
    subst he
    obtain ⟨z, hz, hd⟩ := ht.nextFetch_of_await ho
    exact hnever (Option.some.inj hown) hz hd
  · rcases ht.waits_of_isForSource ho hsource with ⟨f, z, d, rfl, hz, hd⟩ | ⟨f, d, asked, rfl⟩
    · exact absurd hd (hnever (Option.some.inj h.worksFor) hz)
    · exact absurd rfl h.not_await

end Searches.IsOwnWork

/-! ## What it amounts to -/

/-- A search is on the way to what it amounts to, unless it has met an error. -/
structure Scene.Reckoned (w : Scene) (i : Nat) (Y : Yield) (x : Search) : Prop where
  unhindered : x.IsUnhindered
  balanced : x.error = none →
    ∃ V : Nat → Yield, V (i + 1) = Y ∧ Balanced w.graph w.table w.orders w.told i V
  /-- An error is what the caller is told in the end. -/
  failed : x.error.isSome → ∀ sum,
    .ok sum ∉ finishesOf i w.orders ∧ .done i (.ok sum) ∉ w.told

/-- **Once a search is over, its caller was told all that its root branch will
have.** -/
theorem Balanced.eq_of_finished {V : Nat → Yield} (h : Balanced g t os told i V)
    (hs : Sound t os) (hp : Paced t os i x) (hx : t.searches[i]? = some x)
    (hover : x.finished = true) : V (i + 1) = .of (matchesOf i told) := by
  have hgone : i + 1 ∉ t.branches := hp.gone hover
  -- nothing is queued, since nobody is told of matches any more
  have hempty : x.queue = [] := by
    by_contra hq
    exact hs.tells?_ne hgone (hp.draining (hp.queued hq)) rfl
  calc V (i + 1) = t.settled told i (i + 1) + t.pending g V os (i + 1) := h (i + 1) (.inr rfl)
    _ = .of (matchesOf i told) := by
        rw [Sound.pending_eq_zero hs hgone, add_zero, Searches.settled, if_pos rfl,
          Searches.queueOf_of_getElem? hx, hempty, List.append_nil]

namespace Scene

/-! ## The start -/

/-- **A search starts with the answers to its pattern before it.** -/
theorem balanced_launch (hs : Sound t os) (hw : IsFaithful ⟨g, t, os, told⟩)
    (config : SearchConfig) (linked : Bool) (p : Pattern) :
    Balanced g (t.launch config linked p).1 (.job (t.launch config linked p).2.2 :: os)
      (told ++ [.started t.next p]) t.next fun _ => answers g ∅ p p.initial := by
  have hl := hs.layout
  have hnew := hl.next_not_mem_searches
  have hroot : t.next + 1 ∉ t.branches := hl.not_mem_branches (Nat.le_succ _)
  intro b hb
  -- the root branch is the only one
  obtain rfl : b = t.next + 1 := by
    rcases hb with ho | hb
    · obtain ⟨r, hr⟩ := Searches.owner?_eq_some_iff.1 ho
      rw [Sound.seat?_launch] at hr
      split at hr
      · rename_i he
        exact he.symm
      · exact absurd (hl.launched hr) hnew
    · exact hb
  have hnothing : matchesOf t.next (told ++ [.started t.next p]) = [] :=
    hw.matchesOf_started hnew
  have hqueue : (t.launch config linked p).1.queueOf t.next = [] := by
    rw [Searches.queueOf_insert rfl, if_pos rfl]
  have hstart : Order.yield g (t.next + 1) (.job (t.launch config linked p).2.2) =
      answers g ∅ p p.initial :=
    (Order.yield_enter g _ _ _ ∅ p p.initial []).trans (if_pos rfl)
  have hothers : (os.map (Order.yield g (t.next + 1))).sum = 0 :=
    sum_yield_eq_zero fun o ho => hs.not_held hroot ho
  have hparked : (t.launch config linked p).1.waiting g (t.next + 1) = 0 :=
    Searches.waiting_eq_zero fun n f hf => hs.parked_branch_ne hroot hf
  have hjunctions : (t.launch config linked p).1.joining (fun _ => answers g ∅ p p.initial)
      (t.next + 1) = 0 :=
    Searches.joining_eq_zero fun j jn hj => hs.parent_ne hroot hj
  rw [Searches.settled, if_pos rfl, hnothing, hqueue, Searches.pending, List.map_cons,
    List.sum_cons, hstart, hothers, hparked, hjunctions]
  simp

/-- And is on the way to them, if no source of documents and no limit hinders
it. -/
theorem reckoned_launch (hs : Sound t os) (hw : IsFaithful ⟨g, t, os, told⟩)
    (config : SearchConfig) (p : Pattern) (hlimit : config.maxMatches = none) :
    Reckoned ⟨g, (t.launch config false p).1, .job (t.launch config false p).2.2 :: os,
        told ++ [.started t.next p]⟩
      t.next (answers g ∅ p p.initial) { config := config, linked := false } :=
  ⟨⟨rfl, hlimit, fun h => by cases h⟩, fun _ => ⟨_, rfl, balanced_launch hs hw config false p⟩,
    fun h => by cases h⟩

/-! ## Carrying on -/

/-- What is told by an order that ends a search, was left to be told. -/
theorem mem_finishesOf_of_notices {r : Except QueryError SearchSummary}
    (h : .done i r ∈ o.notices) : r ∈ finishesOf i (o :: os) := by
  cases o with
  | finish k r =>
    cases List.mem_singleton.1 h
    simp [finishesOf_cons, Order.finish?]
  | deliver k m => cases List.mem_singleton.1 h
  | _ => cases h

namespace Reckoned

/-- **What a search amounts to stays the same when its work goes on.** -/
theorem work (h : Reckoned ⟨g, t, .job job :: rest, told⟩ i Y x)
    (hs : Sound t (.job job :: rest)) (hw : IsFaithful ⟨g, t, .job job :: rest, told⟩)
    (hx : t.searches[i]? = some x) (ht : Transition ⟨g, state?⟩ t job t' os) :
    ∃ x', t'.searches[i]? = some x' ∧ Reckoned ⟨g, t', os ++ rest, told⟩ i Y x' := by
  obtain ⟨x', hx', hfree, he⟩ := h.unhindered.run hs ht hx
  have hp := hw.paced hx
  refine ⟨x', hx', hfree, fun hnone => ?_, fun hsome sum => ?_⟩
  · have hold : x.error = none := by
      rcases he with he | ⟨hsome, -⟩
      · rw [← he, hnone]
      · rw [hnone] at hsome
        cases hsome
    have hstop : x.stopped = false := by
      rw [← Bool.not_eq_true]
      intro hstopped
      have hsome := h.unhindered.stopped hstopped
      rw [hold] at hsome
      cases hsome
    obtain ⟨V, hV, hbal⟩ := h.balanced hold
    obtain ⟨V', hV', hbal'⟩ := hbal.run hs hp hx hstop ht hx' hnone
    exact ⟨V', hV'.trans hV, hbal'⟩
  · obtain ⟨x'', hx'', hturn⟩ := ht.turn hs hx
    obtain rfl : x' = x'' := Option.some.inj (hx'.symm.trans hx'')
    obtain ⟨p, found, ending, hst⟩ := hw.story hx
    have hends := hturn.delivers.2
    by_cases hold : x.error.isSome
    · -- the error was there before, and what ends the search tells it
      obtain ⟨hfin, hdone⟩ := h.failed hold sum
      refine ⟨fun hmem => ?_, hdone⟩
      simp only [finishesOf_append, List.mem_append] at hmem
      rcases hmem with hmem | hmem
      · rcases hends with ⟨hnil, -⟩ | ⟨hone, -⟩
        · rw [hnil] at hmem
          cases hmem
        · rw [hone, List.mem_singleton] at hmem
          obtain ⟨e, he⟩ := Option.isSome_iff_exists.1 hold
          rw [Search.result, he] at hmem
          cases hmem
      · refine hfin ?_
        change _ ∈ finishesOf i (_ :: rest)
        rw [finishesOf_cons]
        exact List.mem_append_right _ hmem
    · -- the error is new, and the root branch is still there
      have hne : x'.error ≠ x.error := by
        intro heq
        rw [heq] at hsome
        exact hold hsome
      obtain ⟨-, hr⟩ := he.resolve_left hne
      have hgoes : x.finished = false := by
        rw [← Bool.not_eq_true]
        intro hover
        exact hp.gone hover (Searches.mem_of_seat? hr)
      obtain ⟨hnone, hfin⟩ := hst.quiet hgoes
      rw [finishesOf_cons, List.append_eq_nil_iff] at hfin
      refine ⟨fun hmem => ?_, fun hdone => ?_⟩
      · simp only [finishesOf_append, List.mem_append, hfin.2] at hmem
        rcases hends with ⟨hnil, -⟩ | ⟨-, rfl, -⟩
        · rw [hnil] at hmem
          simp at hmem
        · exact hne rfl
      · rw [hst.ending_of_done hdone] at hnone
        cases hnone

/-- **And when an order for others is handed over.** -/
theorem handOver (h : Reckoned ⟨g, t, o :: rest, told⟩ i Y x) (hs : Sound t (o :: rest))
    (hw : IsFaithful ⟨g, t, o :: rest, told⟩) (hx : t.searches[i]? = some x)
    (ho : ∀ job, o ≠ .job job) : Reckoned ⟨g, t, rest, told ++ o.notices⟩ i Y x := by
  refine ⟨h.unhindered, fun hnone => ?_, fun hsome sum => ⟨fun hfin => ?_, fun hdone => ?_⟩⟩
  · obtain ⟨V, hV, hbal⟩ := h.balanced hnone
    exact ⟨V, hV, hbal.handOver hs (hw.paced hx) ho⟩
  · refine (h.failed hsome sum).1 ?_
    change _ ∈ finishesOf i (o :: rest)
    rw [finishesOf_cons]
    exact List.mem_append_right _ hfin
  · rcases List.mem_append.1 hdone with hdone | hdone
    · exact (h.failed hsome sum).2 hdone
    · exact (h.failed hsome sum).1 (mem_finishesOf_of_notices hdone)

/-! ## The end -/

/-- **Once the end was told without an error, what was told is what the search
amounted to.** -/
theorem eq_of_done {w : Scene} {sum : SearchSummary} (h : Reckoned w i Y x) (hs : w.IsSound)
    (hw : w.IsFaithful) (hx : w.table.searches[i]? = some x)
    (hdone : .done i (.ok sum) ∈ w.told) : Y = .of (matchesOf i w.told) := by
  have hnone : x.error = none := by
    by_contra hsome
    exact (h.failed (Option.isSome_iff_ne_none.2 hsome) sum).2 hdone
  have hover : x.finished = true := by
    by_contra hgoes
    obtain ⟨p, found, ending, hst⟩ := hw.story hx
    have hquiet := (hst.quiet (by simpa using hgoes)).1
    rw [hst.ending_of_done hdone] at hquiet
    cases hquiet
  obtain ⟨V, hV, hbal⟩ := h.balanced hnone
  exact hV.symm.trans (hbal.eq_of_finished hs (hw.paced hx) hx hover)

end Reckoned

end Scene

end TripleQuery
