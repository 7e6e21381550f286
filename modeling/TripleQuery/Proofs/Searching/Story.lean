import TripleQuery.Proofs.Searching.Turn
/-!
# Stories — what callers are told

What a caller is told of a search is a story: that it was started, its matches,
and then its end, if it has ended (`Story`). Every match that was counted was
told, is about to be told, or is queued, and when a search ends nothing is
about to be told and nothing queued, so that the summary counts what was told.
Whatever happens in a scene, callers are told the story of their search
(`Scene.Step.faithful`).
-/

namespace TripleQuery

open Std (ExtTreeMap)

variable {t t' : Searches} {os os' rest : List Order} {job : Job} {env : Surroundings}
  {b i k n : Nat} {x x' : Search} {o : Order} {r : BranchRole} {told : List Notice}
  {p : Pattern} {found : List Bindings} {ending : Option (Except QueryError SearchSummary)}

/-! ## Every piece of work leads to the root -/

/-- **A branch of a search is there only while the root branch is.** -/
theorem Sound.root_of_seat (h : Sound t os) (hb : t.seat? b = some (i, r)) :
    t.seat? (i + 1) = some (i, .root) := by
  -- the junction of a clause reports to an earlier branch of the same search
  induction b using Nat.strongRecOn generalizing r with
  | ind b ih =>
    cases r with
    | root => rw [← h.layout.root hb, hb]
    | clause j slot =>
      obtain ⟨-, jn, hjn, -, r', hr'⟩ := h.layout.clause hb
      exact ih jn.parent (h.layout.parent_lt_clause hb hjn) hr'

/-- And so is a path that goes on. -/
theorem Sound.root_of_frame? {f : Frame} (h : Sound t os) (ho : o ∈ os)
    (hf : o.frame? = some f) : t.seat? (f.search + 1) = some (f.search, .root) := by
  obtain ⟨r, hr⟩ := h.seated ho hf
  exact h.root_of_seat hr

/-- Once the root branch has gone, the caller is told of no match. -/
theorem Sound.tells?_ne (h : Sound t os) (hb : i + 1 ∉ t.branches) (ho : o ∈ os) :
    o.tells? ≠ some i := by
  intro hi
  have hrel := h.covered.mem ho (Order.reportsTo?_of_tells? hi)
  exact hb (h.accounted.mem_of_mem_orders hrel rfl)

/-! ## What is still to be told -/

/-- The match of one search that an order tells. -/
def Order.delivery? (i : Id) : Order → Option Bindings
  | .deliver k m => if k = i then some m else none
  | _ => none

/-- The end of one search that an order tells. -/
def Order.finish? (i : Id) : Order → Option (Except QueryError SearchSummary)
  | .finish k r => if k = i then some r else none
  | _ => none

/-- The matches of one search that orders are about to tell. -/
def deliveriesOf (i : Id) (os : List Order) : List Bindings :=
  os.filterMap (Order.delivery? i)

/-- The ends of one search that orders are about to tell. -/
def finishesOf (i : Id) (os : List Order) : List (Except QueryError SearchSummary) :=
  os.filterMap (Order.finish? i)

@[simp] theorem deliveriesOf_nil (i : Id) : deliveriesOf i [] = [] := rfl

@[simp] theorem finishesOf_nil (i : Id) : finishesOf i [] = [] := rfl

theorem deliveriesOf_cons (i : Id) (o : Order) (os : List Order) :
    deliveriesOf i (o :: os) = (o.delivery? i).toList ++ deliveriesOf i os := by
  rw [deliveriesOf, List.filterMap_cons]
  cases o.delivery? i <;> rfl

theorem finishesOf_cons (i : Id) (o : Order) (os : List Order) :
    finishesOf i (o :: os) = (o.finish? i).toList ++ finishesOf i os := by
  rw [finishesOf, List.filterMap_cons]
  cases o.finish? i <;> rfl

theorem deliveriesOf_append (i : Id) (os os' : List Order) :
    deliveriesOf i (os ++ os') = deliveriesOf i os ++ deliveriesOf i os' := by
  simp [deliveriesOf]

theorem finishesOf_append (i : Id) (os os' : List Order) :
    finishesOf i (os ++ os') = finishesOf i os ++ finishesOf i os' := by
  simp [finishesOf]

/-- Whoever is about to tell a match speaks of the search. -/
theorem Order.delivery?_of_speaksOf? (h : o.speaksOf? ≠ some i) : o.delivery? i = none := by
  unfold delivery?
  split
  · rw [if_neg (by rintro rfl; exact h rfl)]
  · rfl

theorem Order.finish?_of_speaksOf? (h : o.speaksOf? ≠ some i) : o.finish? i = none := by
  unfold finish?
  split
  · rw [if_neg (by rintro rfl; exact h rfl)]
  · rfl

theorem deliveriesOf_eq_nil (h : ∀ o ∈ os, o.speaksOf? ≠ some i) : deliveriesOf i os = [] :=
  List.filterMap_eq_nil_iff.2 fun o ho => Order.delivery?_of_speaksOf? (h o ho)

theorem finishesOf_eq_nil (h : ∀ o ∈ os, o.speaksOf? ≠ some i) : finishesOf i os = [] :=
  List.filterMap_eq_nil_iff.2 fun o ho => Order.finish?_of_speaksOf? (h o ho)

/-- Once the root branch has gone, no match is about to be told. -/
theorem Sound.deliveriesOf_eq_nil (h : Sound t os) (hb : i + 1 ∉ t.branches) :
    deliveriesOf i os = [] := by
  refine List.filterMap_eq_nil_iff.2 fun o ho => ?_
  have hne := h.tells?_ne hb ho
  unfold Order.delivery?
  split
  · rw [if_neg (by rintro rfl; exact hne rfl)]
  · rfl

/-! ## Stories -/

/-- What the caller of a search was told and is still to be told. -/
structure Story (os : List Order) (told : List Notice) (i : Id) (x : Search) (p : Pattern)
    (found : List Bindings) (ending : Option (Except QueryError SearchSummary)) : Prop where
  /-- The start, the matches, and the end if there is one. -/
  news : newsOf i told =
    .started i p :: (found.map (.found i) ++ ending.toList.map (.done i))
  /-- Every match that was counted was told, is about to be told, or is queued. -/
  count : x.matchCount = found.length + (deliveriesOf i os).length + x.queue.length
  /-- The end is told or about to be told, once, exactly when the search is over. -/
  endings : (ending.toList ++ finishesOf i os).length = if x.finished then 1 else 0
  /-- A summary counts the matches that were told. -/
  summary : ∀ r ∈ ending.toList ++ finishesOf i os, ∀ sum, r = .ok sum →
    sum.matchCount = found.length

/-- What a job is about to tell of a search. -/
theorem Turn.delivers (h : Turn t t' i x job x' os) :
    x'.matchCount + x.queue.length =
        x.matchCount + x'.queue.length + (deliveriesOf i os).length ∧
      ((finishesOf i os = [] ∧ x'.finished = x.finished) ∨
        finishesOf i os = [x.result] ∧ x' = { x with finished := true } ∧
          t.seat? (i + 1) = some (i, .root) ∧ i + 1 ∉ t'.branches) := by
  cases h with
  | aside hq _ hf hm _ hos =>
    rw [hm, hq, deliveriesOf_eq_nil hos, finishesOf_eq_nil hos, hf]
    exact ⟨rfl, .inl ⟨rfl, rfl⟩⟩
  | took _ | woke _ =>
    simp [deliveriesOf_cons, finishesOf_cons, Order.delivery?, Order.finish?]
    omega
  | rested hq =>
    simp
  | told hq =>
    simp [deliveriesOf_cons, finishesOf_cons, Order.delivery?, Order.finish?, hq]
    omega
  | ended hr hb =>
    simp [deliveriesOf_cons, finishesOf_cons, Order.delivery?, Order.finish?, hr, hb]

/-- A job adds to the story what it means to the search. -/
theorem Story.run (hs : Sound t (.job job :: rest)) (hp : Paced t (.job job :: rest) i x)
    (hp' : Paced t' (os ++ rest) i x') (hst : Story (.job job :: rest) told i x p found ending)
    (ht : Transition env t job t' os) (h : Turn t t' i x job x' os) :
    Story (os ++ rest) told i x' p found ending := by
  have hcount := hst.count
  have hend := hst.endings
  have hsum := hst.summary
  simp only [deliveriesOf_cons, finishesOf_cons, Order.delivery?, Order.finish?,
    Option.toList_none, List.nil_append] at hcount hend hsum
  obtain ⟨htell, hfin⟩ := h.delivers
  have hcount' : x'.matchCount =
      found.length + (deliveriesOf i (os ++ rest)).length + x'.queue.length := by
    rw [deliveriesOf_append, List.length_append]
    omega
  refine ⟨hst.news, hcount', ?_, ?_⟩
  · rw [finishesOf_append]
    rcases hfin with ⟨hnil, hf⟩ | ⟨hone, rfl, hr, -⟩
    · rw [hnil, hf]
      exact hend
    · -- the search was not over before
      have hnot : x.finished = false := by
        rw [← Bool.not_eq_true]
        intro hover
        exact hp.gone hover (Searches.mem_of_seat? hr)
      rw [hnot] at hend
      simp only [Bool.false_eq_true, if_false, List.length_eq_zero_iff,
        List.append_eq_nil_iff] at hend
      rw [hone, hend.1, hend.2]
      rfl
  · rw [finishesOf_append]
    rcases hfin with ⟨hnil, -⟩ | ⟨hone, rfl, hr, hgone⟩
    · rw [hnil]
      exact hsum
    · -- nothing is queued or about to be told when the root branch goes away
      have hs' := hs.run ht
      have hnone := hs'.deliveriesOf_eq_nil hgone
      have hquiet : x.queue = [] := by
        by_contra hq
        exact hs'.tells?_ne hgone (hp'.draining (hp'.queued hq)) rfl
      rw [hnone] at hcount'
      simp only [hquiet, List.length_nil, Nat.add_zero] at hcount'
      intro r hr' sum hok
      rw [hone] at hr'
      simp only [List.mem_append, List.mem_singleton] at hr'
      rcases hr' with hold | rfl | hold
      · exact hsum r (List.mem_append.2 (.inl hold)) sum hok
      · rw [← hcount']
        unfold Search.result at hok
        split at hok <;> cases hok
        rfl
      · exact hsum r (List.mem_append.2 (.inr hold)) sum hok

theorem newsOf_append (i : Id) (told told' : List Notice) :
    newsOf i (told ++ told') = newsOf i told ++ newsOf i told' := by
  simp [newsOf]

/-- What was told is news of the search that it is about. -/
theorem mem_newsOf {n : Notice} : n ∈ newsOf n.search told ↔ n ∈ told := by
  simp [newsOf]

/-- What an order tells, its teller may forget. -/
theorem Story.handOver (hst : Story (o :: os) told i x p found ending)
    (hlive : ∀ m, o = .deliver i m → x.finished = false) :
    ∃ found' ending', Story os (told ++ o.notices) i x p found' ending' := by
  obtain ⟨hnews, hcount, hend, hsum⟩ := hst
  rw [deliveriesOf_cons] at hcount
  rw [finishesOf_cons] at hend hsum
  -- an order that is for others changes nothing
  have hother : newsOf i o.notices = [] → o.delivery? i = none → o.finish? i = none →
      Story os (told ++ o.notices) i x p found ending := by
    intro h1 h2 h3
    rw [h2] at hcount
    rw [h3] at hend hsum
    exact ⟨by rw [newsOf_append, h1, hnews, List.append_nil], hcount, hend, hsum⟩
  cases o with
  | deliver k m =>
    by_cases hk : k = i
    · subst hk
      -- the search is not over, so its end was not told
      rw [hlive m rfl] at hend
      simp only [Order.finish?, Option.toList_none, List.nil_append, Bool.false_eq_true, if_false,
        List.length_eq_zero_iff, List.append_eq_nil_iff, Option.toList_eq_nil_iff] at hend
      obtain ⟨rfl, hfin⟩ := hend
      refine ⟨found ++ [m], none, ?_, ?_, ?_, ?_⟩
      · rw [newsOf_append, hnews]
        simp [newsOf, Order.notices, Notice.search]
      · simp [Order.delivery?] at hcount
        simp only [List.length_append, List.length_singleton]
        omega
      · simp [hfin, hlive m rfl]
      · simp [hfin]
    · refine ⟨found, ending, hother ?_ ?_ rfl⟩
      · simp [newsOf, Order.notices, Notice.search, hk]
      · simp [Order.delivery?, hk]
  | finish k r =>
    by_cases hk : k = i
    · subst hk
      simp only [Order.finish?, if_true, Option.toList_some, List.length_append,
        List.length_singleton] at hend hsum
      -- no end was told before, and none is to be told later
      have hover : x.finished = true := by
        by_contra hne
        rw [if_neg hne] at hend
        omega
      rw [if_pos hover] at hend
      have hnone : ending = none := by
        cases ending with
        | none => rfl
        | some r' => simp at hend
      subst hnone
      have hfin : finishesOf k os = [] := by simpa using hend
      refine ⟨found, some r, ?_, hcount, ?_, ?_⟩
      · rw [newsOf_append, hnews]
        simp [newsOf, Order.notices, Notice.search]
      · simp [hfin, hover]
      · simpa [hfin] using hsum
    · refine ⟨found, ending, hother ?_ rfl ?_⟩
      · simp [newsOf, Order.notices, Notice.search, hk]
      · simp [Order.finish?, hk]
  | _ => exact ⟨found, ending, hother rfl rfl rfl⟩

/-- Orders that say nothing of any search add nothing to the story. -/
theorem Story.prepend (hst : Story rest told i x p found ending)
    (hos : ∀ o ∈ os, o.speaksOf? = none) : Story (os ++ rest) told i x p found ending := by
  have hne : ∀ o ∈ os, o.speaksOf? ≠ some i := fun o ho h => by
    rw [hos o ho] at h
    cases h
  refine ⟨hst.news, ?_, ?_, ?_⟩
  · rw [deliveriesOf_append, deliveriesOf_eq_nil hne]
    exact hst.count
  · rw [finishesOf_append, finishesOf_eq_nil hne]
    exact hst.endings
  · rw [finishesOf_append, finishesOf_eq_nil hne]
    exact hst.summary

/-- A search that is written anew in other respects keeps its story. -/
theorem Story.congr (hst : Story os told i x p found ending) (hm : x'.matchCount = x.matchCount)
    (hq : x'.queue = x.queue) (hf : x'.finished = x.finished) :
    Story os told i x' p found ending :=
  ⟨hst.news, by rw [hm, hq]; exact hst.count, by rw [hf]; exact hst.endings, hst.summary⟩

/-- The end that was told is the end of the story. -/
theorem Story.ending_of_done (hst : Story os told i x p found ending)
    {r : Except QueryError SearchSummary} (hr : .done i r ∈ told) : ending = some r := by
  have hnews : .done i r ∈ newsOf i told := mem_newsOf.2 hr
  rw [hst.news] at hnews
  simpa [eq_comm] using hnews

/-- The end of a search that goes on was not told, nor is it about to be. -/
theorem Story.quiet (hst : Story os told i x p found ending) (hx : x.finished = false) :
    ending = none ∧ finishesOf i os = [] := by
  have hend := hst.endings
  rw [hx, if_neg Bool.false_ne_true, List.length_eq_zero_iff, List.append_eq_nil_iff] at hend
  exact ⟨Option.toList_eq_nil_iff.1 hend.1, hend.2⟩

/-! ## Scenes that tell the truth -/

/-- What callers were told in a scene is the story of each search. -/
structure Scene.IsFaithful (w : Scene) : Prop where
  paced : AllPaced w.table w.orders
  story {i : Nat} {x : Search} : w.table.searches[i]? = some x →
    ∃ p found ending, Story w.orders w.told i x p found ending
  /-- Nothing was told of a search that was not started, nor is about to be. -/
  unheard {i : Nat} : i ∉ w.table.searches → newsOf i w.told = [] ∧ finishesOf i w.orders = []

/-- A search that callers were told of was started. -/
theorem Scene.IsFaithful.mem_of_told {w : Scene} {n : Notice} (hw : w.IsFaithful)
    (hn : n ∈ w.told) : n.search ∈ w.table.searches := by
  by_contra hi
  have hnews := mem_newsOf.2 hn
  rw [(hw.unheard hi).1] at hnews
  cases hnews

/-- **What was told of a search since its start is its story.** -/
theorem Scene.IsFaithful.exists_story {w : Scene} (hw : w.IsFaithful)
    (hi : .started i p ∈ w.told) :
    ∃ x found ending, w.table.searches[i]? = some x ∧ Story w.orders w.told i x p found ending := by
  have hmem : i ∈ w.table.searches := hw.mem_of_told hi
  obtain ⟨x, hx⟩ := exists_getElem? hmem
  obtain ⟨p', found, ending, hst⟩ := hw.story hx
  have hnews : .started i p ∈ newsOf i w.told := mem_newsOf.2 hi
  rw [hst.news] at hnews
  obtain rfl : p = p' := by simpa using hnews
  exact ⟨x, found, ending, hx, hst⟩

/-- Only a search that is there can end. -/
theorem Transition.finishesOf_eq_nil (h : Transition env t job t' os) (hi : i ∉ t.searches) :
    finishesOf i os = [] := by
  cases h with
  | @finished b y x _ _ _ hx =>
    have hne : y.search ≠ i := by
      rintro rfl
      exact hi (mem_of_getElem? hx)
    simp [finishesOf, Order.finish?, hne]
  | split _ _ _ _ _ =>
    refine TripleQuery.finishesOf_eq_nil ?_
    exact Searches.forall_mem_split t _ fun _ => by simp [Order.speaksOf?]
  | expanded _ _ _ _ _ _ =>
    refine TripleQuery.finishesOf_eq_nil ?_
    exact forall_mem_steps (fun _ _ => by simp [Order.speaksOf?]) (by simp [Order.speaksOf?])
  | _ => simp [finishesOf, Order.finish?]

namespace Scene

variable {w w' : Scene} {g : Graph}

theorem faithful_work (hs : Sound t (.job job :: rest))
    (hw : IsFaithful ⟨g, t, .job job :: rest, told⟩) (ht : Transition env t job t' os) :
    IsFaithful ⟨g, t', os ++ rest, told⟩ where
  paced := AllPaced.run hs hw.paced ht
  story {i x'} hx' := by
    have hmem := (ht.mem_searches i).1 (mem_of_getElem? hx')
    obtain ⟨x, hx⟩ := exists_getElem? hmem
    obtain ⟨x'', hx'', hturn⟩ := ht.turn hs hx
    obtain rfl : x' = x'' := Option.some.inj (hx'.symm.trans hx'')
    obtain ⟨p, found, ending, hst⟩ := hw.story hx
    exact ⟨p, found, ending, hst.run hs (hw.paced hx) (AllPaced.run hs hw.paced ht hx') ht hturn⟩
  unheard {i} hi := by
    rw [ht.mem_searches] at hi
    obtain ⟨h1, h2⟩ := hw.unheard hi
    rw [finishesOf_cons] at h2
    exact ⟨h1, by rw [finishesOf_append, ht.finishesOf_eq_nil hi]; exact h2⟩

theorem faithful_handOver (hs : Sound t (o :: os)) (hw : IsFaithful ⟨g, t, o :: os, told⟩)
    (ho : ∀ job, o ≠ .job job) : IsFaithful ⟨g, t, os, told ++ o.notices⟩ where
  paced {i x} hx := by
    have hp := hw.paced hx
    refine ⟨hp.queued, fun hd => ?_, hp.running, hp.gone⟩
    rcases List.mem_cons.1 (hp.draining hd) with rfl | hm
    · exact absurd rfl (ho _)
    · exact hm
  story {i x} hx := by
    obtain ⟨p, found, ending, hst⟩ := hw.story hx
    obtain ⟨found', ending', hst'⟩ := hst.handOver fun m hm => by
      subst hm
      have hseat := hs.rooted List.mem_cons_self rfl
      rw [← Bool.not_eq_true]
      intro hover
      exact (hw.paced hx).gone hover (Searches.mem_of_seat? hseat)
    exact ⟨p, found', ending', hst'⟩
  unheard {i} hi := by
    obtain ⟨h1, h2⟩ := hw.unheard hi
    rw [finishesOf_cons, List.append_eq_nil_iff] at h2
    refine ⟨?_, h2.2⟩
    rw [newsOf_append, h1, List.nil_append]
    cases o with
    | deliver k m =>
      have hk : k ≠ i := by
        rintro rfl
        exact hi (hs.layout.launched (hs.rooted List.mem_cons_self rfl))
      simp [newsOf, Order.notices, Notice.search, hk]
    | finish k r =>
      have hk : k ≠ i := by
        rintro rfl
        simp [Order.finish?] at h2
      simp [newsOf, Order.notices, Notice.search, hk]
    | _ => rfl

/-- Work that is put in front of the other work, and says nothing of any
search, leaves what was told true. -/
theorem faithful_prepend (hw : IsFaithful ⟨g, t, rest, told⟩) (hs : t'.searches = t.searches)
    (hb : t'.branches = t.branches) (hos : ∀ o ∈ os, o.speaksOf? = none) :
    IsFaithful ⟨g, t', os ++ rest, told⟩ where
  paced {i x} hx := by
    have hp := hw.paced (hs ▸ hx)
    refine ⟨hp.queued, fun hd => List.mem_append.2 (.inr (hp.draining hd)), fun hf => ?_,
      fun hf => ?_⟩
    · change t'.branches[i + 1]?.map _ = _
      rw [hb]
      exact hp.running hf
    · change i + 1 ∉ t'.branches
      rw [hb]
      exact hp.gone hf
  story hx := by
    obtain ⟨p, found, ending, hst⟩ := hw.story (hs ▸ hx)
    exact ⟨p, found, ending, hst.prepend hos⟩
  unheard {i} hi := by
    obtain ⟨h1, h2⟩ := hw.unheard (hs ▸ hi)
    refine ⟨h1, ?_⟩
    rw [finishesOf_append, finishesOf_eq_nil (fun o ho h => by rw [hos o ho] at h; cases h)]
    exact h2

theorem faithful_resume (hw : IsFaithful ⟨g, t, rest, told⟩) (ticket : Nat) :
    IsFaithful ⟨g, (t.resume ticket).1, (t.resume ticket).2 ++ rest, told⟩ := by
  unfold Searches.resume
  cases t.parked[ticket]? with
  | none => exact hw
  | some f => exact faithful_prepend hw rfl rfl (by simp [Order.speaksOf?])

theorem faithful_discard (hw : IsFaithful ⟨g, t, rest, told⟩) (ticket : Nat) :
    IsFaithful ⟨g, (t.discard ticket).1, (t.discard ticket).2 ++ rest, told⟩ := by
  unfold Searches.discard
  cases t.parked[ticket]? with
  | none => exact hw
  | some f => exact faithful_prepend hw rfl rfl (by simp [Order.speaksOf?])

/-- A search may be changed in what its caller is not told. -/
theorem faithful_update (hw : IsFaithful ⟨g, t, os, told⟩) (k : Nat) {change : Search → Search}
    (hm : ∀ x, (change x).matchCount = x.matchCount) (hq : ∀ x, (change x).queue = x.queue)
    (hf : ∀ x, (change x).finished = x.finished)
    (hd : ∀ x, (change x).delivering = x.delivering) :
    IsFaithful ⟨g, t.update k change, os, told⟩ := by
  cases hz : t.searches[k]? with
  | none => simpa only [Searches.update, hz] using hw
  | some z =>
    rw [Searches.update_of_getElem? hz]
    have hback : ∀ {i : Nat} {x : Search}, (t.searches.insert k (change z))[i]? = some x →
        ∃ x', t.searches[i]? = some x' ∧ (x = x' ∨ x = change x') := by
      intro i x hx
      rw [ExtTreeMap.getElem?_insert] at hx
      split at hx
      · rename_i hk
        rw [Std.LawfulEqCmp.compare_eq_iff_eq] at hk
        cases hx
        exact ⟨z, hk ▸ hz, .inr rfl⟩
      · exact ⟨x, hx, .inl rfl⟩
    refine ⟨fun {i x} hx => ?_, fun {i x} hx => ?_, fun {i} hi => ?_⟩
    · obtain ⟨x', hx', h⟩ := hback hx
      have hp := hw.paced hx'
      rcases h with rfl | rfl
      · exact ⟨hp.queued, hp.draining, hp.running, hp.gone⟩
      · exact ⟨fun h => by rw [hd]; exact hp.queued (by rwa [hq] at h),
          fun h => hp.draining (by rwa [hd] at h), fun h => hp.running (by rwa [hf] at h),
          fun h => hp.gone (by rwa [hf] at h)⟩
    · obtain ⟨x', hx', h⟩ := hback hx
      obtain ⟨p, found, ending, hst⟩ := hw.story hx'
      rcases h with rfl | rfl
      · exact ⟨p, found, ending, hst⟩
      · exact ⟨p, found, ending, hst.congr (hm x') (hq x') (hf x')⟩
    · exact hw.unheard fun h => hi ((mem_insert_of_getElem? hz _ i).2 h)

theorem faithful_launch (hs : Sound t os) (hw : IsFaithful ⟨g, t, os, told⟩)
    (config : SearchConfig) (linked : Bool) (p : Pattern) :
    IsFaithful ⟨g, (t.launch config linked p).1, .job (t.launch config linked p).2.2 :: os,
      told ++ [.started t.next p]⟩ := by
  have hl := hs.layout
  have hnew := hl.next_not_mem_searches
  have hnews : ∀ i, newsOf i (told ++ [.started t.next p]) =
      newsOf i told ++ if t.next = i then [.started i p] else [] := by
    intro i
    rw [newsOf_append]
    by_cases hi : t.next = i
    · subst hi
      simp [newsOf, Notice.search]
    · simp [newsOf, Notice.search, hi]
  have hsearch : ∀ i, (t.launch config linked p).1.searches[i]? =
      if t.next = i then some { config := config, linked := linked } else t.searches[i]? := by
    intro i
    change (t.searches.insert t.next _)[i]? = _
    rw [ExtTreeMap.getElem?_insert]
    simp
  have hjob : ∀ i, Order.finish? i (.job (t.launch config linked p).2.2) = none := fun _ => rfl
  have hdel : ∀ i, Order.delivery? i (.job (t.launch config linked p).2.2) = none := fun _ => rfl
  refine ⟨fun {i x} hx => ?_, fun {i x} hx => ?_, fun {i} hi => ?_⟩
  · have hseat := Sound.seat?_launch t config linked p (i + 1)
    simp only at hx
    rw [hsearch] at hx
    split at hx
    · rename_i he
      cases hx
      refine ⟨fun h => absurd rfl h, fun h => (by cases h), fun _ => ?_, fun h => (by cases h)⟩
      rw [hseat, if_pos (by rw [he]), he]
    · rename_i he
      have hp := hw.paced hx
      have hsame : (t.launch config linked p).1.seat? (i + 1) = t.seat? (i + 1) := by
        rw [hseat, if_neg (fun h => he (Nat.succ.inj h))]
      refine ⟨hp.queued, fun hd => List.mem_cons_of_mem _ (hp.draining hd),
        fun hf => hsame ▸ hp.running hf, fun hf => ?_⟩
      rw [Searches.mem_branches_iff, hsame, ← Searches.mem_branches_iff]
      exact hp.gone hf
  · simp only at hx
    rw [hsearch] at hx
    split at hx
    · rename_i he
      cases hx
      subst he
      obtain ⟨h1, h2⟩ := hw.unheard hnew
      have h3 := hs.deliveriesOf_eq_nil (hl.not_mem_branches (Nat.le_succ _))
      refine ⟨p, [], none, ?_, ?_, ?_, ?_⟩
      · rw [hnews, h1, if_pos rfl]
        rfl
      · rw [deliveriesOf_cons, hdel, h3]
        rfl
      · rw [finishesOf_cons, hjob, h2]
        rfl
      · rw [finishesOf_cons, hjob, h2]
        simp
    · rename_i he
      obtain ⟨p', found, ending, hst⟩ := hw.story hx
      refine ⟨p', found, ending, ?_, ?_, ?_, ?_⟩
      · rw [hnews, if_neg he, List.append_nil, hst.news]
      · rw [deliveriesOf_cons, hdel]
        exact hst.count
      · rw [finishesOf_cons, hjob]
        exact hst.endings
      · rw [finishesOf_cons, hjob]
        exact hst.summary
  · simp only [ExtTreeMap.mem_iff_isSome_getElem?, hsearch] at hi
    split at hi
    · simp at hi
    · rename_i he
      obtain ⟨h1, h2⟩ := hw.unheard (i := i) (by rw [ExtTreeMap.mem_iff_isSome_getElem?]; exact hi)
      refine ⟨by rw [hnews, if_neg he, h1]; rfl, ?_⟩
      rw [finishesOf_cons, hjob, h2]
      rfl

/-- **Whatever happens, callers are told the story of their search.** -/
theorem Step.faithful (h : Step w w') (hs : w.IsSound) (hw : w.IsFaithful) : w'.IsFaithful := by
  cases h with
  | work state? => exact faithful_work hs hw (Sound.transition hs _)
  | handOver ho => exact faithful_handOver hs hw ho
  | add _ | equate _ => exact ⟨hw.paced, hw.story, hw.unheard⟩
  | launch config linked _ => exact faithful_launch hs hw config linked _
  | stop i | cancel i =>
    exact faithful_update hw i (fun _ => rfl) (fun _ => rfl) (fun _ => rfl) fun _ => rfl
  | resume ticket => exact faithful_resume hw ticket
  | discard ticket => exact faithful_discard hw ticket

end Scene

end TripleQuery
