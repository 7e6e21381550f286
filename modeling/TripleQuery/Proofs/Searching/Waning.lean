import TripleQuery.Proofs.Searching.Dwindling
import TripleQuery.Proofs.Searching.Queueing
import TripleQuery.Proofs.Searching.Routes
/-!
# Waning — a search has finitely many steps before it

Among whatever else happens, a search takes finitely many steps of its own
(`Scene.InOrder.acc_acts`). What is left of a search are the ranks and errands of
its own orders, paths and matches (`Scene.remainsOf`): nothing that others do
adds to it, and each of its own steps (`Scene.Acts`) lowers it.

And where nobody starts searches, whoever has orders carried out gets back
(`Scene.InOrder.returns`): however the source of documents meddles in between,
adding to the store, calling paths back, or giving them up.
-/

namespace TripleQuery

open Relation (ReflTransGen TransGen)

variable {g : Graph} {t t' : Searches} {os rest : List Order} {o : Order} {job : Job}
  {told told' : List Notice} {env : Surroundings} {f f' : Frame} {x : Search} {d : String}
  {w w' v u : Scene} {i k n : Nat}

/-! ## What is left of a search -/

/-- The orders that are work of a search. -/
def Searches.workOf (t : Searches) (i : Id) (os : List Order) : List Order :=
  os.filter fun o => t.worksFor? o = some i

namespace Scene

/-- The ranks of what is left of a search: orders, and parked paths. -/
def ranksOf (w : Scene) (i : Id) : Multiset Rank :=
  ((w.table.workOf i w.orders).filterMap Order.rank? : Multiset Rank) +
    tally w.table.parked fun _ f => if f.search = i then {f.rank 1} else 0

/-- How much is left of a search that has no rank. -/
def errandsOf (w : Scene) (i : Id) : ℕ :=
  ((w.table.workOf i w.orders).filter (·.rank?.isNone)).length + 2 * (w.table.queueOf i).length

/-- What is left of a search: ranks first, errands second. -/
def remainsOf (w : Scene) (i : Id) : Multiset Rank × ℕ :=
  (w.ranksOf i, w.errandsOf i)

/-- A search takes a step: an order that is its work is carried out, or a path of
it is resumed. -/
inductive Acts (i : Id) : Scene → Scene → Prop
  /-- A job of the search is done. -/
  | work {g : Graph} {t : Searches} {job : Job} {os : List Order} {told : List Notice}
      (state? : Option (String → FetchState)) :
      t.worksFor? (.job job) = some i →
      Acts i ⟨g, t, .job job :: os, told⟩
        ⟨g, (t.run ⟨g, state?⟩ job).1, (t.run ⟨g, state?⟩ job).2 ++ os, told⟩
  /-- A path of the search comes to wait, though the state of the document may be
  another one by then. -/
  | recheck {g : Graph} {t : Searches} {f : Frame} {os : List Order} {told : List Notice}
      {x : Search} {d : String} (state? state'? : Option (String → FetchState)) :
      f.search = i → t.searches[f.search]? = some x → x.stopped = false →
      x.nextFetch ⟨g, state?⟩ f = some d →
      Acts i ⟨g, t, .job (.step f) :: os, told⟩
        ⟨g, (t.suspend ⟨g, state'?⟩ f d).1, (t.suspend ⟨g, state'?⟩ f d).2 ++ os, told⟩
  /-- The caller of the search is told something. -/
  | handOver {g : Graph} {t : Searches} {o : Order} {os : List Order} {told : List Notice} :
      (∀ job, o ≠ .job job) → t.worksFor? o = some i →
      Acts i ⟨g, t, o :: os, told⟩ ⟨g, t, os, told ++ o.notices⟩
  /-- A path of the search is resumed. -/
  | resume {g : Graph} {t : Searches} {os : List Order} {told : List Notice} {n : Id}
      {f : Frame} :
      t.parked[n]? = some f → f.search = i →
      Acts i ⟨g, t, os, told⟩ ⟨g, (t.resume n).1, (t.resume n).2 ++ os, told⟩

/-- A step of a search happens. -/
theorem Acts.happens (h : Acts i w w') : Happens w w' := by
  cases h with
  | work state? _ => exact .step (.work state?)
  | recheck state? state'? _ hx hs hd => exact .recheck state? state'? hx hs hd
  | handOver ho _ => exact .step (.handOver ho)
  | resume _ _ => exact .step (.resume _)

end Scene

/-! ## Work of one search -/

namespace Searches

theorem workOf_cons_of_eq (h : t.worksFor? o = some i) (os : List Order) :
    t.workOf i (o :: os) = o :: t.workOf i os :=
  List.filter_cons_of_pos (by simpa using h)

theorem workOf_cons_of_ne (h : t.worksFor? o ≠ some i) (os : List Order) :
    t.workOf i (o :: os) = t.workOf i os :=
  List.filter_cons_of_neg (by simpa using h)

theorem workOf_append (t : Searches) (i : Id) (os rest : List Order) :
    t.workOf i (os ++ rest) = t.workOf i os ++ t.workOf i rest :=
  List.filter_append _ _

theorem workOf_eq_nil (h : ∀ o ∈ os, t.worksFor? o ≠ some i) : t.workOf i os = [] :=
  List.filter_eq_nil_iff.2 fun o ho => by simpa using h o ho

/-- What is work of whom depends on the orders, and on who owns branches. -/
theorem workOf_congr (h : ∀ o ∈ os, t'.worksFor? o = t.worksFor? o) :
    t'.workOf i os = t.workOf i os :=
  List.filter_congr fun o ho => by rw [h o ho]

/-- Where branches stay as they are, so does the work. -/
theorem worksFor?_of_branches (h : t'.branches = t.branches) (o : Order) :
    t'.worksFor? o = t.worksFor? o := by
  have hown : ∀ b, t'.owner? b = t.owner? b := fun b => by
    unfold owner? seat?
    rw [h]
  cases o with
  | job job => cases job <;> first | rfl | exact hown _
  | _ => rfl

end Searches

/-- Every job is work of a search. -/
theorem Sound.exists_worksFor? (hs : Sound t (.job job :: rest)) :
    ∃ k, t.worksFor? (.job job) = some k := by
  have hbranch : ∀ {b}, .job (.release b) ∈ (.job job :: rest) → ∃ k, t.owner? b = some k := by
    intro b hb
    obtain ⟨y, hy⟩ := exists_getElem? (hs.accounted.mem_of_mem_orders hb rfl)
    exact ⟨y.search, Searches.owner?_eq_some_iff.2 ⟨y.role, Searches.seat?_of_getElem? hy⟩⟩
  cases job with
  | report b ms => exact hbranch (hs.covered.mem List.mem_cons_self rfl)
  | release b => exact hbranch List.mem_cons_self
  | _ => exact ⟨_, rfl⟩

/-- Orders that were there are work of the same search after a job. -/
theorem Sound.worksFor?_eq (hs : Sound t (.job job :: rest)) (ht : Transition env t job t' os)
    (ho : o ∈ rest) : t'.worksFor? o = t.worksFor? o := by
  cases hk : t.worksFor? o with
  | some k => exact hs.worksFor?_run ht (List.mem_append_right _ ho) hk
  | none =>
    cases hk' : t'.worksFor? o with
    | none => rfl
    | some k =>
      have hold := hs.worksFor?_of_before ht.before (List.mem_cons_of_mem _ ho) hk'
      rw [hk] at hold
      cases hold

/-- And of the same search when another one is started. -/
theorem Sound.worksFor?_launch (hs : Sound t os) (ho : o ∈ os) (config : SearchConfig)
    (linked : Bool) (p : Pattern) :
    (t.launch config linked p).1.worksFor? o = t.worksFor? o := by
  have hold : ∀ {b : Nat}, b ∈ t.branches →
      (t.launch config linked p).1.owner? b = t.owner? b := by
    intro b hb
    have hne : b ≠ t.next + 1 := by
      rintro rfl
      exact hs.layout.not_mem_branches (Nat.le_succ _) hb
    rw [Searches.owner?, Sound.seat?_launch, if_neg hne.symm, Searches.owner?]
  cases o with
  | job job =>
    cases job with
    | report b ms => exact hold (hs.accounted.mem_of_mem_orders (hs.covered.mem ho rfl) rfl)
    | release b => exact hold (hs.accounted.mem_of_mem_orders ho rfl)
    | _ => rfl
  | _ => rfl

/-- What a job of another search leaves is no work of this one. -/
theorem Sound.workOf_eq_nil (hs : Sound t (.job job :: rest)) (ht : Transition env t job t' os)
    (hk : t.worksFor? (.job job) = some k) (hne : k ≠ i) : t'.workOf i os = [] := by
  refine Searches.workOf_eq_nil fun o ho => ?_
  rcases ht.worksFor?_of_mem hs hk ho with hwork | hsource
  · rw [hs.worksFor?_run ht (List.mem_append_left _ ho) hwork]
    simpa using hne
  · rw [t'.worksFor?_of_isForSource hsource]
    simp

/-- A job of another search parks no path of this one. -/
theorem Transition.tally_parked_of_ne (h : Transition env t job t' os) (hl : Layout t)
    (hk : t.worksFor? (.job job) = some k) (hne : k ≠ i) :
    (tally t'.parked fun _ f => if f.search = i then ({f.rank 1} : Multiset Rank) else 0) =
      tally t.parked fun _ f => if f.search = i then {f.rank 1} else 0 := by
  have hother : ∀ {f : Frame}, f.search = k → f.search ≠ i := fun he => he ▸ hne
  cases h with
  | @parked f d | @parkedAsked f d _ _ =>
    rw [tally_insert hl.next_not_mem_parked, if_neg, zero_add]
    exact hother (f := f) (Option.some.inj hk)
  | _ => rfl

/-- And leaves the matches that are queued for its caller. -/
theorem Transition.queueOf_of_ne (h : Transition env t job t' os)
    (hk : t.worksFor? (.job job) = some k) (hne : k ≠ i) : t'.queueOf i = t.queueOf i := by
  have hbranch : ∀ {b : Nat} {y : Branch}, t.branches[b]? = some y → t.owner? b = some k →
      y.search ≠ i := by
    intro b y hy hb
    obtain ⟨r, hr⟩ := Searches.owner?_eq_some_iff.1 hb
    rw [Searches.seat?_of_getElem? hy] at hr
    cases hr
    exact hne
  have hself : ∀ {j : Nat}, some j = some k → j ≠ i := fun he => Option.some.inj he ▸ hne
  cases h with
  | failed _ _ _ _ _ | parkedAsked _ | drained _ _ | delivered _ _ =>
    rw [Searches.queueOf_insert rfl, if_neg (hself hk)]
  | queued hy _ _ _ _ | announced hy _ _ _ _ | finished hy _ _ _ =>
    rw [Searches.queueOf_insert rfl, if_neg (hbranch hy hk)]
  | _ => rfl

namespace Scene

/-! ## What others do -/

/-- Nothing is added to what is left of a search where its work, its paths and its
matches stay as they are. -/
theorem remainsOf_eq (hwork : w'.table.workOf i w'.orders = w.table.workOf i w.orders)
    (hparked : (tally w'.table.parked fun _ f =>
        if f.search = i then ({f.rank 1} : Multiset Rank) else 0) =
      tally w.table.parked fun _ f => if f.search = i then {f.rank 1} else 0)
    (hqueue : w'.table.queueOf i = w.table.queueOf i) : w'.remainsOf i = w.remainsOf i := by
  simp only [remainsOf, ranksOf, errandsOf, hwork, hparked, hqueue]

/-- A change of a search that leaves its queue alone leaves what is left. -/
theorem remainsOf_update (w : Scene) (i k : Id) {change : Search → Search}
    (hq : ∀ x, (change x).queue = x.queue) :
    remainsOf { w with table := w.table.update k change } i = w.remainsOf i :=
  remainsOf_eq (Searches.workOf_congr fun o _ => Searches.worksFor?_of_branches (by simp) o)
    (by simp) (Scene.queueOf_update _ _ _ hq)

/-- A path that goes away which is none of the search leaves what is left. -/
theorem tally_parked_erase (hf : t.parked[n]? = some f) (hne : f.search ≠ i) :
    (tally (t.parked.erase n) fun _ f =>
        if f.search = i then ({f.rank 1} : Multiset Rank) else 0) =
      tally t.parked fun _ f => if f.search = i then {f.rank 1} else 0 := by
  rw [tally_erase hf, if_neg hne, zero_add]

/-! ## What the search does -/

/-- Orders and a path of lower rank take the place of work of the search that has a
higher one. -/
theorem lessOf_of_below {r : Rank} (hl : Layout t) (hi : t.worksFor? o = some i)
    (ho : o.rank? = some r) (hos : Below r os) (hrest : t'.workOf i rest = t.workOf i rest)
    (hp : t'.parked = t.parked ∨
      ∃ f : Frame, t'.parked = t.parked.insert t.next f ∧ f.rank 1 < r) :
    Less (remainsOf ⟨g, t', os ++ rest, told'⟩ i) (remainsOf ⟨g, t, o :: rest, told⟩ i) := by
  refine Prod.Lex.left _ _ ?_
  have hold : ranksOf ⟨g, t, o :: rest, told⟩ i =
      (((t.workOf i rest).filterMap Order.rank? : List Rank) +
        tally t.parked fun _ f => if f.search = i then {f.rank 1} else 0) + {r} := by
    simp only [ranksOf, Searches.workOf_cons_of_eq hi, List.filterMap_cons, ho,
      ← Multiset.cons_coe, ← Multiset.singleton_add]
    ac_rfl
  have hnew : ∃ Y : Multiset Rank, (∀ r' ∈ Y, r' < r) ∧
      (tally t'.parked fun _ f => if f.search = i then ({f.rank 1} : Multiset Rank) else 0) =
        (tally t.parked fun _ f => if f.search = i then {f.rank 1} else 0) + Y := by
    rcases hp with hp | ⟨f, hp, hf⟩
    · exact ⟨0, by simp, by rw [hp, add_zero]⟩
    · refine ⟨if f.search = i then {f.rank 1} else 0, fun r' hr' => ?_, ?_⟩
      · split at hr'
        · rw [Multiset.mem_singleton.1 hr']
          exact hf
        · simp at hr'
      · rw [hp, tally_insert hl.next_not_mem_parked, add_comm]
  obtain ⟨Y, hY, htally⟩ := hnew
  have hranks : ranksOf ⟨g, t', os ++ rest, told'⟩ i =
      (((t.workOf i rest).filterMap Order.rank? : List Rank) +
        tally t.parked fun _ f => if f.search = i then {f.rank 1} else 0) +
          (((t'.workOf i os).filterMap Order.rank? : List Rank) + Y) := by
    simp only [ranksOf, Searches.workOf_append, List.filterMap_append, ← Multiset.coe_add, hrest,
      htally]
    ac_rfl
  have hwork : Below r (t'.workOf i os) := fun o' ho' => hos o' (List.mem_filter.1 ho').1
  rw [hold, hranks]
  refine isDershowitzMannaLT_of_lt fun r' hr' => ?_
  rcases Multiset.mem_add.1 hr' with hr' | hr'
  · exact hwork.lt_of_mem hr'
  · exact hY r' hr'

/-- An errand of the search is run. -/
theorem lessOf_of_errands (hr : w'.ranksOf i = w.ranksOf i) (he : w'.errandsOf i < w.errandsOf i) :
    Less (w'.remainsOf i) (w.remainsOf i) := by
  unfold remainsOf
  rw [hr]
  exact Prod.Lex.right _ he

/-- Its caller is told of a queued match, or there is none left. -/
theorem lessOf_of_drain {x' : Search} (hx : t.searches[i]? = some x)
    (hp : t'.parked = t.parked) (hs : t'.searches = t.searches.insert i x')
    (hwork : t'.workOf i os = os) (hrest : t'.workOf i rest = t.workOf i rest)
    (hos : ∀ o ∈ os, o.rank? = none)
    (hq : os.length + 2 * x'.queue.length < 1 + 2 * x.queue.length) :
    Less (remainsOf ⟨g, t', os ++ rest, told⟩ i)
      (remainsOf ⟨g, t, .job (.drain i) :: rest, told⟩ i) := by
  have hdrain : Order.rank? (.job (.drain i)) = none := rfl
  have hown : t.worksFor? (.job (.drain i)) = some i := rfl
  refine lessOf_of_errands ?_ ?_
  · simp only [ranksOf, hp, Searches.workOf_append, hwork, hrest, List.filterMap_append,
      List.filterMap_eq_nil_iff.2 hos, List.nil_append, Searches.workOf_cons_of_eq hown,
      List.filterMap_cons, hdrain]
  · have hall : os.filter (·.rank?.isNone) = os :=
      List.filter_eq_self.2 fun o ho => by rw [hos o ho]; rfl
    have hqueue : t'.queueOf i = x'.queue := by rw [Searches.queueOf_insert hs, if_pos rfl]
    simp only [errandsOf, Searches.workOf_append, hwork, hrest, List.filter_append, hall,
      Searches.workOf_cons_of_eq hown, List.filter_cons, hdrain, Option.isNone_none, if_true,
      List.length_append, List.length_cons, hqueue, Searches.queueOf_of_getElem? hx]
    omega

/-- An order of lower rank takes the place of a path of the search that was parked.
-/
theorem lessOf_of_unparked {r : Rank} (hf : t.parked[n]? = some f) (hi : f.search = i)
    (hwork : ({ t with parked := t.parked.erase n } : Searches).worksFor? o = some i)
    (ho : o.rank? = some r) (hr : r < f.rank 1) :
    Less (remainsOf ⟨g, { t with parked := t.parked.erase n }, o :: os, told⟩ i)
      (remainsOf ⟨g, t, os, told⟩ i) := by
  refine Prod.Lex.left _ _ ?_
  have hrest : ({ t with parked := t.parked.erase n } : Searches).workOf i os = t.workOf i os :=
    Searches.workOf_congr fun o _ => Searches.worksFor?_of_branches rfl o
  have hold : ranksOf ⟨g, t, os, told⟩ i = (((t.workOf i os).filterMap Order.rank? : List Rank) +
      tally (t.parked.erase n) fun _ f => if f.search = i then {f.rank 1} else 0) +
        {f.rank 1} := by
    simp only [ranksOf, tally_erase hf, if_pos hi]
    ac_rfl
  have hnew : ranksOf ⟨g, { t with parked := t.parked.erase n }, o :: os, told⟩ i =
      (((t.workOf i os).filterMap Order.rank? : List Rank) +
        tally (t.parked.erase n) fun _ f => if f.search = i then {f.rank 1} else 0) + {r} := by
    simp only [ranksOf, Searches.workOf_cons_of_eq hwork, hrest, List.filterMap_cons, ho,
      ← Multiset.cons_coe, ← Multiset.singleton_add]
    ac_rfl
  rw [hold, hnew]
  refine isDershowitzMannaLT_of_lt fun r' hr' => ?_
  rw [Multiset.mem_singleton.1 hr']
  exact hr

/-- **Whenever a search takes a step, less of it is left.** -/
theorem Acts.less (h : Acts i w w') (hw : w.IsSound) : Less (w'.remainsOf i) (w.remainsOf i) := by
  have hl := hw.layout
  cases h with
  | @work g t job os told state? hi =>
    have ht := Sound.transition hw ⟨g, state?⟩
    have hrest : (t.run ⟨g, state?⟩ job).1.workOf i os = t.workOf i os :=
      Searches.workOf_congr fun o ho => Sound.worksFor?_eq hw ht ho
    rcases ht.lowers hl with ⟨r, hr, hos, hp⟩ |
      ⟨k, x, rfl, hx, hp, ⟨hq, hos, hs⟩ | ⟨m, ms, hq, hos, hs⟩⟩
    · exact lessOf_of_below hl hi hr hos hrest hp
    · obtain rfl := Option.some.inj hi
      exact lessOf_of_drain hx hp hs (by rw [hos]; rfl) hrest (by simp [hos])
        (by simp [hos, hq])
    · obtain rfl := Option.some.inj hi
      refine lessOf_of_drain hx hp hs ?_ hrest (by simp [hos, Order.rank?]) ?_
      · rw [hos, Searches.workOf_cons_of_eq rfl, Searches.workOf_cons_of_eq rfl]
        rfl
      · simp only [hos, hq, List.length_cons, List.length_nil]
        omega
  | @recheck g t f os told x d state? state'? hi _ _ hd =>
    have ht : (t.suspend ⟨g, state'?⟩ f d).1 = t := (t.suspend_cases _ f d).1
    rw [ht]
    exact lessOf_of_below hl (congrArg some hi) rfl (below_suspend t _ (Search.mem_unawaited hd))
      rfl (.inl rfl)
  | @handOver g t o os told ho hi =>
    have hnone : o.rank? = none := by
      cases o with
      | job job => exact absurd rfl (ho job)
      | _ => rfl
    refine lessOf_of_errands ?_ ?_
    · simp [ranksOf, Searches.workOf_cons_of_eq hi, hnone]
    · simp [errandsOf, Searches.workOf_cons_of_eq hi, hnone]
  | @resume g t os told n f hf hi =>
    unfold Searches.resume
    rw [hf]
    exact lessOf_of_unparked hf hi (congrArg some hi) rfl (Frame.rank_lt_rank Nat.one_pos)

/-- **A path that is given up leaves less** of its search, and of others as much. -/
theorem remainsOf_discard (hs : Sound t os) (n : Id) :
    (remainsOf ⟨g, (t.discard n).1, (t.discard n).2 ++ os, told⟩ i) =
        remainsOf ⟨g, t, os, told⟩ i ∨
      Less (remainsOf ⟨g, (t.discard n).1, (t.discard n).2 ++ os, told⟩ i)
        (remainsOf ⟨g, t, os, told⟩ i) := by
  rcases t.discard_cases n with he | ⟨f, hf, he⟩ <;> rw [he]
  · exact .inl rfl
  have hown : ({ t with parked := t.parked.erase n } : Searches).worksFor?
      (.job (.release f.branch)) = some f.search := by
    obtain ⟨r, hr⟩ := hs.parked hf
    exact Searches.owner?_eq_some_iff.2 ⟨r, hr⟩
  by_cases hi : f.search = i
  · exact .inr (lessOf_of_unparked hf hi (hi ▸ hown) rfl (Frame.of_zero_lt_rank _ _ _))
  · refine .inl (remainsOf_eq ?_ (tally_parked_erase hf hi) rfl)
    simp only [List.singleton_append]
    rw [Searches.workOf_cons_of_ne (by rw [hown]; simpa using hi)]
    exact Searches.workOf_congr fun o _ => Searches.worksFor?_of_branches rfl o

/-! ## A search among others -/

/-- **Whatever happens, no more is left of a search** that was started. -/
theorem Happens.remainsOf (h : Happens w w') (hw : w.IsSound) (hi : i < w.table.next) :
    w'.remainsOf i = w.remainsOf i ∨ Less (w'.remainsOf i) (w.remainsOf i) := by
  cases h with
  | @recheck g t f os told x d state? state'? hx hs hd =>
    by_cases hf : f.search = i
    · exact .inr (Acts.less (.recheck state? state'? hf hx hs hd) hw)
    · obtain ⟨ht, ho⟩ := t.suspend_cases ⟨g, state'?⟩ f d
      refine .inl (remainsOf_eq ?_ (by rw [ht]) (by rw [ht]))
      have hnone : ∀ o ∈ (t.suspend ⟨g, state'?⟩ f d).2, t.worksFor? o ≠ some i := by
        rcases ho with ho | ho <;> simp [ho, Searches.worksFor?, hf]
      rw [ht, Searches.workOf_append, Searches.workOf_eq_nil hnone,
        Searches.workOf_cons_of_ne (by simpa [Searches.worksFor?] using hf)]
      rfl
  | step h =>
    cases h with
    | @work g t job os told state? =>
      obtain ⟨k, hk⟩ := Sound.exists_worksFor? hw
      by_cases hki : k = i
      · exact .inr (Acts.less (.work state? (hki ▸ hk)) hw)
      · have ht := Sound.transition hw ⟨g, state?⟩
        refine .inl (remainsOf_eq ?_ (ht.tally_parked_of_ne hw.layout hk hki)
          (ht.queueOf_of_ne hk hki))
        have hrest : (t.run ⟨g, state?⟩ job).1.workOf i os = t.workOf i os :=
          Searches.workOf_congr fun o ho => Sound.worksFor?_eq hw ht ho
        rw [Searches.workOf_append, Sound.workOf_eq_nil hw ht hk hki, hrest,
          Searches.workOf_cons_of_ne (by rw [hk]; simpa using hki)]
        rfl
    | @handOver g t o os told ho =>
      by_cases hoi : t.worksFor? o = some i
      · exact .inr (Acts.less (.handOver ho hoi) hw)
      · exact .inl (remainsOf_eq (Searches.workOf_cons_of_ne hoi os).symm rfl rfl)
    | add _ | equate _ => exact .inl rfl
    | @launch g t os told config linked p hp =>
      have hne : t.next ≠ i := Nat.ne_of_gt hi
      refine .inl (remainsOf_eq ?_ rfl ?_)
      · rw [Searches.workOf_cons_of_ne (by simpa [Searches.worksFor?, Searches.launch,
          Frame.enter] using hne)]
        exact Searches.workOf_congr fun o ho => Sound.worksFor?_launch hw ho config linked p
      · rw [Searches.queueOf_insert rfl, if_neg hne]
    | @stop g t os told k | @cancel g t os told k =>
      exact .inl (remainsOf_update ⟨_, t, _, _⟩ i k fun _ => rfl)
    | @resume g t os told n =>
      rcases t.resume_cases n with he | ⟨f, hf, he⟩
      · rw [he]
        exact .inl rfl
      · by_cases hfi : f.search = i
        · exact .inr (Acts.less (.resume hf hfi) hw)
        · rw [he]
          refine .inl (remainsOf_eq ?_ (tally_parked_erase hf hfi) rfl)
          simp only [List.singleton_append]
          rw [Searches.workOf_cons_of_ne (by simpa [Searches.worksFor?] using hfi)]
          exact Searches.workOf_congr fun o _ => Searches.worksFor?_of_branches rfl o
    | @discard g t os told n => exact remainsOf_discard hw n

/-- Numbers stay given. -/
theorem Happens.next_le (h : Happens w w') (hw : w.IsSound) : w.table.next ≤ w'.table.next := by
  cases h with
  | step h => exact (h.before hw).table.next_le
  | recheck _ _ _ _ _ => rw [(Searches.suspend_cases _ _ _ _).1]

/-- **Nor is more left of it in the end**, whatever has happened. -/
theorem InOrder.remainsOf (hw : w.InOrder) (h : ReflTransGen Happens w w')
    (hi : i < w.table.next) : w'.InOrder ∧ i < w'.table.next ∧
      (w'.remainsOf i = w.remainsOf i ∨ TransGen Less (w'.remainsOf i) (w.remainsOf i)) := by
  induction h with
  | refl => exact ⟨hw, hi, .inl rfl⟩
  | tail _ hnext ih =>
    obtain ⟨hmid, hlt, hless⟩ := ih
    refine ⟨hnext.inOrder hmid, Nat.lt_of_lt_of_le hlt (hnext.next_le hmid.sound), ?_⟩
    rcases hnext.remainsOf hmid.sound hlt with he | hl
    · rw [he]
      exact hless
    · rcases hless with he | hless
      · exact .inr (.single (he ▸ hl))
      · exact .inr (.head hl hless)

/-- **A search takes finitely many steps**, whatever else happens before, between
and after them. -/
theorem InOrder.acc_acts (hw : w.InOrder) (hi : i < w.table.next) :
    Acc (fun v' v => ∃ u, ReflTransGen Happens v u ∧ Acts i u v') w := by
  induction hm : w.remainsOf i using wellFounded_less.transGen.induction generalizing w with
  | _ m ih =>
    refine .intro w fun w' hnext => ?_
    obtain ⟨u, hu, hact⟩ := hnext
    obtain ⟨hmid, hlt, hless⟩ := hw.remainsOf hu hi
    obtain ⟨hnew, hlt', -⟩ := hmid.remainsOf (.single hact.happens) hlt
    refine ih (w'.remainsOf i) ?_ hnew hlt' rfl
    rcases hless with he | hless
    · exact .single (hm ▸ he ▸ hact.less hmid.sound)
    · exact hm ▸ .head (hact.less hmid.sound) hless

/-! ## Whoever has orders carried out gets back -/

/-- What a source of documents may do to the store and to the searches that are
there, besides calling paths back. It starts no search. -/
inductive Meddles : Scene → Scene → Prop
  /-- A statement is added. -/
  | add {g : Graph} {t : Searches} {os : List Order} {told : List Notice} (s : Statement) :
      Meddles ⟨g, t, os, told⟩ ⟨g.add s, t, os, told⟩
  /-- Two terms are merged. -/
  | equate {g g' : Graph} {t : Searches} {os : List Order} {told : List Notice}
      {a b keep : Term} :
      g.equate a b = .ok (g', keep) → Meddles ⟨g, t, os, told⟩ ⟨g', t, os, told⟩
  /-- A search is stopped. -/
  | stop {g : Graph} {t : Searches} {os : List Order} {told : List Notice} (i : Id) :
      Meddles ⟨g, t, os, told⟩ ⟨g, t.update i .stop, os, told⟩
  /-- A search is cancelled. -/
  | cancel {g : Graph} {t : Searches} {os : List Order} {told : List Notice} (i : Id) :
      Meddles ⟨g, t, os, told⟩ ⟨g, t.update i .cancel, os, told⟩
  /-- A parked path is given up. -/
  | discard {g : Graph} {t : Searches} {os : List Order} {told : List Notice} (n : Id) :
      Meddles ⟨g, t, os, told⟩ ⟨g, (t.discard n).1, (t.discard n).2 ++ os, told⟩

/-- A scene goes on, after its source of documents has meddled as often as it
likes. -/
def GoesOn (w w' : Scene) : Prop :=
  ∃ v, ReflTransGen Meddles w v ∧ Proceeds v w'

/-- However a scene goes on, it comes to where only some orders are left, and it
does not get stuck before. -/
inductive Returns (rest : List Order) : Scene → Prop
  /-- Only these are left. -/
  | done {w : Scene} : w.orders = rest → Returns rest w
  /-- It goes on, and returns in whatever way it does. -/
  | goes {w : Scene} : (∃ w', GoesOn w w') → (∀ w', GoesOn w w' → Returns rest w') →
      Returns rest w

theorem Meddles.happens (h : Meddles w w') : Happens w w' := by
  cases h with
  | add s => exact .step (.add s)
  | equate he => exact .step (.equate he)
  | stop i => exact .step (.stop i)
  | cancel i => exact .step (.cancel i)
  | discard n => exact .step (.discard n)

/-- A source that meddles takes no order away. -/
theorem Meddles.suffix (h : Meddles w w') : w.orders <:+ w'.orders := by
  cases h with
  | discard n => exact List.suffix_append _ _
  | _ => exact List.suffix_refl _

/-- **A source that meddles leaves no more to do.** -/
theorem Meddles.remains (h : Meddles w w') :
    w'.remains = w.remains ∨ Less w'.remains w.remains := by
  cases h with
  | add s | equate he => exact .inl rfl
  | @stop g t os told i | @cancel g t os told i =>
    refine .inl ?_
    have herrands : ∀ {change : Search → Search}, (∀ x, (change x).queue = x.queue) →
        (tally (t.update i change).searches fun _ x => 2 * x.queue.length) =
          tally t.searches fun _ x => 2 * x.queue.length := by
      intro change hq
      cases hx : t.searches[i]? with
      | none => simp only [Searches.update, hx]
      | some x =>
        rw [Searches.update_of_getElem? hx]
        have hreplace := tally_replace hx (change x) fun _ x => 2 * x.queue.length
        simp only [hq] at hreplace
        exact Nat.add_right_cancel hreplace
    simp only [Scene.remains, ranks, errands, Searches.parked_update]
    rw [herrands (by intro x; rfl)]
  | @discard g t os told n =>
    rcases t.discard_cases n with he | ⟨f, hf, he⟩ <;> rw [he]
    · exact .inl rfl
    · exact .inr (less_of_unparked hf rfl (Frame.of_zero_lt_rank _ _ _))

/-- So a scene that goes on has less left to do. -/
theorem GoesOn.less (h : GoesOn w w') (hw : w.InOrder) :
    w'.InOrder ∧ TransGen Less w'.remains w.remains := by
  obtain ⟨v, hv, hproceeds⟩ := h
  have hmid : v.InOrder ∧ (v.remains = w.remains ∨ TransGen Less v.remains w.remains) := by
    clear hproceeds
    induction hv with
    | refl => exact ⟨hw, .inl rfl⟩
    | tail _ hnext ih =>
      obtain ⟨hin, hless⟩ := ih
      refine ⟨hnext.happens.inOrder hin, ?_⟩
      rcases hnext.remains with he | hl
      · rw [he]
        exact hless
      · rcases hless with he | hless
        · exact .inr (.single (he ▸ hl))
        · exact .inr (.head hl hless)
  obtain ⟨hin, hless⟩ := hmid
  refine ⟨hproceeds.inOrder hin, ?_⟩
  rcases hless with he | hless
  · exact .single (he ▸ hproceeds.less hin.sound)
  · exact .head (hproceeds.less hin.sound) hless

/-- A scene that goes on leaves the orders behind its first one. -/
theorem Proceeds.tail_suffix (h : Proceeds w w') : w.orders.tail <:+ w'.orders := by
  cases h with
  | work _ | recheck _ _ _ _ _ => exact List.suffix_append _ _
  | handOver _ => exact List.suffix_refl _
  | resume _ => exact (List.tail_suffix _).trans (List.suffix_append _ _)

theorem GoesOn.suffix (h : GoesOn w w') (ho : w.orders = o :: os) : os <:+ w'.orders := by
  obtain ⟨v, hv, hproceeds⟩ := h
  have hkept : w.orders <:+ v.orders := by
    clear hproceeds
    induction hv with
    | refl => exact List.suffix_refl _
    | tail _ hnext ih => exact ih.trans hnext.suffix
  rw [ho] at hkept
  -- the first order may be behind others by now
  obtain ⟨before, hbefore⟩ := hkept
  refine .trans ?_ hproceeds.tail_suffix
  rw [← hbefore]
  cases before with
  | nil => exact List.suffix_refl _
  | cons o' before => exact (List.suffix_cons o os).trans (List.suffix_append before _)

/-- **Whoever has orders carried out gets back.** -/
theorem InOrder.returns (hw : w.InOrder) (ho : w.orders = os ++ rest) : Returns rest w := by
  induction hm : w.remains using wellFounded_less.transGen.induction generalizing w os with
  | _ m ih =>
    cases os with
    | nil => exact .done ho
    | cons o os =>
      refine .goes ?_ fun w' hnext => ?_
      · obtain ⟨g, t, orders, told⟩ := w
        subst ho
        cases o with
        | job job => exact ⟨_, _, .refl, .work none⟩
        | _ => exact ⟨_, _, .refl, .handOver (by simp)⟩
      · obtain ⟨os', ho'⟩ := hnext.suffix ho
        obtain ⟨hin, hless⟩ := hnext.less hw
        have hleft : w'.orders = (os' ++ os) ++ rest :=
          ho'.symm.trans (List.append_assoc os' os rest).symm
        exact ih w'.remains (hm ▸ hless) hin hleft rfl

end Scene

end TripleQuery
