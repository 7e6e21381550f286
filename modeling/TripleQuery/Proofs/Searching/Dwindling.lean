import Mathlib.Data.Multiset.DershowitzManna
import Mathlib.Data.Prod.Lex
import TripleQuery.Proofs.Searching.Sparing
/-!
# Dwindling — carrying on comes to an end

Whatever documents look like, no search goes on for ever: carrying out the
orders of a scene and resuming its parked paths comes to an end
(`Scene.InOrder.acc`), when no order is left and no path is parked
(`Scene.rests_of_not_proceeds`). Every job leaves orders of a lower rank than its
own. The rank of a path goes by the pattern it is in, the triples that remain,
and the documents that it may still have to wait for (`Frame.rank`); that of a
report or a release goes by its branch, since junctions report to earlier
branches. What is left besides are matches that are queued and orders for others
(`Scene.errands`).
-/

namespace TripleQuery

variable {g : Graph} {t t' : Searches} {os rest : List Order} {o : Order} {job : Job}
  {told : List Notice} {env : Surroundings} {f f' : Frame} {x : Search} {d : String}
  {w w' : Scene}

/-! ## Ranks -/

mutual

/-- How deep the clauses of a pattern are nested. -/
def Pattern.depth : Pattern → ℕ
  | ⟨_, optionals, _, _⟩ => depthOfList optionals + 1

/-- How deep patterns are nested at most. -/
def Pattern.depthOfList : List Pattern → ℕ
  | [] => 0
  | p :: ps => max p.depth (depthOfList ps)

end

/-- What is ahead of a path: the depth of a pattern, a number of triples, a number
of documents, and a stage. -/
abbrev Rank := ℕ ×ₗ ℕ ×ₗ ℕ ×ₗ ℕ

/-- The rank with these parts. -/
def Rank.of (depth triples documents stage : ℕ) : Rank :=
  toLex (depth, toLex (triples, toLex (documents, stage)))

theorem Rank.of_lt_of {a b c d a' b' c' d' : ℕ} : Rank.of a b c d < Rank.of a' b' c' d' ↔
    a < a' ∨ a = a' ∧ (b < b' ∨ b = b' ∧ (c < c' ∨ c = c' ∧ d < d')) := by
  simp [Rank.of, Prod.Lex.toLex_lt_toLex]

/-- The documents that a path may still have to wait for, whatever its search is
configured to fetch. -/
def Frame.unawaited (f : Frame) : List String :=
  (f.links { fetchPredicates := true }).filter fun d => !f.awaited.contains d

/-- The rank of a path at some stage of its step. -/
def Frame.rank (f : Frame) (stage : ℕ) : Rank :=
  .of f.scope.pattern.depth f.remaining.length f.unawaited.length stage

/-- The rank of an order that goes on with a path, reports, or releases. -/
def Order.rank? : Order → Option Rank
  | .job (.start f) => some (f.rank 3)
  | .job (.await f d _) => some ((f.awaiting d).rank 2)
  | .job (.step f) => some (f.rank 0)
  | .job (.report b ms) => some (.of 0 b 0 (ms.length + 1))
  | .job (.release b) => some (.of 0 b 0 0)
  | _ => none

/-- The ranks of what is left: orders, and parked paths. -/
def Scene.ranks (w : Scene) : Multiset Rank :=
  (w.orders.filterMap Order.rank? : Multiset Rank) + tally w.table.parked fun _ f => {f.rank 1}

/-- How much is left of what has no rank: every queued match counts for two, for
it becomes an order before it is gone. -/
def Scene.errands (w : Scene) : ℕ :=
  (w.orders.filter (·.rank?.isNone)).length + tally w.table.searches fun _ x => 2 * x.queue.length

/-! ## Paths -/

namespace Pattern

theorem depth_pos (p : Pattern) : 0 < p.depth := by
  cases p
  exact Nat.succ_pos _

theorem depth_le_depthOfList {p : Pattern} {ps : List Pattern} (h : p ∈ ps) :
    p.depth ≤ depthOfList ps := by
  induction ps with
  | nil => cases h
  | cons q ps ih =>
    rw [depthOfList]
    rcases List.mem_cons.1 h with rfl | h
    · exact Nat.le_max_left _ _
    · exact Nat.le_trans (ih h) (Nat.le_max_right _ _)

/-- A clause is less deep than its pattern. -/
theorem depth_lt_of_mem {p clause : Pattern} (h : clause ∈ p.optionals) :
    clause.depth < p.depth := by
  cases p
  rw [depth]
  exact Nat.lt_succ_of_le (depth_le_depthOfList h)

end Pattern

namespace Frame

/-- Whatever has to be waited for is among the documents that count. -/
theorem mem_unawaited_of_nextFetch {config : SearchConfig} {state : String → FetchState}
    {requested : List String} (h : f.nextFetch config state requested = some d) :
    d ∈ f.unawaited := by
  have hnot : d ∉ f.awaited := not_mem_awaited_of_nextFetch h
  have hlink : d ∈ f.links config := by
    unfold nextFetch at h
    split at h
    · exact List.mem_of_find?_eq_some h
    · cases h
  refine List.mem_filter.2 ⟨?_, by simpa using hnot⟩
  obtain ⟨triple, ht, term, hterm, value, hv, hd⟩ := mem_links.1 hlink
  refine mem_links.2 ⟨triple, ht, term, ?_, value, hv, hd⟩
  unfold linkTerms at hterm ⊢
  split at hterm
  · simpa using hterm
  · simp only [List.mem_cons, List.not_mem_nil, or_false] at hterm
    rcases hterm with rfl | rfl <;> simp

/-- A path that waits for one has fewer left. -/
theorem length_unawaited_awaiting (h : d ∈ f.unawaited) :
    (f.awaiting d).unawaited.length < f.unawaited.length := by
  have heq : (f.awaiting d).unawaited = f.unawaited.filter fun d' => d' ≠ d := by
    simp only [unawaited, List.filter_filter]
    refine List.filter_congr fun d' _ => ?_
    simp [awaiting]
  rw [heq]
  refine List.length_filter_lt_length_iff_exists.2 ⟨d, h, ?_⟩
  simp

/-- **A path that has to wait loses in rank.** -/
theorem rank_awaiting (h : d ∈ f.unawaited) (stage stage' : ℕ) :
    (f.awaiting d).rank stage < f.rank stage' :=
  Rank.of_lt_of.2 (.inr ⟨rfl, .inr ⟨rfl, .inl (length_unawaited_awaiting h)⟩⟩)

theorem rank_lt_rank {stage stage' : ℕ} (h : stage < stage') : f.rank stage < f.rank stage' :=
  Rank.of_lt_of.2 (.inr ⟨rfl, .inr ⟨rfl, .inr ⟨rfl, h⟩⟩⟩)

/-- A path outranks all reports and releases. -/
theorem of_zero_lt_rank (b l stage : ℕ) : Rank.of 0 b 0 l < f.rank stage :=
  Rank.of_lt_of.2 (.inl f.scope.pattern.depth_pos)

/-- A path outranks those that go on from it. -/
theorem rank_of_mem_expand {fs : List Frame} (h : f.expand g = .ok fs) (hf : f' ∈ fs)
    (stage stage' : ℕ) : f'.rank stage < f.rank stage' := by
  obtain ⟨p, triple, bs, b, -, htriple, -, -, -, rfl⟩ := mem_expand h hf
  obtain ⟨hlt, -⟩ := List.getElem?_eq_some_iff.1 htriple
  refine Rank.of_lt_of.2 (.inr ⟨rfl, .inl ?_⟩)
  change (f.remaining.eraseIdx p.selected).length < f.remaining.length
  rw [List.length_eraseIdx_of_lt hlt]
  omega

/-- And those that enter its clauses. -/
theorem rank_of_mem_clauses {c : Scope} (h : c ∈ f.scope.clauses) (search branch : Id)
    (b : Bindings) (awaited : List String) (stage stage' : ℕ) :
    (enter search branch c b awaited).rank stage < f.rank stage' := by
  obtain ⟨clause, hmem, rfl⟩ := List.mem_map.1 h
  exact Rank.of_lt_of.2 (.inl (Pattern.depth_lt_of_mem hmem))

end Frame

/-! ## Jobs leave less -/

/-- Orders of a rank lower than some. -/
def Below (r : Rank) (os : List Order) : Prop :=
  ∀ o ∈ os, ∀ r', o.rank? = some r' → r' < r

theorem below_nil (r : Rank) : Below r [] := fun _ h => by cases h

/-- An order of lower rank, or of none, goes before. -/
theorem Below.cons {r : Rank} (h : ∀ r', o.rank? = some r' → r' < r) (hos : Below r os) :
    Below r (o :: os) := by
  intro o' ho'
  rcases List.mem_cons.1 ho' with rfl | ho'
  · exact h
  · exact hos o' ho'

theorem Below.append {r : Rank} (h : Below r os) (h' : Below r rest) : Below r (os ++ rest) :=
  fun o ho => (List.mem_append.1 ho).elim (h o) (h' o)

/-- An order with a rank that is lower. -/
theorem below_singleton {r r' : Rank} (ho : o.rank? = some r') (h : r' < r) : Below r [o] := by
  refine .cons (fun r'' hr'' => ?_) (below_nil r)
  obtain rfl := Option.some.inj (ho.symm.trans hr'')
  exact h

/-- The release of its branch is below a path. -/
theorem below_release (f : Frame) (stage : ℕ) :
    Below (f.rank stage) [.job (.release f.branch)] :=
  below_singleton rfl (Frame.of_zero_lt_rank _ _ _)

/-- What a path leaves that has to wait is below it. -/
theorem below_suspend (t : Searches) (env : Surroundings) (h : d ∈ f.unawaited) :
    Below (f.rank 0) (t.suspend env f d).2 := by
  have hnone : ∀ {o : Order}, o.rank? = none → ∀ r', o.rank? = some r' → r' < f.rank 0 :=
    fun h r' hr => by rw [h] at hr; cases hr
  have hawait : ∀ asked, ∀ r', Order.rank? (.job (.await f d asked)) = some r' →
      r' < f.rank 0 := by
    intro asked r' hr
    cases hr
    exact Frame.rank_awaiting h 2 0
  obtain ⟨-, ho⟩ := t.suspend_cases env f d
  rcases ho with ho | ho <;> rw [ho]
  · exact .cons (hnone rfl) (.cons (hnone rfl) (.cons (hawait true)
      (.cons (hnone rfl) (below_nil _))))
  · exact .cons (hnone rfl) (.cons (hawait false) (.cons (hnone rfl) (below_nil _)))

/-- A search that has a document to wait for has it before it. -/
theorem Search.mem_unawaited (h : x.nextFetch env f = some d) : d ∈ f.unawaited := by
  unfold nextFetch at h
  split at h
  · obtain ⟨state, -, hd⟩ := Option.bind_eq_some_iff.1 h
    exact Frame.mem_unawaited_of_nextFetch hd
  · cases h

/-- **Every job leaves orders of a lower rank**, or makes the queue of its search
shorter, or finds it empty. -/
theorem Transition.lowers (h : Transition env t job t' os) (hl : Layout t) :
    (∃ r, Order.rank? (.job job) = some r ∧ Below r os ∧ (t'.parked = t.parked ∨
      ∃ f : Frame, t'.parked = t.parked.insert t.next f ∧ f.rank 1 < r)) ∨
    ∃ k x, job = .drain k ∧ t.searches[k]? = some x ∧ t'.parked = t.parked ∧
      ((x.queue = [] ∧ os = [] ∧
        t'.searches = t.searches.insert k { x with delivering := false }) ∨
      ∃ m ms, x.queue = m :: ms ∧ os = [.deliver k m, .job (.drain k)] ∧
        t'.searches = t.searches.insert k { x with queue := ms }) := by
  have again : ∀ (b : Nat) (m : Bindings) (ms : List Bindings),
      Below (.of 0 b 0 ((m :: ms).length + 1)) [.job (.report b ms)] := fun b m ms =>
    below_singleton rfl (Rank.of_lt_of.2 (.inr ⟨rfl, .inr ⟨rfl, .inr ⟨rfl, by simp⟩⟩⟩))
  cases h with
  | @barred f _ => exact .inl ⟨_, rfl, below_release f 3, .inl rfl⟩
  | @entered f _ =>
    exact .inl ⟨_, rfl, below_singleton rfl (Frame.rank_lt_rank (by decide)), .inl rfl⟩
  | @halted f x _ _ => exact .inl ⟨_, rfl, below_release f 0, .inl rfl⟩
  | @asked f x d _ _ hd hu =>
    have hbelow := below_suspend t env (Search.mem_unawaited hd)
    rw [Searches.suspend, if_pos hu] at hbelow
    exact .inl ⟨_, rfl, hbelow, .inl rfl⟩
  | @awaited f x d _ _ hd hu =>
    have hbelow := below_suspend t env (Search.mem_unawaited hd)
    rw [Searches.suspend, if_neg (by simp [hu])] at hbelow
    exact .inl ⟨_, rfl, hbelow, .inl rfl⟩
  | @exhausted f x _ _ _ _ _ =>
    refine .inl ⟨_, rfl, .cons (fun r' hr => ?_) (below_release f 0), .inl rfl⟩
    cases hr
    exact Frame.of_zero_lt_rank _ _ _
  | @split f x _ _ _ _ _ =>
    refine .inl ⟨_, rfl, fun o ho r' hr => ?_, .inl rfl⟩
    obtain ⟨k, hk, rfl⟩ := List.mem_mapIdx.1 ho
    cases hr
    exact Frame.rank_of_mem_clauses (List.getElem_mem hk) _ _ _ _ _ _
  | @failed f x e _ _ _ _ _ => exact .inl ⟨_, rfl, below_release f 0, .inl rfl⟩
  | @expanded f x y fs _ _ _ _ hfs _ =>
    refine .inl ⟨_, rfl, .append (fun o ho r' hr => ?_) (below_release f 0), .inl rfl⟩
    obtain ⟨f', hf', rfl⟩ := List.mem_map.1 ho
    cases hr
    exact Frame.rank_of_mem_expand hfs hf' 0 0
  | @parked f d =>
    refine .inl ⟨_, rfl, .cons (fun r' hr => by cases hr) (below_nil _), .inr ⟨_, rfl, ?_⟩⟩
    exact Frame.rank_lt_rank (by decide)
  | @parkedAsked f d x _ =>
    refine .inl ⟨_, rfl, .cons (fun r' hr => by cases hr) (below_nil _), .inr ⟨_, rfl, ?_⟩⟩
    exact Frame.rank_lt_rank (by decide)
  | reported => exact .inl ⟨_, rfl, below_nil _, .inl rfl⟩
  | refused _ _ _ | kept _ _ _ _ | queued _ _ _ _ _ =>
    exact .inl ⟨_, rfl, again _ _ _, .inl rfl⟩
  | announced _ _ _ _ _ =>
    exact .inl ⟨_, rfl, .cons (fun r' hr => by cases hr) (again _ _ _), .inl rfl⟩
  | @drained k x hx hq => exact .inr ⟨k, x, rfl, hx, rfl, .inl ⟨hq, rfl, rfl⟩⟩
  | @delivered k x m ms hx hq => exact .inr ⟨k, x, rfl, hx, rfl, .inr ⟨m, ms, hq, rfl, rfl⟩⟩
  | released _ _ | filled _ _ _ _ _ => exact .inl ⟨_, rfl, below_nil _, .inl rfl⟩
  | finished _ _ _ _ =>
    exact .inl ⟨_, rfl, .cons (fun r' hr => by cases hr) (below_nil _), .inl rfl⟩
  | @combined b y j slot jn combos hy _ hr hj _ =>
    -- the junction reports to an earlier branch
    have hseat := Searches.seat?_of_role hy hr
    have hlt : jn.parent < b := hl.parent_lt_clause hseat hj
    have hbelow : ∀ l, Rank.of 0 jn.parent 0 l < Rank.of 0 b 0 0 := fun l =>
      Rank.of_lt_of.2 (.inr ⟨rfl, .inl hlt⟩)
    refine .inl ⟨_, rfl, .cons (fun r' hr => ?_) (below_singleton rfl (hbelow 0)), .inl rfl⟩
    cases hr
    exact hbelow _

/-! ## Carrying on -/

theorem isDershowitzMannaLT_of_lt {X Y : Multiset Rank} {r : Rank} (h : ∀ r' ∈ Y, r' < r) :
    Multiset.IsDershowitzMannaLT (X + Y) (X + {r}) :=
  ⟨X, Y, {r}, Multiset.singleton_ne_zero r, rfl, rfl,
    fun r' hr' => ⟨r, Multiset.mem_singleton_self r, h r' hr'⟩⟩

/-- The ranks of orders that are below some rank. -/
theorem Below.lt_of_mem {r r' : Rank} (h : Below r os)
    (hr : r' ∈ ((os.filterMap Order.rank? : List Rank) : Multiset Rank)) : r' < r := by
  obtain ⟨o, ho, hor⟩ := List.mem_filterMap.1 (Multiset.mem_coe.1 hr)
  exact h o ho r' hor

namespace Scene

/-- What is left: ranks first, errands second. -/
def remains (w : Scene) : Multiset Rank × ℕ :=
  (w.ranks, w.errands)

/-- Less is left. -/
abbrev Less : Multiset Rank × ℕ → Multiset Rank × ℕ → Prop :=
  Prod.Lex Multiset.IsDershowitzMannaLT (· < ·)

theorem wellFounded_less : WellFounded Less :=
  (Prod.lex ⟨_, Multiset.wellFounded_isDershowitzMannaLT⟩ ⟨_, wellFounded_lt⟩).wf

/-- Orders and a newly parked path of lower rank may take the place of one of a
higher rank. -/
theorem less_of_below {r : Rank} {t' : Searches} {told' : List Notice}
    (hl : Layout t) (ho : o.rank? = some r) (hos : Below r os)
    (hp : t'.parked = t.parked ∨
      ∃ f : Frame, t'.parked = t.parked.insert t.next f ∧ f.rank 1 < r) :
    Less (remains ⟨g, t', os ++ rest, told'⟩) (remains ⟨g, t, o :: rest, told⟩) := by
  refine Prod.Lex.left _ _ ?_
  have hold : ranks ⟨g, t, o :: rest, told⟩ = ((rest.filterMap Order.rank? : List Rank) +
      tally t.parked fun _ f => {f.rank 1}) + {r} := by
    simp only [ranks, List.filterMap_cons, ho, ← Multiset.cons_coe, ← Multiset.singleton_add]
    ac_rfl
  rw [hold]
  rcases hp with hp | ⟨f, hp, hf⟩
  · have hnew : ranks ⟨g, t', os ++ rest, told'⟩ = ((rest.filterMap Order.rank? : List Rank) +
        tally t.parked fun _ f => {f.rank 1}) + (os.filterMap Order.rank? : List Rank) := by
      simp only [ranks, List.filterMap_append, ← Multiset.coe_add, hp]
      ac_rfl
    rw [hnew]
    exact isDershowitzMannaLT_of_lt fun r' hr' => hos.lt_of_mem hr'
  · have hnew : ranks ⟨g, t', os ++ rest, told'⟩ = ((rest.filterMap Order.rank? : List Rank) +
        tally t.parked fun _ f => {f.rank 1}) +
          ((os.filterMap Order.rank? : List Rank) + {f.rank 1}) := by
      simp only [ranks, List.filterMap_append, ← Multiset.coe_add, hp,
        tally_insert hl.next_not_mem_parked]
      ac_rfl
    rw [hnew]
    refine isDershowitzMannaLT_of_lt fun r' hr' => ?_
    rcases Multiset.mem_add.1 hr' with hr' | hr'
    · exact hos.lt_of_mem hr'
    · rw [Multiset.mem_singleton.1 hr']
      exact hf

/-- An errand is run. -/
theorem less_of_errands (hr : w'.ranks = w.ranks) (he : w'.errands < w.errands) :
    Less w'.remains w.remains := by
  unfold remains
  rw [hr]
  exact Prod.Lex.right _ he

/-- A caller who is told of queued matches is told of fewer. -/
theorem less_of_drain {k : Id} {x' : Search} {t' : Searches} (hx : t.searches[k]? = some x)
    (hp : t'.parked = t.parked) (hs : t'.searches = t.searches.insert k x')
    (hos : ∀ o ∈ os, o.rank? = none)
    (hq : os.length + 2 * x'.queue.length < 1 + 2 * x.queue.length) :
    Less (remains ⟨g, t', os ++ rest, told⟩) (remains ⟨g, t, .job (.drain k) :: rest, told⟩) := by
  have hdrain : Order.rank? (.job (.drain k)) = none := rfl
  refine less_of_errands ?_ ?_
  · simp only [ranks, hp, List.filterMap_append, List.filterMap_eq_nil_iff.2 hos, List.nil_append,
      List.filterMap_cons, hdrain]
  · have hqueues := tally_replace hx x' fun _ x => 2 * x.queue.length
    have hall : os.filter (·.rank?.isNone) = os :=
      List.filter_eq_self.2 fun o ho => by rw [hos o ho]; rfl
    simp only [errands, hs, List.filter_append, hall, List.filter_cons, hdrain, Option.isNone_none,
      if_true, List.length_append, List.length_cons]
    omega

/-- An order of lower rank takes the place of a path that was parked. -/
theorem less_of_unparked {r : Rank} {n : Nat} (hf : t.parked[n]? = some f)
    (ho : o.rank? = some r) (hr : r < f.rank 1) :
    Less (remains ⟨g, { t with parked := t.parked.erase n }, o :: os, told⟩)
      (remains ⟨g, t, os, told⟩) := by
  refine Prod.Lex.left _ _ ?_
  have hold : ranks ⟨g, t, os, told⟩ = ((os.filterMap Order.rank? : List Rank) +
      tally (t.parked.erase n) fun _ f => {f.rank 1}) + {f.rank 1} := by
    simp only [ranks, tally_erase hf]
    ac_rfl
  have hnew : ranks ⟨g, { t with parked := t.parked.erase n }, o :: os, told⟩ =
      ((os.filterMap Order.rank? : List Rank) +
        tally (t.parked.erase n) fun _ f => {f.rank 1}) + {r} := by
    simp only [ranks, List.filterMap_cons, ho, ← Multiset.cons_coe, ← Multiset.singleton_add]
    ac_rfl
  rw [hold, hnew]
  refine isDershowitzMannaLT_of_lt fun r' hr' => ?_
  rw [Multiset.mem_singleton.1 hr']
  exact hr

/-- **Whenever a scene goes on, less is left.** -/
theorem Proceeds.less (h : Proceeds w w') (hw : w.IsSound) : Less w'.remains w.remains := by
  have hl := hw.layout
  cases h with
  | @work g t job os told state? =>
    rcases (Sound.transition hw ⟨g, state?⟩).lowers hl with ⟨r, hr, hos, hp⟩ |
      ⟨k, x, rfl, hx, hp, ⟨hq, hos, hs⟩ | ⟨m, ms, hq, hos, hs⟩⟩
    · exact less_of_below hl hr hos hp
    · exact less_of_drain hx hp hs (by simp [hos]) (by simp [hos, hq])
    · refine less_of_drain hx hp hs (by simp [hos, Order.rank?]) ?_
      simp only [hos, hq, List.length_cons, List.length_nil]
      omega
  | @recheck g t f os told x d state? state'? _ _ hd =>
    have hp : (t.suspend ⟨g, state'?⟩ f d).1.parked = t.parked := by
      rw [(t.suspend_cases _ f d).1]
    exact less_of_below hl rfl (below_suspend t _ (Search.mem_unawaited hd)) (.inl hp)
  | @handOver g t o os told ho =>
    have hnone : o.rank? = none := by
      cases o with
      | job job => exact absurd rfl (ho job)
      | _ => rfl
    refine less_of_errands ?_ ?_
    · simp [ranks, hnone]
    · simp [errands, hnone]
  | @resume g t os told ticket hticket =>
    obtain ⟨f, hf⟩ := exists_getElem? hticket
    unfold Searches.resume
    rw [hf]
    exact less_of_unparked hf rfl (Frame.rank_lt_rank Nat.one_pos)

/-- **A scene in order does not go on for ever.** -/
theorem InOrder.acc (hw : w.InOrder) : Acc (flip Proceeds) w := by
  induction hm : w.remains using wellFounded_less.induction generalizing w with
  | _ m ih =>
    refine .intro w fun w' hnext => ih w'.remains ?_ (hnext.inOrder hw) rfl
    exact hm ▸ hnext.less hw.sound

/-- A scene that cannot go on is at rest. -/
theorem rests_of_not_proceeds (h : ∀ w', ¬ Proceeds w w') :
    w.orders = [] ∧ ∀ n, n ∉ w.table.parked := by
  obtain ⟨g, t, os, told⟩ := w
  refine ⟨?_, fun n hn => h _ (.resume hn)⟩
  cases os with
  | nil => rfl
  | cons o os =>
    cases o with
    | job job => exact absurd (.work none) (h _)
    | _ => exact absurd (.handOver (by simp)) (h _)

end Scene

end TripleQuery
