import TripleQuery.Proofs.Sessions.Crawling
/-!
# Crawled — crawling comes to an end

A session that goes on among some documents has less before it after each task
(`Moment.Crawls.lighter`). First comes its toil, which a command and a delivery
lessen; then what is left of its searches, which an order lessens; and last the
chores that remain on its stack. So whatever is on top of its stack is carried out
at last (`Moment.Crawls.returns`), and when a library delivers all that is pending,
the web is crawled: no document is delivered twice, and no more of them than are
mentioned (`Moment.Leads.crawled`).
-/

namespace TripleQuery

variable {g : Graph} {config : SearchConfig} {eager eager' : Bool} {told told' : List Notice}
  {i : Id} {D : Finset String} {s : Session} {task : Task} {top outer stack : List Task}
  {l : Library Callback}

/-! ## Chores -/

/-- How much there is to a task that is no order. Leaving a source may bring about
one more task. -/
def Task.size : Task → ℕ
  | .order _ => 0
  | .leave | .leaveLibrary => 2
  | _ => 1

namespace Session

/-- How many wait for documents. -/
def waiting (s : Session) : ℕ :=
  s.source.elim 0 (·.allWatchers.length)

/-- Whoever is given up is a chore. -/
theorem chores_leaving_le (s : Session) :
    s.leaving.1.waiting + (s.leaving.2.map Task.size).sum ≤ s.waiting + 1 := by
  unfold leaving collect
  cases hsource : s.source with
  | none => simp [waiting, hsource, Task.size]
  | some source =>
    simp only
    split
    · simp [waiting, hsource, Task.size]
    · simp [waiting, hsource, Function.comp_def, Task.size]

/-- **A task that spends no toil leaves fewer chores**, unless it is an order. -/
theorem chores_exec (ho : task.order? = none) (hspends : s.spends task = 0) :
    (s.exec task).1.waiting + ((s.exec task).2.map Task.size).sum < s.waiting + task.size := by
  have orders : ∀ os : List Order, ((os.map Task.order).map Task.size).sum = 0 := fun os => by
    simp [Function.comp_def, Task.size]
  cases task with
  | order o => cases ho
  | command c | acted => cases hspends
  | call c o =>
    cases c with
    | resume n =>
      simp only [exec, call, proceed, orders]
      exact Nat.lt_succ_self _
    | notify tag cs => cases hspends
  | discard c =>
    cases c with
    | resume n =>
      simp only [exec, giveUp, proceed, orders]
      exact Nat.lt_succ_self _
    | notify tag cs => cases hspends
  | pump n announce =>
    have hnone : s.deliverNext = none := by
      rw [← Option.not_isSome_iff_eq_none]
      intro hsome
      rw [spends, if_pos hsome] at hspends
      cases hspends
    simp only [exec, hnone]
    cases announce <;> exact Nat.lt_succ_self _
  | collected i =>
    have hsource : (s.collected i).waiting = s.waiting := by
      unfold collected
      split <;> rfl
    simp only [exec, hsource]
    exact Nat.lt_succ_self _
  | configured =>
    simp only [exec]
    split <;> exact Nat.lt_succ_self _
  | leave =>
    exact Nat.lt_succ_of_le (chores_leaving_le { s with users := s.users - 1 })
  | leaveLibrary =>
    exact Nat.lt_succ_of_le (chores_leaving_le { s with deliverers := s.deliverers - 1 })
  | reply r | started name i | opened name i => exact Nat.lt_succ_self _

/-- **Nor does it leave more of the searches.** -/
theorem remains_exec (ho : task.order? = none) (hspends : s.spends task = 0) (os : List Order)
    (told told' : List Notice) :
    ((s.exec task).1.scene (ordersOf (s.exec task).2 ++ os) told').remains =
        (s.scene os told).remains ∨
      Scene.Less ((s.exec task).1.scene (ordersOf (s.exec task).2 ++ os) told').remains
        (s.scene os told).remains := by
  -- what is left goes by the table of searches and the orders only
  have turned : ∀ {t os'}, s.Turns (s.exec task) t os' →
      ((⟨s.graph, t, os' ++ os, told⟩ : Scene).remains = (s.scene os told).remains ∨
        Scene.Less (⟨s.graph, t, os' ++ os, told⟩ : Scene).remains (s.scene os told).remains) →
      (((s.exec task).1.scene (ordersOf (s.exec task).2 ++ os) told').remains =
          (s.scene os told).remains ∨
        Scene.Less ((s.exec task).1.scene (ordersOf (s.exec task).2 ++ os) told').remains
          (s.scene os told).remains) := by
    intro t os' hr h
    rw [hr.orders, scene, hr.searches]
    exact h
  cases s.exec_does task ho with
  | aside h _ =>
    rw [h.orders, scene, h.searches]
    exact .inl rfl
  | merge _ hsearches _ hleft _ =>
    rw [hleft, scene, hsearches]
    exact .inl rfl
  | launch _ _ _ _ hnews =>
    cases task with
    | command c => cases hspends
    | order o => cases ho
    | _ => cases hnews
  | @stop i _ hr _ => exact turned hr (Scene.Meddles.remains (.stop i))
  | @cancel i _ hr _ => exact turned hr (Scene.Meddles.remains (.cancel i))
  | discard n hr _ => exact turned hr (Scene.Meddles.remains (.discard n))
  | resume n hr _ =>
    refine turned hr ?_
    rcases s.searches.resume_cases n with he | ⟨f, hf, he⟩ <;> rw [he]
    · exact .inl rfl
    · exact .inr (Scene.less_of_unparked hf rfl (Frame.rank_lt_rank Nat.one_pos))

end Session

namespace Moment

variable {m m' : Moment}

/-! ## What is before a session -/

/-- What is before a session: its toil, what is left of its searches, and chores.
-/
def before (D : Finset String) (m : Moment) : ℕ × (Multiset Rank × ℕ) × ℕ :=
  (m.session.toil D (overIn m.told) + (m.stack.map Task.weight).sum, m.scene.remains,
    m.session.waiting + (m.stack.map Task.size).sum)

/-- Less is before a session. -/
abbrev Lighter (D : Finset String) (m' m : Moment) : Prop :=
  Prod.Lex (· < ·) (Prod.Lex Scene.Less (· < ·)) (m'.before D) (m.before D)

theorem wellFounded_lighter (D : Finset String) : WellFounded (Lighter D) :=
  (Prod.lex ⟨_, wellFounded_lt⟩ (Prod.lex ⟨_, Scene.wellFounded_less⟩ ⟨_, wellFounded_lt⟩)).wf.onFun

/-- **Each task that is carried out leaves less before a session** that crawls. -/
theorem Crawls.lighter (h : Crawls D (task :: top) outer ⟨s, stack, told⟩)
    (hm : IsSound ⟨s, stack, told⟩) (hs : (scene ⟨s, stack, told⟩).Sourced) :
    Lighter D ⟨(s.exec task).1, (s.exec task).2 ++ (top ++ outer), told ++ s.news task⟩
      ⟨s, stack, told⟩ := by
  have htoil := (h.toils hm hs).toil
  obtain rfl : stack = task :: (top ++ outer) := h.stack
  have hspent : (before D ⟨(s.exec task).1, (s.exec task).2 ++ (top ++ outer),
      told ++ s.news task⟩).1 + s.spends task ≤
        (before D ⟨s, task :: (top ++ outer), told⟩).1 := by
    simp only [before, List.map_append, List.sum_append, List.map_cons, List.sum_cons]
    omega
  refine Prod.lex_def.2 ?_
  rcases Nat.lt_or_eq_of_le (Nat.le_of_add_right_le hspent) with hlt | heq
  · exact .inl hlt
  refine .inr ⟨heq, Prod.lex_def.2 ?_⟩
  have hspends : s.spends task = 0 := by omega
  cases ho : task.order? with
  | some o =>
    -- an order makes the searches go on
    obtain rfl := Task.eq_order ho
    have hlisten : ∀ i, o.speaksOf? = some i → i ∈ s.listeners := fun i hi =>
      hm.listens (o := o) List.mem_cons_self hi
    have hgraph : (s.exec (.order o)).1.graph = s.graph := Session.exec_graph rfl
    have hless := (s.proceeds_obey hlisten hgraph (ordersOf (top ++ outer)) told).less hm.sound
    rw [← ordersOf_append] at hless
    exact .inl hless
  | none =>
    have hfewer := Session.chores_exec ho hspends
    have hremains := Session.remains_exec ho hspends (ordersOf (top ++ outer)) told
      (told ++ s.news task)
    simp only [before, scene, ordersOf_cons_of_none ho, ordersOf_append ((s.exec task).2)]
    rcases hremains with hsame | hless
    · refine .inr ⟨hsame, ?_⟩
      simp only [List.map_append, List.sum_append, List.map_cons, List.sum_cons]
      omega
    · exact .inl hless

/-! ## Runs -/

/-- **Whatever is on top of the stack is carried out at last.** Meanwhile nothing
is refreshed, and only some of these documents are delivered. -/
theorem Crawls.returns (h : m.Crawls D top outer) (hg : g.Reachable)
    (hm : Leads (start g (some (.library eager {})) config) m) :
    ∃ n, Session.run n top m.session = some (carryOut n m).session ∧
      (carryOut n m).stack = outer ∧
      ∀ e ∈ deedsOf n m, (∀ r, e ≠ .refreshed r) ∧ ∀ d, e.document? = some d → d ∈ D := by
  induction m using (wellFounded_lighter D).induction generalizing top with
  | _ m ih =>
    cases top with
    | nil => exact ⟨0, rfl, h.stack, by simp [deedsOf]⟩
    | cons task top =>
      obtain ⟨s, stack, told⟩ := m
      have hsourced := hm.sourced hg
      have hlighter := h.lighter hm.isSound hsourced
      have hcrawls := h.next hm.isSound hsourced
      have hdeed := fun e => Session.IsTame.deed? (e := e) h.tame (h.tasks task List.mem_cons_self)
      obtain rfl : stack = task :: (top ++ outer) := h.stack
      obtain ⟨n, hrun, hstack, htame⟩ := ih _ hlighter hcrawls (.tail hm .task)
      refine ⟨n + 1, (Session.run_cons ..).trans hrun, hstack, fun e he => ?_⟩
      rcases List.mem_append.1 he with he | he
      · exact hdeed e (Option.mem_toList.1 he)
      · exact htame e he

end Moment

/-! ## Crawling the web -/

/-- The statements that are published. -/
def Library.published {κ : Type} (l : Library κ) : List Statement :=
  l.shelf.toList.flatMap fun p => p.2.toOption.getD []

theorem Library.mem_published {κ : Type} {l : Library κ} {d : String} {ss : List Statement}
    {st : Statement} (h : l.shelf[d]? = some (.ok ss)) (hst : st ∈ ss) : st ∈ l.published :=
  List.mem_flatMap.2 ⟨(d, .ok ss), Std.ExtTreeMap.mem_toList_iff_getElem?_eq_some.2 h, hst⟩

/-- The searches with a parked path. -/
def Session.parkedSearches (s : Session) : List Id :=
  s.searches.parked.toList.map (·.2.search)

/-- The commands of all callbacks that a delivery may lead to: those of whoever
waits for a document, and those of the searches with a parked path. -/
def Session.callbacks (s : Session) (l : Library Callback) : List Command :=
  s.parkedSearches.flatMap (fun i => s.listeners[i]?.elim [] Listener.commands) ++
    l.allWatchers.flatMap Callback.commands

namespace Moment

/-- The patterns of the searches with a parked path. -/
def parkedPatterns (m : Moment) : List Pattern :=
  m.told.filterMap fun
    | .started i p => if i ∈ m.session.parkedSearches then some p else none
    | _ => none

/-- The documents that are asked for, and those that are mentioned by the store, the
published statements, or the fixed values of the patterns. -/
def mentioned (m : Moment) (l : Library Callback) : Finset String :=
  (l.queue ++ m.session.graph.documents ++ l.published.flatMap Statement.documents ++
    m.parkedPatterns.flatMap Pattern.documents).toFinset

/-- The documents that callbacks come to mention, if they add to the store or search
for something. -/
def added (m : Moment) (l : Library Callback) : Finset String :=
  (((m.session.callbacks l).flatMap Command.parts).flatMap Command.adds).toFinset

/-- The documents that a crawl can come across. -/
def inReach (m : Moment) (l : Library Callback) : Finset String :=
  m.mentioned l ∪ m.added l

variable {m m' : Moment} {d : String}

theorem mem_inReach_of_mentioned (h : d ∈ l.queue ++ m.session.graph.documents ++
    l.published.flatMap Statement.documents ++ m.parkedPatterns.flatMap Pattern.documents) :
    d ∈ m.inReach l :=
  Finset.mem_union_left _ (List.mem_toFinset.2 h)

/-- Callbacks that leave the source of documents alone are tame. -/
theorem isTame_of_mem_callbacks {c : Command}
    (hquiet : ∀ c ∈ m.session.callbacks l, ∀ part ∈ c.parts, part.isQuiet)
    (hc : c ∈ m.session.callbacks l) : c.IsTame (m.inReach l) := fun part hpart =>
  ⟨hquiet c hc part hpart, fun _ hd => Finset.mem_union_right _ (List.mem_toFinset.2
    (List.mem_flatMap.2 ⟨part, List.mem_flatMap.2 ⟨c, hc, hpart⟩, hd⟩))⟩

/-- A session keeps within its reach. -/
theorem isTame_inReach (hsource : m.session.source = some (.library eager l))
    (hquiet : ∀ c ∈ m.session.callbacks l, ∀ part ∈ c.parts, part.isQuiet) :
    m.session.IsTame (m.inReach l) := by
  refine ⟨fun d hd => mem_inReach_of_mentioned (by simp [hd]), fun {src} hsrc => ?_⟩
  obtain rfl := Option.some.inj (hsource.symm.trans hsrc)
  refine ⟨fun {d} hd => mem_inReach_of_mentioned (by simp [hd]),
    fun {document ss} hss st hst d hd => mem_inReach_of_mentioned ?_,
    fun {c} hc command hcommand => isTame_of_mem_callbacks hquiet ?_⟩
  · have hpublished : d ∈ l.published.flatMap Statement.documents :=
      List.mem_flatMap.2 ⟨st, Library.mem_published hss hst, hd⟩
    exact List.mem_append_left _ (List.mem_append_right _ hpublished)
  · exact List.mem_append_right _ (List.mem_flatMap.2 ⟨c, hc, hcommand⟩)

/-- The searches with a parked path are minded. -/
theorem minds_inReach (hquiet : ∀ c ∈ m.session.callbacks l, ∀ part ∈ c.parts, part.isQuiet)
    (hi : i ∈ m.session.parkedSearches) : m.Minds (m.inReach l) i where
  pattern {p} hp d hd := by
    have hpattern : p ∈ m.parkedPatterns := List.mem_filterMap.2 ⟨_, hp, if_pos hi⟩
    exact mem_inReach_of_mentioned
      (List.mem_append_right _ (List.mem_flatMap.2 ⟨p, hpattern, hd⟩))
  tells listener hlistener c hc := isTame_of_mem_callbacks hquiet <|
    List.mem_append_left _ (List.mem_flatMap.2 ⟨i, hi, by rwa [hlistener]⟩)

/-- A session that is to deliver all that is pending crawls within its reach, once
it has begun. -/
theorem crawls_runPending (hl : s.library? = some (eager, l))
    (hquiet : ∀ c ∈ s.callbacks l, ∀ part ∈ c.parts, part.isQuiet) (stack outer : List Task)
    (told : List Notice) :
    Crawls (inReach ⟨s, stack, told⟩ l) (s.exec (.command (.library .runPending))).2 outer
      ⟨(s.exec (.command (.library .runPending))).1,
        (s.exec (.command (.library .runPending))).2 ++ outer,
        told ++ s.news (.command (.library .runPending))⟩ := by
  have htame : s.IsTame (inReach ⟨s, stack, told⟩ l) :=
    isTame_inReach (m := ⟨s, stack, told⟩) (Session.library?_eq_some hl).2 hquiet
  have howned : s.searches.Owned (Minds (inReach ⟨s, stack, told⟩ l) ⟨s, stack, told⟩) [] :=
    ⟨by simp, fun {n f} hf => minds_inReach (m := ⟨s, stack, told⟩) hquiet
      (List.mem_map.2 ⟨(n, f), Std.ExtTreeMap.mem_toList_iff_getElem?_eq_some.2 hf, rfl⟩)⟩
  have hnews : s.news (.command (.library .runPending)) = [] := rfl
  have hexec : s.exec (.command (.library .runPending)) =
      s.usingLibrary eager [.pump 0 true] := by
    simp only [Session.exec, Session.command, hl, Session.commandLibrary]
  rw [hnews, hexec, List.append_nil]
  -- the session comes to be in use, and that is all
  unfold Session.usingLibrary
  split <;>
    exact ⟨rfl, ⟨htame.mentioned, htame.source⟩, by simp [Session.inUse, Task.IsTame],
      howned.mono fun i hi => ⟨hi.pattern, hi.tells⟩⟩

/-- Delivering all that is pending returns, and meanwhile only documents in reach
are delivered. -/
theorem Leads.returns_runPending (hg : g.Reachable)
    (h : Leads (start g (some (.library eager {})) config) m)
    (hstack : m.stack = .command (.library .runPending) :: outer)
    (hl : m.session.library? = some (eager', l))
    (hquiet : ∀ c ∈ m.session.callbacks l, ∀ part ∈ c.parts, part.isQuiet) :
    ∃ n, Session.run n [.command (.library .runPending)] m.session =
        some (carryOut n m).session ∧
      (carryOut n m).stack = outer ∧
      ∀ e ∈ deedsOf n m, (∀ r, e ≠ .refreshed r) ∧
        ∀ d, e.document? = some d → d ∈ m.inReach l := by
  obtain ⟨s, stack, told⟩ := m
  have hcrawls := crawls_runPending hl hquiet stack outer told
  obtain rfl : stack = .command (.library .runPending) :: outer := hstack
  obtain ⟨n, hrun, hreturned, htame⟩ := hcrawls.returns hg (h.tail .task)
  have hdeed : s.deed? (.command (.library .runPending)) = none := by
    rw [Session.deed?, hl]
    rfl
  refine ⟨n + 1, ?_, hreturned, fun e he => ?_⟩
  · rw [Session.run_cons, List.append_nil]
    exact hrun
  · rw [deedsOf, hdeed] at he
    exact htame e he

/-- As long as nothing is refreshed, no document is delivered twice, whatever was
done before. -/
theorem Leads.nodup_deliveredIn {T : List (Deed Callback)}
    (h : Leads (start g (some (.library eager {})) config) m) (hT : Records m T m')
    (hno : ∀ r, .refreshed r ∉ T) : (deliveredIn T).Nodup := by
  obtain ⟨T₀, hT₀⟩ := h.exists_records
  obtain ⟨hbefore, hafter⟩ := Tables.follows_append.1 (hT₀.kept.records hT).follows
  exact ((Tables.consistent_empty.after hbefore).nodup_deliveredIn hafter hno).1

/-- **Crawling comes to an end on every web.** Whatever is published, refers to
what, fails or is missing, if the callbacks of those who wait leave the library
alone, then delivering all that is pending returns. Until then no document is
delivered twice, and every one that is delivered was asked for or is mentioned,
there or in what callbacks add. So there are no more deliveries than such
documents, and where callbacks add nothing, no more than were mentioned before. -/
theorem Leads.crawled (hg : g.Reachable)
    (h : Leads (start g (some (.library eager {})) config) m)
    (hstack : m.stack = .command (.library .runPending) :: outer)
    (hl : m.session.library? = some (eager', l))
    (hquiet : ∀ c ∈ m.session.callbacks l, ∀ part ∈ c.parts, part.isQuiet) :
    ∃ n, Session.run n [.command (.library .runPending)] m.session =
        some (carryOut n m).session ∧
      (carryOut n m).stack = outer ∧
      (deliveredIn (deedsOf n m)).Nodup ∧
      (∀ d ∈ deliveredIn (deedsOf n m), d ∈ m.inReach l) ∧
      (deliveredIn (deedsOf n m)).length ≤ (m.inReach l).card ∧
      (m.added l = ∅ → (deliveredIn (deedsOf n m)).length ≤ (m.mentioned l).card) := by
  obtain ⟨n, hrun, hreturned, hdeeds⟩ := h.returns_runPending hg hstack hl hquiet
  have hnodup : (deliveredIn (deedsOf n m)).Nodup :=
    h.nodup_deliveredIn (records_carryOut n m) fun r hr => (hdeeds _ hr).1 r rfl
  have hmem : ∀ d ∈ deliveredIn (deedsOf n m), d ∈ m.inReach l := fun d hd => by
    obtain ⟨e, he, hd⟩ := List.mem_filterMap.1 hd
    exact (hdeeds e he).2 d hd
  have hle : (deliveredIn (deedsOf n m)).length ≤ (m.inReach l).card := by
    rw [← List.toFinset_card_of_nodup hnodup]
    exact Finset.card_le_card fun d hd => hmem d (List.mem_toFinset.1 hd)
  refine ⟨n, hrun, hreturned, hnodup, hmem, hle, fun hnone => ?_⟩
  rwa [inReach, hnone, Finset.union_empty] at hle

/-! ## A web with a cycle, with a document that fails and missing ones -/

/-- One page links to another. -/
def linksTo (a b : String) : Statement :=
  ⟨.symbol a, .symbol "links", .symbol b, none⟩

/-- Whatever is four links away from a page. -/
def fourLinks : Pattern where
  triples := [⟨.var "x", .symbol "links", .var "y", none⟩,
    ⟨.var "y", .symbol "links", .var "z", none⟩, ⟨.var "z", .symbol "links", .var "w", none⟩,
    ⟨.var "w", .symbol "links", .var "v", none⟩]
  initial := .ofPairs [(.var "x", .symbol "a")]

/-- Two pages link to each other, one of them to a page that fails and to a missing
one. The page that the search starts from is missing as well. At the first match
the caller adds a link. -/
def browsing : Moment :=
  carryOutAll 60
    [.library (.publish "b" [linksTo "b" "c"]),
      .library (.publish "c" [linksTo "c" "b", linksTo "c" "d", linksTo "c" "e"]),
      .library (.failWith "d" "no access"), .edit (.add (linksTo "a" "b")),
      .search "pages" fourLinks [[.edit (.add (linksTo "b" "d"))]] [.library .status]]
    (start .empty (some (.library false {})) {})

/-- Everything that is pending is about to be delivered. -/
def crawling : Moment :=
  carryOutAll 0 [.library .runPending] browsing

/-- The search waits, its callbacks leave the library alone, and six documents are
in reach, counting the one of the symbol that all links have in common. -/
theorem library?_crawling : crawling.session.library?.map (fun p =>
    (p.1, (crawling.session.callbacks p.2).length,
      (crawling.session.callbacks p.2).all fun c => c.parts.all (·.isQuiet),
      (crawling.inReach p.2).card)) = some (false, 2, true, 6) := by
  decide +kernel

/-- Each of the other five is delivered. -/
example : deliveredIn (deedsOf 150 crawling) = ["a", "b", "c", "d", "e"] ∧
    (carryOut 150 crawling).stack.length = 0 := by
  decide +kernel

/-- The crawl comes to an end, and there are at most six deliveries. -/
theorem crawling_crawled : ∃ l n, crawling.session.library? = some (false, l) ∧
    (crawling.session.callbacks l).length = 2 ∧
    (∀ c ∈ crawling.session.callbacks l, ∀ part ∈ c.parts, part.isQuiet) ∧
    Session.run n [.command (.library .runPending)] crawling.session =
      some (carryOut n crawling).session ∧
    (carryOut n crawling).stack = [] ∧
    (deliveredIn (deedsOf n crawling)).Nodup ∧
    (∀ d ∈ deliveredIn (deedsOf n crawling), d ∈ crawling.inReach l) ∧
    (deliveredIn (deedsOf n crawling)).length ≤ 6 := by
  have hreached : Leads (start .empty (some (.library false {})) {}) crawling :=
    (leads_carryOutAll 60 _ _).trans (leads_carryOutAll 0 _ _)
  obtain ⟨⟨eager, l⟩, hl, hfacts⟩ := Option.map_eq_some_iff.1 library?_crawling
  simp only [Prod.mk.injEq, List.all_eq_true] at hfacts
  obtain ⟨rfl, hlength, hquiet, hcard⟩ := hfacts
  obtain ⟨n, hrun, hstack, hnodup, hmem, hle, -⟩ :=
    hreached.crawled .empty rfl hl hquiet
  exact ⟨l, n, hl, hlength, hquiet, hrun, hstack, hnodup, hmem, hcard ▸ hle⟩

end Moment

end TripleQuery
