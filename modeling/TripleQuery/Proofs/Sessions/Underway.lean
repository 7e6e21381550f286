import TripleQuery.Proofs.Searching.Schedule
import TripleQuery.Proofs.Sessions.InFlight
import TripleQuery.Proofs.Sessions.Naming
/-!
# Underway — a search that is over before its call is

A search that reaches no source of documents has nothing to wait for. It is at
work, its callbacks included, on top of the task that is to give it a name, and
of whatever else is left to do; so nobody can speak of it as long as it lasts
(`Moment.Underway`). While the store is only read (`Moment.Reads`), it stays on
the course that was settled when it was started (`Moment.Underway.next`), and
when it is to get its name, its end was told (`Moment.Underway.done`). From then
on nothing is told of it (`Moment.Leads.newsOf_of_done`).
-/

namespace TripleQuery

open Relation (ReflTransGen ReflGen)
open Scene (Proceeds Spares OnSchedule)

theorem ordersOf_cons_of_order? {task : Task} {stack : List Task} (h : task.order? = none) :
    ordersOf (task :: stack) = ordersOf stack :=
  List.filterMap_cons_none h

namespace Session

variable {s : Session} {r : Session × List Task} {task : Task} {i : Id}

/-- What happens aside and leaves the store as it is, searches do not see. -/
theorem Aside.scene_eq (h : s.Aside r) (hg : r.1.graph = s.graph) (os : List Order)
    (told : List Notice) : r.1.scene (ordersOf r.2 ++ os) told = s.scene os told := by
  rw [scene, scene, hg, h.searches, h.orders]
  rfl

/-- **With an order that is carried out over the store as it is**, searches go
on. -/
theorem proceeds_obey {o : Order} (h : ∀ k, o.speaksOf? = some k → k ∈ s.listeners)
    (hg : (s.obey o).1.graph = s.graph) (os : List Order) (told : List Notice) :
    Proceeds (s.scene (o :: os) told)
      ((s.obey o).1.scene (ordersOf (s.obey o).2 ++ os) (told ++ s.news (.order o))) := by
  rw [news_order h]
  by_cases ho : ∃ job, o = .job job
  · obtain ⟨job, rfl⟩ := ho
    have hstep : Proceeds (s.scene (.job job :: os) told) _ := .work s.surroundings.state?
    simpa [obey, proceed, scene, surroundings, Order.notices] using hstep
  · have ho : ∀ job, o ≠ .job job := fun job he => ho ⟨job, he⟩
    rw [(s.aside_obey ho).scene_eq hg]
    exact .handOver ho

/-- **A task that is about other searches spares a search of which no path is
parked**, if it leaves the store as it is. -/
theorem Does.spares (h : s.Does task (s.exec task)) (hg : (s.exec task).1.graph = s.graph)
    (hi : ¬ s.IsAbout task i)
    (hp : ∀ (n : Nat) (f : Frame), s.searches.parked[n]? = some f → f.search ≠ i)
    (os : List Order) (told : List Notice) :
    ReflGen (Spares i) (s.scene os told)
      ((s.exec task).1.scene (ordersOf (s.exec task).2 ++ os) (told ++ s.news task)) := by
  have hother : ∀ {k}, s.IsAbout task k → k ≠ i := fun hk he => hi (he ▸ hk)
  have turn : ∀ {t os'}, s.Turns (s.exec task) t os' →
      (s.exec task).1.scene (ordersOf (s.exec task).2 ++ os) (told ++ s.news task) =
        ⟨s.graph, t, os' ++ os, told ++ s.news task⟩ := fun hr => by
    rw [scene, hr.graph, hr.searches, hr.orders]
  cases h with
  | aside h hn =>
    rw [h.scene_eq hg, hn, List.append_nil]
  | merge _ hs _ htasks hn =>
    rw [htasks, hn, List.append_nil]
    simp only [scene, hg, hs]
    exact .refl
  | @launch e p _ hv hr _ hn =>
    rw [turn hr, hn]
    exact .single (.launch e.config e.linked hv)
  | stop hk hr hn =>
    rw [turn hr, hn, List.append_nil]
    exact .single (.stop (hother hk))
  | cancel hk hr hn =>
    rw [turn hr, hn, List.append_nil]
    exact .single (.cancel (hother hk))
  | resume n hr hn =>
    rw [turn hr, hn, List.append_nil]
    by_cases hmem : n ∈ s.searches.parked
    · exact .single (.proceed (.resume hmem))
    · -- nothing happens for a ticket that nobody holds
      have hnone : s.searches.resume n = (s.searches, []) := by
        unfold Searches.resume
        rw [Std.ExtTreeMap.getElem?_eq_none hmem]
      rw [hnone]
      exact .refl
  | discard n hr hn =>
    rw [turn hr, hn, List.append_nil]
    exact .single (.discard (hp n))

/-- A command that starts a search does so for a listener, with a task that
keeps the search for the caller. -/
theorem launch_of_accepts? {c : Command} {p : Pattern} (h : s.accepts? c = some p) :
    p.validate = .ok () ∧ ∃ (listener : Listener) (after : Id → Task),
      s.command c = s.launch p listener after ∧ ∀ i, (after i).keeps? = some i := by
  cases c with
  | search name q onMatch onDone =>
    obtain ⟨rfl, hv, -⟩ := accepts?_searchAll_eq_some.1 h
    exact ⟨hv, _, _, rfl, fun _ => rfl⟩
  | searchAll q =>
    obtain ⟨rfl, hv, -⟩ := accepts?_searchAll_eq_some.1 h
    exact ⟨hv, _, _, rfl, fun _ => rfl⟩
  | searchChannel name q =>
    obtain ⟨rfl, hv, -⟩ := accepts?_searchAll_eq_some.1 h
    exact ⟨hv, _, _, rfl, fun _ => rfl⟩
  | _ => cases h

/-- A task that keeps a search is no order. -/
theorem order?_of_keeps? (h : task.keeps? = some i) : task.order? = none := by
  cases task <;> first | rfl | cases h

end Session

/-- No work is left for a search that was not started. -/
theorem Scene.IsFaithful.worksFor?_ne {w : Scene} (hw : w.IsFaithful) (hs : w.IsSound)
    {o : Order} {i : Nat} (hi : i ∉ w.table.searches) (ho : o ∈ w.orders) :
    w.table.worksFor? o ≠ some i := fun hwork =>
  hi (hs.layout.launched (Sound.root_of_isBusy hs (hw.unheard hi).2 (.inl ⟨o, ho, hwork⟩)))

namespace Moment

variable {m m' : Moment} {g : Graph} {source : Option Source} {settings config : SearchConfig}
  {i : Id} {p : Pattern} {C : Course} {after task : Task} {inner outer : List Task}
  {r : Except QueryError SearchSummary}

/-! ## While the store is only read -/

/-- What a session can come to while nothing changes the store. -/
def Reads : Moment → Moment → Prop :=
  ReflTransGen fun m m' => Next m m' ∧ m'.session.graph = m.session.graph

theorem Reads.leads (h : Reads m m') : Leads m m' :=
  h.lift id fun _ _ hnext => hnext.1

/-- What callers were told stays told. -/
theorem Leads.told_prefix (h : Leads m m') : m.told <+: m'.told := by
  induction h with
  | refl => exact List.prefix_refl _
  | tail _ hnext ih =>
    cases hnext with
    | task => exact ih.trans (List.prefix_append _ _)
    | command c => exact ih

/-- **Nothing is told of a search after its end.** -/
theorem Leads.newsOf_of_done (h : Leads (start g source settings) m)
    (hi : .started i p ∈ m.told) (hd : .done i r ∈ m.told) (h' : Leads m m') :
    newsOf i m'.told = newsOf i m.told := by
  obtain ⟨later, hlater⟩ := h'.told_prefix
  have hi' : .started i p ∈ m'.told := hlater ▸ List.mem_append_left _ hi
  obtain ⟨x, found, ending, -, hst⟩ := h.isSound.faithful.exists_story hi
  obtain ⟨x', found', ending', -, hst'⟩ := (Leads.isSound (h.trans h')).faithful.exists_story hi'
  obtain rfl := hst.ending_of_done hd
  have hnews : newsOf i m.told = _ := hst.news
  have hnews' : newsOf i m'.told = _ := hst'.news
  rw [← hlater, newsOf_append, hnews, List.cons_append, List.append_assoc,
    List.cons.injEq] at hnews'
  obtain ⟨-, hsplit⟩ := hnews'
  -- what follows the end stands where only the end may stand
  have hnil : newsOf i later = [] := by
    rcases List.append_eq_append_iff.1 hsplit with ⟨as, ha, hb⟩ | ⟨as, ha, hb⟩
    · cases as with
      | nil =>
        cases ending' with
        | none => simp at hb
        | some r' => exact (List.cons.inj hb).2
      | cons a as =>
        have hfound : a ∈ found'.map (Notice.found i) := ha ▸ by simp
        obtain ⟨b, -, rfl⟩ := List.mem_map.1 hfound
        simp at hb
    · cases ending' with
      | none => simp at hb
      | some r' =>
        have hlen := congrArg List.length hb
        simp only [Option.toList_some, List.map_cons, List.map_nil, List.length_append,
          List.length_cons, List.length_nil] at hlen
        exact List.eq_nil_of_length_eq_zero (by omega)
  rw [← hlater, newsOf_append, hnil, List.append_nil]

/-- What was told of a search tells which matches were found. -/
theorem matchesOf_of_newsOf {told told' : List Notice} (h : newsOf i told' = newsOf i told) :
    matchesOf i told' = matchesOf i told := by
  have hnews : ∀ ns : List Notice, matchesOf i ns = matchesOf i (newsOf i ns) := by
    intro ns
    induction ns with
    | nil => rfl
    | cons n ns ih =>
      rw [← List.singleton_append, matchesOf_append, newsOf_append, matchesOf_append, ih]
      congr 1
      by_cases hn : n.search = i
      · rw [newsOf, List.filter_singleton, decide_eq_true hn]
        rfl
      · rw [newsOf, List.filter_singleton, decide_eq_false hn]
        cases n with
        | found k b => simpa [matchesOf, Notice.match?, Notice.search] using hn
        | _ => rfl
  rw [hnews told', hnews told, h]

/-! ## A search underway -/

/-- A search at work on top of the task that is to give it a name, on course. -/
structure Underway (m : Moment) (i : Id) (C : Course) (config : SearchConfig) (after : Task)
    (inner outer : List Task) : Prop where
  stack : m.stack = inner ++ after :: outer
  keeps : after.keeps? = some i
  /-- Nobody can speak of it. -/
  unnamed : ¬ m.session.Names i
  unkept : i ∉ keptBy inner
  /-- What is left below is no work of it. -/
  standing : ∃ t, Sound t (ordersOf outer) ∧ t.Before m.session.searches ∧
    ∀ o ∈ ordersOf outer, t.worksFor? o ≠ some i
  course : ∃ x, x.config = config ∧ m.scene.OnSchedule i C x

/-- **A search that is underway goes on**: a task above the one that is to name
it is carried out, and leaves others there. -/
theorem Underway.next (h : m.Underway i C config after (task :: inner) outer)
    (hm : Leads (start g source settings) m) (hnext : Next m m')
    (hg : m'.session.graph = m.session.graph) :
    ∃ inner', m'.Underway i C config after inner' outer := by
  obtain ⟨s, stack, told⟩ := m
  obtain rfl : stack = task :: (inner ++ after :: outer) := h.stack
  cases hnext with
  | task =>
  have hsound := hm.isSound
  have horder : (⟨s, task :: (inner ++ after :: outer), told⟩ : Moment).scene.InOrder :=
    ⟨hsound.sound, hsound.faithful, hm.attended⟩
  have hline := ((hm.steps (isSound_start g source settings)).1.inLine).1
  obtain ⟨x, hconfig, hx⟩ := h.course
  have hkept : task.keeps? ≠ some i := fun he => h.unkept (by simp [keptBy, he])
  have habout : ¬ s.IsAbout task i := by
    rintro (⟨name, hname⟩ | he)
    · exact h.unnamed (Session.names_of_search? hname)
    · exact hkept he
  -- searches see at most one step
  have hspares : ReflGen (Spares i)
      (s.scene (ordersOf (task :: (inner ++ after :: outer))) told)
      ((s.exec task).1.scene (ordersOf ((s.exec task).2 ++ (inner ++ after :: outer)))
        (told ++ s.news task)) := by
    rw [ordersOf_append]
    cases ho : task.order? with
    | none =>
      rw [ordersOf_cons_of_order? ho]
      exact (s.exec_does task ho).spares hg habout (fun n f hf => hx.unparked hf) _ _
    | some o =>
      obtain rfl := Task.eq_order ho
      refine .single (.proceed (s.proceeds_obey (fun k hk => hsound.listens (o := o) ?_ hk) hg _ _))
      exact List.mem_cons_self
  have hcourse : ∃ x, x.config = config ∧ OnSchedule
      ((s.exec task).1.scene (ordersOf ((s.exec task).2 ++ (inner ++ after :: outer)))
        (told ++ s.news task)) i C x := by
    rcases Relation.reflGen_iff _ _ _ |>.1 hspares with hsame | hstep
    · exact ⟨x, hconfig, hsame ▸ hx⟩
    · obtain ⟨x', hconfig', hx'⟩ := hstep.onSchedule horder hline hx
      exact ⟨x', hconfig'.trans hconfig, hx'⟩
  obtain ⟨t, ht, hbefore, hforeign⟩ := h.standing
  have hchristens := s.exec_christens task
  have hlt : i < s.searches.next :=
    Nat.lt_of_succ_lt (hsound.sound.layout.search_lt (mem_of_getElem? hx.started))
  refine ⟨(s.exec task).2 ++ inner, ?_, h.keeps, fun hn => ?_, fun hk => ?_,
    ⟨t, ht, ?_, hforeign⟩, hcourse⟩
  · exact (List.append_assoc _ _ _).symm
  · exact (hchristens.names hn).elim h.unnamed hkept
  · rw [keptBy_append] at hk
    rcases List.mem_append.1 hk with hk | hk
    · exact absurd (hchristens.kept hk).1 (Nat.ne_of_lt hlt)
    · refine h.unkept ?_
      change i ∈ keptBy ([task] ++ inner)
      rw [keptBy_append]
      exact List.mem_append_right _ hk
  · exact hbefore.trans (Next.before (.task (s := s)) hsound)

/-- **When a search is to get its name, its end was told.** -/
theorem Underway.done (h : m.Underway i C config after [] outer)
    (hm : Leads (start g source settings) m) : ∃ r, .done i r ∈ m.told := by
  obtain ⟨x, -, hx⟩ := h.course
  obtain ⟨t, ht, hbefore, hforeign⟩ := h.standing
  have horders : ordersOf m.stack = ordersOf outer := by
    rw [h.stack, List.nil_append, ordersOf_cons_of_order? (Session.order?_of_keeps? h.keeps)]
  have hsound := hm.isSound
  refine (Scene.done_of_idle hsound.sound hsound.faithful hm.attended hx.started
    (fun o ho => ?_) fun n f hf => hx.unparked hf).2
  rw [scene, horders] at ho
  exact fun hwork => hforeign o ho (ht.worksFor?_of_before hbefore ho hwork)

/-! ## From the command to the end of the call -/

/-- A session is about to carry out a command that starts a search without a
source of documents. -/
structure Launches (m : Moment) (config : SearchConfig) (p : Pattern) : Prop where
  reached : ∃ (g : Graph) (source : Option Source) (settings : SearchConfig),
    Leads (start g source settings) m
  engine : m.session.engine = some ⟨config, false⟩
  accepted : ∃ c rest, m.stack = .command c :: rest ∧ m.session.accepts? c = some p

/-- The search that will be started next. -/
def upcoming (m : Moment) : Id :=
  m.session.searches.next

/-- The course of a pattern in the store as it is. -/
def courseOf (m : Moment) (p : Pattern) : Course :=
  course m.session.graph ∅ p p.initial

/-- **A search is underway once it was started.** -/
theorem Launches.underway (h : m.Launches config p) (hnext : Next m m') :
    (∃ after inner,
      m'.Underway m.upcoming (m.courseOf p) config after inner m.stack.tail) ∧
    .started m.upcoming p ∈ m'.told := by
  obtain ⟨g, source, settings, hm⟩ := h.reached
  obtain ⟨c, outer, hstack, hp⟩ := h.accepted
  obtain ⟨s, stack, told⟩ := m
  subst hstack
  obtain ⟨hv, listener, after, hcmd, hafter⟩ := Session.launch_of_accepts? hp
  have hengine : s.engine = some ⟨config, false⟩ := h.engine
  have hexec : s.exec (.command c) =
      ({ s with
          searches := (s.searches.launch config false p).1
          listeners := s.listeners.insert s.searches.next listener },
        [.order (.job (s.searches.launch config false p).2.2), after s.searches.next]) := by
    change s.command c = _
    rw [hcmd, Session.launch, hengine, hv]
    rfl
  have hnews : s.news (.command c) = [.started s.searches.next p] := by
    rw [Session.news, hp]
    rfl
  have hsound := hm.isSound
  have hs : Sound s.searches (ordersOf outer) := hsound.sound
  have hnew := hs.layout.next_not_mem_searches
  cases hnext with
  | task =>
  refine ⟨⟨after s.searches.next, [.order (.job (s.searches.launch config false p).2.2)], ?_,
    hafter _, fun hn => ?_, by simp [keptBy],
    ⟨s.searches, hs, ?_, fun o ho => hsound.faithful.worksFor?_ne hsound.sound hnew ho⟩,
    { config := config, linked := false }, rfl, ?_⟩, ?_⟩
  · rw [hexec]
    rfl
  · rw [hexec] at hn
    exact absurd (hm.isKnown _ (.inl hn)) (Nat.lt_irrefl _)
  · rw [hexec]
    exact s.searches.before_launch config false p
  · have hone : ∀ o : Order, ordersOf [.order o, after s.searches.next] = [o] := fun o =>
      congrArg (o :: ·) (ordersOf_cons_of_order? (Session.order?_of_keeps? (hafter _)))
    rw [scene, ordersOf_append, hexec, hnews, hone]
    exact Scene.onSchedule_launch hs hsound.faithful config p
  · rw [hnews]
    exact List.mem_append_right _ (List.mem_singleton_self _)

/-- What a caller was told of a search on its course. -/
structure Tells (m : Moment) (i : Id) (C : Course) (config : SearchConfig) : Prop where
  found : matchesOf i m.told <+: C.found
  ends {r : Except QueryError SearchSummary} :
    .done i r ∈ m.told → C.Ends config (matchesOf i m.told) r

/-- It stays so as long as nothing else is told of the search. -/
theorem Tells.of_newsOf (h : m.Tells i C config) (hn : newsOf i m'.told = newsOf i m.told) :
    m'.Tells i C config where
  found := matchesOf_of_newsOf hn ▸ h.found
  ends {r} hr := by
    have hmem : .done i r ∈ newsOf i m'.told := mem_newsOf.2 hr
    rw [hn] at hmem
    exact matchesOf_of_newsOf hn ▸ h.ends (mem_newsOf.1 hmem)

/-- So it is before anything was told of the search. -/
theorem tells_of_newsOf_eq_nil (h : newsOf i m.told = []) : m.Tells i C config where
  found := by
    rw [matchesOf_eq_nil h]
    exact List.nil_prefix
  ends {r} hr := by
    have hmem : .done i r ∈ newsOf i m.told := mem_newsOf.2 hr
    rw [h] at hmem
    cases hmem

/-- The caller of a search that is underway. -/
theorem Underway.tells (h : m.Underway i C config after inner outer)
    (hm : Leads (start g source settings) m) : m.Tells i C config := by
  obtain ⟨x, rfl, hx⟩ := h.course
  have hsound := hm.isSound
  obtain ⟨hfound, hends⟩ := hx.tells ⟨hsound.sound, hsound.faithful, hm.attended⟩
  exact ⟨hfound, fun {r} hr => hends r hr⟩

/-- How far a search has come whose start was about to be carried out. -/
inductive Stage (m : Moment) (config : SearchConfig) (p : Pattern) (w : Moment) : Prop
  /-- It was not started yet. -/
  | before : w = m → Stage m config p w
  /-- It is at work. -/
  | underway {after : Task} {inner : List Task} :
      w.Underway m.upcoming (m.courseOf p) config after inner m.stack.tail →
      .started m.upcoming p ∈ w.told → Stage m config p w
  /-- Its end was told. -/
  | ended {r : Except QueryError SearchSummary} :
      w.Tells m.upcoming (m.courseOf p) config → .started m.upcoming p ∈ w.told →
      .done m.upcoming r ∈ w.told → Stage m config p w

/-- **From start to end.** While the store is only read, a search that was
started without a source is underway until its end was told. -/
theorem Launches.stage (h : m.Launches config p) (hrun : Reads m m') : Stage m config p m' := by
  obtain ⟨g, source, settings, hm⟩ := h.reached
  induction hrun with
  | refl => exact .before rfl
  | @tail w w' hlead hnext ih =>
    obtain ⟨hnext, hg⟩ := hnext
    have hw : Leads (start g source settings) w := hm.trans (Reads.leads hlead)
    have htold := Leads.told_prefix (.single hnext)
    -- once its end was told, nothing is told of it
    have stay : ∀ {r}, w.Tells m.upcoming (m.courseOf p) config →
        .started m.upcoming p ∈ w.told → .done m.upcoming r ∈ w.told →
        Stage m config p w' := fun ht hs hr =>
      .ended (ht.of_newsOf (hw.newsOf_of_done hs hr (.single hnext))) (htold.subset hs)
        (htold.subset hr)
    cases ih with
    | before he =>
      subst he
      obtain ⟨⟨after, inner, hu⟩, hstarted⟩ := h.underway hnext
      exact .underway hu hstarted
    | @underway after inner hu hstarted =>
      cases inner with
      | cons task inner =>
        obtain ⟨inner', hu'⟩ := hu.next hw hnext hg
        exact .underway hu' (htold.subset hstarted)
      | nil =>
        obtain ⟨r, hr⟩ := hu.done hw
        exact stay (hu.tells hw) hstarted hr
    | ended ht hstarted hr => exact stay ht hstarted hr

/-- **What a caller is told of a search without a source** are the first matches
of its course, and the end that belongs to them; and this before the call is
over. -/
theorem Launches.tells (h : m.Launches config p) (hrun : Reads m m') :
    m'.Tells m.upcoming (m.courseOf p) config ∧
      (m'.stack <:+ m.stack.tail → ∃ r, .done m.upcoming r ∈ m'.told) := by
  obtain ⟨g, source, settings, hm⟩ := h.reached
  have hw : Leads (start g source settings) m' := hm.trans hrun.leads
  cases h.stage hrun with
  | before he =>
    subst he
    have hsound := hw.isSound
    have hnew := hsound.sound.layout.next_not_mem_searches
    refine ⟨tells_of_newsOf_eq_nil (hsound.faithful.unheard hnew).1, fun hover => ?_⟩
    -- the command is still there
    obtain ⟨c, rest, hstack, -⟩ := h.accepted
    have hlen := hover.length_le
    rw [hstack, List.tail_cons, List.length_cons] at hlen
    omega
  | underway hu hstarted =>
    refine ⟨hu.tells hw, fun hover => ?_⟩
    -- the task that is to name it is still there
    have hlen := hover.length_le
    rw [hu.stack, List.length_append, List.length_cons] at hlen
    omega
  | ended ht _ hr => exact ⟨ht, fun _ => ⟨_, hr⟩⟩

end Moment

end TripleQuery
