import TripleQuery.Proofs.Sessions.Capped
import TripleQuery.Proofs.Sessions.Listening
import TripleQuery.Proofs.Sessions.Underway
/-!
# Answers for callers who do not wait

A caller who does not wait is answered when his search has come as far as it can
for now. Until then the session owes him the answer: he collects what is told of
the search, and what was left to do before the search was started is no work of
it (`Moment.Owes`, `Moment.Next.allOwed`). So, when he is answered, every match
was told that was found, and the search is done unless a path of it is parked.

The answer goes by whether the search is done. A search that the limit or an
error has stopped is not done as long as a path of it is parked, though nothing
can come of that path any more: then the answer is that the search had to wait,
and neither the matches nor the error (`Moment.Leads.answer_collected`,
`Moment.not_forall_suits`).
-/

namespace TripleQuery

namespace Session

variable {s : Session} {p : Pattern} {listener : Listener} {after : Id → Task} {task : Task}
  {i : Id}

theorem after_of_mem_launch (h : .collected i ∈ (s.launch p listener after).2) :
    after s.searches.next = .collected i := by
  unfold launch at h
  split at h
  · cases h
  · split at h
    · cases h
    · -- the task behind the first job is the only one of this kind
      simp only at h
      split at h <;> simp only [inUse, List.mem_append, List.mem_cons, reduceCtorEq, false_or,
        List.not_mem_nil, or_false] at h <;> exact h.symm

/-- A search that is started to collect its matches: behind the task that is to
answer there is no order. -/
theorem launch_collected {e : Engine} (s : Session) (he : s.engine = some e)
    (hv : p.validate = .ok ()) :
    (s.launch p (.collector [] none) .collected).1.searches =
        (s.searches.launch e.config e.linked p).1 ∧
      (s.launch p (.collector [] none) .collected).1.listeners =
        s.listeners.insert s.searches.next (.collector [] none) ∧
      ∀ {i : Id} {inner rest : List Task},
        (s.launch p (.collector [] none) .collected).2 = inner ++ .collected i :: rest →
          s.searches.next = i ∧ ordersOf rest = [] := by
  rcases s.launch_cases p (.collector [] none) .collected with
    ⟨e', he', -, -, hsearches, hlisteners, tasks, htasks, htwo⟩ | ⟨hno, -⟩
  · obtain rfl := Option.some.inj (he.symm.trans he')
    refine ⟨hsearches, hlisteners, fun {i inner rest} h => ⟨?_, ?_⟩⟩
    · have hmem : .collected i ∈ (s.launch p (.collector [] none) .collected).2 :=
        h ▸ List.mem_append_right _ List.mem_cons_self
      exact Task.collected.inj (after_of_mem_launch hmem)
    · rw [htwo] at h
      cases inner with
      | nil => cases h
      | cons o inner =>
        obtain ⟨-, htail⟩ := List.cons.inj h
        refine List.filterMap_eq_nil_iff.2 fun task htask => ?_
        rcases htasks task (htail ▸ List.mem_append_right _ (List.mem_cons_of_mem _ htask)) with
          rfl | rfl <;> rfl
  · rcases hno with hno | hno
    · rw [he] at hno
      cases hno
    · exact absurd hv hno

/-- **An answer is owed only to who has started a search** to collect its
matches. -/
theorem exec_of_collected (h : .collected i ∈ (s.exec task).2) :
    ∃ e p, task = .command (.searchAll p) ∧ s.engine = some e ∧ p.validate = .ok () := by
  have hkept : i ∈ keptBy (s.exec task).2 := List.mem_filterMap.2 ⟨_, h, rfl⟩
  obtain ⟨rfl, hlt⟩ := (s.exec_christens task).kept hkept
  have horder : task.order? = none := by
    cases task with
    | order o =>
      rw [show keptBy (s.exec (.order o)).2 = [] from (discreet_obey s o).kept] at hkept
      cases hkept
    | _ => rfl
  -- whatever starts no search, takes no number
  have hfresh : (s.exec task).1.searches.next ≠ s.searches.next := (Nat.ne_of_lt hlt).symm
  cases s.exec_does task horder with
  | @launch e p he hv _ _ hn =>
    have htold : .started s.searches.next p ∈ s.news task := by
      rw [hn]
      exact List.mem_singleton_self _
    obtain ⟨c, rfl, hp⟩ := accepts_of_started htold
    cases c with
    | searchAll q =>
      obtain ⟨rfl, -⟩ := accepts?_searchAll_eq_some.1 hp
      exact ⟨e, q, rfl, he, hv⟩
    | search name q onMatch onDone => cases after_of_mem_launch h
    | searchChannel name q => cases after_of_mem_launch h
    | _ => cases hp
  | aside ha _ => exact absurd (congrArg Searches.next ha.searches) hfresh
  | merge _ hs _ _ _ => exact absurd (congrArg Searches.next hs) hfresh
  | stop _ hr _ | cancel _ hr _ =>
    refine absurd ?_ hfresh
    rw [hr.searches, Searches.next_update]
  | resume n hr _ =>
    refine absurd ?_ hfresh
    rw [hr.searches, Searches.resume]
    split <;> rfl
  | discard n hr _ =>
    refine absurd ?_ hfresh
    rw [hr.searches, Searches.discard]
    split <;> rfl

end Session

namespace Moment

variable {m m' : Moment} {g : Graph} {source : Option Source} {settings : SearchConfig} {i : Id}
  {x : Search} {outer : List Task}

/-! ## What a session owes -/

/-- Some tasks are from before the search was started: none of their orders is
work of it. -/
def Standing (m : Moment) (i : Id) (outer : List Task) : Prop :=
  ∃ t, Sound t (ordersOf outer) ∧ t.Before m.session.searches ∧
    ∀ o ∈ ordersOf outer, t.worksFor? o ≠ some i

theorem Standing.next (h : m.Standing i outer) (hm : m.IsSound) (hnext : Next m m') :
    m'.Standing i outer := by
  obtain ⟨t, ht, hbefore, hforeign⟩ := h
  exact ⟨t, ht, hbefore.trans (hnext.before hm), hforeign⟩

/-- They are no work of it later either. -/
theorem Standing.idle (h : m.Standing i outer) {o : Order} (ho : o ∈ ordersOf outer) :
    m.session.searches.worksFor? o ≠ some i := by
  obtain ⟨t, ht, hbefore, hforeign⟩ := h
  exact fun hwork => hforeign o ho (ht.worksFor?_of_before hbefore ho hwork)

/-- The session owes an answer to who has started a search to collect its
matches, once the tasks above are carried out. -/
structure Owes (m : Moment) (i : Id) (outer : List Task) : Prop where
  started : ∃ p, .started i p ∈ m.told
  collects : m.Collects i
  standing : m.Standing i outer

/-- It owes the answer as long as it has not given it. -/
theorem Owes.next (h : m.Owes i outer) (hm : m.IsSound) (hnext : Next m m') :
    m'.Owes i outer := by
  obtain ⟨p, hp⟩ := h.started
  obtain ⟨x, hx⟩ := hm.exists_search hp
  have hlt : i < m.session.searches.next :=
    Nat.lt_of_succ_lt (hm.sound.layout.search_lt (mem_of_getElem? hx))
  exact ⟨⟨p, (Leads.told_prefix (.single hnext)).subset hp⟩, h.collects.next hm hlt hnext,
    h.standing.next hm hnext⟩

/-- **A search that is started for somebody who collects** owes him an
answer. -/
theorem owes_of_collected {s : Session} {task : Task} {stack inner rest : List Task}
    {told : List Notice} (hm : IsSound ⟨s, task :: stack, told⟩)
    (h : (s.exec task).2 = inner ++ .collected i :: rest) :
    Owes ⟨(s.exec task).1, (s.exec task).2 ++ stack, told ++ s.news task⟩ i (rest ++ stack) := by
  have hmem : .collected i ∈ (s.exec task).2 := h ▸ List.mem_append_right _ List.mem_cons_self
  obtain ⟨e, p, rfl, he, hv⟩ := Session.exec_of_collected hmem
  obtain ⟨hsearches, hlisteners, hbehind⟩ := s.launch_collected he hv
  obtain ⟨rfl, hrest⟩ := hbehind h
  have hs : Sound s.searches (ordersOf stack) := hm.sound
  have hnew := hs.layout.next_not_mem_searches
  rw [Session.news_searchAll he hv]
  refine ⟨⟨p, List.mem_append_right _ (List.mem_singleton_self _)⟩,
    collects_of_started hm hnew ?_ p, s.searches, ?_, ?_, ?_⟩
  · change (s.launch p (.collector [] none) .collected).1.listeners[s.searches.next]? = _
    rw [hlisteners, Std.ExtTreeMap.getElem?_insert_self]
  · rw [ordersOf_append, hrest]
    exact hs
  · change s.searches.Before (s.launch p (.collector [] none) .collected).1.searches
    rw [hsearches]
    exact s.searches.before_launch _ _ p
  · rw [ordersOf_append, hrest]
    exact fun o ho => hm.faithful.worksFor?_ne hm.sound hnew ho

/-- Every answer that is still to be given is owed. -/
def AllOwed (m : Moment) : Prop :=
  ∀ (inner : List Task) (i : Id) (outer : List Task),
    m.stack = inner ++ .collected i :: outer → m.Owes i outer

/-- **From one moment to the next**, answers are still owed, or owed from now
on. -/
theorem Next.allOwed (h : Next m m') (hm : m.IsSound) (ho : m.AllOwed) : m'.AllOwed := by
  intro inner i outer hstack
  have hnext := h
  cases hnext with
  | command c =>
    cases inner with
    | nil => cases hstack
    | cons _ inner =>
      obtain ⟨-, hnil⟩ := List.cons.inj hstack
      simp at hnil
  | @task s task stack told =>
    rcases List.append_eq_append_iff.1 hstack with ⟨as, hinner, hold⟩ | ⟨as, hnew, houter⟩
    · -- it was owed before
      refine (ho (task :: as) i outer ?_).next hm h
      exact congrArg (task :: ·) hold
    · cases as with
      | nil =>
        refine (ho [task] i outer ?_).next hm h
        exact congrArg (task :: ·) houter.symm
      | cons a as =>
        obtain ⟨rfl, rfl⟩ := List.cons.inj houter
        exact owes_of_collected hm hnew

theorem Leads.allOwed (h : Leads (start g source settings) m) : m.AllOwed := by
  induction h with
  | refl => exact fun inner i outer hstack => by simp [start] at hstack
  | tail hlead hnext ih => exact hnext.allOwed (Leads.isSound hlead) ih

/-! ## What the answer is -/

/-- **The end that was told is as the record has it.** -/
theorem Leads.error_eq_of_done {r : Except QueryError SearchSummary}
    (h : Leads (start g source settings) m) (hx : m.session.searches.searches[i]? = some x)
    (hr : .done i r ∈ m.told) : x.error = errorOf r := by
  have hstart := isSound_start g source settings
  have hnothing : (start g source settings).scene.EndsAsRecorded := fun k z r hz => by
    simp [start, scene, Session.start] at hz
  exact (h.steps hstart).1.endsAsRecorded hstart.sound hstart.faithful hnothing i x r hx (.inl hr)

/-- A path of the search is parked. -/
def Parks (m : Moment) (i : Id) : Prop :=
  ∃ (n : Nat) (f : Frame), m.session.searches.parked[n]? = some f ∧ f.search = i

/-- When the answer is due, the search is not at work. -/
theorem Owes.idle (h : m.Owes i outer) (hs : m.stack = .collected i :: outer) {o : Order}
    (ho : o ∈ ordersOf m.stack) : m.session.searches.worksFor? o ≠ some i := by
  rw [hs, ordersOf_cons_of_order? rfl] at ho
  exact h.standing.idle ho

/-- So its caller is not being told of a match. -/
theorem Owes.not_delivering (h : m.Owes i outer) (hm : m.IsSound)
    (hs : m.stack = .collected i :: outer) (hx : m.session.searches.searches[i]? = some x) :
    x.delivering = false := by
  rw [← Bool.not_eq_true]
  exact fun hbusy => h.idle hs ((hm.faithful.paced hx).draining hbusy) rfl

/-- **When the answer is due, the search is done unless a path is parked.** -/
theorem Owes.done_iff (h : m.Owes i outer) (hm : Leads (start g source settings) m)
    (hs : m.stack = .collected i :: outer) (hx : m.session.searches.searches[i]? = some x) :
    (∃ r, .done i r ∈ m.told) ↔ ¬ m.Parks i := by
  constructor
  · rintro ⟨r, hr⟩ hparks
    obtain ⟨p, hp⟩ := h.started
    have hsound := hm.isSound
    obtain ⟨y, found, ending, hy, hst⟩ := hsound.faithful.exists_story hp
    obtain rfl := hst.ending_of_done hr
    exact (Scene.story_ended_iff hsound.sound hsound.faithful hy hst).1 rfl (.inr (.inl hparks))
  · intro hnone
    have hsound := hm.isSound
    exact (Scene.done_of_idle hsound.sound hsound.faithful hm.attended hx
      (fun o ho => h.idle hs ho) fun n f hf hi => hnone ⟨n, f, hf, hi⟩).2

/-- **It counts what was told**, since no match is waiting. -/
theorem Owes.matchCount_eq (h : m.Owes i outer) (hm : Leads (start g source settings) m)
    (hs : m.stack = .collected i :: outer) (hx : m.session.searches.searches[i]? = some x) :
    m.unheard i = [] ∧ x.matchCount = (matchesOf i m.told).length := by
  have hsound := hm.isSound
  have hline := ((hm.steps (isSound_start g source settings)).1.inLine).1
  have hunheard := hsound.unheard_eq_nil hline hx (h.not_delivering hsound hs hx)
  refine ⟨hunheard, ?_⟩
  rw [hsound.matchCount_eq hx, hunheard]
  rfl

/-- **If a path is parked**, the answer is that the search had to wait. -/
theorem Owes.reply_of_parks (h : m.Owes i outer) (hm : Leads (start g source settings) m)
    (hs : m.stack = .collected i :: outer) (hparks : m.Parks i) :
    (m.session.collected i).reply = .failed (.suspended (matchesOf i m.told).length) := by
  obtain ⟨p, hp⟩ := h.started
  obtain ⟨x, hx⟩ := hm.isSound.exists_search hp
  obtain ⟨result, hlisten, hdone, -⟩ := h.collects
  have hnone : result = none := by
    by_contra hsome
    obtain ⟨r, hr⟩ := Option.ne_none_iff_exists'.1 hsome
    exact (h.done_iff hm hs hx).1 ⟨r, hdone r hr⟩ hparks
  rw [← (h.matchCount_eq hm hs hx).2]
  simp [Session.collected, hlisten, hnone, Searches.update_of_getElem? hx, Session.answer,
    Search.cancel]

/-- **If none is parked**, it is the error that was recorded, or the matches. -/
theorem Owes.reply_of_not_parks (h : m.Owes i outer) (hm : Leads (start g source settings) m)
    (hs : m.stack = .collected i :: outer) (hx : m.session.searches.searches[i]? = some x)
    (hfree : ¬ m.Parks i) :
    (m.session.collected i).reply = x.error.elim (.results (matchesOf i m.told)) .failed := by
  obtain ⟨result, hlisten, hdone, hend⟩ := h.collects
  obtain ⟨r, hr⟩ := (h.done_iff hm hs hx).2 hfree
  obtain ⟨r', rfl⟩ := Option.ne_none_iff_exists'.1 (hend r hr)
  rw [hm.error_eq_of_done hx (hdone r' rfl)]
  cases r' <;> simp [Session.collected, hlisten, Session.answer, errorOf]

/-- What a search that has come so far calls for: its error, if it has met one;
its matches, if the limit has stopped it; and the answer that it had to wait
only if it goes on, with a path that is parked. -/
structure Suits (m : Moment) (i : Id) (x : Search) (answer : Reply) : Prop where
  error {e : QueryError} : x.error = some e → answer = .failed e
  truncated : x.error = none → x.truncated = true → answer = .results (matchesOf i m.told)
  suspended {n : Nat} : answer = .failed (.suspended n) → m.Parks i ∧ x.stopped = false

/-- **An answer that goes by what is parked suits a search** that was not stopped,
and one of which no path is parked. -/
theorem suits_iff {answer : Reply} (hx : x.IsConsistent)
    (hparks : m.Parks i → ∃ n, answer = .failed (.suspended n))
    (hfree : ¬ m.Parks i → answer = x.error.elim (.results (matchesOf i m.told)) .failed) :
    m.Suits i x answer ↔ ¬ (x.stopped = true ∧ m.Parks i) := by
  constructor
  · rintro hsuits ⟨hstop, hp⟩
    obtain ⟨n, hn⟩ := hparks hp
    rw [(hsuits.suspended hn).2] at hstop
    cases hstop
  · intro hnot
    -- a search that was stopped has no path parked, so it is done
    have hover : x.stopped = true → answer = x.error.elim (.results (matchesOf i m.told)) .failed :=
      fun hstop => hfree fun hp => hnot ⟨hstop, hp⟩
    refine ⟨fun {e} he => ?_, fun he hcut => ?_, fun {n} hn => ?_⟩
    · rw [hover (hx.error he).1, he]
      rfl
    · rw [hover (hx.truncated hcut).1, he]
      rfl
    · have hp : m.Parks i := by
        by_contra hno
        rw [hfree hno] at hn
        cases he : x.error with
        | none =>
          rw [he] at hn
          cases hn
        | some e =>
          rw [he] at hn
          obtain rfl := Reply.failed.inj hn
          exact absurd (hx.error he).2 Bool.false_ne_true
      exact ⟨hp, Bool.eq_false_of_not_eq_true fun hstop => hnot ⟨hstop, hp⟩⟩

/-- **The answer for a caller who does not wait.** Let it be due. If a path of
the search is parked, it is that the search had to wait, after the matches that
were found; and if none is, it is the error that the search has met or else what
was found. The search may have been stopped, so that no further match is told,
whatever happens. The answer is the one that is called for, unless both is the
case: the search was stopped, and a path is parked. -/
theorem Leads.answer_collected (h : Leads (start g source settings) m)
    (hs : m.stack = .collected i :: outer) :
    ∃ x, m.session.searches.searches[i]? = some x ∧
      (m.Parks i → (m.session.collected i).reply =
        .failed (.suspended (matchesOf i m.told).length)) ∧
      (¬ m.Parks i → (m.session.collected i).reply =
        x.error.elim (.results (matchesOf i m.told)) .failed) ∧
      (x.stopped = true → ∀ m', Leads m m' → matchesOf i m'.told = matchesOf i m.told) ∧
      (m.Suits i x (m.session.collected i).reply ↔ ¬ (x.stopped = true ∧ m.Parks i)) := by
  have howes := h.allOwed [] i outer hs
  obtain ⟨p, hp⟩ := howes.started
  obtain ⟨x, hx⟩ := h.isSound.exists_search hp
  have hparks := howes.reply_of_parks h hs
  have hfree := howes.reply_of_not_parks h hs hx
  refine ⟨x, hx, hparks, hfree, fun hstop m' h' => ?_,
    suits_iff (h.consistent hx) (fun hp => ⟨_, hparks hp⟩) hfree⟩
  -- nothing was waiting to be told, and nothing more is found
  have hstart := isSound_start g source settings
  obtain ⟨later, -, htold, -, -, htaken, -⟩ := h'.later_of_stopped h.isSound
    (h.prompt hstart (isPrompt_start g source settings)) (h.steps hstart).1.inLine.1 hx hstop
  rw [(howes.matchCount_eq h hs hx).1] at htaken
  rw [htold, matchesOf_append, (List.append_eq_nil_iff.1 htaken).1, List.append_nil]

/-! ## A search that has enough while a path is parked -/

/-- A caller looks for one address, without waiting. The document of one
acquaintance is asked for, and the path that needs it is parked; the document of
the other is there already, and so is an address. He is about to be answered. -/
def satisfied : Moment :=
  carryOutAll 21 [.script (.setState "cid" .fetched), .searchAll mails]
    (start correspondents (some (.scripted { mode := .hold })) (atMost 1))

theorem leads_satisfied :
    Leads (start correspondents (some (.scripted { mode := .hold })) (atMost 1)) satisfied :=
  leads_carryOutAll 21 _ _

theorem stack_satisfied : satisfied.stack = [.collected 0, .leave] := by
  cbv

theorem told_satisfied : satisfied.told = [.started 0 mails, .found 0 queuedMail] := by
  cbv

theorem record_satisfied :
    (satisfied.session.searches.searches[0]?.map fun x => (x.error, x.truncated, x.stopped)) =
      some (none, true, true) := by
  cbv

theorem parked_satisfied : (satisfied.session.searches.parked[2]?.map (·.search)) = some 0 := by
  cbv

theorem parks_satisfied : satisfied.Parks 0 := by
  obtain ⟨f, hf, hi⟩ := Option.map_eq_some_iff.1 parked_satisfied
  exact ⟨2, f, hf, hi⟩

theorem reply_satisfied : (satisfied.session.collected 0).reply = .failed (.suspended 1) := by
  cbv

/-- He is told that the search had to wait, though he has all that he will ever
get. -/
theorem satisfied_answer : satisfied.stack = [.collected 0, .leave] ∧ ∃ x,
    satisfied.session.searches.searches[0]? = some x ∧ x.stopped = true ∧ satisfied.Parks 0 ∧
      (satisfied.session.collected 0).reply = .failed (.suspended 1) ∧
      (∀ m', Leads satisfied m' → matchesOf 0 m'.told = [queuedMail]) ∧
      ¬ satisfied.Suits 0 x (satisfied.session.collected 0).reply := by
  obtain ⟨x, hx, hwaits, -, hstays, hsuits⟩ := leads_satisfied.answer_collected stack_satisfied
  have hfound : matchesOf 0 satisfied.told = [queuedMail] := by
    rw [told_satisfied]
    rfl
  rw [hfound] at hwaits hstays
  have hrecord := record_satisfied
  rw [hx, Option.map_some, Option.some.injEq, Prod.mk.injEq, Prod.mk.injEq] at hrecord
  obtain ⟨-, -, hstop⟩ := hrecord
  exact ⟨stack_satisfied, x, hx, hstop, parks_satisfied, hwaits parks_satisfied, hstays hstop,
    fun hsuit => hsuits.1 hsuit ⟨hstop, parks_satisfied⟩⟩

/-- **The answer may be that the search had to wait** though the limit has stopped
it. -/
theorem not_forall_suits :
    ¬ ∀ (g : Graph) (source : Option Source) (settings : SearchConfig) (m : Moment) (i : Id)
      (outer : List Task) (x : Search), Leads (start g source settings) m →
        m.stack = .collected i :: outer → m.session.searches.searches[i]? = some x →
          m.Suits i x (m.session.collected i).reply := by
  intro hall
  obtain ⟨x, hx, hrecord⟩ := Option.map_eq_some_iff.1 record_satisfied
  rw [Prod.mk.injEq, Prod.mk.injEq] at hrecord
  obtain ⟨herror, hcut, -⟩ := hrecord
  have hanswer := (hall _ _ _ _ 0 _ x leads_satisfied stack_satisfied hx).truncated herror hcut
  rw [reply_satisfied] at hanswer
  cases hanswer

end Moment

end TripleQuery
