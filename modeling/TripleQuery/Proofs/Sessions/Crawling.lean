import TripleQuery.Proofs.Searching.Owning
import TripleQuery.Proofs.Searching.Provenance
import TripleQuery.Proofs.Sessions.Limited
import TripleQuery.Proofs.Sessions.Toil
/-!
# Crawling — a session that goes on among some documents

Let the store of a session, its library, the tasks on top of its stack, and the
searches that these and the parked paths belong to keep within some documents
(`Moment.Crawls`). Whatever task is carried out, this stays so
(`Moment.Crawls.next`): a path asks for a document only if its pattern or the
store mentions it. The tasks below on the stack are left alone, and nothing is
assumed of them.
-/

namespace TripleQuery

variable {g : Graph} {source : Option Source} {config : SearchConfig} {told told' : List Notice}
  {i : Id} {D : Finset String} {s : Session} {task : Task} {top outer stack : List Task}
  {p : Pattern} {c : Command} {e : Deed Callback}

/-- A search that an order speaks of is one that it is work of. -/
theorem Searches.worksFor?_of_speaksOf? {t : Searches} {o : Order} (h : o.speaksOf? = some i) :
    t.worksFor? o = some i := by
  cases o with
  | job job => cases job <;> first | exact h | cases h
  | deliver k m | finish k r => exact h
  | _ => cases h

/-! ## Searches that are over -/

/-- Whether a caller was told that a search is done. -/
def overIn (told : List Notice) (i : Id) : Bool :=
  told.any fun
    | .done k _ => k == i
    | _ => false

theorem overIn_eq_true : overIn told i = true ↔ ∃ r, .done i r ∈ told := by
  rw [overIn, List.any_eq_true]
  constructor
  · rintro ⟨n, hn, hi⟩
    cases n with
    | done k r =>
      obtain rfl : k = i := by simpa using hi
      exact ⟨r, hn⟩
    | _ => cases hi
  · rintro ⟨r, hr⟩
    exact ⟨_, hr, by simp⟩

theorem overIn_append (told told' : List Notice) (i : Id) :
    overIn (told ++ told') i = (overIn told i || overIn told' i) :=
  List.any_append

/-- Where no end is told, no search comes to be over. -/
theorem overIn_append_of_started (h : ∀ n ∈ told', ∀ k r, n ≠ .done k r) :
    overIn (told ++ told') = overIn told := by
  funext i
  have hno : overIn told' i = false := by
    rw [← Bool.not_eq_true, overIn_eq_true]
    rintro ⟨r, hr⟩
    exact h _ hr i r rfl
  rw [overIn_append, hno, Bool.or_false]

/-! ## Tame commands -/

/-- A search that a tame command starts is for a pattern that mentions only these
documents, and its listener is tame. -/
theorem Command.IsTame.accepted (hc : c.IsTame D) (h : s.accepts? c = some p) :
    (∀ d ∈ p.documents, d ∈ D) ∧ (s.command c).1.TellsTamely D s.searches.next := by
  have launched : ∀ {listener : Listener} {after : Id → Task},
      s.accepts? (.searchAll p) = some p → (∀ c ∈ listener.commands, c.IsTame D) →
      (s.launch p listener after).1.TellsTamely D s.searches.next := by
    intro listener after hok hl l hnew
    obtain ⟨-, hvalid, e, hengine⟩ := Session.accepts?_searchAll_eq_some.1 hok
    rcases s.launch_cases p listener after with ⟨-, -, -, -, -, hlisteners, -⟩ | ⟨hnone, -⟩
    · rw [hlisteners, Std.ExtTreeMap.getElem?_insert_self] at hnew
      exact Option.some.inj hnew ▸ hl
    · rcases hnone with he | hv
      · rw [he] at hengine
        cases hengine
      · exact absurd hvalid hv
  cases c with
  | search name p' onMatch onDone =>
    obtain ⟨rfl, -⟩ := Session.accepts?_searchAll_eq_some.1 h
    exact ⟨fun d => hc.mem_of_adds, launched h hc.of_listener⟩
  | searchAll p' | searchChannel _ p' =>
    obtain ⟨rfl, -⟩ := Session.accepts?_searchAll_eq_some.1 h
    exact ⟨fun d => hc.mem_of_adds, launched h (by simp [Listener.commands])⟩
  | _ => cases h

/-- **What a tame task does with the library** is no refresh, and what it delivers
is one of these documents. -/
theorem Session.IsTame.deed? (hs : s.IsTame D) (ht : task.IsTame D)
    (he : s.deed? task = some e) :
    (∀ r, e ≠ .refreshed r) ∧ ∀ d, e.document? = some d → d ∈ D := by
  cases task with
  | order o =>
    cases o with
    | request d | watch d n =>
      obtain ⟨-, -, rfl⟩ := Option.map_eq_some_iff.1 he
      exact ⟨by simp, by simp [Deed.document?]⟩
    | _ => cases he
  | command c =>
    obtain ⟨-, -, hc⟩ := Option.bind_eq_some_iff.1 he
    have hquiet : c.isQuiet := ht.isQuiet
    unfold commandDeed? at hc
    split at hc <;> first | cases hquiet | cases hc
  | call c o =>
    cases he
    exact ⟨by simp, by simp [Deed.document?]⟩
  | pump n announce =>
    obtain ⟨dv, hdv, rfl⟩ := Option.map_eq_some_iff.1 he
    obtain ⟨l, hl, hdv⟩ := Option.bind_eq_some_iff.1 hdv
    obtain ⟨eager, hsource⟩ := Session.stock?_eq_some hl
    obtain ⟨-, -, hd, -⟩ := Library.Within.deliver (hs.source hsource) hdv hs.mentioned
    refine ⟨by simp, fun d h => ?_⟩
    cases h
    exact hd
  | _ => cases he

namespace Moment

variable {m m' : Moment}

/-- **Every path comes from its pattern and the store.** -/
theorem Leads.sourced (hg : g.Reachable) (h : Leads (start g source config) m) :
    m.scene.Sourced := by
  have hstart := isSound_start g source config
  refine (h.steps hstart).1.sourced hstart.sound hg fun f hf => ?_
  cases hf with
  | order ho _ => cases ho
  | parked hn => simp [start, scene, Session.start] at hn

/-- The end of a search that is about to be told was not told before. -/
theorem IsSound.overIn_eq_false (h : m.IsSound) {r : Except QueryError SearchSummary}
    (hr : .finish i r ∈ ordersOf m.stack) : overIn m.told i = false := by
  have hfinish : r ∈ finishesOf i (ordersOf m.stack) :=
    List.mem_filterMap.2 ⟨_, hr, by simp [Order.finish?]⟩
  rw [← Bool.not_eq_true, overIn_eq_true]
  rintro ⟨r', hr'⟩
  obtain ⟨x, hx⟩ := exists_getElem? (h.faithful.mem_of_told hr')
  obtain ⟨p, found, ending, hst⟩ := h.faithful.story hx
  obtain rfl := hst.ending_of_done hr'
  have hone := hst.endings
  have hpos := List.length_pos_of_mem hfinish
  rw [List.length_append] at hone
  simp only [Option.toList_some, List.length_singleton] at hone
  change 1 + (finishesOf i (ordersOf m.stack)).length = _ at hone
  split at hone <;> omega

/-! ## Crawling -/

/-- The pattern of a search mentions only these documents, and its listener is
tame. -/
structure Minds (D : Finset String) (m : Moment) (i : Id) : Prop where
  pattern {p : Pattern} : .started i p ∈ m.told → ∀ d ∈ p.documents, d ∈ D
  tells : m.session.TellsTamely D i

/-- A session goes on among these documents with the tasks on top, above the
others. -/
structure Crawls (D : Finset String) (top outer : List Task) (m : Moment) : Prop where
  stack : m.stack = top ++ outer
  tame : m.session.IsTame D
  tasks : ∀ task ∈ top, task.IsTame D
  owned : m.session.searches.Owned (m.Minds D) (ordersOf top)

namespace Crawls

/-- **A path asks only for these documents.** -/
theorem document_mem {job : Job} {d : String}
    (h : Crawls D (.order (.job job) :: top) outer ⟨s, stack, told⟩)
    (hm : IsSound ⟨s, stack, told⟩) (hs : (scene ⟨s, stack, told⟩).Sourced)
    (hd : .request d ∈ (s.searches.run s.surroundings job).2) : documentPart d ∈ D := by
  obtain rfl : stack = .order (.job job) :: top ++ outer := h.stack
  have ht : Transition s.surroundings s.searches job _ _ := Sound.transition hm.sound s.surroundings
  obtain ⟨f, x, rfl, hnext⟩ := ht.nextFetch_of_request hd
  obtain ⟨hnamed, p, hp, hmem⟩ := hs.mem_of_nextFetch (.order List.mem_cons_self rfl) hnext
  rw [hnamed]
  rcases List.mem_append.1 hmem with hmem | hmem
  · exact (h.owned.orders List.mem_cons_self rfl).pattern hp d hmem
  · exact h.tame.mentioned d hmem

/-- **Whatever is carried out leaves no more toil**, and tame tasks. -/
theorem toils (h : Crawls D (task :: top) outer ⟨s, stack, told⟩)
    (hm : IsSound ⟨s, stack, told⟩) (hs : (scene ⟨s, stack, told⟩).Sourced) :
    s.Toils D (overIn told) (overIn (told ++ s.news task)) task.weight (s.exec task)
      (s.spends task) := by
  have hstack : stack = task :: top ++ outer := h.stack
  have htask := h.tasks task List.mem_cons_self
  cases ho : task.order? with
  | none =>
    rw [overIn_append_of_started fun n hn k r he => ?_]
    · exact Session.toils_exec h.tame htask ho
    · have hquiet : task.isTelling = false := by
        cases task <;> first | rfl | cases ho
      obtain ⟨k', p, rfl⟩ := s.news_of_not_telling hquiet n hn
      cases he
  | some o =>
    obtain rfl := Task.eq_order ho
    have hmem : o ∈ ordersOf stack := hstack ▸ List.mem_cons_self
    have hlisten : ∀ i, o.speaksOf? = some i → i ∈ s.listeners := fun i hi => hm.listens hmem hi
    rw [Session.news_order hlisten]
    refine Session.toils_obey h.tame htask (fun job d he hd => ?_)
      (fun i hi => ⟨hlisten i hi, ?_⟩) (fun i hi => ?_) (fun i hi => ?_)
    · subst he
      exact h.document_mem hm hs hd
    · exact (h.owned.orders List.mem_cons_self (Searches.worksFor?_of_speaksOf? hi)).tells
    · cases o with
      | finish k r =>
        obtain rfl := Option.some.inj hi
        refine ⟨hm.overIn_eq_false hmem, ?_⟩
        rw [overIn_eq_true]
        exact ⟨r, List.mem_append_right _ (List.mem_singleton_self _)⟩
      | _ => cases hi
    · rw [overIn_append]
      cases o with
      | finish k r =>
        have hne : k ≠ i := fun he => hi (congrArg some he)
        simp [Order.notices, overIn, hne]
      | _ => simp [Order.notices, overIn]

/-- A search that was minded still is. -/
theorem minds_next (h : Crawls D (task :: top) outer ⟨s, stack, told⟩)
    (ht : ∀ i, s.TellsTamely D i → (s.exec task).1.TellsTamely D i)
    (hi : Minds D ⟨s, stack, told⟩ i) (stack' : List Task) :
    Minds D ⟨(s.exec task).1, stack', told ++ s.news task⟩ i := by
  refine ⟨fun {p} hp => ?_, ht i hi.tells⟩
  rcases List.mem_append.1 hp with hp | hp
  · exact hi.pattern hp
  · obtain ⟨c, rfl, hc⟩ := Session.accepts_of_started hp
    have htame : c.IsTame D := h.tasks _ List.mem_cons_self
    exact (htame.accepted hc).1

/-- A search that is started is minded. -/
theorem minds_started (h : Crawls D (task :: top) outer ⟨s, stack, told⟩)
    (hm : IsSound ⟨s, stack, told⟩) (hnews : s.news task = [.started s.searches.next p])
    (stack' : List Task) :
    Minds D ⟨(s.exec task).1, stack', told ++ s.news task⟩ s.searches.next := by
  have htold : .started s.searches.next p ∈ s.news task := by
    rw [hnews]
    exact List.mem_singleton_self _
  obtain ⟨c, rfl, hc⟩ := Session.accepts_of_started htold
  have htame : c.IsTame D := h.tasks _ List.mem_cons_self
  obtain ⟨hp, htells⟩ := htame.accepted hc
  refine ⟨fun {q} hq => ?_, htells⟩
  rcases List.mem_append.1 hq with hq | hq
  · -- no search had this number before
    have hlt : s.searches.next + 1 < s.searches.next :=
      hm.sound.layout.search_lt (hm.faithful.mem_of_told hq)
    exact absurd hlt (Nat.not_lt.2 (Nat.le_succ _))
  · rw [hnews] at hq
    cases List.mem_singleton.1 hq
    exact hp

/-- **From one moment to the next, a session crawls on.** -/
theorem next (h : Crawls D (task :: top) outer ⟨s, stack, told⟩)
    (hm : IsSound ⟨s, stack, told⟩) (hs : (scene ⟨s, stack, told⟩).Sourced) :
    Crawls D ((s.exec task).2 ++ top) outer
      ⟨(s.exec task).1, (s.exec task).2 ++ (top ++ outer), told ++ s.news task⟩ := by
  have htoils := h.toils hm hs
  obtain rfl : stack = task :: (top ++ outer) := h.stack
  have howned := h.owned.mono fun i hi =>
    h.minds_next htoils.listeners hi ((s.exec task).2 ++ (top ++ outer))
  refine ⟨(List.append_assoc ..).symm, htoils.tame, fun t ht => ?_, ?_⟩
  · exact (List.mem_append.1 ht).elim (htoils.tasks t)
      fun ht => h.tasks t (List.mem_cons_of_mem _ ht)
  rw [ordersOf_append]
  cases ho : task.order? with
  | none =>
    have hsound : Sound s.searches (ordersOf top ++ ordersOf outer) := by
      have hall : Sound s.searches (ordersOf (task :: (top ++ outer))) := hm.sound
      rwa [ordersOf_cons_of_none ho, ordersOf_append] at hall
    rw [ordersOf_cons_of_none ho] at howned
    -- a change of the table of searches, with the orders that come of it
    have turned : ∀ {t os} {P : Id → Prop}, s.Turns (s.exec task) t os →
        t.Owned P (os ++ ordersOf top) →
        (s.exec task).1.searches.Owned P (ordersOf (s.exec task).2 ++ ordersOf top) :=
      fun hr ht => by
        rw [hr.orders, hr.searches]
        exact ht
    have same : (s.exec task).1.searches = s.searches → ordersOf (s.exec task).2 = [] →
        (s.exec task).1.searches.Owned _ (ordersOf (s.exec task).2 ++ ordersOf top) :=
      fun hsearches hleft => by
        rw [hsearches, hleft]
        exact howned
    cases s.exec_does task ho with
    | aside h _ => exact same h.searches h.orders
    | merge _ hsearches _ hleft _ => exact same hsearches hleft
    | launch _ _ hr _ hnews =>
      exact turned hr (howned.launch hsound (h.minds_started hm hnews _) _ _ _)
    | stop _ hr _ | cancel _ hr _ => exact turned hr (howned.update _)
    | resume n hr _ => exact turned hr (howned.resume n)
    | discard n hr _ => exact turned hr (howned.discard hsound n)
  | some o =>
    obtain rfl := Task.eq_order ho
    by_cases hjob : ∃ job, o = .job job
    · obtain ⟨job, rfl⟩ := hjob
      have hsound : Sound s.searches (.job job :: (ordersOf top ++ ordersOf outer)) := by
        have hall : Sound s.searches (.job job :: ordersOf (top ++ outer)) := hm.sound
        rwa [ordersOf_append] at hall
      have hrun := howned.run hsound (Sound.transition hsound s.surroundings)
      have hleft : ordersOf (s.exec (.order (.job job))).2 =
          (s.searches.run s.surroundings job).2 := ordersOf_map_order _
      rw [hleft]
      exact hrun
    · have haside : s.Aside (s.exec (.order o)) := s.aside_obey fun job he => hjob ⟨job, he⟩
      rw [haside.orders]
      change (s.exec (.order o)).1.searches.Owned _ _
      rw [haside.searches]
      exact howned.of_subset fun _ => List.mem_cons_of_mem _

end Crawls

end Moment

end TripleQuery
