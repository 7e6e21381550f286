import TripleQuery.Proofs.Searching.Story
import TripleQuery.Proofs.Sessions.Offstage
/-!
# Moments — a session as searches at work

A moment of a session is what the session holds, the tasks it still has to
carry out, and what callers were told so far. From one moment to the next it
carries out the first task, or, when no task is left, takes a command from
outside (`Moment.Next`).

Seen from the searches, all that a session does is what a scene may do
(`Moment.Next.steps`): most of it happens aside, where statements are added at
most (`Session.Aside`), and the rest is a step of a scene each. A search always
has somebody who listens (`Session.IsHeard`), so that what is told is heard;
where a script listens, the session reports it, and nothing else of a search
(`Session.events_exec`).
-/

namespace TripleQuery

open Std (ExtTreeMap)
open Relation (ReflTransGen)

/-- The orders among some tasks. -/
def ordersOf (tasks : List Task) : List Order :=
  tasks.filterMap Task.order?

@[simp] theorem ordersOf_nil : ordersOf [] = [] := rfl

theorem ordersOf_of_isPlain {tasks : List Task} (h : tasks.all Task.isPlain) :
    ordersOf tasks = [] :=
  List.filterMap_eq_nil_iff.2 fun _ ht => Task.order?_of_isPlain (List.all_eq_true.1 h _ ht)

theorem ordersOf_cons_of_none {task : Task} (h : task.order? = none) (tasks : List Task) :
    ordersOf (task :: tasks) = ordersOf tasks :=
  List.filterMap_cons_none h

@[simp] theorem ordersOf_append (a b : List Task) :
    ordersOf (a ++ b) = ordersOf a ++ ordersOf b := by
  simp [ordersOf]

@[simp] theorem ordersOf_map_order (os : List Order) : ordersOf (os.map .order) = os := by
  simp [ordersOf, List.filterMap_map, Function.comp_def, Task.order?]

namespace Session

/-- The pattern of the search that a command starts, if there is an engine and
the pattern makes sense. -/
def accepts? (s : Session) : Command → Option Pattern
  | .search _ p _ _ | .searchAll p | .searchChannel _ p =>
    match s.engine, p.validate with
    | some _, .ok () => some p
    | _, _ => none
  | _ => none

/-- A search is started by an engine, for the pattern that is asked for. -/
theorem accepts?_searchAll_eq_some {s : Session} {p q : Pattern} :
    s.accepts? (.searchAll q) = some p ↔
      q = p ∧ p.validate = .ok () ∧ ∃ e, s.engine = some e := by
  constructor
  · intro h
    simp only [accepts?] at h
    split at h
    · rename_i e he hv
      cases h
      exact ⟨rfl, hv, e, he⟩
    · cases h
  · rintro ⟨rfl, hv, e, he⟩
    simp only [accepts?, he, hv]

/-- What callers are told when a task is carried out. -/
def news (s : Session) : Task → List Notice
  | .order o => if (o.speaksOf?.all fun i => s.listeners.contains i) then o.notices else []
  | .command c => ((s.accepts? c).map fun p => .started s.searches.next p).toList
  | _ => []

/-- Offstage no search is started. -/
theorem accepts?_of_isOffstage (s : Session) {c : Command} (hc : c.isOffstage) :
    s.accepts? c = none := by
  cases c with
  | search | searchAll | searchChannel => cases hc
  | _ => rfl

/-- Nobody is told of what is carried out offstage. -/
theorem news_of_isOffstage (s : Session) {task : Task} (ht : task.isOffstage) :
    s.news task = [] := by
  cases task with
  | order o =>
    refine (ite_eq_right_iff.2 fun _ => ?_)
    cases o with
    | job | deliver | finish => cases ht
    | _ => rfl
  | command c => rw [news, s.accepts?_of_isOffstage ht]; rfl
  | _ => rfl

/-- What callers are told comes with an order, or says that a search was
started. -/
theorem mem_news {s : Session} {task : Task} {n : Notice} (h : n ∈ s.news task) :
    (∃ o, task = .order o ∧ n ∈ o.notices) ∨
      ∃ c p, task = .command c ∧ s.accepts? c = some p ∧ n = .started s.searches.next p := by
  cases task with
  | order o =>
    refine .inl ⟨o, rfl, ?_⟩
    simp only [news] at h
    split at h
    · exact h
    · cases h
  | command c =>
    obtain ⟨p, hp, rfl⟩ := Option.map_eq_some_iff.1 (Option.mem_toList.1 h)
    exact .inr ⟨c, p, rfl, hp, rfl⟩
  | _ => cases h

/-- Only a command tells of a search that is started. -/
theorem accepts_of_started {s : Session} {task : Task} {i : Id} {p : Pattern}
    (h : .started i p ∈ s.news task) : ∃ c, task = .command c ∧ s.accepts? c = some p := by
  obtain ⟨o, -, ho⟩ | ⟨c, p', rfl, hp, he⟩ := mem_news h
  · cases o <;> simp [Order.notices] at ho
  · cases he
    exact ⟨c, rfl, hp⟩

/-- A search that is started is reported. -/
theorem news_searchAll {s : Session} {p : Pattern} {e : Engine} (he : s.engine = some e)
    (hv : p.validate = .ok ()) :
    s.news (.command (.searchAll p)) = [.started s.searches.next p] := by
  rw [news, accepts?_searchAll_eq_some.2 ⟨rfl, hv, e, he⟩]
  rfl

end Session

/-- A session at some point of its run. -/
structure Moment where
  session : Session
  /-- The tasks that are left, the first one first. -/
  stack : List Task
  /-- What callers were told, the earliest first. -/
  told : List Notice

namespace Moment

/-- From one moment to the next. -/
inductive Next : Moment → Moment → Prop
  /-- The first task is carried out. -/
  | task {s : Session} {task : Task} {stack : List Task} {told : List Notice} :
      Next ⟨s, task :: stack, told⟩
        ⟨(s.exec task).1, (s.exec task).2 ++ stack, told ++ s.news task⟩
  /-- A command comes from outside. -/
  | command {s : Session} {told : List Notice} (c : Command) :
      Next ⟨s, [], told⟩ ⟨{ s with events := #[] }, [.command c], told⟩

/-- What a session can come to, whatever commands it is given. -/
abbrev Leads : Moment → Moment → Prop :=
  ReflTransGen Next

/-- A session at its start. -/
def start (g : Graph) (source : Option Source) (config : SearchConfig) : Moment :=
  ⟨.start g source config, [], []⟩

/-- The searches of a session at work. -/
def scene (m : Moment) : Scene :=
  ⟨m.session.graph, m.session.searches, ordersOf m.stack, m.told⟩

end Moment

/-! ## What happens aside -/

/-- An outcome that leaves searches alone: statements are added at most. -/
structure Session.Aside (s : Session) (r : Session × List Task) : Prop where
  graph : ∃ ss, r.1.graph = s.graph.addAll ss
  searches : r.1.searches = s.searches
  listeners : ∀ i, i ∈ s.listeners → i ∈ r.1.listeners
  orders : ordersOf r.2 = []

namespace Session

variable {s : Session} {r : Session × List Task}

/-- Nothing that searches see is changed. -/
theorem Aside.same (hg : r.1.graph = s.graph) (hs : r.1.searches = s.searches)
    (hl : r.1.listeners = s.listeners) (ho : ordersOf r.2 = []) : s.Aside r :=
  ⟨⟨[], hg⟩, hs, fun _ hi => hl ▸ hi, ho⟩

/-- What is offstage happens aside. -/
theorem Offstage.aside (h : s.Offstage r) : s.Aside r :=
  ⟨h.graph, h.searches, fun _ hi => h.listeners ▸ hi, ordersOf_of_isPlain h.tasks⟩

theorem ordersOf_perform (cs : List Command) : ordersOf (Task.perform cs) = [] :=
  ordersOf_of_isPlain (Task.isPlain_perform cs)

theorem aside_receive (s : Session) (name : String) : s.Aside (s.receive name, []) := by
  unfold receive
  split
  · exact .same rfl rfl rfl rfl
  · split
    · refine ⟨⟨[], rfl⟩, rfl, fun i hi => ?_, rfl⟩
      exact ExtTreeMap.mem_insert.2 (.inr hi)
    · exact .same rfl rfl rfl rfl

end Session

/-! ## Sessions as scenes -/

namespace Session

open Scene (Step Steps)

variable {s : Session} {r : Session × List Task} {os : List Order} {told : List Notice}

/-- The searches of a session at work on some orders. -/
def scene (s : Session) (os : List Order) (told : List Notice) : Scene :=
  ⟨s.graph, s.searches, os, told⟩

/-- Statements are added one after the other. -/
theorem steps_addAll (g : Graph) (t : Searches) (os : List Order) (told : List Notice)
    (ss : List Statement) : Steps ⟨g, t, os, told⟩ ⟨g.addAll ss, t, os, told⟩ := by
  induction ss generalizing g with
  | nil => exact .refl
  | cons st ss ih => exact .head (.add st) (ih (g.add st))

/-- **What happens aside is no matter for the searches at work.** -/
theorem Aside.steps (h : s.Aside r) (os : List Order) (told : List Notice) :
    Steps (s.scene os told) (r.1.scene (ordersOf r.2 ++ os) told) := by
  obtain ⟨ss, hg⟩ := h.graph
  have hadd := steps_addAll s.graph s.searches os told ss
  rw [h.orders, scene, scene, hg, h.searches]
  exact hadd

/-- An order that is no job, carried out aside. -/
theorem Aside.steps_handOver {o : Order} (h : s.Aside r) (ho : ∀ job, o ≠ .job job)
    (os : List Order) (told : List Notice) :
    Steps (s.scene (o :: os) told) (r.1.scene (ordersOf r.2 ++ os) (told ++ o.notices)) :=
  .head (.handOver ho) (h.steps os (told ++ o.notices))

theorem aside_tell (s : Session) (i : Id) (m : Bindings) : s.Aside (s.tell i m) := by
  have hinsert : ∀ l : Listener, ∀ k, k ∈ s.listeners → k ∈ s.listeners.insert i l :=
    fun l k hk => ExtTreeMap.mem_insert.2 (.inr hk)
  unfold tell
  split
  · exact ⟨⟨[], rfl⟩, rfl, hinsert _, ordersOf_perform _⟩
  · exact ⟨⟨[], rfl⟩, rfl, hinsert _, rfl⟩
  · exact ⟨⟨[], rfl⟩, rfl, hinsert _, rfl⟩
  · exact .same rfl rfl rfl rfl

theorem aside_conclude (s : Session) (i : Id) (result : Except QueryError SearchSummary) :
    s.Aside (s.conclude i result) := by
  have hinsert : ∀ l : Listener, ∀ k, k ∈ s.listeners → k ∈ s.listeners.insert i l :=
    fun l k hk => ExtTreeMap.mem_insert.2 (.inr hk)
  unfold conclude
  split
  · exact ⟨⟨[], rfl⟩, rfl, fun _ hk => hk, ordersOf_perform _⟩
  · exact ⟨⟨[], rfl⟩, rfl, hinsert _, rfl⟩
  · exact ⟨⟨[], rfl⟩, rfl, hinsert _, rfl⟩
  · exact .same rfl rfl rfl rfl

/-- What is told when an order is carried out, if somebody listens. -/
theorem news_order {o : Order} (h : ∀ i, o.speaksOf? = some i → i ∈ s.listeners) :
    s.news (.order o) = o.notices := by
  refine if_pos ?_
  cases hi : o.speaksOf? with
  | none => rfl
  | some i => exact ExtTreeMap.contains_iff_mem.2 (h i hi)

/-- An order that is no job is carried out aside. -/
theorem aside_obey (s : Session) {o : Order} (ho : ∀ job, o ≠ .job job) : s.Aside (s.obey o) := by
  cases o with
  | job job => exact absurd rfl (ho job)
  | enterSource | leaveSource => exact .same rfl rfl rfl rfl
  | request document => exact (offstage_request s document).aside
  | watch document ticket => exact (offstage_watch s document _).aside
  | deliver i m => exact aside_tell s i m
  | finish i result => exact aside_conclude s i result

/-- **Carrying out an order is a step of the searches at work.** -/
theorem steps_obey (o : Order) (h : ∀ i, o.speaksOf? = some i → i ∈ s.listeners)
    (os : List Order) (told : List Notice) :
    Steps (s.scene (o :: os) told)
      ((s.obey o).1.scene (ordersOf (s.obey o).2 ++ os) (told ++ s.news (.order o))) := by
  rw [news_order h]
  by_cases ho : ∃ job, o = .job job
  · obtain ⟨job, rfl⟩ := ho
    have hstep : Step (s.scene (.job job :: os) told) _ := .work s.surroundings.state?
    refine .single ?_
    simpa [obey, proceed, scene, surroundings, Order.notices] using hstep
  · have ho : ∀ job, o ≠ .job job := fun job he => ho ⟨job, he⟩
    exact (s.aside_obey ho).steps_handOver ho os told

/-- A search is started, or there is an answer that says why not. -/
theorem launch_cases (s : Session) (p : Pattern) (listener : Listener) (after : Id → Task) :
    (∃ e, s.engine = some e ∧ p.validate = .ok () ∧
      (s.launch p listener after).1.graph = s.graph ∧
      (s.launch p listener after).1.searches = (s.searches.launch e.config e.linked p).1 ∧
      (s.launch p listener after).1.listeners = s.listeners.insert s.searches.next listener ∧
      ∃ tasks, (∀ task ∈ tasks, task = after s.searches.next ∨ task = .leave) ∧
        (s.launch p listener after).2 =
          .order (.job (s.searches.launch e.config e.linked p).2.2) :: tasks) ∨
    ((s.engine = none ∨ p.validate ≠ .ok ()) ∧ s.Aside (s.launch p listener after)) := by
  unfold launch
  cases he : s.engine with
  | none => exact .inr ⟨.inl rfl, .same rfl rfl rfl rfl⟩
  | some e =>
    cases hv : p.validate with
    | error err => exact .inr ⟨.inr (by simp), .same rfl rfl rfl rfl⟩
    | ok u =>
      refine .inl ⟨e, rfl, rfl, ?_⟩
      simp only
      split
      · exact ⟨rfl, rfl, rfl, [after s.searches.next, .leave], by simp, rfl⟩
      · exact ⟨rfl, rfl, rfl, [after s.searches.next], by simp, rfl⟩

/-- Every search has a listener. -/
def IsHeard (s : Session) : Prop :=
  ∀ i, i ∈ s.searches.searches → i ∈ s.listeners

/-- What is told when a task is carried out, and what it leaves to do, is what
the searches at work may do. -/
def Plays (s : Session) (task : Task) : Prop :=
  (∀ os told, Steps (s.scene (ordersOf [task] ++ os) told)
    ((s.exec task).1.scene (ordersOf (s.exec task).2 ++ os) (told ++ s.news task))) ∧
  (s.IsHeard → (s.exec task).1.IsHeard)

/-- A task is about a search that it names, or was made for. -/
def IsAbout (s : Session) (task : Task) (i : Id) : Prop :=
  (∃ name, s.search? name = some i) ∨ task.keeps? = some i

/-- An outcome that leaves the store alone: a table of searches, and orders. -/
structure Turns (s : Session) (r : Session × List Task) (t : Searches) (os : List Order) : Prop where
  graph : r.1.graph = s.graph
  searches : r.1.searches = t
  listeners : ∀ i, i ∈ s.listeners → i ∈ r.1.listeners
  orders : ordersOf r.2 = os

/-- What a task that is no order does to the searches at work. -/
inductive Does (s : Session) (task : Task) (r : Session × List Task) : Prop
  /-- It happens aside. -/
  | aside : s.Aside r → s.news task = [] → Does s task r
  /-- Two terms are merged. -/
  | merge {a b keep : Term} : s.graph.equate a b = .ok (r.1.graph, keep) →
      r.1.searches = s.searches → r.1.listeners = s.listeners → ordersOf r.2 = [] →
      s.news task = [] → Does s task r
  /-- A search is started for a listener. -/
  | launch {e : Engine} {p : Pattern} : s.engine = some e → p.validate = .ok () →
      s.Turns r (s.searches.launch e.config e.linked p).1
        [.job (s.searches.launch e.config e.linked p).2.2] →
      s.searches.next ∈ r.1.listeners →
      s.news task = [.started s.searches.next p] → Does s task r
  /-- A search is stopped. -/
  | stop {i : Id} : s.IsAbout task i → s.Turns r (s.searches.update i .stop) [] →
      s.news task = [] → Does s task r
  /-- A search is cancelled. -/
  | cancel {i : Id} : s.IsAbout task i → s.Turns r (s.searches.update i .cancel) [] →
      s.news task = [] → Does s task r
  /-- A parked path is resumed. -/
  | resume (n : Id) : s.Turns r (s.searches.resume n).1 (s.searches.resume n).2 →
      s.news task = [] → Does s task r
  /-- A parked path is given up. -/
  | discard (n : Id) : s.Turns r (s.searches.discard n).1 (s.searches.discard n).2 →
      s.news task = [] → Does s task r

/-- Searches that were there before are heard as before. -/
theorem Turns.isHeard {t : Searches} (h : s.Turns r t os)
    (ht : ∀ i, i ∈ t.searches → i ∈ s.searches.searches) (hs : s.IsHeard) : r.1.IsHeard :=
  fun i hi => h.listeners i (hs i (ht i (h.searches ▸ hi)))

/-- **Whatever a task does to the searches at work, surroundings may do**, and
somebody listens to what is told. -/
theorem Does.plays {task : Task} (h : s.Does task (s.exec task)) (ho : task.order? = none) :
    s.Plays task := by
  have hnone : ordersOf [task] = [] := ordersOf_cons_of_none ho []
  rw [Plays, hnone]
  -- what turns the searches at work is one step
  have turn : ∀ {t os'}, s.Turns (s.exec task) t os' → s.news task = [] →
      (∀ os told, Step (s.scene os told) ⟨s.graph, t, os' ++ os, told⟩) → ∀ os told,
      Steps (s.scene os told)
        ((s.exec task).1.scene (ordersOf (s.exec task).2 ++ os) (told ++ s.news task)) := by
    intro t os' hr hn hstep os told
    rw [hn, List.append_nil, hr.orders]
    simp only [scene, hr.graph, hr.searches]
    exact .single (hstep os told)
  cases h with
  | aside h hn =>
    refine ⟨fun os told => ?_, fun hall i hi => ?_⟩
    · rw [hn, List.append_nil]
      exact h.steps os told
    · exact h.listeners i (hall i (h.searches ▸ hi))
  | merge he hs hl htasks hn =>
    refine ⟨fun os told => ?_, fun hall i hi => ?_⟩
    · rw [hn, List.append_nil, htasks, scene, scene, hs]
      exact .single (.equate he)
    · rw [hl]
      exact hall i (hs ▸ hi)
  | @launch e p _ hv hr hnew hn =>
    refine ⟨fun os told => ?_, fun hall i hi => ?_⟩
    · rw [hn, scene, scene, hr.graph, hr.searches, hr.orders]
      exact .single (.launch e.config e.linked hv)
    · rw [hr.searches] at hi
      rcases ExtTreeMap.mem_insert.1 hi with hi | hi
      · exact Std.LawfulEqCmp.eq_of_compare hi ▸ hnew
      · exact hr.listeners i (hall i hi)
  | stop _ hr hn =>
    exact ⟨turn hr hn fun _ _ => .stop _, hr.isHeard fun _ hi => Searches.mem_of_mem_update hi⟩
  | cancel _ hr hn =>
    exact ⟨turn hr hn fun _ _ => .cancel _, hr.isHeard fun _ hi => Searches.mem_of_mem_update hi⟩
  | resume n hr hn =>
    refine ⟨turn hr hn fun _ _ => .resume n, hr.isHeard fun i hi => ?_⟩
    have hsame : (s.searches.resume n).1.searches = s.searches.searches := by
      unfold Searches.resume
      split <;> rfl
    exact hsame ▸ hi
  | discard n hr hn =>
    refine ⟨turn hr hn fun _ _ => .discard n, hr.isHeard fun i hi => ?_⟩
    have hsame : (s.searches.discard n).1.searches = s.searches.searches := by
      unfold Searches.discard
      split <;> rfl
    exact hsame ▸ hi

/-- **A command that starts a search does so**, or there is an answer that says
why not. -/
theorem does_launch (s : Session) {c : Command} {p : Pattern} {listener : Listener}
    {after : Id → Task} (hcmd : s.command c = s.launch p listener after)
    (hnews : s.accepts? c = s.accepts? (.searchAll p))
    (hafter : ∀ i, (after i).order? = none) : s.Does (.command c) (s.command c) := by
  rw [hcmd]
  rcases s.launch_cases p listener after with
    ⟨e, he, hv, hg, hs, hl, tasks, htasks, ht⟩ | ⟨hnone, haside⟩
  · have hquiet : ordersOf tasks = [] := by
      refine List.filterMap_eq_nil_iff.2 fun task htask => ?_
      rcases htasks task htask with rfl | rfl
      · exact hafter _
      · rfl
    refine .launch he hv ⟨hg, hs, fun i hi => ?_, ?_⟩ ?_ ?_
    · rw [hl, ExtTreeMap.mem_insert]
      exact .inr hi
    · rw [ht]
      change _ :: ordersOf tasks = _
      rw [hquiet]
    · rw [hl]
      exact ExtTreeMap.mem_insert_self
    · rw [news, hnews, accepts?_searchAll_eq_some.2 ⟨rfl, hv, e, he⟩]
      rfl
  · have hrefused : s.accepts? (.searchAll p) = none := by
      refine Option.eq_none_iff_forall_ne_some.2 fun q hq => ?_
      obtain ⟨rfl, hvalid, e, hengine⟩ := accepts?_searchAll_eq_some.1 hq
      rcases hnone with he | hv
      · rw [he] at hengine
        cases hengine
      · exact hv hvalid
    refine .aside haside ?_
    rw [news, hnews, hrefused]
    rfl

/-- A search that is only looked at stays as it is. -/
theorem update_id (t : Searches) (i : Id) : t.update i id = t := by
  cases hx : t.searches[i]? with
  | none => simp only [Searches.update, hx]
  | some x =>
    rw [Searches.update_of_getElem? hx]
    have hsame : t.searches.insert i (id x) = t.searches := by
      ext k : 1
      rw [ExtTreeMap.getElem?_insert]
      by_cases hk : i = k
      · subst hk; simp [hx]
      · simp [hk]
    rw [hsame]

/-- A command that changes the search of a name. -/
theorem does_withSearch {c : Command} (name : String) (change : Search → Search)
    (hexec : s.command c = (s.withSearch name change, [])) (hn : s.news (.command c) = [])
    (hdoes : ∀ i, s.search? name = some i →
      s.Turns (s.command c) (s.searches.update i change) [] →
      s.Does (.command c) (s.command c)) : s.Does (.command c) (s.command c) := by
  unfold withSearch at hexec
  cases hi : s.search? name with
  | none =>
    rw [hi] at hexec
    exact .aside (by rw [hexec]; exact .same rfl rfl rfl rfl) hn
  | some i =>
    rw [hi] at hexec
    exact hdoes i hi (by rw [hexec]; exact ⟨rfl, rfl, fun _ h => h, rfl⟩)

theorem does_edit (s : Session) (e : StoreEdit) :
    s.Does (.command (.edit e)) (s.command (.edit e)) := by
  cases e with
  | add st => exact .aside ⟨⟨[st], rfl⟩, rfl, fun _ h => h, rfl⟩ rfl
  | extend ss => exact .aside ⟨⟨ss, rfl⟩, rfl, fun _ h => h, rfl⟩ rfl
  | equate a b =>
    have hexec : s.command (.edit (.equate a b)) = (s.edit (.equate a b), []) := rfl
    simp only [edit] at hexec
    cases he : s.graph.equate a b with
    | error err =>
      rw [he] at hexec
      exact .aside (by rw [hexec]; exact .same rfl rfl rfl rfl) rfl
    | ok r =>
      obtain ⟨g, keep⟩ := r
      rw [he] at hexec
      rw [hexec]
      exact .merge he rfl rfl rfl rfl

/-- What a command does. -/
theorem does_command (s : Session) (c : Command) : s.Does (.command c) (s.command c) := by
  cases hc : c.isOffstage with
  | true => exact .aside (s.offstage_command hc).aside (s.news_of_isOffstage hc)
  | false =>
    cases c with
    | edit e => exact s.does_edit e
    | search name p onMatch onDone => exact s.does_launch rfl rfl fun _ => rfl
    | searchAll p => exact s.does_launch rfl rfl fun _ => rfl
    | searchChannel name p => exact s.does_launch rfl rfl fun _ => rfl
    | handle name =>
      refine does_withSearch name id rfl rfl fun i _ hr => .aside (.same ?_ ?_ ?_ rfl) rfl
      · exact hr.graph
      · exact hr.searches.trans (update_id _ i)
      · simp only [command, withSearch]
        split <;> rfl
    | cancel name =>
      exact does_withSearch name .cancel rfl rfl fun i hi hr => .cancel (.inl ⟨name, hi⟩) hr rfl
    | stop name =>
      exact does_withSearch name .stop rfl rfl fun i hi hr => .stop (.inl ⟨name, hi⟩) hr rfl
    | receive name => exact .aside (aside_receive s name) rfl
    | dropReceiver name => exact .aside (.same rfl rfl rfl rfl) rfl
    | _ => cases hc

/-- The answer for a caller who does not wait. -/
theorem does_collected (s : Session) (i : Id) : s.Does (.collected i) (s.exec (.collected i)) := by
  have hexec : s.exec (.collected i) = (s.collected i, []) := rfl
  unfold collected at hexec
  split at hexec
  · exact .aside (by rw [hexec]; exact .same rfl rfl rfl rfl) rfl
  · exact .aside (by rw [hexec]; exact .same rfl rfl rfl rfl) rfl
  · exact .cancel (.inr rfl) (by rw [hexec]; exact ⟨rfl, rfl, fun _ h => h, rfl⟩) rfl

/-- The orders that are left when the work of searches is taken over. -/
theorem turns_proceed (s : Session) (p : Searches × List Order) :
    s.Turns (s.proceed p) p.1 p.2 :=
  ⟨rfl, rfl, fun _ h => h, ordersOf_map_order p.2⟩

/-- **What a task does that is no order.** -/
theorem exec_does (s : Session) (task : Task) (ho : task.order? = none) :
    s.Does task (s.exec task) := by
  cases ht : task.isOffstage with
  | true => exact .aside (s.offstage_exec ht).aside (s.news_of_isOffstage ht)
  | false =>
    cases task with
    | order o => cases ho
    | command c => exact s.does_command c
    | call c o =>
      cases c with
      | resume n => exact .resume n (s.turns_proceed _) rfl
      | notify tag andThen => exact .aside (.same rfl rfl rfl (ordersOf_perform andThen)) rfl
    | discard c =>
      cases c with
      | resume n => exact .discard n (s.turns_proceed _) rfl
      | notify tag andThen => cases ht
    | collected i => exact s.does_collected i
    | acted | started name i | opened name i => exact .aside (.same rfl rfl rfl rfl) rfl
    | _ => cases ht

/-- **Whatever task a session carries out, the searches at work see nothing but
what surroundings may do.** Somebody has to listen to what is told. -/
theorem plays_exec (s : Session) (task : Task) (ho : task.order? = none) : s.Plays task :=
  (s.exec_does task ho).plays ho

end Session

/-! ## Runs -/

namespace Moment

open Scene (Steps)

variable {m m' : Moment}

/-- The searches of a session are in order, what was told of them is true, and
everything told is heard. -/
structure IsSound (m : Moment) : Prop where
  sound : m.scene.IsSound
  faithful : m.scene.IsFaithful
  heard : m.session.IsHeard

/-- Whoever an order speaks to was started. -/
theorem IsSound.launched (h : m.IsSound) {o : Order} {i : Nat} (ho : o ∈ ordersOf m.stack)
    (hi : o.speaksOf? = some i) : i ∈ m.session.searches.searches := by
  cases o with
  | job job =>
    cases job with
    | drain k =>
      cases hi
      exact h.sound.layout.launched (h.sound.rooted ho rfl)
    | _ => cases hi
  | deliver k b =>
    cases hi
    exact h.sound.layout.launched (h.sound.rooted ho rfl)
  | finish k r =>
    cases hi
    by_contra hne
    have hfin := (h.faithful.unheard hne).2
    refine absurd (List.filterMap_eq_nil_iff.1 hfin _ ho) ?_
    simp [Order.finish?]
  | _ => cases hi

/-- Whoever an order speaks to is heard. -/
theorem IsSound.listens (h : m.IsSound) {o : Order} {i : Nat} (ho : o ∈ ordersOf m.stack)
    (hi : o.speaksOf? = some i) : i ∈ m.session.listeners :=
  h.heard i (h.launched ho hi)

/-- **From one moment to the next, a session is a scene that goes on.** -/
theorem Next.steps (h : Next m m') (hm : m.IsSound) :
    Steps m.scene m'.scene ∧ m'.session.IsHeard := by
  cases h with
  | command c => exact ⟨.refl, hm.heard⟩
  | @task s task stack told =>
    cases ho : task.order? with
    | none =>
      obtain ⟨hsteps, hheard⟩ := s.plays_exec task ho
      have horders : ∀ rest, ordersOf (task :: rest) = ordersOf [task] ++ ordersOf rest :=
        fun rest => ordersOf_append [task] rest
      refine ⟨?_, hheard hm.heard⟩
      simp only [scene, horders stack, ordersOf_append]
      exact hsteps (ordersOf stack) told
    | some o =>
      obtain rfl := Task.eq_order ho
      have hmem : o ∈ ordersOf (.order o :: stack) := List.mem_cons_self
      have hlisten : ∀ i, o.speaksOf? = some i → i ∈ s.listeners := fun i hi => hm.listens hmem hi
      refine ⟨?_, fun i hi => ?_⟩
      · simp only [scene, ordersOf_append]
        exact s.steps_obey o hlisten (ordersOf stack) told
      · -- a job starts no search, and other orders are carried out aside
        by_cases hjob : ∃ job, o = .job job
        · obtain ⟨job, rfl⟩ := hjob
          have ht := Sound.transition hm.sound s.surroundings
          exact hm.heard i ((ht.mem_searches i).1 hi)
        · have h := s.aside_obey fun job he => hjob ⟨job, he⟩
          exact h.listeners i (hm.heard i (h.searches ▸ hi))

/-- **A run of a session is a run of its searches at work**, and keeps them in
order. -/
theorem Leads.steps (h : Leads m m') (hm : m.IsSound) :
    Steps m.scene m'.scene ∧ m'.IsSound := by
  induction h with
  | refl => exact ⟨.refl, hm⟩
  | tail _ hnext ih =>
    obtain ⟨hsteps, hmid⟩ := ih
    obtain ⟨hstep, hheard⟩ := hnext.steps hmid
    obtain ⟨hs, hf⟩ := Scene.Steps.preserves Scene.Step.faithful hstep hmid.sound hmid.faithful
    exact ⟨hsteps.trans hstep, hs, hf, hheard⟩

/-- A session starts in order. -/
theorem isSound_start (g : Graph) (source : Option Source) (config : SearchConfig) :
    (start g source config).IsSound where
  sound := Sound.empty
  faithful :=
    ⟨fun {i x} hx => by simp [start, scene, Session.start] at hx,
      fun {i x} hx => by simp [start, scene, Session.start] at hx, fun _ => ⟨rfl, rfl⟩⟩
  heard i hi := by simp [start, Session.start] at hi

/-- **Every moment of a run is sound.** -/
theorem Leads.isSound {g : Graph} {source : Option Source} {config : SearchConfig}
    (h : Leads (start g source config) m) : m.IsSound :=
  (h.steps (isSound_start g source config)).2

end Moment

end TripleQuery
