import TripleQuery.Proofs.Searching.Lasting
import TripleQuery.Proofs.Sessions.Moment
/-!
# Names — who can speak of a search

A caller speaks of a search by a name, of its handle or of its receiver. A
search gets a name, or an answer is given on its behalf, by a task that was put
behind its first job when it was started (`Task.keeps?`); whatever else a
session carries out is discreet (`Session.Discreet`). So a search that is still
at its first job has no name (`Moment.Next.isKnown`), and no callback can stop
it.
-/

namespace TripleQuery

/-- The searches that some tasks are to name, or to answer for. -/
def keptBy (tasks : List Task) : List Id :=
  tasks.filterMap Task.keeps?

@[simp] theorem keptBy_nil : keptBy [] = [] := rfl

@[simp] theorem keptBy_append (a b : List Task) : keptBy (a ++ b) = keptBy a ++ keptBy b := by
  simp [keptBy]

theorem keptBy_orders (os : List Order) : keptBy (os.map .order) = [] := by
  simp [keptBy, List.filterMap_map, Function.comp_def]

theorem keptBy_of_isPlain {tasks : List Task} (h : tasks.all Task.isPlain) : keptBy tasks = [] :=
  List.filterMap_eq_nil_iff.2 fun _ ht => Task.keeps?_of_isPlain (List.all_eq_true.1 h _ ht)

theorem keptBy_perform (cs : List Command) : keptBy (Task.perform cs) = [] :=
  keptBy_of_isPlain (Task.isPlain_perform cs)

namespace Session

variable {s : Session} {r : Session × List Task} {i : Id}

/-- A search has a name. -/
def Names (s : Session) (i : Id) : Prop :=
  (∃ name : String, s.handles[name]? = some i) ∨ ∃ name : String, s.receivers[name]? = some i

/-- An outcome in which no search gets a name, or is to get one. -/
structure Discreet (s : Session) (r : Session × List Task) : Prop where
  names {i : Id} : r.1.Names i → s.Names i
  kept : keptBy r.2 = []

theorem names_of_search? {name : String} (h : s.search? name = some i) : s.Names i := by
  rcases (Option.orElse_eq_some _ _ _).1 h with h | ⟨-, h⟩
  · exact .inl ⟨name, h⟩
  · exact .inr ⟨name, h⟩

/-- The names stay as they are. -/
theorem Discreet.same (hh : r.1.handles = s.handles) (hr : r.1.receivers = s.receivers)
    (ht : keptBy r.2 = []) : s.Discreet r where
  names h := by
    unfold Names at h ⊢
    rwa [← hh, ← hr]
  kept := ht

/-! ## What is discreet -/

/-- No search gets a name offstage. -/
theorem Offstage.discreet (h : s.Offstage r) : s.Discreet r :=
  .same h.handles h.receivers (keptBy_of_isPlain h.tasks)

theorem discreet_edit (s : Session) (e : StoreEdit) : s.Discreet (s.edit e, []) := by
  cases e with
  | equate a b =>
    simp only [edit]
    split <;> exact .same rfl rfl rfl
  | _ => exact .same rfl rfl rfl

theorem discreet_receive (s : Session) (name : String) : s.Discreet (s.receive name, []) := by
  unfold receive
  split
  · exact .same rfl rfl rfl
  · split <;> exact .same rfl rfl rfl

theorem discreet_withSearch (s : Session) (name : String) (change : Search → Search) :
    s.Discreet (s.withSearch name change, []) := by
  unfold withSearch
  split <;> exact .same rfl rfl rfl

theorem discreet_collected (s : Session) (k : Id) : s.Discreet (s.collected k, []) := by
  unfold collected
  split <;> exact .same rfl rfl rfl

/-- An order of a search is carried out discreetly. -/
theorem discreet_obey (s : Session) (o : Order) : s.Discreet (s.obey o) := by
  cases o with
  | job job => exact .same rfl rfl (keptBy_orders _)
  | enterSource | leaveSource => exact .same rfl rfl rfl
  | request document => exact (offstage_request s document).discreet
  | watch document ticket => exact (offstage_watch s document _).discreet
  | deliver k m =>
    simp only [obey, tell]
    split
    · exact .same rfl rfl (keptBy_perform _)
    · exact .same rfl rfl rfl
    · exact .same rfl rfl rfl
    · exact .same rfl rfl rfl
  | finish k result =>
    simp only [obey, conclude]
    split
    · exact .same rfl rfl (keptBy_perform _)
    · exact .same rfl rfl rfl
    · exact .same rfl rfl rfl
    · exact .same rfl rfl rfl

/-- The receiver of a search can be dropped, which takes a name away. -/
theorem discreet_dropReceiver (s : Session) (name : String) :
    s.Discreet (s.command (.dropReceiver name)) where
  names {i} h := by
    rcases h with h | ⟨other, h⟩
    · exact .inl h
    · exact .inr ⟨other, of_getElem?_erase h⟩
  kept := rfl

/-! ## How a search gets a name -/

/-- What carrying out a task does to names: the searches that have one had one,
or the task was to give them one; and what is to get one has just been
started. -/
structure Christens (s : Session) (task : Task) (r : Session × List Task) : Prop where
  names {i : Id} : r.1.Names i → s.Names i ∨ task.keeps? = some i
  kept {i : Id} : i ∈ keptBy r.2 → i = s.searches.next ∧ i < r.1.searches.next

theorem Discreet.christens {task : Task} (h : s.Discreet r) : s.Christens task r :=
  ⟨fun hi => .inl (h.names hi), fun hi => by simp [h.kept] at hi⟩

theorem Christens.same {task : Task} (hh : r.1.handles = s.handles)
    (hr : r.1.receivers = s.receivers) (ht : keptBy r.2 = []) : s.Christens task r :=
  (Discreet.same hh hr ht).christens

/-- A search that is started is to get a name. -/
theorem christens_launch (s : Session) (task : Task) (p : Pattern) (listener : Listener)
    {after : Id → Task} (hafter : ∀ i, (after i).keeps? = some i) :
    s.Christens task (s.launch p listener after) := by
  unfold launch
  split
  · exact .same rfl rfl rfl
  · split
    · exact .same rfl rfl rfl
    · rename_i e _ _ _
      have hlt : s.searches.next < (s.searches.launch e.config e.linked p).1.next :=
        Nat.lt_add_of_pos_right Nat.two_pos
      -- the task behind the first job keeps the search, and no other task does
      have hkept : keptBy [.order (.job (s.searches.launch e.config e.linked p).2.2),
          after s.searches.next] = [s.searches.next] := by
        rw [keptBy, List.filterMap_cons_none rfl, List.filterMap_cons_some (hafter _),
          List.filterMap_nil]
      have hone : ∀ {i : Id}, i ∈ [s.searches.next] →
          i = s.searches.next ∧ i < (s.searches.launch e.config e.linked p).1.next :=
        fun {i} hi => by
          obtain rfl := List.mem_singleton.1 hi
          exact ⟨rfl, hlt⟩
      simp only
      split
      · refine ⟨.inl, fun {i} hi => hone ?_⟩
        rw [inUse, keptBy_append] at hi
        exact hkept ▸ (List.mem_append.1 hi).resolve_right (List.not_mem_nil)
      · exact ⟨.inl, fun {i} hi => hone (hkept ▸ hi)⟩

theorem christens_command (s : Session) (c : Command) :
    s.Christens (.command c) (s.command c) := by
  cases hc : c.isOffstage with
  | true => exact (s.offstage_command hc).discreet.christens
  | false =>
    cases c with
    | search name p onMatch onDone => exact s.christens_launch _ p _ fun _ => rfl
    | searchAll p => exact s.christens_launch _ p _ fun _ => rfl
    | searchChannel name p => exact s.christens_launch _ p _ fun _ => rfl
    | edit e => exact (discreet_edit s e).christens
    | handle name => exact (discreet_withSearch s name id).christens
    | cancel name => exact (discreet_withSearch s name .cancel).christens
    | stop name => exact (discreet_withSearch s name .stop).christens
    | receive name => exact (discreet_receive s name).christens
    | dropReceiver name => exact (discreet_dropReceiver s name).christens
    | _ => cases hc

/-- **A search gets a name only by a task that was put behind its first job when
it was started.** -/
theorem exec_christens (s : Session) (task : Task) : s.Christens task (s.exec task) := by
  cases ht : task.isOffstage with
  | true => exact (s.offstage_exec ht).discreet.christens
  | false =>
    cases task with
    | order o => exact (discreet_obey s o).christens
    | command c => exact s.christens_command c
    | call c o =>
      cases c with
      | resume n => exact .same rfl rfl (keptBy_orders _)
      | notify tag andThen => exact .same rfl rfl (keptBy_perform andThen)
    | discard c =>
      cases c with
      | resume n => exact .same rfl rfl (keptBy_orders _)
      | notify tag andThen => cases ht
    | collected k => exact (discreet_collected s k).christens
    | acted => exact .same rfl rfl rfl
    | started name k =>
      refine ⟨fun {i} h => ?_, fun {i} hi => by cases hi⟩
      rcases h with ⟨other, h⟩ | h
      · rcases of_getElem?_insert h with ⟨-, rfl⟩ | h
        · exact .inr rfl
        · exact .inl (.inl ⟨other, h⟩)
      · exact .inl (.inr h)
    | opened name k =>
      refine ⟨fun {i} h => ?_, fun {i} hi => by cases hi⟩
      rcases h with h | ⟨other, h⟩
      · exact .inl (.inl h)
      · rcases of_getElem?_insert h with ⟨-, rfl⟩ | h
        · exact .inr rfl
        · exact .inl (.inr ⟨other, h⟩)
    | _ => cases ht

end Session

namespace Moment

variable {m m' : Moment}

/-- What the table of searches gave numbers to, keeps them. -/
theorem Next.before (h : Next m m') (hm : m.IsSound) :
    m.session.searches.Before m'.session.searches := by
  have hkeep := (h.steps hm).1.preserves (P := fun w => m.session.searches.Before w.table)
    (fun hstep hs hb => hb.trans (hstep.before hs).table) hm.sound (.refl _)
  exact hkeep.2

/-- Whatever search has a name, or is to get one, was started. -/
def IsKnown (m : Moment) : Prop :=
  ∀ i, m.session.Names i ∨ i ∈ keptBy m.stack → i < m.session.searches.next

/-- **No search has a name before it was started.** -/
theorem Next.isKnown (h : Next m m') (hm : m.IsSound) (hk : m.IsKnown) : m'.IsKnown := by
  cases h with
  | command c => exact fun i hi => hk i (.inl (hi.resolve_right (by simp [keptBy])))
  | @task s task stack told =>
    have hnext : Next ⟨s, task :: stack, told⟩
        ⟨(s.exec task).1, (s.exec task).2 ++ stack, told ++ s.news task⟩ := .task
    have hle : s.searches.next ≤ (s.exec task).1.searches.next := (hnext.before hm).next_le
    have hchristens := s.exec_christens task
    have hbefore : ∀ i, s.Names i ∨ i ∈ keptBy (task :: stack) →
        i < (s.exec task).1.searches.next := fun i hi => Nat.lt_of_lt_of_le (hk i hi) hle
    have hsplit : keptBy (task :: stack) = keptBy [task] ++ keptBy stack :=
      keptBy_append [task] stack
    intro i hi
    rcases hi with hi | hi
    · rcases hchristens.names hi with hi | hi
      · exact hbefore i (.inl hi)
      · refine hbefore i (.inr ?_)
        rw [hsplit]
        exact List.mem_append_left _ (by simp [keptBy, hi])
    · rw [keptBy_append] at hi
      rcases List.mem_append.1 hi with hi | hi
      · exact (hchristens.kept hi).2
      · refine hbefore i (.inr ?_)
        rw [hsplit]
        exact List.mem_append_right _ hi

/-- Every moment of a session is such. -/
theorem Leads.isKnown {g : Graph} {source : Option Source} {config : SearchConfig}
    (h : Leads (start g source config) m) : m.IsKnown := by
  induction h with
  | refl =>
    intro i hi
    rcases hi with (⟨name, hi⟩ | ⟨name, hi⟩) | hi
    · simp [start, Session.start] at hi
    · simp [start, Session.start] at hi
    · simp [start] at hi
  | tail hlead hnext ih => exact hnext.isKnown (Leads.isSound hlead) ih

end Moment

end TripleQuery
