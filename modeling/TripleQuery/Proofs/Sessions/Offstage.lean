import TripleQuery.Session.Run
/-!
# Offstage — what searches and their callers do not see

Much of what a session does is about its source of documents, its engine, or the
answer to a command. All this happens offstage (`Session.Offstage`): statements are
added at most, and the searches, who listens to them, their names and what was
reported stay as they are. The tasks that it leaves are plain, neither orders nor
about a search that is to be named (`Task.isPlain`).

Which commands and tasks are carried out offstage can be read off them
(`Session.offstage_command`, `Session.offstage_exec`).
-/

namespace TripleQuery

/-- The order that a task carries out. -/
def Task.order? : Task → Option Order
  | .order o => some o
  | _ => none

theorem Task.eq_order {task : Task} {o : Order} (h : task.order? = some o) : task = .order o := by
  cases task <;> cases h
  rfl

/-- The search that a task is to give a name, or to answer for. -/
def Task.keeps? : Task → Option Id
  | .started _ i | .opened _ i | .collected i => some i
  | _ => none

namespace Task

@[simp] theorem keeps?_order (o : Order) : (order o).keeps? = none := rfl

@[simp] theorem keeps?_command (c : Command) : (command c).keeps? = none := rfl

@[simp] theorem keeps?_acted : acted.keeps? = none := rfl

@[simp] theorem keeps?_call (c : Callback) (o : FetchOutcome) : (call c o).keeps? = none := rfl

@[simp] theorem keeps?_discard (c : Callback) : (discard c).keeps? = none := rfl

/-- A task carries out no order, and has no search to name or to answer for. -/
def isPlain (task : Task) : Bool :=
  task.order?.isNone && task.keeps?.isNone

theorem order?_of_isPlain {task : Task} (h : task.isPlain) : task.order? = none :=
  Option.isNone_iff_eq_none.1 (Bool.and_eq_true_iff.1 h).1

theorem keeps?_of_isPlain {task : Task} (h : task.isPlain) : task.keeps? = none :=
  Option.isNone_iff_eq_none.1 (Bool.and_eq_true_iff.1 h).2

theorem isPlain_map_discard (cs : List Callback) : (cs.map discard).all isPlain := by
  simp [List.all_map, isPlain, order?]

theorem isPlain_map_call (cs : List Callback) (o : FetchOutcome) :
    (cs.map fun c => call c o).all isPlain := by
  simp [List.all_map, isPlain, order?]

theorem isPlain_perform (cs : List Command) : (perform cs).all isPlain := by
  simp [perform, List.all_flatMap, isPlain, order?]

end Task

namespace Session

/-- What searches and callers see of a session, apart from its store. -/
def front (s : Session) :=
  (s.searches, s.listeners, s.handles, s.receivers, s.events)

/-- An outcome that searches and callers see nothing of, but for statements that
may be added. -/
structure Offstage (s : Session) (r : Session × List Task) : Prop where
  graph : ∃ ss, r.1.graph = s.graph.addAll ss
  front : r.1.front = s.front
  tasks : r.2.all Task.isPlain

variable {s s' : Session} {r : Session × List Task} {tasks : List Task} {task : Task}
  {c : Command}

namespace Offstage

theorem same (hg : r.1.graph = s.graph) (hf : r.1.front = s.front)
    (ht : r.2.all Task.isPlain) : s.Offstage r :=
  ⟨⟨[], hg⟩, hf, ht⟩

theorem searches (h : s.Offstage r) : r.1.searches = s.searches :=
  congrArg (·.1) h.front

theorem listeners (h : s.Offstage r) : r.1.listeners = s.listeners :=
  congrArg (·.2.1) h.front

theorem handles (h : s.Offstage r) : r.1.handles = s.handles :=
  congrArg (·.2.2.1) h.front

theorem receivers (h : s.Offstage r) : r.1.receivers = s.receivers :=
  congrArg (·.2.2.2.1) h.front

theorem events (h : s.Offstage r) : r.1.events = s.events :=
  congrArg (·.2.2.2.2) h.front

/-- A session that differs in what is offstage is as good. -/
theorem of_eq (h : s'.Offstage r) (hg : s'.graph = s.graph) (hf : s'.front = s.front) :
    s.Offstage r :=
  ⟨hg ▸ h.graph, h.front.trans hf, h.tasks⟩

/-- Plain tasks may follow. -/
theorem andThen (h : s.Offstage r) (tasks : List Task) (ht : tasks.all Task.isPlain) :
    s.Offstage (r.1, r.2 ++ tasks) :=
  ⟨h.graph, h.front, by rw [List.all_append, h.tasks, ht]; rfl⟩

/-- The source may be in use meanwhile. -/
theorem inUse (h : s.Offstage (s', tasks)) : s.Offstage (s'.inUse tasks) :=
  ⟨h.graph, h.front, (h.andThen [.leave] rfl).tasks⟩

theorem usingLibrary (h : s.Offstage (s', tasks)) (eager : Bool) :
    s.Offstage (s'.usingLibrary eager tasks) := by
  unfold Session.usingLibrary
  split
  · exact ⟨h.graph, h.front, (h.andThen [.leaveLibrary] rfl).tasks⟩
  · exact h.inUse

end Offstage

/-! ## The source of documents -/

theorem offstage_collect (s : Session) : s.Offstage s.collect := by
  unfold collect
  split
  · exact .same rfl rfl rfl
  · split
    · exact .same rfl rfl rfl
    · exact .same rfl rfl (Task.isPlain_map_discard _)

theorem offstage_leaving (s : Session) : s.Offstage s.leaving :=
  (offstage_collect s).andThen _ rfl

theorem offstage_dropping (s : Session) (wasThere : Bool) : s.Offstage (s.dropping wasThere) :=
  (offstage_collect s).andThen _ rfl

theorem offstage_request (s : Session) (document : String) :
    s.Offstage (s.request document) := by
  unfold request
  split
  · rename_i eager _ _
    exact .same rfl rfl (by cases eager <;> rfl)
  · exact .same rfl rfl rfl
  · exact .same rfl rfl rfl

theorem offstage_watch (s : Session) (document : String) (c : Callback) :
    s.Offstage (s.watch document c) := by
  unfold watch
  split
  · refine .same rfl rfl ?_
    simp only
    split <;> rfl
  · split
    · exact .same rfl rfl rfl
    · exact .same rfl rfl rfl
    · exact .same rfl rfl rfl
  · exact .same rfl rfl rfl

/-- A delivery may add statements. -/
theorem offstage_deliverNext {o : FetchOutcome} (h : s.deliverNext = some (s', o, tasks)) :
    s.Offstage (s', tasks) := by
  unfold deliverNext at h
  split at h
  · rename_i eager l hsrc
    obtain ⟨d, hd, he⟩ := Option.map_eq_some_iff.1 h
    cases he
    refine ⟨?_, rfl, Task.isPlain_map_call _ _⟩
    unfold Library.deliver at hd
    split at hd
    · cases hd
    · rename_i document queue _
      cases hd
      change ∃ ss, (l.fetch s.graph document).1 = s.graph.addAll ss
      unfold Library.fetch
      split
      · exact ⟨_, rfl⟩
      · exact ⟨[], rfl⟩
  · cases h

theorem offstage_pump (s : Session) (n : Nat) (announce : Bool) :
    s.Offstage (s.exec (.pump n announce)) := by
  unfold exec
  cases h : s.deliverNext with
  | none => cases announce <;> exact .same rfl rfl rfl
  | some d =>
    obtain ⟨s', o, tasks⟩ := d
    exact (offstage_deliverNext h).andThen _ rfl

theorem offstage_commandLibrary (s : Session) (eager : Bool) (l : Library Callback)
    (c : LibraryCommand) : s.Offstage (s.commandLibrary eager l c) := by
  unfold commandLibrary
  split
  · exact .same rfl rfl rfl
  · exact .same rfl rfl rfl
  · exact .same rfl rfl rfl
  · exact .same rfl rfl rfl
  · split
    · exact .same rfl rfl rfl
    · rename_i h
      exact ((offstage_deliverNext h).andThen _ rfl).usingLibrary eager
  · exact Offstage.usingLibrary (.same rfl rfl rfl) eager

theorem offstage_commandScript (s : Session) (src : ScriptedSource Callback) (c : ScriptCommand) :
    s.Offstage (s.commandScript src c) := by
  unfold commandScript
  split
  · exact .same rfl rfl rfl
  · exact .same rfl rfl rfl
  · split
    · exact .same rfl rfl rfl
    · exact .same rfl rfl rfl
  · split
    · exact .same rfl rfl rfl
    · exact .same rfl rfl rfl

end Session

/-! ## Commands and tasks -/

/-- A command has nothing to do with a search, nor with the statements that are
stored. -/
def Command.isOffstage : Command → Bool
  | .inspect _ | .library _ | .script _ | .request _ | .state _ | .onAvailable _ _ _
  | .configure _ | .searchUnreadable | .dropEngine | .dropSource => true
  | _ => false

/-- A task is about the source, or about an answer. -/
def Task.isOffstage : Task → Bool
  | .command c => c.isOffstage
  | .order .enterSource | .order .leaveSource | .order (.request _) | .order (.watch _ _)
  | .discard (.notify _ _) | .pump _ _ | .reply _ | .configured | .leave | .leaveLibrary => true
  | _ => false

namespace Session

variable {s : Session} {task : Task} {c : Command}

theorem offstage_command (s : Session) (hc : c.isOffstage) : s.Offstage (s.command c) := by
  cases c with
  | library c =>
    simp only [command]
    split
    · exact .same rfl rfl rfl
    · exact offstage_commandLibrary s _ _ c
  | script c =>
    simp only [command]
    split
    · exact .same rfl rfl rfl
    · exact offstage_commandScript s _ c
  | request document =>
    simp only [command]
    split
    · exact ((offstage_request s document).andThen _ rfl).inUse
    · exact .same rfl rfl rfl
  | state document =>
    simp only [command]
    split <;> exact .same rfl rfl rfl
  | onAvailable document tag andThen =>
    simp only [command]
    split
    · exact ((offstage_watch s document (.notify tag andThen)).andThen _ rfl).inUse
    · exact .same rfl rfl rfl
  | configure config =>
    have h := offstage_collect { s with engine := some ⟨config, s.owned⟩ }
    exact (h.of_eq (s := s) rfl rfl).andThen _ rfl
  | dropEngine =>
    exact (offstage_dropping { s with engine := none } s.engine.isSome).of_eq rfl rfl
  | dropSource =>
    exact (offstage_dropping { s with owned := false } s.owned).of_eq rfl rfl
  | inspect q => exact .same rfl rfl rfl
  | searchUnreadable => exact .same rfl rfl rfl
  | _ => cases hc

/-- **Whatever is offstage is carried out there.** -/
theorem offstage_exec (s : Session) (ht : task.isOffstage) : s.Offstage (s.exec task) := by
  cases task with
  | order o =>
    cases o with
    | enterSource | leaveSource => exact .same rfl rfl rfl
    | request document => exact s.offstage_request document
    | watch document ticket => exact s.offstage_watch document _
    | _ => cases ht
  | command c => exact s.offstage_command ht
  | discard c =>
    cases c with
    | resume ticket => cases ht
    | notify tag andThen => exact .same rfl rfl rfl
  | pump n announce => exact s.offstage_pump n announce
  | reply r => exact .same rfl rfl rfl
  | configured =>
    simp only [exec]
    split <;> exact .same rfl rfl rfl
  | leave => exact (offstage_leaving { s with users := s.users - 1 }).of_eq rfl rfl
  | leaveLibrary =>
    exact (offstage_leaving { s with deliverers := s.deliverers - 1 }).of_eq rfl rfl
  | _ => cases ht

end Session

end TripleQuery
