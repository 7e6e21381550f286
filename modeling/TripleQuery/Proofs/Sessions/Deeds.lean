import TripleQuery.Proofs.Fetching.History
import TripleQuery.Proofs.Sessions.InFlight
/-!
# Deeds — what a session does with its library

A task of a session does at most one thing with the library that documents come
from (`Session.deed?`): it asks for a document, has somebody called, delivers, or
calls somebody. What it brings about is what that deed does to the tables of the
library, with a call for everybody who is to be told, before anything else
(`Session.handles_exec`). A callback is a list of tasks as any other, so a run of
a session from one moment to another is a history of the library, however
deliveries are nested (`Moment.Records`), and the library is what that history
has made of it (`Moment.Records.kept`).
-/

namespace TripleQuery

open Relation (ReflTransGen)

/-- Who is called by a task, and with which outcome. -/
def Task.calls? : Task → Option (Callback × FetchOutcome)
  | .call c o => some (c, o)
  | _ => none

/-- The calls among some tasks. -/
def callsOn (tasks : List Task) : List (Callback × FetchOutcome) :=
  tasks.filterMap Task.calls?

/-- The tasks that call somebody each. -/
def Task.calling (calls : List (Callback × FetchOutcome)) : List Task :=
  calls.map fun p => .call p.1 p.2

@[simp] theorem callsOn_nil : callsOn [] = [] := rfl

theorem callsOn_cons (task : Task) (tasks : List Task) :
    callsOn (task :: tasks) = task.calls?.toList ++ callsOn tasks := by
  rw [callsOn, List.filterMap_cons]
  cases task.calls? <;> rfl

@[simp] theorem callsOn_append (a b : List Task) : callsOn (a ++ b) = callsOn a ++ callsOn b := by
  simp [callsOn]

@[simp] theorem callsOn_calling (calls : List (Callback × FetchOutcome)) :
    callsOn (Task.calling calls) = calls := by
  simp [callsOn, Task.calling, List.filterMap_map, Function.comp_def, Task.calls?]

@[simp] theorem callsOn_perform (cs : List Command) : callsOn (Task.perform cs) = [] := by
  simp [callsOn, Task.perform, List.filterMap_flatMap, Task.calls?]

@[simp] theorem callsOn_map_order (os : List Order) : callsOn (os.map .order) = [] := by
  simp [callsOn, List.filterMap_map, Function.comp_def, Task.calls?]

@[simp] theorem callsOn_map_discard (cs : List Callback) : callsOn (cs.map .discard) = [] := by
  simp [callsOn, List.filterMap_map, Function.comp_def, Task.calls?]

namespace Session

/-- The library that documents come from. -/
def stock? (s : Session) : Option (Library Callback) :=
  match s.source with
  | some (.library _ l) => some l
  | _ => none

/-- The next delivery. -/
def delivery? (s : Session) : Option (Deed Callback) :=
  (s.stock?.bind (·.deliver s.graph)).map fun dv => .delivered dv.outcome dv.watchers

/-- What a command does with the library that the session refers to. -/
def commandDeed? (s : Session) : Command → Option (Deed Callback)
  | .request d => some (.requested d)
  | .onAvailable d tag andThen => some (.registered d (.notify tag andThen))
  | .library (.refresh d) => some (.refreshed d)
  | .library .deliver => s.delivery?
  | _ => none

/-- What a task does with the library. -/
def deed? (s : Session) : Task → Option (Deed Callback)
  | .order (.request d) => s.stock?.map fun _ => .requested d
  | .order (.watch d n) => s.stock?.map fun _ => .registered d (.resume n)
  | .command c => s.library?.bind fun _ => s.commandDeed? c
  | .call c o => some (.called c o)
  | .pump _ _ => s.delivery?
  | _ => none

/-- Documents come from a library, if from anywhere. -/
def IsStocked (s : Session) : Prop :=
  ∀ src, s.source ≠ some (.scripted src)

variable {s s' : Session} {r : Session × List Task} {task : Task} {tasks : List Task}
  {l l' : Library Callback} {e : Deed Callback} {eager : Bool}

theorem stock?_of_source (h : s.source = some (.library eager l)) : s.stock? = some l := by
  rw [stock?, h]

theorem stock?_eq_some (h : s.stock? = some l) : ∃ eager, s.source = some (.library eager l) := by
  unfold stock? at h
  split at h
  · rename_i eager l' hs
    exact ⟨eager, Option.some.inj h ▸ hs⟩
  · cases h

theorem library?_eq_some (h : s.library? = some (eager, l)) :
    s.owned = true ∧ s.source = some (.library eager l) := by
  unfold library? at h
  split at h
  · rename_i howned hs
    cases h
    exact ⟨howned, hs⟩
  · cases h

/-! ## Leaving the library alone -/

/-- An outcome that leaves what the library keeps as it is, if the library stays,
and has nobody called. -/
structure Bypasses (s : Session) (r : Session × List Task) : Prop where
  stocked : s.IsStocked → r.1.IsStocked
  tables {l' : Library Callback} : r.1.stock? = some l' →
    ∃ l, s.stock? = some l ∧ l'.tables = l.tables
  calls : callsOn r.2 = []

theorem Bypasses.same (hs : r.1.source = s.source) (hc : callsOn r.2 = []) : s.Bypasses r where
  stocked h src := hs ▸ h src
  tables h := ⟨_, by rwa [stock?, hs] at h, rfl⟩
  calls := hc

/-- A session with the same source is as good. -/
theorem Bypasses.of_source (h : s'.Bypasses r) (hs : s'.source = s.source) : s.Bypasses r where
  stocked hstocked := h.stocked fun src => hs ▸ hstocked src
  tables hl := by
    obtain ⟨l, hl, ht⟩ := h.tables hl
    exact ⟨l, by rwa [stock?, hs] at hl, ht⟩
  calls := h.calls

/-- Tasks that call nobody may follow, and other things may change. -/
theorem Bypasses.andThen (h : s.Bypasses (s', tasks)) (more : List Task) (hc : callsOn more = [])
    (hs : r.1.source = s'.source) (hr : r.2 = tasks ++ more) : s.Bypasses r where
  stocked hstocked src := hs ▸ h.stocked hstocked src
  tables hl := h.tables (by rwa [stock?, hs] at hl)
  calls := by
    rw [hr, callsOn_append, hc, List.append_nil]
    exact h.calls

/-- Nobody is called when the library goes away. -/
theorem bypasses_collect (s : Session) : s.Bypasses s.collect := by
  unfold collect
  split
  · exact .same rfl rfl
  · split
    · exact .same rfl rfl
    · exact {
        stocked := fun _ _ h => by cases h
        tables := fun h => by cases h
        calls := callsOn_map_discard _ }

theorem bypasses_proceed (s : Session) (p : Searches × List Order) : s.Bypasses (s.proceed p) :=
  .same rfl (callsOn_map_order p.2)

theorem bypasses_edit (s : Session) (e : StoreEdit) : s.Bypasses (s.edit e, []) := by
  cases e with
  | add st | extend ss => exact .same rfl rfl
  | equate a b =>
    simp only [edit]
    split <;> exact .same rfl rfl

theorem bypasses_launch (s : Session) (p : Pattern) (listener : Listener) {after : Id → Task}
    (h : ∀ i, (after i).calls? = none) : s.Bypasses (s.launch p listener after) := by
  unfold launch
  split
  · exact .same rfl rfl
  · split
    · exact .same rfl rfl
    · simp only
      have hcalls : ∀ f i rest, callsOn (.order (.job (.start f)) :: after i :: rest) =
          callsOn rest := fun f i rest => by
        rw [callsOn_cons, callsOn_cons, h]
        rfl
      split
      · exact .same rfl (hcalls _ _ _)
      · exact .same rfl (hcalls _ _ _)

theorem bypasses_withSearch (s : Session) (name : String) (change : Search → Search) :
    s.Bypasses (s.withSearch name change, []) := by
  unfold withSearch
  split <;> exact .same rfl rfl

theorem bypasses_receive (s : Session) (name : String) : s.Bypasses (s.receive name, []) := by
  unfold receive
  split
  · exact .same rfl rfl
  · split <;> exact .same rfl rfl

theorem bypasses_tell (s : Session) (i : Id) (m : Bindings) : s.Bypasses (s.tell i m) := by
  unfold tell
  split
  · exact .same rfl (callsOn_perform _)
  · exact .same rfl rfl
  · exact .same rfl rfl
  · exact .same rfl rfl

theorem bypasses_conclude (s : Session) (i : Id) (result : Except QueryError SearchSummary) :
    s.Bypasses (s.conclude i result) := by
  unfold conclude
  split
  · exact .same rfl (callsOn_perform _)
  · exact .same rfl rfl
  · exact .same rfl rfl
  · exact .same rfl rfl

theorem bypasses_collected (s : Session) (i : Id) : s.Bypasses (s.exec (.collected i)) := by
  refine .same ?_ rfl
  simp only [exec, collected]
  split <;> rfl

theorem bypasses_call (s : Session) (c : Callback) (o : FetchOutcome) :
    s.Bypasses (s.call o c) := by
  cases c with
  | resume n => exact s.bypasses_proceed _
  | notify tag andThen => exact .same rfl (callsOn_perform andThen)

theorem bypasses_giveUp (s : Session) (c : Callback) : s.Bypasses (s.giveUp c) := by
  cases c with
  | resume n => exact s.bypasses_proceed _
  | notify tag andThen => exact .same rfl rfl

/-! ## Doing something with the library -/

/-- An outcome that does something with the library: the tables come to be what
the deed makes of them, and who is to be told is called before anything else. -/
structure Serves (s : Session) (e : Deed Callback) (r : Session × List Task) : Prop where
  stocked : r.1.IsStocked
  library : ∃ l l' later, s.stock? = some l ∧ r.1.stock? = some l' ∧ l.tables.Allows e ∧
    l'.tables = l.tables.apply e ∧ r.2 = Task.calling (l.tables.due e) ++ later ∧
    callsOn later = [] ∧ (e.document?.isSome → ∃ task ∈ later.head?, task.isDelivery)

theorem Serves.intro (later : List Task) (hs : s.source = some (.library eager l))
    (hs' : r.1.source = some (.library eager l')) (ha : l.tables.Allows e)
    (ht : l'.tables = l.tables.apply e) (hr : r.2 = Task.calling (l.tables.due e) ++ later)
    (hc : callsOn later = []) (hd : e.document?.isSome → ∃ task ∈ later.head?, task.isDelivery) :
    s.Serves e r :=
  ⟨fun src h => (by rw [hs'] at h; cases h), l, l', later, stock?_of_source hs,
    stock?_of_source hs', ha, ht, hr, hc, hd⟩

/-- Nothing is to follow a deed that delivers nothing. -/
theorem Serves.undelivered (later : List Task) (hs : s.source = some (.library eager l))
    (hs' : r.1.source = some (.library eager l')) (ha : l.tables.Allows e)
    (ht : l'.tables = l.tables.apply e) (hr : r.2 = Task.calling (l.tables.due e) ++ later)
    (hc : callsOn later = []) (hd : e.document? = none) : s.Serves e r :=
  .intro later hs hs' ha ht hr hc fun h => by
    rw [hd] at h
    cases h

/-- Tasks that call nobody may follow, and other things may change. -/
theorem Serves.andThen (h : s.Serves e (s', tasks)) (more : List Task) (hc : callsOn more = [])
    (hs : r.1.source = s'.source) (hr : r.2 = tasks ++ more) : s.Serves e r := by
  obtain ⟨hstocked, l, l', later, hl, hl', ha, ht, htasks, hcalls, hd⟩ := h
  refine ⟨fun src => hs ▸ hstocked src, l, l', later ++ more, hl, ?_, ha, ht, ?_, ?_, fun he => ?_⟩
  · rw [stock?, hs]
    exact hl'
  · rw [hr, ← List.append_assoc]
    exact congrArg (· ++ more) htasks
  · rw [callsOn_append, hcalls, hc]
    rfl
  · obtain ⟨task, htask, hdelivery⟩ := hd he
    cases later with
    | nil => cases htask
    | cons first rest => exact ⟨task, htask, hdelivery⟩

theorem Serves.inUse (h : s.Serves e (s', tasks)) : s.Serves e (s'.inUse tasks) :=
  h.andThen [.leave] rfl rfl rfl

theorem Serves.usingLibrary (h : s.Serves e (s', tasks)) (eager : Bool) :
    s.Serves e (s'.usingLibrary eager tasks) := by
  unfold Session.usingLibrary
  split
  · exact h.andThen [.leaveLibrary] rfl rfl rfl
  · exact h.inUse

/-- **A document is asked for.** -/
theorem serves_request (d : String) (hs : s.source = some (.library eager l)) :
    s.Serves (.requested d) (s.request d) := by
  simp only [request, hs]
  refine .undelivered _ hs rfl trivial (l.tables_request d) rfl ?_ rfl
  cases eager <;> rfl

/-- **Somebody is to be called once a document is there**, and is called at once
if it is. -/
theorem serves_watch (d : String) (c : Callback) (hs : s.source = some (.library eager l)) :
    s.Serves (.registered d c) (s.watch d c) := by
  obtain ⟨htables, houtcome⟩ := l.tables_watch d c
  simp only [watch, hs]
  refine .undelivered [] hs rfl trivial htables ?_ rfl rfl
  rw [houtcome, List.append_nil, Tables.due]
  cases l.tables.outcomes (documentPart d) <;> rfl

/-- **The oldest request is served**: those who waited are called, and then the
rest of the delivery goes on. -/
theorem serves_deliverNext {o : FetchOutcome} (later : Task)
    (h : s.deliverNext = some (s', o, tasks)) (hd : later.isDelivery) :
    ∃ e, s.delivery? = some e ∧ s.Serves e (s', tasks ++ [later]) := by
  unfold deliverNext at h
  split at h
  · rename_i eager l hs
    obtain ⟨dv, hdv, he⟩ := Option.map_eq_some_iff.1 h
    cases he
    obtain ⟨hallows, htables⟩ := Library.tables_deliver hdv
    refine ⟨.delivered dv.outcome dv.watchers, ?_,
      .intro [later] hs rfl hallows htables ?_ ?_ fun _ => ⟨later, rfl, hd⟩⟩
    · rw [delivery?, stock?_of_source hs, Option.bind_some, hdv]
      rfl
    · simp [Tables.due, Task.calling, Function.comp_def]
    · cases later <;> first | rfl | cases hd
  · cases h

theorem delivery?_of_deliverNext (h : s.deliverNext = none) : s.delivery? = none := by
  cases hl : s.stock? with
  | none =>
    rw [delivery?, hl]
    rfl
  | some l =>
    obtain ⟨eager, hs⟩ := stock?_eq_some hl
    simp only [deliverNext, hs, Option.map_eq_none_iff] at h
    rw [delivery?, hl, Option.bind_some, h]
    rfl

/-! ## What a task does -/

/-- What a task does with the library, and what it leaves. -/
inductive Handles (s : Session) (task : Task) (r : Session × List Task) : Prop
  /-- It leaves the library alone. -/
  | aside : s.deed? task = none → s.Bypasses r → Handles s task r
  /-- It does something with it. -/
  | serve {e : Deed Callback} : s.deed? task = some e → s.Serves e r → Handles s task r
  /-- It calls somebody. -/
  | call {c : Callback} {o : FetchOutcome} : task = .call c o → s.Bypasses r → Handles s task r

/-- A session without a library that it refers to is asked for nothing. -/
theorem handles_of_library? {c : Command} (h : s.library? = none) (hr : s.Bypasses r) :
    s.Handles (.command c) r :=
  .aside (by rw [deed?, h]; rfl) hr

theorem handles_commandLibrary (c : LibraryCommand) (h : s.library? = some (eager, l)) :
    s.Handles (.command (.library c)) (s.commandLibrary eager l c) := by
  have hs := (library?_eq_some h).2
  have hdeed : s.deed? (.command (.library c)) = s.commandDeed? (.library c) := by
    rw [deed?, h]
    rfl
  have hpublish : ∀ l' : Library Callback, l'.tables = l.tables →
      s.Bypasses ({ s with source := some (.library eager l'), reply := .done }, []) :=
    fun l' hl' => ⟨fun _ src hsrc => (by cases hsrc),
      fun hnew => ⟨l, stock?_of_source hs, Option.some.inj hnew ▸ hl'⟩, rfl⟩
  cases c with
  | publish d ss => exact .aside hdeed (hpublish _ (l.tables_publish d ss))
  | failWith d reason => exact .aside hdeed (hpublish _ (l.tables_failWith d reason))
  | status => exact .aside hdeed (.same rfl rfl)
  | refresh d =>
    exact .serve hdeed (.undelivered [] hs rfl trivial (l.tables_refresh d) rfl rfl rfl)
  | runPending =>
    refine .aside hdeed (.same ?_ ?_)
    · simp only [commandLibrary, usingLibrary]
      split <;> rfl
    · simp only [commandLibrary, usingLibrary]
      split <;> rfl
  | deliver =>
    simp only [commandLibrary]
    split
    · rename_i hnone
      exact .aside (hdeed.trans (delivery?_of_deliverNext hnone)) (.same rfl rfl)
    · rename_i s' o tasks hnext
      obtain ⟨e, he, hserves⟩ := serves_deliverNext (.reply (.delivered (some o))) hnext rfl
      exact .serve (hdeed.trans he) (hserves.usingLibrary eager)

/-- A command that asks the library for something. -/
theorem handles_asking {c : Command} {e : Deed Callback} {r' : Session × List Task}
    (hstocked : s.IsStocked) (hdeed : s.commandDeed? c = some e)
    (hserves : ∀ eager l, s.source = some (.library eager l) → s.Serves e r')
    (hbypasses : s.source = none → s.Bypasses r') :
    s.Handles (.command c)
      (if s.owned then r'.1.inUse (r'.2 ++ [.reply .done]) else (s.answer .noSource, [])) := by
  split
  · rename_i howned
    cases hs : s.source with
    | none =>
      have hno : s.library? = none := by simp [library?, hs]
      exact handles_of_library? hno ((hbypasses hs).andThen [.reply .done, .leave] rfl rfl
        (List.append_assoc ..))
    | some source =>
      cases source with
      | scripted src => exact absurd hs (hstocked src)
      | library eager l =>
        have hyes : s.library? = some (eager, l) := by simp [library?, hs, howned]
        have hdeeds : s.deed? (.command c) = some e := by
          rw [deed?, hyes]
          exact hdeed
        exact .serve hdeeds ((hserves eager l hs).andThen [.reply .done, .leave] rfl rfl
          (List.append_assoc ..))
  · rename_i howned
    have hno : s.library? = none := by simp [library?, howned]
    exact handles_of_library? hno (.same rfl rfl)

/-- What a command does. -/
theorem handles_command (hstocked : s.IsStocked) (c : Command) :
    s.Handles (.command c) (s.command c) := by
  have aside : s.commandDeed? c = none → s.Bypasses (s.command c) →
      s.Handles (.command c) (s.command c) := fun hc hbypasses => by
    refine .aside ?_ hbypasses
    rw [deed?, hc]
    cases s.library? <;> rfl
  cases c with
  | request d =>
    refine handles_asking hstocked rfl (fun eager l => serves_request d) fun hnone => ?_
    simp only [hnone]
    exact .same rfl rfl
  | onAvailable d tag andThen =>
    refine handles_asking hstocked rfl (fun eager l => serves_watch d _) fun hnone => ?_
    simp only [hnone]
    exact .same rfl rfl
  | library c =>
    simp only [command]
    cases h : s.library? with
    | none => exact handles_of_library? h (.same rfl rfl)
    | some p => exact handles_commandLibrary c h
  | script c =>
    refine aside rfl ?_
    simp only [command]
    split
    · exact .same rfl rfl
    · rename_i src h
      unfold scripted? at h
      split at h
      · exact absurd ‹_› (hstocked _)
      · cases h
  | state d =>
    refine aside rfl ?_
    simp only [command]
    split <;> exact .same rfl rfl
  | edit e => exact aside rfl (s.bypasses_edit e)
  | search name p onMatch onDone => exact aside rfl (s.bypasses_launch p _ fun _ => rfl)
  | searchAll p => exact aside rfl (s.bypasses_launch p _ fun _ => rfl)
  | searchChannel name p => exact aside rfl (s.bypasses_launch p _ fun _ => rfl)
  | handle name => exact aside rfl (s.bypasses_withSearch name id)
  | cancel name => exact aside rfl (s.bypasses_withSearch name .cancel)
  | stop name => exact aside rfl (s.bypasses_withSearch name .stop)
  | receive name => exact aside rfl (s.bypasses_receive name)
  | configure config =>
    have h := bypasses_collect { s with engine := some ⟨config, s.owned⟩ }
    exact aside rfl ((h.of_source (s := s) rfl).andThen [.configured] rfl rfl rfl)
  | dropEngine =>
    have h := bypasses_collect { s with engine := none }
    exact aside rfl ((h.of_source (s := s) rfl).andThen [.reply _] rfl rfl rfl)
  | dropSource =>
    have h := bypasses_collect { s with owned := false }
    exact aside rfl ((h.of_source (s := s) rfl).andThen [.reply _] rfl rfl rfl)
  | inspect q | searchUnreadable | dropReceiver name => exact aside rfl (.same rfl rfl)

/-- What an order does. -/
theorem handles_obey (hstocked : s.IsStocked) (o : Order) :
    s.Handles (.order o) (s.obey o) := by
  cases o with
  | request d =>
    cases hs : s.source with
    | none =>
      refine .aside (by simp [deed?, stock?, hs]) ?_
      simp only [obey, request, hs]
      exact .same rfl rfl
    | some source =>
      cases source with
      | scripted src => exact absurd hs (hstocked src)
      | library eager l =>
        exact .serve (by rw [deed?, stock?_of_source hs]; rfl) (serves_request d hs)
  | watch d n =>
    cases hs : s.source with
    | none =>
      refine .aside (by simp [deed?, stock?, hs]) ?_
      simp only [obey, watch, hs]
      exact .same rfl rfl
    | some source =>
      cases source with
      | scripted src => exact absurd hs (hstocked src)
      | library eager l =>
        exact .serve (by rw [deed?, stock?_of_source hs]; rfl) (serves_watch d _ hs)
  | job j => exact .aside rfl (s.bypasses_proceed _)
  | enterSource | leaveSource => exact .aside rfl (.same rfl rfl)
  | deliver i m => exact .aside rfl (s.bypasses_tell i m)
  | finish i result => exact .aside rfl (s.bypasses_conclude i result)

/-- **What a task does with the library**, and what it leaves of it. -/
theorem handles_exec (hstocked : s.IsStocked) (task : Task) :
    s.Handles task (s.exec task) := by
  cases task with
  | order o => exact handles_obey hstocked o
  | command c => exact handles_command hstocked c
  | call c o => exact .call rfl (s.bypasses_call c o)
  | discard c => exact .aside rfl (s.bypasses_giveUp c)
  | collected i => exact .aside rfl (s.bypasses_collected i)
  | pump n announce =>
    simp only [exec]
    split
    · rename_i hnone
      refine .aside (delivery?_of_deliverNext hnone) (.same ?_ rfl)
      split <;> rfl
    · rename_i s' o tasks hnext
      obtain ⟨e, he, hserves⟩ := serves_deliverNext (.pump (n + 1) announce) hnext rfl
      exact .serve he hserves
  | leave =>
    have h := bypasses_collect { s with users := s.users - 1 }
    exact .aside rfl ((h.of_source (s := s) rfl).andThen [.reply _] rfl rfl rfl)
  | leaveLibrary =>
    have h := bypasses_collect { s with deliverers := s.deliverers - 1 }
    exact .aside rfl ((h.of_source (s := s) rfl).andThen [.reply _] rfl rfl rfl)
  | configured =>
    refine .aside rfl ?_
    simp only [exec]
    split <;> exact .same rfl rfl
  | acted | reply r | started name i | opened name i => exact .aside rfl (.same rfl rfl)

end Session

/-! ## The history of a run -/

namespace Moment

variable {m m' m₁ m₂ : Moment} {e : Deed Callback} {T T₁ T₂ : List (Deed Callback)}
  {g : Graph} {config : SearchConfig} {eager : Bool} {l l' : Library Callback} {d : String}

/-- What is done with the library next. -/
def deed? (m : Moment) : Option (Deed Callback) :=
  m.stack.head?.bind m.session.deed?

/-- From one moment to another, with what is done with the library in between. -/
inductive Records : Moment → List (Deed Callback) → Moment → Prop
  | refl (m : Moment) : Records m [] m
  | head {m m' m'' : Moment} {T : List (Deed Callback)} :
      Next m m' → Records m' T m'' → Records m (m.deed?.toList ++ T) m''

theorem Records.trans (h : Records m T₁ m₁) (h' : Records m₁ T₂ m') :
    Records m (T₁ ++ T₂) m' := by
  induction h with
  | refl => exact h'
  | head hnext _ ih =>
    rw [List.append_assoc]
    exact .head hnext (ih h')

theorem Records.leads (h : Records m T m') : Leads m m' := by
  induction h with
  | refl => exact .refl
  | head hnext _ ih => exact .head hnext ih

/-- **Every run has its history.** -/
theorem Leads.exists_records (h : Leads m m') : ∃ T, Records m T m' := by
  induction h using ReflTransGen.head_induction_on with
  | refl => exact ⟨[], .refl _⟩
  | head hnext _ ih =>
    obtain ⟨T, hT⟩ := ih
    exact ⟨_, .head hnext hT⟩

/-- What is done with the library while so many tasks are carried out. -/
def deedsOf : Nat → Moment → List (Deed Callback)
  | n + 1, ⟨s, task :: stack, told⟩ =>
    (s.deed? task).toList ++
      deedsOf n ⟨(s.exec task).1, (s.exec task).2 ++ stack, told ++ s.news task⟩
  | _, _ => []

theorem records_carryOut (n : Nat) (m : Moment) : Records m (deedsOf n m) (carryOut n m) := by
  induction n generalizing m with
  | zero => exact .refl _
  | succ n ih =>
    obtain ⟨s, stack, told⟩ := m
    cases stack with
    | nil => exact .refl _
    | cons task stack => exact .head (m := ⟨s, task :: stack, told⟩) .task (ih _)

/-- What is done with the library for some commands, each with so many tasks to be
carried out for it. -/
def deedsOfAll (n : Nat) : List Command → Moment → List (Deed Callback)
  | c :: cs, ⟨s, [], told⟩ =>
    deedsOf n ⟨{ s with events := #[] }, [.command c], told⟩ ++
      deedsOfAll n cs (carryOut n ⟨{ s with events := #[] }, [.command c], told⟩)
  | _, _ => []

theorem records_carryOutAll (n : Nat) (cs : List Command) (m : Moment) :
    Records m (deedsOfAll n cs m) (carryOutAll n cs m) := by
  induction cs generalizing m with
  | nil => exact .refl _
  | cons c cs ih =>
    obtain ⟨s, stack, told⟩ := m
    cases stack with
    | nil =>
      exact .head (m := ⟨s, [], told⟩) (.command c) ((records_carryOut n _).trans (ih _))
    | cons task stack => exact .refl _

/-- The library is what its history has made of it. -/
structure Kept (T : List (Deed Callback)) (m : Moment) : Prop where
  stocked : m.session.IsStocked
  follows : ({} : Tables Callback).Follows T
  tables {l : Library Callback} : m.session.stock? = some l →
    l.tables = ({} : Tables Callback).after T

/-- **Each task adds to the history what it does.** -/
theorem Kept.next (h : m.Kept T) (hnext : Next m m') : m'.Kept (T ++ m.deed?.toList) := by
  cases hnext with
  | @command s told c =>
    rw [show (deed? ⟨s, [], told⟩).toList = [] from rfl, List.append_nil]
    exact ⟨h.stocked, h.follows, h.tables⟩
  | @task s task stack told =>
    have hdeed : deed? ⟨s, task :: stack, told⟩ = s.deed? task := rfl
    -- an outcome that leaves the library alone leaves its tables to the history so far
    have hbypasses : ∀ {T'}, s.Bypasses (s.exec task) → ({} : Tables Callback).Follows T' →
        ({} : Tables Callback).after T' = ({} : Tables Callback).after T →
        Kept T' ⟨(s.exec task).1, (s.exec task).2 ++ stack, told ++ s.news task⟩ :=
      fun hs hT hsame => ⟨hs.stocked h.stocked, hT, fun hl' => by
        obtain ⟨l, hl, ht⟩ := hs.tables hl'
        rw [ht, h.tables hl, hsame]⟩
    rw [hdeed]
    rcases Session.handles_exec h.stocked task with ⟨hnone, hs⟩ | ⟨he, hserves⟩ | ⟨rfl, hs⟩
    · rw [hnone]
      exact hbypasses hs (by simpa using h.follows) (by simp)
    · rename_i e
      obtain ⟨hstocked, l, l', later, hl, hl', hallows, ht, -⟩ := hserves
      rw [he]
      refine ⟨hstocked, Tables.follows_append.2 ⟨h.follows, ?_, trivial⟩, fun hnew => ?_⟩
      · exact h.tables hl ▸ hallows
      · obtain rfl := Option.some.inj (hl'.symm.trans hnew)
        rw [ht, h.tables hl]
        simp
    · exact hbypasses hs (Tables.follows_append.2 ⟨h.follows, trivial, trivial⟩) (by
        simp [Session.deed?, Tables.apply])

/-- What a history leads to is what it makes of the one before. -/
theorem Kept.records (h : m.Kept T₁) (hT : Records m T m') : m'.Kept (T₁ ++ T) := by
  induction hT generalizing T₁ with
  | refl => simpa using h
  | head hnext _ ih =>
    rw [← List.append_assoc]
    exact ih (h.next hnext)

theorem kept_start (g : Graph) (eager : Bool) (config : SearchConfig) :
    (start g (some (.library eager {})) config).Kept [] where
  stocked src h := by cases h
  follows := trivial
  tables h := by
    cases h
    exact Library.tables_empty

/-- **A library is what its history has made of it**, from the start of its
session. -/
theorem Records.kept (h : Records (start g (some (.library eager {})) config) T m) : m.Kept T :=
  (kept_start g eager config).records h

end Moment

end TripleQuery
