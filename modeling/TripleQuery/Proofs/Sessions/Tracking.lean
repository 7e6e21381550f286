import TripleQuery.Proofs.Fetching.Requests
import TripleQuery.Proofs.Searching.Attended
import TripleQuery.Proofs.Sessions.Moment
/-!
# Tracking — the parked paths that tasks are about

A parked path is in somebody's hands: its continuation waits at the source of
documents, or a task is left that puts it there, calls it, or gives it up. An
outcome of a task keeps track of them (`Session.KeepsTrack`) if it parks no path
without a task that watches for its document, drops nobody who waits without a
task, and changes a library only in ways that leave its requests in order. What
is done at the source does so, and so does every command
(`Session.keepsTrack_command`).

A path is parked for documents that were requested before, since the order to
request one goes before the order to watch for it (`Prepared`). And tasks that
call somebody stand in front of the rest of the delivery that they belong to
(`Guarded`).
-/

namespace TripleQuery

/-! ## Tickets on the stack -/

/-- The parked path that a task is about. -/
def Task.ticket? : Task → Option Id
  | .order (.watch _ n) | .call (.resume n) _ | .discard (.resume n) => some n
  | _ => none

/-- The parked paths that some tasks are about. -/
def ticketsOf (tasks : List Task) : List Id :=
  tasks.filterMap Task.ticket?

@[simp] theorem ticketsOf_nil : ticketsOf [] = [] := rfl

@[simp] theorem ticketsOf_append (a b : List Task) :
    ticketsOf (a ++ b) = ticketsOf a ++ ticketsOf b := by
  simp [ticketsOf]

/-- Whether a task is what is left of a delivery once those who waited were
called. -/
def Task.isDelivery : Task → Bool
  | .reply (.delivered (some _)) | .pump (_ + 1) _ => true
  | _ => false

/-- Every task about a parked path stands in front of the rest of a delivery. -/
def Guarded : List Task → Prop
  | [] => True
  | task :: stack => (task.ticket?.isSome → ∃ later ∈ stack, later.isDelivery) ∧ Guarded stack

/-- The document that an order waits for. -/
def Order.document? : Order → Option String
  | .watch d _ | .job (.await _ d _) => some (documentPart d)
  | _ => none

/-- The document that an order asks for. -/
def Order.asks? : Order → Option String
  | .request d => some (documentPart d)
  | _ => none

/-- Whatever an order waits for is known, or an order before it asks for it. -/
def Prepared (known : String → Prop) : List Order → Prop
  | [] => True
  | o :: os =>
    (∀ d, o.document? = some d → known d) ∧ Prepared (fun d => known d ∨ o.asks? = some d) os

/-- Neither a task about a parked path, nor an order to wait. -/
def Task.IsQuiet (task : Task) : Prop :=
  task.ticket? = none ∧ ∀ o, task.order? = some o → o.document? = none

section

variable {tasks stack : List Task} {os rest : List Order} {known known' : String → Prop} {n : Id}

theorem Guarded.tail (h : Guarded stack) : Guarded stack.tail := by
  cases stack with
  | nil => exact h
  | cons task stack => exact h.2

theorem Guarded.append (h : Guarded tasks) (h' : Guarded stack) : Guarded (tasks ++ stack) := by
  induction tasks with
  | nil => exact h'
  | cons task tasks ih =>
    refine ⟨fun ht => ?_, ih h.2⟩
    obtain ⟨later, hmem, hd⟩ := h.1 ht
    exact ⟨later, List.mem_append_left _ hmem, hd⟩

/-- Where no delivery is under way, no task is about a parked path. -/
theorem Guarded.ticketsOf_eq_nil (h : Guarded stack) (hd : ∀ task ∈ stack, ¬ task.isDelivery) :
    ticketsOf stack = [] := by
  induction stack with
  | nil => rfl
  | cons task stack ih =>
    have hrest := ih h.2 fun task ht => hd task (List.mem_cons_of_mem _ ht)
    have hnone : task.ticket? = none := by
      by_contra hsome
      obtain ⟨later, hmem, hlater⟩ := h.1 (Option.isSome_iff_ne_none.2 hsome)
      exact hd later (List.mem_cons_of_mem _ hmem) hlater
    simpa [ticketsOf, hnone] using hrest

/-- Those who are called stand in front of the rest of their delivery. -/
theorem guarded_calls (cs : List Callback) (o : FetchOutcome) {later : Task}
    (hd : later.isDelivery) (h : Guarded (later :: stack)) :
    Guarded (cs.map (fun c => .call c o) ++ later :: stack) := by
  induction cs with
  | nil => exact h
  | cons c cs ih => exact ⟨fun _ => ⟨later, by simp, hd⟩, ih⟩

theorem ticketsOf_eq_nil (h : ∀ task ∈ tasks, task.IsQuiet) : ticketsOf tasks = [] :=
  List.filterMap_eq_nil_iff.2 fun task ht => (h task ht).1

theorem guarded_of_isQuiet (h : ∀ task ∈ tasks, task.IsQuiet) : Guarded tasks := by
  induction tasks with
  | nil => trivial
  | cons task tasks ih =>
    refine ⟨fun ht => ?_, ih fun task ht => h task (List.mem_cons_of_mem _ ht)⟩
    rw [(h task List.mem_cons_self).1] at ht
    cases ht

theorem Prepared.mono (h : Prepared known os) (hle : ∀ d, known d → known' d) :
    Prepared known' os := by
  induction os generalizing known known' with
  | nil => trivial
  | cons o os ih => exact ⟨fun d hd => hle d (h.1 d hd), ih h.2 fun d => Or.imp_left (hle d)⟩

theorem Prepared.append (h : Prepared known os) (h' : Prepared known rest) :
    Prepared known (os ++ rest) := by
  induction os generalizing known with
  | nil => exact h'
  | cons o os ih => exact ⟨h.1, ih h.2 (h'.mono fun d => .inl)⟩

theorem prepared_of_document? (h : ∀ o ∈ os, o.document? = none) : Prepared known os := by
  induction os generalizing known with
  | nil => trivial
  | cons o os ih =>
    refine ⟨fun d hd => ?_, ih fun o ho => h o (List.mem_cons_of_mem _ ho)⟩
    rw [h o List.mem_cons_self] at hd
    cases hd

theorem prepared_of_isQuiet (h : ∀ task ∈ tasks, task.IsQuiet) :
    Prepared known (ordersOf tasks) := by
  refine prepared_of_document? fun o ho => ?_
  obtain ⟨task, htask, hto⟩ := List.mem_filterMap.1 ho
  exact (h task htask).2 o hto

end

/-! ## Keeping track -/

/-- Whether a call back is to a parked path. -/
def Callback.IsPath (c : Callback) : Prop :=
  ∃ n, c = .resume n

namespace Session

/-- Whether the continuation of a parked path waits at the source. -/
def Awaits (s : Session) (n : Id) : Prop :=
  ∃ source, s.source = some source ∧ .resume n ∈ source.allWatchers

/-- An outcome in which no parked path is lost. -/
structure KeepsTrack (s : Session) (r : Session × List Task) : Prop where
  parked {n : Id} : n ∈ r.1.searches.parked → n ∈ s.searches.parked ∨ n ∈ ticketsOf r.2
  awaits {n : Id} : s.Awaits n → r.1.Awaits n ∨ n ∈ ticketsOf r.2
  library {eager : Bool} {l' : Library Callback} : r.1.source = some (.library eager l') →
    ∃ l, s.source = some (.library eager l) ∧ l.Leads Callback.IsPath l'
  guarded {eager : Bool} {l' : Library Callback} : r.1.source = some (.library eager l') →
    Guarded r.2.tail
  prepared {eager : Bool} {l' : Library Callback} : r.1.source = some (.library eager l') →
    Prepared (· ∈ l'.records) (ordersOf r.2)

variable {s s' : Session} {r : Session × List Task} {tasks : List Task} {n : Id}

theorem Awaits.of_source (h : s.Awaits n) (hs : s'.source = s.source) : s'.Awaits n := by
  obtain ⟨source, hsource, hn⟩ := h
  exact ⟨source, hs.trans hsource, hn⟩

/-- The source and the parked paths stay as they are, and what is left to do
does not concern them. -/
theorem KeepsTrack.same (hs : r.1.source = s.source)
    (hp : r.1.searches.parked = s.searches.parked) (ht : ∀ task ∈ r.2, task.IsQuiet) :
    s.KeepsTrack r where
  parked h := .inl (hp ▸ h)
  awaits h := .inl (h.of_source hs)
  library h := ⟨_, hs ▸ h, .refl _⟩
  guarded _ := guarded_of_isQuiet fun task h => ht task (List.mem_of_mem_tail h)
  prepared _ := prepared_of_isQuiet ht

/-- A session that differs in other things is as good. -/
theorem KeepsTrack.of_eq (h : s'.KeepsTrack r) (hs : s'.source = s.source)
    (hp : s'.searches.parked = s.searches.parked) : s.KeepsTrack r where
  parked hn := hp ▸ h.parked hn
  awaits hn := h.awaits (hn.of_source hs)
  library hr := hs ▸ h.library hr
  guarded := h.guarded
  prepared := h.prepared

/-- And so is an outcome that differs in other things. -/
theorem KeepsTrack.to_eq (h : s.KeepsTrack (s', tasks)) (hs : r.1.source = s'.source)
    (hp : r.1.searches.parked = s'.searches.parked) (ht : r.2 = tasks) : s.KeepsTrack r where
  parked hn := by
    rw [ht]
    exact h.parked (hp ▸ hn)
  awaits hn := by
    rw [ht]
    exact (h.awaits hn).imp_left fun hn => hn.of_source hs
  library hr := h.library (hs ▸ hr)
  guarded hr := ht ▸ h.guarded (hs ▸ hr)
  prepared hr := ht ▸ h.prepared (hs ▸ hr)

/-- Tasks that do not concern parked paths may follow. -/
theorem KeepsTrack.andThen (h : s.KeepsTrack r) (ht : ∀ task ∈ tasks, task.IsQuiet) :
    s.KeepsTrack (r.1, r.2 ++ tasks) where
  parked hn := by simpa [ticketsOf_eq_nil ht] using h.parked hn
  awaits hn := by simpa [ticketsOf_eq_nil ht] using h.awaits hn
  library := h.library
  guarded hr := by
    cases hr2 : r.2 with
    | nil => exact guarded_of_isQuiet fun task h => ht task (List.mem_of_mem_tail h)
    | cons task rest =>
      have hrest := h.guarded hr
      rw [hr2] at hrest
      exact hrest.append (guarded_of_isQuiet ht)
  prepared hr := by
    rw [ordersOf_append]
    exact (h.prepared hr).append (prepared_of_isQuiet ht)

theorem isQuiet_of_order? {task : Task} (ht : task.ticket? = none) (ho : task.order? = none) :
    task.IsQuiet :=
  ⟨ht, fun o h => by rw [ho] at h; cases h⟩

theorem isQuiet_perform (cs : List Command) : ∀ task ∈ Task.perform cs, task.IsQuiet := by
  intro task ht
  obtain ⟨c, -, hc⟩ := List.mem_flatMap.1 ht
  simp only [List.mem_cons, List.not_mem_nil, or_false] at hc
  rcases hc with rfl | rfl
  · exact isQuiet_of_order? rfl rfl
  · exact isQuiet_of_order? rfl rfl

theorem isQuiet_nil : ∀ task ∈ ([] : List Task), task.IsQuiet :=
  fun _ h => absurd h List.not_mem_nil

theorem isQuiet_singleton (task : Task) (ht : task.ticket? = none) (ho : task.order? = none) :
    ∀ task' ∈ [task], task'.IsQuiet := by
  intro task' h
  obtain rfl := List.mem_singleton.1 h
  exact isQuiet_of_order? ht ho

theorem KeepsTrack.inUse (h : s.KeepsTrack (s', tasks)) : s.KeepsTrack (s'.inUse tasks) :=
  (h.andThen (isQuiet_singleton .leave rfl rfl)).to_eq rfl rfl rfl

theorem KeepsTrack.usingLibrary (h : s.KeepsTrack (s', tasks)) (eager : Bool) :
    s.KeepsTrack (s'.usingLibrary eager tasks) := by
  unfold Session.usingLibrary
  split
  · exact (h.andThen (isQuiet_singleton .leaveLibrary rfl rfl)).to_eq rfl rfl rfl
  · exact h.inUse

/-! ## The source of documents -/

/-- Those who are called or given up have their tasks. -/
theorem mem_ticketsOf_map {cs : List Callback} {task : Callback → Task}
    (h : (task (.resume n)).ticket? = some n) (hn : .resume n ∈ cs) :
    n ∈ ticketsOf (cs.map task) :=
  List.mem_filterMap.2 ⟨_, List.mem_map_of_mem hn, h⟩

/-- **When the source goes away, everybody who waited is given up.** -/
theorem keepsTrack_collect (s : Session) : s.KeepsTrack s.collect := by
  unfold collect
  split
  · exact .same rfl rfl isQuiet_nil
  · rename_i source hsource
    split
    · exact .same rfl rfl isQuiet_nil
    · refine ⟨.inl, fun {n} hn => .inr ?_, fun h => ?_, fun h => ?_, fun h => ?_⟩
      · obtain ⟨source', hs, hmem⟩ := hn
        obtain rfl := Option.some.inj (hsource.symm.trans hs)
        exact mem_ticketsOf_map rfl hmem
      · cases h
      · cases h
      · cases h

theorem keepsTrack_leaving (s : Session) : s.KeepsTrack s.leaving :=
  (keepsTrack_collect s).andThen (isQuiet_singleton _ rfl rfl)

theorem keepsTrack_dropping (s : Session) (wasThere : Bool) :
    s.KeepsTrack (s.dropping wasThere) :=
  (keepsTrack_collect s).andThen (isQuiet_singleton _ rfl rfl)

/-- A library that comes to hold no fewer waiting. -/
theorem keepsTrack_library {eager : Bool} {l l' : Library Callback}
    (hs : s.source = some (.library eager l)) (hs' : r.1.source = some (.library eager l'))
    (hp : r.1.searches.parked = s.searches.parked) (hl : l.Leads Callback.IsPath l')
    (hw : ∀ {n}, .resume n ∈ l.allWatchers → .resume n ∈ l'.allWatchers)
    (ht : ∀ task ∈ r.2, task.IsQuiet) : s.KeepsTrack r where
  parked hn := .inl (hp ▸ hn)
  awaits hn := by
    obtain ⟨source, hsource, hmem⟩ := hn
    obtain rfl := Option.some.inj (hs.symm.trans hsource)
    exact .inl ⟨_, hs', hw hmem⟩
  library h := by
    cases hs'.symm.trans h
    exact ⟨l, hs, hl⟩
  guarded _ := guarded_of_isQuiet fun task h => ht task (List.mem_of_mem_tail h)
  prepared _ := prepared_of_isQuiet ht

/-- A scripted source that comes to hold no fewer waiting. -/
theorem keepsTrack_scripted {src src' : ScriptedSource Callback}
    (hs : s.source = some (.scripted src)) (hs' : r.1.source = some (.scripted src'))
    (hp : r.1.searches.parked = s.searches.parked)
    (hw : ∀ {n}, .resume n ∈ src.allWatchers → .resume n ∈ src'.allWatchers ∨ n ∈ ticketsOf r.2) :
    s.KeepsTrack r where
  parked hn := .inl (hp ▸ hn)
  awaits hn := by
    obtain ⟨source, hsource, hmem⟩ := hn
    obtain rfl := Option.some.inj (hs.symm.trans hsource)
    exact (hw hmem).imp_left fun hmem => ⟨_, hs', hmem⟩
  library h := by cases hs'.symm.trans h
  guarded h := by cases hs'.symm.trans h
  prepared h := by cases hs'.symm.trans h

theorem keepsTrack_request (s : Session) (document : String) :
    s.KeepsTrack (s.request document) := by
  unfold request
  split
  · rename_i eager l hs
    refine keepsTrack_library hs rfl rfl (l.leads_request document)
      (fun h => by rwa [Library.allWatchers_request]) ?_
    split
    · exact isQuiet_singleton _ rfl rfl
    · exact isQuiet_nil
  · rename_i src hs
    exact keepsTrack_scripted hs rfl rfl .inl
  · exact .same rfl rfl isQuiet_nil

/-- **Somebody may come to watch**, a parked path only for what was requested
before. -/
theorem keepsTrack_watch (s : Session) (document : String) (c : Callback)
    (h : ∀ eager l, s.source = some (.library eager l) → c.IsPath →
      documentPart document ∈ l.records) : s.KeepsTrack (s.watch document c) := by
  unfold watch
  split
  · rename_i eager l hs
    have hleads : l.Leads Callback.IsPath (l.watch document c).1 :=
      Library.leads_watch (h eager l hs)
    refine ⟨.inl, fun {n} hn => .inl ?_, fun hl => ?_, fun _ => ?_, fun _ => ?_⟩
    · obtain ⟨source, hsource, hmem⟩ := hn
      obtain rfl := Option.some.inj (hs.symm.trans hsource)
      exact ⟨_, rfl, Library.mem_allWatchers_watch_of_mem hmem⟩
    · cases hl
      exact ⟨l, hs, hleads⟩
    · simp only
      split <;> trivial
    · refine prepared_of_document? fun o ho => ?_
      simp only at ho
      split at ho <;> cases ho
  · rename_i src hs
    split
    · exact keepsTrack_scripted hs rfl rfl fun h => .inl (by
        simp only [ScriptedSource.allWatchers, ScriptedSource.keep, List.map_append,
          List.mem_append]
        exact .inl h)
    · exact keepsTrack_scripted hs hs rfl .inl
    · exact keepsTrack_scripted hs hs rfl .inl
  · rename_i hs
    exact ⟨.inl, fun hn => .inl (hn.of_source rfl), fun hl => (by rw [hs] at hl; cases hl),
      fun hl => (by rw [hs] at hl; cases hl), fun hl => (by rw [hs] at hl; cases hl)⟩

/-- **Whoever comes to watch waits at the source**, or a task is left that calls
or gives up. -/
theorem awaits_watch (s : Session) (document : String) (n : Id) :
    (s.watch document (.resume n)).1.Awaits n ∨
      n ∈ ticketsOf (s.watch document (.resume n)).2 := by
  unfold watch
  split
  · rename_i eager l hs
    rcases l.mem_allWatchers_watch document (.resume n) with hsome | hmem
    · obtain ⟨o, ho⟩ := Option.isSome_iff_exists.1 hsome
      refine .inr ?_
      simp [ho, ticketsOf, Task.ticket?]
    · exact .inl ⟨_, rfl, hmem⟩
  · split
    · refine .inl ⟨_, rfl, ?_⟩
      simp [Source.allWatchers, ScriptedSource.allWatchers, ScriptedSource.keep]
    · exact .inr (List.mem_singleton_self n)
    · exact .inr (List.mem_singleton_self n)
  · exact .inr (List.mem_singleton_self n)

/-- **A delivery calls everybody it takes from the source**, before what is left
of it. -/
theorem keepsTrack_deliverNext {o : FetchOutcome} {later : Task}
    (h : s.deliverNext = some (s', o, tasks)) (hd : later.isDelivery)
    (hq : later.IsQuiet) : s.KeepsTrack (s', tasks ++ [later]) := by
  unfold deliverNext at h
  split at h
  · rename_i eager l hs
    obtain ⟨dv, hdv, he⟩ := Option.map_eq_some_iff.1 h
    cases he
    have hquiet : ∀ task ∈ [later], task.IsQuiet := fun task ht => by
      obtain rfl := List.mem_singleton.1 ht
      exact hq
    refine ⟨.inl, fun {n} hn => ?_, fun hl => ?_, fun _ => ?_, fun _ => ?_⟩
    · obtain ⟨source, hsource, hmem⟩ := hn
      obtain rfl := Option.some.inj (hs.symm.trans hsource)
      rcases Library.watches_or_mem_of_deliver hdv hmem with hmem | hmem
      · exact .inl ⟨_, rfl, hmem⟩
      · refine .inr ?_
        rw [ticketsOf_append]
        exact List.mem_append_left _ (mem_ticketsOf_map rfl hmem)
    · cases hl
      exact ⟨l, hs, Library.leads_deliver hdv⟩
    · exact (guarded_calls dv.watchers dv.outcome hd (guarded_of_isQuiet hquiet)).tail
    · rw [ordersOf_append]
      refine Prepared.append ?_ (prepared_of_isQuiet hquiet)
      rw [ordersOf_of_isPlain (Task.isPlain_map_call _ _)]
      trivial
  · cases h

/-! ## Commands -/

theorem keepsTrack_pump (s : Session) (delivered : Nat) (announce : Bool) :
    s.KeepsTrack (s.exec (.pump delivered announce)) := by
  unfold exec
  cases h : s.deliverNext with
  | none =>
    refine .same ?_ ?_ isQuiet_nil <;> simp only <;> split <;> rfl
  | some d => exact keepsTrack_deliverNext h rfl (isQuiet_of_order? rfl rfl)

theorem keepsTrack_commandLibrary {eager : Bool} {l : Library Callback}
    (hs : s.source = some (.library eager l)) (c : LibraryCommand) :
    s.KeepsTrack (s.commandLibrary eager l c) := by
  cases c with
  | publish document ss =>
    exact keepsTrack_library hs rfl rfl (l.leads_publish document ss) id isQuiet_nil
  | failWith document reason =>
    exact keepsTrack_library hs rfl rfl (l.leads_failWith document reason) id isQuiet_nil
  | refresh document =>
    exact keepsTrack_library hs rfl rfl (l.leads_refresh document)
      (fun h => by rwa [Library.allWatchers_refresh]) isQuiet_nil
  | status => exact .same rfl rfl isQuiet_nil
  | deliver =>
    simp only [commandLibrary]
    split
    · exact .same rfl rfl isQuiet_nil
    · rename_i s' o tasks h
      exact (keepsTrack_deliverNext h rfl (isQuiet_of_order? rfl rfl)).usingLibrary eager
  | runPending =>
    have h : s.KeepsTrack (s, [.pump 0 true]) := .same rfl rfl (isQuiet_singleton _ rfl rfl)
    exact h.usingLibrary eager

/-- Somebody whom a script calls or gives up was held until then. -/
theorem keepsTrack_take {src src' : ScriptedSource Callback} {i : Nat} {document : String}
    {c : Callback} (task : Callback → Task) (hs : s.source = some (.scripted src))
    (h : src.take i = some (src', document, c)) (ht : ∀ n, (task (.resume n)).ticket? = some n) :
    s.KeepsTrack ({ s with source := some (.scripted src') }, task c :: tasks) := by
  obtain ⟨p, hp, he⟩ := Option.map_eq_some_iff.1 h
  cases he
  refine keepsTrack_scripted hs rfl rfl fun {n} hn => ?_
  obtain ⟨q, hq, hqn⟩ := List.mem_map.1 hn
  obtain ⟨k, hk⟩ := List.mem_iff_getElem?.1 hq
  by_cases he : k = i
  · subst he
    obtain rfl := Option.some.inj (hp.symm.trans hk)
    obtain rfl : c = .resume n := hqn
    exact .inr (List.mem_filterMap.2 ⟨_, List.mem_cons_self, ht n⟩)
  · exact .inl (List.mem_map.2 ⟨q, List.mem_eraseIdx_iff_getElem?.2 ⟨k, he, hk⟩, hqn⟩)

theorem keepsTrack_commandScript {src : ScriptedSource Callback}
    (hs : s.source = some (.scripted src)) (c : ScriptCommand) :
    s.KeepsTrack (s.commandScript src c) := by
  cases c with
  | setState document st => exact keepsTrack_scripted hs rfl rfl .inl
  | held => exact .same rfl rfl isQuiet_nil
  | fire i error =>
    simp only [commandScript]
    split
    · exact .same rfl rfl isQuiet_nil
    · rename_i src' document c h
      exact (keepsTrack_take (.call · ⟨document, error, 0⟩) hs h fun _ => rfl).inUse
  | discard i =>
    simp only [commandScript]
    split
    · exact .same rfl rfl isQuiet_nil
    · rename_i src' document c h
      exact (keepsTrack_take .discard hs h fun _ => rfl).inUse

theorem keepsTrack_launch (s : Session) (p : Pattern) (listener : Listener) {after : Id → Task}
    (ht : ∀ i, (after i).ticket? = none) (ho : ∀ i, (after i).order? = none) :
    s.KeepsTrack (s.launch p listener after) := by
  unfold launch
  split
  · exact .same rfl rfl isQuiet_nil
  · split
    · exact .same rfl rfl isQuiet_nil
    · simp only
      have hquiet : ∀ i f, ∀ task ∈ [Task.order (.job (.start f)), after i], task.IsQuiet := by
        intro i f task hmem
        simp only [List.mem_cons, List.not_mem_nil, or_false] at hmem
        rcases hmem with rfl | rfl
        · exact ⟨rfl, fun o h => by cases h; rfl⟩
        · exact isQuiet_of_order? (ht i) (ho i)
      split
      · exact KeepsTrack.inUse (.same rfl rfl (hquiet _ _))
      · exact .same rfl rfl (hquiet _ _)

theorem keepsTrack_withSearch (s : Session) (name : String) (change : Search → Search) :
    s.KeepsTrack (s.withSearch name change, []) := by
  unfold withSearch
  split
  · exact .same rfl rfl isQuiet_nil
  · exact .same rfl Searches.parked_update isQuiet_nil

theorem keepsTrack_receive (s : Session) (name : String) :
    s.KeepsTrack (s.receive name, []) := by
  unfold receive
  split
  · exact .same rfl rfl isQuiet_nil
  · split
    · exact .same rfl rfl isQuiet_nil
    · exact .same rfl rfl isQuiet_nil

theorem keepsTrack_edit (s : Session) (e : StoreEdit) : s.KeepsTrack (s.edit e, []) := by
  cases e with
  | add st => exact .same rfl rfl isQuiet_nil
  | extend ss => exact .same rfl rfl isQuiet_nil
  | equate a b =>
    simp only [edit]
    split
    · exact .same rfl rfl isQuiet_nil
    · exact .same rfl rfl isQuiet_nil

/-- **No command loses a parked path.** -/
theorem keepsTrack_command (s : Session) (c : Command) : s.KeepsTrack (s.command c) := by
  cases c with
  | edit e => exact keepsTrack_edit s e
  | search name p onMatch onDone => exact keepsTrack_launch s p _ (fun _ => rfl) fun _ => rfl
  | searchAll p => exact keepsTrack_launch s p _ (fun _ => rfl) fun _ => rfl
  | searchChannel name p => exact keepsTrack_launch s p _ (fun _ => rfl) fun _ => rfl
  | handle name => exact keepsTrack_withSearch s name id
  | cancel name => exact keepsTrack_withSearch s name .cancel
  | stop name => exact keepsTrack_withSearch s name .stop
  | library c =>
    simp only [command, library?]
    split
    · exact .same rfl rfl isQuiet_nil
    · rename_i eager l h
      split at h
      · rename_i hs
        cases h
        exact keepsTrack_commandLibrary hs c
      · cases h
  | script c =>
    simp only [command, scripted?]
    split
    · exact .same rfl rfl isQuiet_nil
    · rename_i src h
      split at h
      · rename_i hs
        cases h
        exact keepsTrack_commandScript hs c
      · cases h
  | request document =>
    simp only [command]
    split
    · have h := keepsTrack_request s document
      exact (h.andThen (isQuiet_singleton (.reply .done) rfl rfl)).inUse
    · exact .same rfl rfl isQuiet_nil
  | state document =>
    simp only [command]
    split
    · exact .same rfl rfl isQuiet_nil
    · exact .same rfl rfl isQuiet_nil
  | onAvailable document tag andThen =>
    simp only [command]
    split
    · have h := keepsTrack_watch s document (.notify tag andThen) fun _ _ _ hpath => by
        obtain ⟨n, hn⟩ := hpath
        cases hn
      exact (h.andThen (isQuiet_singleton (.reply .done) rfl rfl)).inUse
    · exact .same rfl rfl isQuiet_nil
  | configure config =>
    have h := keepsTrack_collect { s with engine := some ⟨config, s.owned⟩ }
    exact (h.of_eq (s := s) rfl rfl).andThen (isQuiet_singleton .configured rfl rfl)
  | receive name => exact keepsTrack_receive s name
  | dropEngine =>
    exact (keepsTrack_dropping { s with engine := none } s.engine.isSome).of_eq rfl rfl
  | dropSource => exact (keepsTrack_dropping { s with owned := false } s.owned).of_eq rfl rfl
  | inspect q => exact .same rfl rfl isQuiet_nil
  | searchUnreadable => exact .same rfl rfl isQuiet_nil
  | dropReceiver name => exact .same rfl rfl isQuiet_nil

end Session

end TripleQuery
