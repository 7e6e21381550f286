import TripleQuery.Proofs.Sessions.Tracking
/-!
# Waiting — no parked path is lost

Whatever task is carried out keeps track of the parked paths
(`Session.keepsTrack_exec`), and a task that is about one sees it off
(`Session.exec_ticket`). So at every moment of a session over a library each
parked path waits at the library, or a task is left for it (`Moment.OnTrack`).
-/

namespace TripleQuery

open Std (ExtTreeMap)

/-! ## Orders and calls -/

theorem Task.isQuiet_order {o : Order} (h : o.document? = none) : (Task.order o).IsQuiet := by
  refine ⟨?_, fun o' ho => ?_⟩
  · cases o with
    | watch d n => cases h
    | _ => rfl
  · cases ho
    exact h

/-- What a job does to parked paths, and whom it leaves to wait. -/
theorem Transition.waiting_cases {env : Surroundings} {t t' : Searches} {job : Job}
    {os : List Order} (h : Transition env t job t' os) :
    (t'.parked = t.parked ∧ ∀ o ∈ os, o.document? = none) ∨
    (∃ f d asked, job = .await f d asked ∧ t'.parked = t.parked.insert t.next (f.awaiting d) ∧
      os = [.watch d t.next]) ∨
    (∃ f d, t'.parked = t.parked ∧
      os = [.enterSource, .request d, .job (.await f d true), .leaveSource]) ∨
    ∃ f d state, env.state? = some state ∧ state d ≠ .unrequested ∧ t'.parked = t.parked ∧
      os = [.enterSource, .job (.await f d false), .leaveSource] := by
  cases h with
  | parked => exact .inr (.inl ⟨_, _, _, rfl, rfl, rfl⟩)
  | parkedAsked _ => exact .inr (.inl ⟨_, _, _, rfl, rfl, rfl⟩)
  | asked _ _ _ _ => exact .inr (.inr (.inl ⟨_, _, rfl, rfl⟩))
  | @awaited f x d _ _ hd hu =>
    unfold Search.nextFetch at hd
    split at hd
    · obtain ⟨state, hstate, -⟩ := Option.bind_eq_some_iff.1 hd
      refine .inr (.inr (.inr ⟨f, d, state, hstate, fun hne => ?_, rfl, rfl⟩))
      rw [Surroundings.isUnrequested, hstate] at hu
      simp [hne] at hu
    · cases hd
  | split _ _ _ _ _ => exact .inl ⟨rfl, t.forall_mem_split _ fun _ => rfl⟩
  | expanded _ _ _ _ _ _ => exact .inl ⟨rfl, forall_mem_steps (fun _ _ => rfl) rfl⟩
  | _ => exact .inl ⟨rfl, by simp [Order.document?]⟩

namespace Session

variable {s : Session} {n : Id}

/-- Orders that wait for nothing, and no newly parked path. -/
theorem keepsTrack_proceed {p : Searches × List Order}
    (hp : ∀ {n}, n ∈ p.1.parked → n ∈ s.searches.parked) (ho : ∀ o ∈ p.2, o.document? = none) :
    s.KeepsTrack (s.proceed p) := by
  have hquiet : ∀ task ∈ p.2.map Task.order, task.IsQuiet := fun task htask => by
    obtain ⟨o, hmem, rfl⟩ := List.mem_map.1 htask
    exact Task.isQuiet_order (ho o hmem)
  exact ⟨fun h => .inl (hp h), fun h => .inl (h.of_source rfl), fun h => ⟨_, h, .refl _⟩,
    fun _ => (guarded_of_isQuiet hquiet).tail, fun _ => prepared_of_isQuiet hquiet⟩

/-- **A parked path is watched for**, and only for what was requested before. -/
theorem keepsTrack_work {job : Job} {os : List Order}
    (hs : Sound s.searches (.job job :: os))
    (hknown : ∀ eager l, s.source = some (.library eager l) →
      ∀ d, (Order.job job).document? = some d → d ∈ l.records) :
    s.KeepsTrack (s.obey (.job job)) := by
  rcases (Sound.transition hs s.surroundings).waiting_cases with ⟨hp, ho⟩ |
    ⟨f, d, asked, rfl, hp, ho⟩ | ⟨f, d, hp, ho⟩ | ⟨f, d, state, hstate, hne, hp, ho⟩
  · exact keepsTrack_proceed (fun h => hp ▸ h) ho
  all_goals
    simp only [obey, proceed, ho]
    refine ⟨fun {n} hn => ?_, fun hn => .inl (hn.of_source rfl), fun hl => ⟨_, hl, .refl _⟩,
      fun _ => ?_, fun {eager l} hl => ?_⟩
  · simp only [hp] at hn
    rcases ExtTreeMap.mem_insert.1 hn with hn | hn
    · obtain rfl := Std.LawfulEqCmp.compare_eq_iff_eq.1 hn
      exact .inr (List.mem_singleton_self _)
    · exact .inl hn
  · trivial
  · exact ⟨fun d' hd => hknown eager l hl d' hd, trivial⟩
  · exact .inl (hp ▸ hn)
  · simp [Guarded, Task.ticket?]
  · simp [Prepared, ordersOf, Task.order?, Order.document?, Order.asks?]
  · exact .inl (hp ▸ hn)
  · simp [Guarded, Task.ticket?]
  · -- the state of the document shows that it was requested
    have hrec : documentPart d ∈ l.records := by
      refine Library.mem_records_of_state fun hu => hne ?_
      simp only [surroundings] at hstate
      split at hstate
      · rw [show s.source = _ from hl] at hstate
        cases hstate
        exact hu
      · cases hstate
    simp [Prepared, ordersOf, Task.order?, Order.document?, Order.asks?, hrec]

theorem keepsTrack_tell (s : Session) (i : Id) (m : Bindings) : s.KeepsTrack (s.tell i m) := by
  unfold tell
  split
  · exact .same rfl rfl (isQuiet_perform _)
  · exact .same rfl rfl isQuiet_nil
  · exact .same rfl rfl isQuiet_nil
  · exact .same rfl rfl isQuiet_nil

theorem keepsTrack_conclude (s : Session) (i : Id)
    (result : Except QueryError SearchSummary) : s.KeepsTrack (s.conclude i result) := by
  unfold conclude
  split
  · exact .same rfl rfl (isQuiet_perform _)
  · exact .same rfl rfl isQuiet_nil
  · exact .same rfl rfl isQuiet_nil
  · exact .same rfl rfl isQuiet_nil

/-- **Carrying out an order loses no parked path.** -/
theorem keepsTrack_obey {o : Order} {os : List Order} (hs : Sound s.searches (o :: os))
    (hknown : ∀ eager l, s.source = some (.library eager l) →
      ∀ d, o.document? = some d → d ∈ l.records) : s.KeepsTrack (s.obey o) := by
  cases o with
  | job job => exact keepsTrack_work hs hknown
  | enterSource => exact .same rfl rfl isQuiet_nil
  | leaveSource => exact .same rfl rfl (isQuiet_singleton _ rfl rfl)
  | request d => exact keepsTrack_request s d
  | watch d n => exact keepsTrack_watch s d _ fun eager l hl _ => hknown eager l hl _ rfl
  | deliver i m => exact keepsTrack_tell s i m
  | finish i result => exact keepsTrack_conclude s i result

/-- A path that goes on is parked no more. -/
theorem not_mem_parked_resume (t : Searches) (n : Id) : n ∉ (t.resume n).1.parked := by
  unfold Searches.resume
  split
  · rename_i hnone
    exact fun h => by simpa [hnone] using ExtTreeMap.mem_iff_isSome_getElem?.1 h
  · simp

/-- Nor is one that is given up. -/
theorem not_mem_parked_discard (t : Searches) (n : Id) : n ∉ (t.discard n).1.parked := by
  unfold Searches.discard
  split
  · rename_i hnone
    exact fun h => by simpa [hnone] using ExtTreeMap.mem_iff_isSome_getElem?.1 h
  · simp

theorem keepsTrack_call (s : Session) (c : Callback) (o : FetchOutcome) :
    s.KeepsTrack (s.call o c) := by
  cases c with
  | notify tag andThen => exact .same rfl rfl (isQuiet_perform andThen)
  | resume n =>
    refine keepsTrack_proceed (fun {k} hk => ?_) ?_
    · unfold Searches.resume at hk
      split at hk
      · exact hk
      · exact ExtTreeMap.mem_of_mem_erase hk
    · unfold Searches.resume
      split <;> simp [Order.document?]

theorem keepsTrack_giveUp (s : Session) (c : Callback) : s.KeepsTrack (s.giveUp c) := by
  cases c with
  | notify tag andThen => exact .same rfl rfl isQuiet_nil
  | resume n =>
    refine keepsTrack_proceed (fun {k} hk => ?_) ?_
    · unfold Searches.discard at hk
      split at hk
      · exact hk
      · exact ExtTreeMap.mem_of_mem_erase hk
    · unfold Searches.discard
      split <;> simp [Order.document?]

theorem keepsTrack_collected (s : Session) (i : Id) :
    s.KeepsTrack (s.exec (.collected i)) := by
  unfold exec collected
  refine .same ?_ ?_ isQuiet_nil
  · simp only
    split <;> rfl
  · simp only
    split
    · rfl
    · rfl
    · exact Searches.parked_update

/-- **No task loses a parked path**, if what it waits for was requested before. -/
theorem keepsTrack_exec {task : Task} {os : List Order}
    (hs : Sound s.searches (task.order?.toList ++ os))
    (hknown : ∀ eager l, s.source = some (.library eager l) →
      ∀ o, task.order? = some o → ∀ d, o.document? = some d → d ∈ l.records) :
    s.KeepsTrack (s.exec task) := by
  cases task with
  | order o => exact keepsTrack_obey hs fun eager l hl => hknown eager l hl o rfl
  | command c => exact keepsTrack_command s c
  | call c o => exact keepsTrack_call s c o
  | discard c => exact keepsTrack_giveUp s c
  | collected i => exact keepsTrack_collected s i
  | pump n announce => exact keepsTrack_pump s n announce
  | leave => exact (keepsTrack_leaving { s with users := s.users - 1 }).of_eq rfl rfl
  | leaveLibrary =>
    exact (keepsTrack_leaving { s with deliverers := s.deliverers - 1 }).of_eq rfl rfl
  | configured =>
    simp only [exec]
    split
    · exact .same rfl rfl isQuiet_nil
    · exact .same rfl rfl isQuiet_nil
  | acted => exact .same rfl rfl isQuiet_nil
  | reply r => exact .same rfl rfl isQuiet_nil
  | started name i => exact .same rfl rfl isQuiet_nil
  | opened name i => exact .same rfl rfl isQuiet_nil

/-- **A task about a parked path sees it off**: the path is parked no more, or
waits at the source, or another task is left for it. -/
theorem exec_ticket {task : Task} (h : task.ticket? = some n)
    (hn : n ∈ (s.exec task).1.searches.parked) :
    (s.exec task).1.Awaits n ∨ n ∈ ticketsOf (s.exec task).2 := by
  cases task with
  | order o =>
    cases o with
    | watch d k =>
      cases h
      exact awaits_watch s d n
    | _ => cases h
  | call c o =>
    cases c with
    | resume k =>
      cases h
      exact absurd hn (not_mem_parked_resume s.searches n)
    | notify tag andThen => cases h
  | discard c =>
    cases c with
    | resume k =>
      cases h
      exact absurd hn (not_mem_parked_discard s.searches n)
    | notify tag andThen => cases h
  | _ => cases h

end Session

/-! ## Runs -/

namespace Moment

variable {m m' : Moment} {g : Graph} {config : SearchConfig}

/-- No parked path is lost, and what is left to do knows what it waits for. -/
structure OnTrack (m : Moment) : Prop where
  parked {n : Id} : n ∈ m.session.searches.parked →
    m.session.Awaits n ∨ n ∈ ticketsOf m.stack
  inOrder {eager : Bool} {l : Library Callback} :
    m.session.source = some (.library eager l) → l.InOrder Callback.IsPath
  prepared {eager : Bool} {l : Library Callback} :
    m.session.source = some (.library eager l) → Prepared (· ∈ l.records) (ordersOf m.stack)
  /-- Only the first task may be about a parked path outside of a delivery. -/
  guarded {eager : Bool} {l : Library Callback} :
    m.session.source = some (.library eager l) → Guarded m.stack.tail

/-- What an order asked for is recorded once it is carried out. -/
theorem mem_records_of_asks {s : Session} {o : Order} {d : String} {eager : Bool}
    {l : Library Callback} (ho : o.asks? = some d)
    (hl : (s.obey o).1.source = some (.library eager l)) : d ∈ l.records := by
  cases o with
  | request document =>
    cases ho
    simp only [Session.obey, Session.request] at hl
    split at hl
    · cases hl
      exact Library.mem_records_request _ document
    · cases hl
    · rename_i hnone
      rw [hnone] at hl
      cases hl
  | _ => cases ho

/-- **From one moment to the next no parked path is lost.** -/
theorem Next.onTrack (h : Next m m') (hm : m.IsSound) (ht : m.OnTrack) : m'.OnTrack := by
  cases h with
  | @command s told c =>
    have hnone : ∀ {n}, n ∉ ticketsOf [] := List.not_mem_nil
    exact ⟨fun hn => .inl ((ht.parked hn).resolve_right hnone), ht.inOrder,
      fun _ => trivial, fun _ => trivial⟩
  | @task s task stack told =>
    have hstack : ordersOf (task :: stack) = task.order?.toList ++ ordersOf stack := by
      unfold ordersOf
      rw [List.filterMap_cons]
      cases task.order? <;> rfl
    have hs : Sound s.searches (task.order?.toList ++ ordersOf stack) := by
      have hsound : Sound s.searches (ordersOf (task :: stack)) := hm.sound
      rwa [hstack] at hsound
    -- what was prepared for the stack is prepared for the first order and the rest
    have hprep : ∀ {eager l}, s.source = some (.library eager l) →
        Prepared (· ∈ l.records) (task.order?.toList ++ ordersOf stack) := fun hl => by
      have hall := ht.prepared hl
      rwa [show ordersOf _ = _ from hstack] at hall
    have hk : s.KeepsTrack (s.exec task) :=
      Session.keepsTrack_exec hs fun eager l hl o ho d hd => by
        have hall := hprep hl
        rw [ho] at hall
        exact hall.1 d hd
    refine ⟨fun {n} hn => ?_, fun hl' => ?_, fun {eager l'} hl' => ?_, fun {eager l'} hl' => ?_⟩
    · simp only [ticketsOf_append, List.mem_append]
      rcases hk.parked hn with hold | hnew
      · rcases ht.parked hold with hawaits | hticket
        · exact (hk.awaits hawaits).imp_right .inl
        · rcases List.mem_filterMap.1 hticket with ⟨task', hmem, htask⟩
          rcases List.mem_cons.1 hmem with rfl | hmem
          · exact (Session.exec_ticket htask hn).imp_right .inl
          · exact .inr (.inr (List.mem_filterMap.2 ⟨task', hmem, htask⟩))
      · exact .inr (.inl hnew)
    · obtain ⟨l, hl, hleads⟩ := hk.library hl'
      exact hleads.inOrder (ht.inOrder hl)
    · obtain ⟨l, hl, hleads⟩ := hk.library hl'
      rw [ordersOf_append]
      refine (hk.prepared hl').append ?_
      cases ho : task.order? with
      | none =>
        have hall := hprep hl
        rw [ho] at hall
        exact hall.mono fun d hd => hleads.recorded hd
      | some o =>
        have hall := hprep hl
        rw [ho] at hall
        refine hall.2.mono fun d hd => hd.elim hleads.recorded fun hasks => ?_
        obtain rfl := Task.eq_order ho
        exact mem_records_of_asks hasks hl'
    · obtain ⟨l, hl, -⟩ := hk.library hl'
      have hnew := hk.guarded hl'
      have hrest : Guarded stack := ht.guarded hl
      cases htasks : (s.exec task).2 with
      | nil => exact hrest.tail
      | cons task' tasks =>
        rw [htasks] at hnew
        exact hnew.append hrest

/-- **Every moment of a session over a library keeps track of parked paths.** -/
theorem Leads.onTrack {eager : Bool} (h : Leads (start g (some (.library eager {})) config) m) :
    m.OnTrack := by
  have hstart : (start g (some (.library eager {})) config).OnTrack := by
    refine ⟨fun {n} hn => ?_, fun hl => ?_, fun _ => trivial, fun _ => trivial⟩
    · simp [start, Session.start] at hn
    · cases hl
      exact Library.inOrder_empty _
  have hall : m.IsSound ∧ m.OnTrack := by
    induction h with
    | refl => exact ⟨isSound_start g _ config, hstart⟩
    | tail _ hnext ih =>
      exact ⟨(Leads.steps (.single hnext) ih.1).2, hnext.onTrack ih.1 ih.2⟩
  exact hall.2

end Moment

end TripleQuery
