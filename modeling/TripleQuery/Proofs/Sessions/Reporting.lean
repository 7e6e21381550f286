import TripleQuery.Proofs.Sessions.Listening
/-!
# Reporting — what a session reports is what was told

A search that was started with a script reports under its name. Whatever task a
session carries out, what it reports of searches is what their callers are told
by it, each match and each end once and in order; besides, a callback that
watches for a document announces it, and a command inside a callback is answered
(`Session.events_exec`). The name of a search is the same ever after
(`Moment.IsSound.event?_exec`). So what the answer to a command reports of
searches is what callers were told from the command to its answer
(`Moment.Leads.reports_of_perform`).
-/

namespace TripleQuery

open Std (ExtTreeMap)

/-- An event is about a search. -/
def Event.isOfSearch : Event → Bool
  | .found _ _ | .done _ _ => true
  | .available _ _ | .acted _ => false

namespace Session

variable {s : Session} {task : Task} {n : Notice} {i : Id}

/-- How a session reports what a caller is told. Callers without a script do not
report. -/
def event? (s : Session) : Notice → Option Event
  | .started _ _ => none
  | .found i b => (s.scriptName? i).map fun name => .found name b
  | .done i result => (s.scriptName? i).map fun name => .done name result

/-- What is reported when a task is carried out. -/
def reports (s : Session) (task : Task) : List Event :=
  s.remarks task ++ (s.news task).filterMap s.event?

/-! ## One task -/

theorem isOfSearch_of_event? {e : Event} (h : s.event? n = some e) : e.isOfSearch := by
  cases n with
  | started i p => cases h
  | found i b | done i result =>
    obtain ⟨name, -, rfl⟩ := Option.map_eq_some_iff.1 h
    rfl

theorem filter_remarks (s : Session) (task : Task) :
    (s.remarks task).filter Event.isOfSearch = [] := by
  unfold remarks
  split <;> rfl

/-- Of searches, only that is reported that is told. -/
theorem filter_reports (s : Session) (task : Task) :
    (s.reports task).filter Event.isOfSearch = (s.news task).filterMap s.event? := by
  rw [reports, List.filter_append, filter_remarks, List.nil_append, List.filter_eq_self]
  intro e he
  obtain ⟨n, -, hn⟩ := List.mem_filterMap.1 he
  exact isOfSearch_of_event? hn

/-- Whom nobody listens to has no name to report under. -/
theorem filterMap_news (s : Session) (o : Order) :
    (s.news (.order o)).filterMap s.event? = o.notices.filterMap s.event? := by
  by_cases hheard : ∀ k, o.speaksOf? = some k → k ∈ s.listeners
  · rw [news_order hheard]
  · push Not at hheard
    obtain ⟨k, hk, hnot⟩ := hheard
    have hnone : s.scriptName? k = none := by
      rw [scriptName?, ExtTreeMap.getElem?_eq_none hnot]
      rfl
    have hsilent : s.news (.order o) = [] :=
      if_neg (by rwa [hk, Option.all_some, ExtTreeMap.contains_iff_mem])
    rw [hsilent]
    cases o with
    | deliver i b | finish i result =>
      obtain rfl := Option.some.inj hk
      simp [Order.notices, event?, hnone]
    | _ => rfl

/-- A script reports the match that its caller is told of. -/
theorem events_tell (s : Session) (i : Id) (b : Bindings) :
    (s.tell i b).1.events.toList = s.events.toList ++ (s.event? (.found i b)).toList := by
  unfold tell
  split <;> rename_i h <;> simp [event?, scriptName?, h, Listener.name?, emit]

/-- A script reports the end that its caller is told of. -/
theorem events_conclude (s : Session) (i : Id) (result : Except QueryError SearchSummary) :
    (s.conclude i result).1.events.toList =
      s.events.toList ++ (s.event? (.done i result)).toList := by
  unfold conclude
  split <;> rename_i h <;> simp [event?, scriptName?, h, Listener.name?, emit]

/-- **What a task reports is what it tells**, and what it remarks besides. -/
theorem events_exec (s : Session) (task : Task) :
    (s.exec task).1.events.toList = s.events.toList ++ s.reports task := by
  cases ht : task.isTelling with
  | false =>
    have hsilent : (s.news task).filterMap s.event? = [] := by
      refine List.filterMap_eq_nil_iff.2 fun n hn => ?_
      obtain ⟨k, p, rfl⟩ := s.news_of_not_telling ht n hn
      rfl
    rw [reports, hsilent, List.append_nil]
    exact (s.exec_remarks ht).events
  | true =>
    cases task with
    | order o =>
      rw [reports, filterMap_news]
      cases o with
      | deliver k b => exact s.events_tell k b
      | finish k result => exact s.events_conclude k result
      | _ => cases ht
    | _ => cases ht

/-! ## Names -/

theorem scriptName?_tell (s : Session) (k : Id) (b : Bindings) :
    (s.tell k b).1.scriptName? i = s.scriptName? i := by
  by_cases hk : k = i
  · subst hk
    unfold tell
    split <;> rename_i h <;> simp [scriptName?, h, Listener.name?]
  · exact (keeps_tell b hk).scriptName?_eq

theorem scriptName?_conclude (s : Session) (k : Id) (result : Except QueryError SearchSummary) :
    (s.conclude k result).1.scriptName? i = s.scriptName? i := by
  by_cases hk : k = i
  · subst hk
    unfold conclude
    split <;> rename_i h <;> simp [scriptName?, h, Listener.name?, emit]
  · exact (keeps_conclude result hk).scriptName?_eq

/-- **A search keeps its name.** Only one that is about to be started gets one. -/
theorem scriptName?_exec (s : Session) (task : Task) (hi : i ≠ s.searches.next) :
    (s.exec task).1.scriptName? i = s.scriptName? i := by
  cases ht : task.isTelling with
  | false => exact ((s.exec_remarks ht).keeps hi).scriptName?_eq
  | true =>
    cases task with
    | order o =>
      cases o with
      | deliver k b => exact s.scriptName?_tell k b
      | finish k result => exact s.scriptName?_conclude k result
      | _ => cases ht
    | _ => cases ht

end Session

/-! ## Commands -/

namespace Moment

variable {m : Moment} {g : Graph} {source : Option Source} {config : SearchConfig}
  {s s' : Session} {task : Task} {stack : List Task} {told news : List Notice} {n : Notice}
  {fuel : Nat} {c : Command} {reply : Reply} {events : List Event}

/-- What was told of a search, or is told now, is reported under the same name
later. -/
theorem IsSound.event?_exec (hm : IsSound ⟨s, task :: stack, told⟩)
    (hn : n ∈ told ++ s.news task) : (s.exec task).1.event? n = s.event? n := by
  have hname : n.search ∈ s.searches.searches →
      (s.exec task).1.scriptName? n.search = s.scriptName? n.search := fun hmem => by
    have hlt : n.search + 1 < s.searches.next := hm.sound.layout.search_lt hmem
    exact s.scriptName?_exec task (Nat.ne_of_lt (Nat.lt_of_succ_lt hlt))
  have hstarted : (∃ i p, n = .started i p) ∨ n.search ∈ s.searches.searches := by
    rcases List.mem_append.1 hn with hn | hn
    · exact .inr (hm.faithful.mem_of_told hn)
    · obtain ⟨o, rfl, ho⟩ | ⟨c, p, -, -, rfl⟩ := Session.mem_news hn
      · refine .inr (hm.launched (o := o) List.mem_cons_self ?_)
        cases o with
        | deliver i b | finish i result =>
          obtain rfl := List.mem_singleton.1 ho
          rfl
        | _ => cases ho
      · exact .inl ⟨_, p, rfl⟩
  rcases hstarted with ⟨i, p, rfl⟩ | hmem
  · rfl
  · have h := hname hmem
    cases n with
    | started i p => rfl
    | found i b | done i result => exact congrArg (Option.map _) h

/-- **What a command reports of searches is what callers were told meanwhile.**
Whatever a session did before, the events about searches that come with the
answer to a command are the notices of its run, in order, as far as they concern
searches with a script. -/
theorem Leads.reports_of_perform (h : Leads (start g source config) ⟨s, [], told⟩)
    (hrun : s.perform fuel c = some (s', reply, events)) :
    ∃ news, Leads ⟨s, [], told⟩ ⟨s', [], told ++ news⟩ ∧
      events.filter Event.isOfSearch = news.filterMap s'.event? := by
  obtain ⟨t, ht, he⟩ := Option.map_eq_some_iff.1 hrun
  cases he
  -- at every moment of the run, what was told since the command is reported
  refine Session.run_preserves (P := fun s' stack =>
    ∃ news, Leads ⟨s, [], told⟩ ⟨s', stack, told ++ news⟩ ∧
      s'.events.toList.filter Event.isOfSearch = news.filterMap s'.event?) ?_ ?_ ht
  · rintro s₁ task stack ⟨news, hleads, hreported⟩
    have hm : IsSound ⟨s₁, task :: stack, told ++ news⟩ := Leads.isSound (h.trans hleads)
    refine ⟨news ++ s₁.news task, ?_, ?_⟩
    · rw [← List.append_assoc]
      exact hleads.tail .task
    · rw [s₁.events_exec, List.filter_append, hreported, s₁.filter_reports,
        ← List.filterMap_append]
      refine (List.filterMap_congr fun n hn => hm.event?_exec ?_).symm
      rw [List.append_assoc]
      exact List.mem_append_right _ hn
  · refine ⟨[], ?_, rfl⟩
    rw [List.append_nil]
    exact .single (.command c)

/-- A search for nothing reports its match and its end. -/
example : ((start .empty none {}).session.perform 20 (.search "all" {} [] [])).map (·.2.2) =
    some [.found "all" ∅, .done "all" (.ok ⟨1, 0, false, false⟩)] := by
  rfl

end Moment

end TripleQuery
