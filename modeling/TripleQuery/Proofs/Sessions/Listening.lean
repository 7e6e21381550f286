import TripleQuery.Proofs.Searching.Queueing
import TripleQuery.Proofs.Sessions.InFlight
import TripleQuery.Proofs.Sessions.Naming
/-!
# Listening — who collects matches has what was told

A caller who does not wait collects the matches of his search, and its end. Only
an order to tell him of either changes what he has; every other task tells
nobody (`Session.exec_remarks`): it leaves him with what he has, also if it
starts another search or looks at what was left for another receiver, and it
reports nothing of any search. So at every moment he has the matches that were
told of his search, and its end as soon as it was told
(`Moment.Collects.next`).
-/

namespace TripleQuery

open Std (ExtTreeMap)

/-- Carrying out the task tells a caller of a match or of an end. -/
def Task.isTelling : Task → Bool
  | .order (.deliver _ _) | .order (.finish _ _) => true
  | _ => false

/-- The name under which a listener reports, if he reports. -/
def Listener.name? : Listener → Option String
  | .script name _ _ => some name
  | .collector _ _ | .channel _ _ => none

namespace Session

variable {s r : Session} {task : Task} {es : List Event} {i k : Id}

/-! ## What tells nobody -/

/-- The name under which a search reports, if it was started with a script. -/
def scriptName? (s : Session) (i : Id) : Option String :=
  s.listeners[i]?.bind Listener.name?

/-- The listener of a search is left with what he has. Only a receiver may have
looked at what was left for him. -/
def Keeps (s : Session) (i : Id) (r : Session) : Prop :=
  r.listeners[i]? = s.listeners[i]? ∨
    (∃ pending result, s.listeners[i]? = some (.channel pending result)) ∧
      ∃ pending result, r.listeners[i]? = some (.channel pending result)

theorem Keeps.collector {found : List Bindings} {result : Option (Except QueryError SearchSummary)}
    (h : s.Keeps i r) (hl : s.listeners[i]? = some (.collector found result)) :
    r.listeners[i]? = some (.collector found result) := by
  rcases h with h | ⟨⟨_, _, hchannel⟩, -⟩
  · exact h.trans hl
  · cases hl.symm.trans hchannel

/-- A receiver reports under no name, before and after. -/
theorem Keeps.scriptName?_eq (h : s.Keeps i r) : r.scriptName? i = s.scriptName? i := by
  unfold scriptName?
  rcases h with h | ⟨⟨_, _, h⟩, _, _, h'⟩
  · rw [h]
  · rw [h, h']
    rfl

/-- An outcome in which nobody is told of a search, and `es` is reported. -/
structure Remarks (s r : Session) (es : List Event) : Prop where
  /-- A search that is started meanwhile is another one. -/
  keeps {i : Id} : i ≠ s.searches.next → s.Keeps i r
  events : r.events.toList = s.events.toList ++ es

/-- Nothing is reported, and all listeners stay as they are. -/
theorem Remarks.same (hl : r.listeners = s.listeners) (he : r.events = s.events) :
    s.Remarks r [] :=
  ⟨fun _ => .inl (by rw [hl]), by rw [he, List.append_nil]⟩

/-- Nobody is told anything offstage. -/
theorem Offstage.remarks {out : Session × List Task} (h : s.Offstage out) : s.Remarks out.1 [] :=
  .same h.listeners h.events

theorem remarks_launch (s : Session) (p : Pattern) (listener : Listener) (after : Id → Task) :
    s.Remarks (s.launch p listener after).1 [] := by
  unfold launch
  split
  · exact .same rfl rfl
  · split
    · exact .same rfl rfl
    · rename_i e _ _ _
      have hkeeps : ∀ {i}, i ≠ s.searches.next →
          (s.listeners.insert s.searches.next listener)[i]? = s.listeners[i]? := fun hi => by
        rw [ExtTreeMap.getElem?_insert, if_neg (by simpa using hi.symm)]
      simp only
      split <;> exact ⟨fun hi => .inl (hkeeps hi), (List.append_nil _).symm⟩

/-- A receiver looks at what was left for him, and no one else. -/
theorem remarks_receive (s : Session) (name : String) : s.Remarks (s.receive name) [] := by
  unfold receive
  split
  · exact .same rfl rfl
  · rename_i k _
    split
    · rename_i pending result hk
      refine ⟨fun {i} _ => ?_, (List.append_nil _).symm⟩
      by_cases hi : k = i
      · subst hi
        exact .inr ⟨⟨_, _, hk⟩, _, _, ExtTreeMap.getElem?_insert_self⟩
      · refine .inl ?_
        change (s.listeners.insert k _)[i]? = _
        rw [ExtTreeMap.getElem?_insert, if_neg (by simpa using hi)]
    · exact .same rfl rfl

theorem remarks_edit (s : Session) (e : StoreEdit) : s.Remarks (s.edit e) [] := by
  cases e with
  | equate a b =>
    simp only [edit]
    split <;> exact .same rfl rfl
  | _ => exact .same rfl rfl

theorem remarks_withSearch (s : Session) (name : String) (change : Search → Search) :
    s.Remarks (s.withSearch name change) [] := by
  unfold withSearch
  split <;> exact .same rfl rfl

theorem remarks_collected (s : Session) (i : Id) : s.Remarks (s.collected i) [] := by
  unfold collected
  split <;> exact .same rfl rfl

theorem remarks_command (s : Session) (c : Command) : s.Remarks (s.command c).1 [] := by
  cases hc : c.isOffstage with
  | true => exact (s.offstage_command hc).remarks
  | false =>
    cases c with
    | search name p onMatch onDone => exact remarks_launch s p _ _
    | searchAll p => exact remarks_launch s p _ _
    | searchChannel name p => exact remarks_launch s p _ _
    | receive name => exact remarks_receive s name
    | edit e => exact remarks_edit s e
    | handle name => exact remarks_withSearch s name id
    | cancel name => exact remarks_withSearch s name .cancel
    | stop name => exact remarks_withSearch s name .stop
    | dropReceiver name => exact .same rfl rfl
    | _ => cases hc

/-- What is reported when a task is carried out, apart from what is told of
searches. -/
def remarks (s : Session) : Task → List Event
  | .acted => [.acted s.reply]
  | .call (.notify tag _) o => [.available tag o]
  | _ => []

theorem remarks_of_isOffstage (s : Session) (h : task.isOffstage) : s.remarks task = [] := by
  cases task with
  | call | acted => cases h
  | _ => rfl

/-- **Nothing but an order to tell of a search changes what a listener has**, or
is reported of a search. -/
theorem exec_remarks (s : Session) (ht : task.isTelling = false) :
    s.Remarks (s.exec task).1 (s.remarks task) := by
  cases hoff : task.isOffstage with
  | true =>
    rw [s.remarks_of_isOffstage hoff]
    exact (s.offstage_exec hoff).remarks
  | false =>
    cases task with
    | order o =>
      cases o with
      | job job => exact .same rfl rfl
      | deliver k b | finish k r => cases ht
      | _ => cases hoff
    | command c => exact remarks_command s c
    | call c o =>
      cases c with
      | resume ticket => exact .same rfl rfl
      | notify tag andThen => exact ⟨fun _ => .inl rfl, Array.toList_push⟩
    | discard c =>
      cases c with
      | resume ticket => exact .same rfl rfl
      | notify tag andThen => cases hoff
    | collected k => exact remarks_collected s k
    | acted => exact ⟨fun _ => .inl rfl, Array.toList_push⟩
    | started name k | opened name k => exact .same rfl rfl
    | _ => cases hoff

/-! ## What one caller is told -/

/-- What is told of one search is no matter to who listens to another. -/
theorem keeps_tell (b : Bindings) (hk : k ≠ i) : s.Keeps i (s.tell k b).1 := by
  refine .inl ?_
  unfold tell
  split <;> simp [ExtTreeMap.getElem?_insert, hk]

theorem keeps_conclude (result : Except QueryError SearchSummary) (hk : k ≠ i) :
    s.Keeps i (s.conclude k result).1 := by
  refine .inl ?_
  unfold conclude
  split
  · rfl
  all_goals simp [ExtTreeMap.getElem?_insert, hk]

/-- Other tasks tell of nothing but of searches that are started. -/
theorem news_of_not_telling (s : Session) (ht : task.isTelling = false) :
    ∀ n ∈ s.news task, ∃ k p, n = .started k p := by
  intro n hn
  obtain ⟨o, rfl, ho⟩ | ⟨c, p, -, -, rfl⟩ := mem_news hn
  · cases o with
    | deliver k b | finish k r => cases ht
    | _ => cases ho
  · exact ⟨_, p, rfl⟩

end Session

namespace Moment

variable {m m' : Moment} {s : Session} {task : Task} {stack stack' : List Task} {told : List Notice}
  {i : Id}

/-- Somebody collects the matches of a search: he has those that were told, the
latest first, and the end if it was told. -/
def Collects (m : Moment) (i : Id) : Prop :=
  ∃ result, m.session.listeners[i]? = some (.collector (matchesOf i m.told).reverse result) ∧
    (∀ r, result = some r → .done i r ∈ m.told) ∧ ∀ r, .done i r ∈ m.told → result ≠ none

/-- Who starts to collect has nothing, and of a new search nothing was told. -/
theorem collects_of_started (hm : m.IsSound) (hi : i ∉ m.session.searches.searches)
    (hl : s.listeners[i]? = some (.collector [] none)) (p : Pattern) :
    Collects ⟨s, stack, m.told ++ [.started i p]⟩ i := by
  have hfound : matchesOf i (m.told ++ [.started i p]) = [] := hm.faithful.matchesOf_started hi
  refine ⟨none, ?_, fun r hr => (Option.some_ne_none r hr.symm).elim, fun r hr => ?_⟩
  · rw [hfound]
    exact hl
  · have htold : .done i r ∈ m.told := (List.mem_append.1 hr).resolve_right (by simp)
    exact absurd (hm.faithful.mem_of_told htold) hi

/-- Other tasks than those that tell somebody leave him with what he has. -/
theorem Collects.aside (h : Collects ⟨s, task :: stack, told⟩ i) (hi : i ≠ s.searches.next)
    (ht : task.isTelling = false) :
    Collects ⟨(s.exec task).1, stack', told ++ s.news task⟩ i := by
  obtain ⟨result, hl, hdone, hend⟩ := h
  have hnews := s.news_of_not_telling ht
  have hmatches : matchesOf i (told ++ s.news task) = matchesOf i told := by
    rw [matchesOf_append, List.append_right_eq_self]
    refine List.filterMap_eq_nil_iff.2 fun n hn => ?_
    obtain ⟨k, p, rfl⟩ := hnews n hn
    rfl
  have hends : ∀ r, .done i r ∈ told ++ s.news task → .done i r ∈ told := fun r hr => by
    refine (List.mem_append.1 hr).resolve_right fun hn => ?_
    obtain ⟨k, p, he⟩ := hnews _ hn
    cases he
  refine ⟨result, ?_, fun r hr => List.mem_append_left _ (hdone r hr),
    fun r hr => hend r (hends r hr)⟩
  rw [hmatches]
  exact ((s.exec_remarks ht).keeps hi).collector hl

/-- When a match is told, he has it if it is one of his search. -/
theorem Collects.deliver {k : Id} {b : Bindings}
    (h : Collects ⟨s, .order (.deliver k b) :: stack, told⟩ i) :
    Collects ⟨(s.tell k b).1, stack', told ++ (Order.deliver k b).notices⟩ i := by
  obtain ⟨result, hl, hdone, hend⟩ := h
  have hmatches : matchesOf i (told ++ (Order.deliver k b).notices) =
      matchesOf i told ++ if k = i then [b] else [] := by
    rw [matchesOf_append, Scene.matchesOf_notices]
    by_cases hk : k = i <;> simp [Order.delivery?, hk]
  refine ⟨result, ?_, fun r hr => List.mem_append_left _ (hdone r hr), fun r hr => ?_⟩
  · rw [hmatches]
    by_cases hk : k = i
    · subst hk
      simp [Session.tell, hl]
    · rw [if_neg hk, List.append_nil]
      exact (Session.keeps_tell b hk).collector hl
  · simp only [Order.notices, List.mem_append, List.mem_singleton, reduceCtorEq, or_false] at hr
    exact hend r hr

/-- When an end is told, he has it if it is that of his search. -/
theorem Collects.finish {k : Id} {r : Except QueryError SearchSummary}
    (h : Collects ⟨s, .order (.finish k r) :: stack, told⟩ i) :
    Collects ⟨(s.conclude k r).1, stack', told ++ (Order.finish k r).notices⟩ i := by
  obtain ⟨result, hl, hdone, hend⟩ := h
  have hmatches : matchesOf i (told ++ (Order.finish k r).notices) = matchesOf i told := by
    rw [matchesOf_append, Scene.matchesOf_notices]
    exact List.append_nil _
  rw [Collects, hmatches]
  by_cases hk : k = i
  · subst hk
    refine ⟨some r, ?_, fun r' hr' => ?_, fun _ _ => Option.some_ne_none r⟩
    · simp [Session.conclude, hl]
    · obtain rfl := Option.some.inj hr'
      exact List.mem_append_right _ (List.mem_singleton_self _)
  · refine ⟨result, (Session.keeps_conclude r hk).collector hl,
      fun r' hr' => List.mem_append_left _ (hdone r' hr'), fun r' hr' => ?_⟩
    simp only [Order.notices, List.mem_append, List.mem_singleton, Notice.done.injEq] at hr'
    exact hend r' (hr'.resolve_right fun he => hk he.1.symm)

/-- **Who collects has what was told**, from one moment to the next. -/
theorem Collects.next (h : m.Collects i) (hm : m.IsSound) (hi : i < m.session.searches.next)
    (hnext : Next m m') : m'.Collects i := by
  cases hnext with
  | command c => exact h
  | @task s task stack told =>
    -- whoever an order speaks to is heard, so what he is told is news
    have hlisten : ∀ {o : Order}, task = .order o → s.news task = o.notices := by
      rintro o rfl
      exact Session.news_order fun k hk => hm.listens (o := o) List.mem_cons_self hk
    cases ht : task.isTelling with
    | false => exact h.aside (Nat.ne_of_lt hi) ht
    | true =>
      cases task with
      | order o =>
        rw [hlisten rfl]
        cases o with
        | deliver k b => exact h.deliver
        | finish k r => exact h.finish
        | _ => cases ht
      | _ => cases ht

end Moment

end TripleQuery
