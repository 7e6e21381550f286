import TripleQuery.Proofs.Searching.Dwindling
import TripleQuery.Proofs.Searching.Outcome
import TripleQuery.Proofs.Sessions.Answered
import TripleQuery.Proofs.Sessions.Collecting
/-!
# Returning — who does not wait gets his answer

A search without a source of documents that somebody collects is left to itself
until he is answered: whatever is carried out is its own work
(`Moment.Secluded.next`). A scene does not go on for ever, so the call comes to
an end (`Moment.Secluded.returns`), and the answer is what the search was
foreseen to find, or as much of it as the limit lets through
(`Moment.Leads.searchAll_returns`). Nothing is assumed of what the session did
before or is still to do.
-/

namespace TripleQuery

/-- How many of some matches a search takes: all of them, or as many as the limit
says, but one in any case. -/
def SearchConfig.takes (config : SearchConfig) (n : Nat) : Nat :=
  match config.maxMatches with
  | none => n
  | some k => min n (max k 1)

namespace SearchConfig

variable {config : SearchConfig} {k n : Nat}

theorem takes_of_none (h : config.maxMatches = none) : config.takes n = n := by
  rw [takes, h]

theorem takes_of_some (h : config.maxMatches = some k) : config.takes n = min n (max k 1) := by
  rw [takes, h]

theorem takes_le (config : SearchConfig) (n : Nat) : config.takes n ≤ n := by
  cases h : config.maxMatches with
  | none => rw [takes_of_none h]
  | some k =>
    rw [takes_of_some h]
    exact Nat.min_le_left _ _

/-- It takes some if there are any. -/
theorem takes_eq_zero : config.takes n = 0 ↔ n = 0 := by
  cases h : config.maxMatches with
  | none => rw [takes_of_none h]
  | some k =>
    rw [takes_of_some h]
    omega

end SearchConfig

namespace Course

variable {C : Course} {config : SearchConfig} {e : QueryError} {r : Reply}
  {found taken : List Bindings} {x : Search}

/-- The answers for a caller who does not wait, by the course of his search. -/
inductive Answers (C : Course) (config : SearchConfig) : Reply → Prop
  /-- All matches were found, and no error was met. -/
  | complete : C.error = none → config.takes C.found.length = C.found.length →
      Answers C config (.results C.found)
  /-- The error was met. -/
  | failed {e : QueryError} : C.error = some e → Answers C config (.failed e)
  /-- The limit was reached. -/
  | truncated {taken : List Bindings} : taken <+: C.found →
      taken.length = config.takes C.found.length → taken ≠ [] → Answers C config (.results taken)

/-- An error that is met at once is the answer. -/
theorem Answers.eq_failed (h : (failing e).Answers config r) : r = .failed e := by
  cases h with
  | complete hnone _ => cases hnone
  | failed herror => rw [← Option.some.inj herror]
  | truncated hprefix _ hne => exact absurd (List.prefix_nil.1 hprefix) hne

/-- Where no error is met, the answer is the first matches. -/
theorem Answers.eq_results (h : (of found).Answers config r) :
    r = .results (found.take (config.takes found.length)) := by
  cases h with
  | complete _ hall =>
    rw [found_of] at hall
    rw [hall, List.take_length]
    rfl
  | failed herror => cases herror
  | truncated hprefix hlen _ =>
    rw [found_of] at hprefix hlen
    rw [← hlen, ← List.prefix_iff_eq_take.1 hprefix]

/-- A search that has taken all that it will is answered by its record. -/
theorem Reaches.answers (h : C.Reaches taken 0 x) (hx : x.IsConsistent)
    (hm : x.matchCount = taken.length) :
    C.Answers x.config (x.error.elim (.results taken) .failed) := by
  cases h with
  | going hs he _ hc =>
    rw [add_zero] at hc
    subst hc
    rw [he]
    refine .complete rfl ?_
    rw [found_of]
    cases hlimit : x.config.maxMatches with
    | none => exact SearchConfig.takes_of_none hlimit
    | some n =>
      have hlt := hx.count_lt hlimit hs
      rw [SearchConfig.takes_of_some hlimit]
      omega
  | failed _ he _ hc =>
    rw [he]
    exact .failed (congrArg Course.error hc)
  | full _ he ht _ hp =>
    obtain ⟨-, n, hlimit, hcount⟩ := hx.truncated ht
    have hlen := hp.length_le
    rw [he]
    refine .truncated hp ?_ ?_
    · rw [SearchConfig.takes_of_some hlimit]
      omega
    · rintro rfl
      rw [hm, List.length_nil] at hcount
      omega

end Course

/-- **An order that is a search's own work brings only more of it**, while
somebody collects the matches: the store is left as it is, and no callback is
called. -/
theorem Session.obey_own {s : Session} {i : Id} {o : Order} {os rest : List Order} {x : Search}
    {found : List Bindings} {result : Option (Except QueryError SearchSummary)}
    (hs : Sound s.searches (o :: (os ++ rest))) (hx : s.searches.searches[i]? = some x)
    (hlinked : x.linked = false) (hlisten : s.listeners[i]? = some (.collector found result))
    (hown : ∀ o' ∈ o :: os, s.searches.IsOwnWork i o') :
    ∃ os', (s.obey o).2 = os'.map .order ∧ (s.obey o).1.graph = s.graph ∧
      ∀ o' ∈ os' ++ os, (s.obey o).1.searches.IsOwnWork i o' := by
  have hlater : ∀ o' ∈ os, s.searches.IsOwnWork i o' := fun o' ho' =>
    hown o' (List.mem_cons_of_mem _ ho')
  have hwork := (hown o List.mem_cons_self).worksFor
  cases o with
  | job job =>
    have ht := Sound.transition hs s.surroundings
    refine ⟨(s.searches.run s.surroundings job).2, rfl, rfl, fun o' ho' => ?_⟩
    rcases List.mem_append.1 ho' with ho' | ho'
    · exact (hown _ List.mem_cons_self).run hs hx hlinked ht o' ho'
    · refine (hlater o' ho').keep hs ht ?_
      exact List.mem_append_right _ (List.mem_append_left _ ho')
  | deliver k b =>
    obtain rfl := Option.some.inj hwork
    refine ⟨[], ?_, ?_, ?_⟩ <;> rw [obey, tell_collector hlisten]
    · rfl
    · exact hlater
  | finish k r =>
    obtain rfl := Option.some.inj hwork
    refine ⟨[], ?_, ?_, ?_⟩ <;> rw [obey, conclude_collector hlisten]
    · rfl
    · exact hlater
  | _ => exact absurd hwork (by simp [Searches.worksFor?])

namespace Moment

variable {m : Moment} {s s' : Session} {g : Graph} {source : Option Source}
  {config settings : SearchConfig} {i : Id} {C : Course} {o : Order} {os : List Order}
  {outer : List Task} {told : List Notice} {p : Pattern}

/-- A search that is left to itself until its matches are collected: these
orders are its own work, and what is left below is left alone. -/
structure Secluded (m : Moment) (i : Id) (C : Course) (config : SearchConfig) (os : List Order)
    (outer : List Task) : Prop where
  underway : m.Underway i C config (.collected i) (os.map .order) outer
  own : ∀ o ∈ os, m.session.searches.IsOwnWork i o
  collects : m.Collects i

/-- **It is still so after the first of its orders**, and the searches have gone
on. -/
theorem Secluded.next (h : Secluded m i C config (o :: os) outer)
    (hm : Leads (start g source settings) m) :
    ∃ m' os', Next m m' ∧ Scene.Proceeds m.scene m'.scene ∧
      (m.session.obey o) = (m'.session, os'.map .order) ∧
      Secluded m' i C config (os' ++ os) outer := by
  obtain ⟨s, stack, told⟩ := m
  obtain rfl : stack = (o :: os).map .order ++ .collected i :: outer := h.underway.stack
  have hsound := hm.isSound
  obtain ⟨x, hconfig, hx⟩ := h.underway.course
  obtain ⟨result, hlisten, -⟩ := h.collects
  have hs : Sound s.searches (o :: (os ++ ordersOf outer)) := by
    have hall := hsound.sound
    rwa [Collecting.scene_eq] at hall
  obtain ⟨os', htasks, hgraph, hown⟩ :=
    Session.obey_own hs hx.started hx.unlinked hlisten h.own
  have hnext : Next ⟨s, .order o :: (os.map .order ++ .collected i :: outer), told⟩
      ⟨(s.obey o).1, (s.obey o).2 ++ (os.map .order ++ .collected i :: outer),
        told ++ s.news (.order o)⟩ := .task
  obtain ⟨inner, hunder⟩ := h.underway.next hm hnext hgraph
  -- the stack says which orders are left
  have hinner : inner = (os' ++ os).map .order := by
    have hstack := hunder.stack
    change (s.obey o).2 ++ (os.map .order ++ .collected i :: outer) = _ at hstack
    rw [htasks, ← List.append_assoc, ← List.map_append] at hstack
    exact (List.append_cancel_right hstack).symm
  have hlisten : ∀ k, o.speaksOf? = some k → k ∈ s.listeners := fun k hk =>
    hsound.listens (o := o) List.mem_cons_self hk
  have hproceeds := s.proceeds_obey hlisten hgraph (os ++ ordersOf outer) told
  refine ⟨_, os', hnext, ?_, Prod.ext rfl htasks, hinner ▸ hunder, hown, ?_⟩
  · rw [Collecting.scene_eq, scene, ordersOf_append, ordersOf_append, ordersOf_map_order]
    exact hproceeds
  · refine h.collects.next hsound ?_ hnext
    exact Nat.lt_of_succ_lt (hsound.sound.layout.search_lt (mem_of_getElem? hx.started))

/-- **What is left to itself comes to its end**, and then the matches are
collected. -/
theorem Secluded.returns (h : Secluded m i C config os outer)
    (hm : Leads (start g source settings) m) :
    ∃ fuel m', Leads m m' ∧ Session.run fuel (os.map .order) m.session = some m'.session ∧
      Secluded m' i C config [] outer := by
  have horder : m.scene.InOrder := ⟨hm.isSound.sound, hm.isSound.faithful, hm.attended⟩
  have hacc : Acc (flip Scene.Proceeds) m.scene := horder.acc
  generalize hw : m.scene = w at hacc
  -- by induction on what is left for the searches to do
  induction hacc generalizing m os with
  | intro w _ ih =>
    subst hw
    cases os with
    | nil => exact ⟨0, m, .refl, rfl, h⟩
    | cons o os =>
      obtain ⟨m₁, os', hnext, hproceeds, hobey, h₁⟩ := h.next hm
      have hm₁ : Leads (start g source settings) m₁ := .tail hm hnext
      have horder₁ : m₁.scene.InOrder :=
        ⟨hm₁.isSound.sound, hm₁.isSound.faithful, hm₁.attended⟩
      obtain ⟨fuel, m', hleads, hrun, hdone⟩ := ih m₁.scene hproceeds h₁ hm₁ horder₁ rfl
      refine ⟨fuel + 1, m', .head hnext hleads, ?_, hdone⟩
      rw [List.map_cons, Session.run_cons]
      change Session.run fuel ((m.session.obey o).2 ++ os.map .order) (m.session.obey o).1 = _
      rw [hobey, ← List.map_append]
      exact hrun

/-- **The answer goes by the course of the search**, once all is told. -/
theorem Secluded.answers (h : Secluded m i C config [] outer)
    (hm : Leads (start g source settings) m) : C.Answers config (m.session.collected i).reply := by
  have hstack : m.stack = .collected i :: outer := h.underway.stack
  obtain ⟨r, hr⟩ := h.underway.done hm
  obtain ⟨x, rfl, hx⟩ := h.underway.course
  obtain ⟨-, hreach, hcount⟩ :=
    hx.settled ⟨hm.isSound.sound, hm.isSound.faithful, hm.attended⟩ hr
  have hfree : ¬ m.Parks i := by
    rintro ⟨n, f, hf, hi⟩
    exact hx.unparked hf hi
  rw [(hm.allOwed [] i outer hstack).reply_of_not_parks hm hstack hx.started hfree]
  exact hreach.answers (hm.consistent hx.started) hcount

/-- **A search that is started to collect its matches** is left to itself. -/
theorem Leads.secluded
    (h : Leads (start g source settings) ⟨s, .command (.searchAll p) :: outer, told⟩)
    (he : s.engine = some ⟨config, false⟩) (hv : p.validate = .ok ()) :
    ∃ m, Leads (start g source settings) m ∧
      m.session = (s.exec (.command (.searchAll p))).1 ∧
      Secluded m s.searches.next (course s.graph ∅ p p.initial) config
        [.job (s.searches.launch config false p).2.2] outer := by
  have hlaunch : Launches ⟨s, .command (.searchAll p) :: outer, told⟩ config p := by
    refine ⟨⟨g, source, settings, h⟩, he, .searchAll p, outer, rfl, ?_⟩
    exact Session.accepts?_searchAll_eq_some.2 ⟨rfl, hv, _, he⟩
  have hnext : Next ⟨s, .command (.searchAll p) :: outer, told⟩
      ⟨(s.exec (.command (.searchAll p))).1, (s.exec (.command (.searchAll p))).2 ++ outer,
        told ++ s.news (.command (.searchAll p))⟩ := .task
  have hexec := Session.exec_searchAll he hv
  have hm := Relation.ReflTransGen.tail h hnext
  obtain ⟨⟨after, inner, hunder⟩, -⟩ := hlaunch.underway hnext
  -- the stack says what comes before the answer
  have hstack : (s.exec (.command (.searchAll p))).2 ++ outer = inner ++ after :: outer :=
    hunder.stack
  have hsplit : [Task.order (.job (s.searches.launch config false p).2.2)] ++
      [.collected s.searches.next] = inner ++ [after] := by
    rw [hexec, ← List.singleton_append (x := after), ← List.append_assoc] at hstack
    exact List.append_cancel_right hstack
  obtain ⟨rfl, hafter⟩ := List.append_inj' hsplit rfl
  obtain rfl := (List.cons.inj hafter).1
  have howes := Leads.allOwed hm [_] _ outer hstack
  refine ⟨_, hm, rfl, hunder, fun o ho => ?_, howes.collects⟩
  obtain rfl := List.mem_singleton.1 ho
  rw [hexec]
  exact ⟨rfl, by simp [Searches.launch]⟩

/-- **Who does not wait gets his answer.** Let a session, whatever it did before
and is still to do, be told to collect the matches of a pattern that makes
sense, with an engine that has no source of documents. The call comes to an end,
and its answer is the course of the pattern in the store: its error, or all of
its matches, or some of the first of them where a limit is set. -/
theorem Leads.searchAll_returns
    (h : Leads (start g source settings) ⟨s, .command (.searchAll p) :: outer, told⟩)
    (he : s.engine = some ⟨config, false⟩) (hv : p.validate = .ok ()) :
    ∃ fuel s', Session.run fuel [.command (.searchAll p)] s = some s' ∧
      (course s.graph ∅ p p.initial).Answers config s'.reply := by
  obtain ⟨m, hm, hsession, hsecluded⟩ := h.secluded he hv
  obtain ⟨fuel, m', hleads, hrun, hdone⟩ := hsecluded.returns hm
  have hcollected : Session.run 1 [.collected s.searches.next] m'.session =
      some (m'.session.collected s.searches.next) := rfl
  refine ⟨fuel + 1 + 1, _, ?_, hdone.answers (hm.trans hleads)⟩
  rw [Session.run_cons, ← hsession, List.append_nil, Session.exec_searchAll he hv]
  exact Session.run_append hrun hcollected

end Moment

end TripleQuery
