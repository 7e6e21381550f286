import Mathlib
import TripleQuery.Proofs.Joining.Agreement
import TripleQuery.Proofs.Searching.Outcome
import TripleQuery.Proofs.Sessions.Moment
/-!
# Collecting — a search whose caller does not wait

A search that reaches no source of documents runs to its end at once: until the
caller has its answer, nothing but its own work is carried out
(`Collecting.obey`). If it meets no error, and nothing limits it, the answer
holds exactly what the pattern means in the store
(`Moment.Leads.results_perm_leftJoin`), whatever the session did before and
wherever the search is started.
-/

namespace TripleQuery

variable {s : Session} {os : List Order} {outer : List Task} {told : List Notice} {g : Graph}
  {i : Nat} {Y : Yield} {o : Order} {p : Pattern}

namespace Session

variable {found : List Bindings} {result : Option (Except QueryError SearchSummary)}

/-- Who collects matches keeps the one that he is told of, and calls nobody. -/
theorem tell_collector (h : s.listeners[i]? = some (.collector found result)) (m : Bindings) :
    s.tell i m =
      ({ s with listeners := s.listeners.insert i (.collector (m :: found) result) }, []) := by
  unfold tell
  rw [h]

/-- So he does with the end. -/
theorem conclude_collector (h : s.listeners[i]? = some (.collector found result))
    (r : Except QueryError SearchSummary) :
    s.conclude i r =
      ({ s with listeners := s.listeners.insert i (.collector found (some r)) }, []) := by
  unfold conclude
  rw [h]

end Session

/-- A search at work whose matches are collected. -/
structure Collecting (outer : List Task) (g : Graph) (i : Nat) (Y : Yield) (s : Session)
    (os : List Order) (told : List Notice) : Prop where
  sound : Moment.IsSound ⟨s, os.map .order ++ .collected i :: outer, told⟩
  graph : s.graph = g
  own : ∀ o ∈ os, s.searches.IsOwnWork i o
  reckoned : ∃ x, s.searches.searches[i]? = some x ∧
    Scene.Reckoned ⟨g, s.searches, os ++ ordersOf outer, told⟩ i Y x
  /-- The collector has what was told. -/
  collector : ∃ result, s.listeners[i]? = some (.collector (matchesOf i told).reverse result) ∧
    ∀ r, result = some r → .done i r ∈ told

namespace Collecting

/-- The searches at work, seen as a scene. -/
theorem scene_eq (s : Session) (os : List Order) (told : List Notice) :
    (Moment.mk s (os.map .order ++ .collected i :: outer) told).scene =
      ⟨s.graph, s.searches, os ++ ordersOf outer, told⟩ := by
  have hnone : ordersOf (.collected i :: outer) = ordersOf outer := rfl
  rw [Moment.scene, ordersOf_append, ordersOf_map_order, hnone]

/-- The moment after the first order is sound. -/
theorem next (h : Collecting outer g i Y s (o :: os) told) :
    Moment.IsSound ⟨(s.obey o).1,
      (s.obey o).2 ++ (os.map .order ++ .collected i :: outer), told ++ o.notices⟩ := by
  have hlisten : ∀ k, o.speaksOf? = some k → k ∈ s.listeners := fun k hk => by
    refine h.sound.listens ?_ hk
    rw [ordersOf_append, ordersOf_map_order]
    exact List.mem_append_left _ List.mem_cons_self
  have hstep := (Moment.Leads.steps (.single .task) h.sound).2
  rwa [← Session.news_order hlisten]

theorem table_sound (h : Collecting outer g i Y s os told) :
    Sound s.searches (os ++ ordersOf outer) := by
  have hsound := h.sound.sound
  rwa [scene_eq] at hsound

theorem faithful (h : Collecting outer g i Y s os told) :
    Scene.IsFaithful ⟨g, s.searches, os ++ ordersOf outer, told⟩ := by
  have hfaithful := h.sound.faithful
  rwa [scene_eq, h.graph] at hfaithful

/-- **A job of the search is carried out.** -/
theorem work {job : Job} (h : Collecting outer g i Y s (.job job :: os) told) :
    ∃ os', (s.obey (.job job)).2 = os'.map .order ∧
      Collecting outer g i Y (s.obey (.job job)).1 (os' ++ os) told := by
  obtain ⟨x, hx, hreckoned⟩ := h.reckoned
  have hs := h.table_sound
  have hw := h.faithful
  have hnext := h.next
  have hgraph := h.graph
  subst hgraph
  have ht := Sound.transition hs s.surroundings
  obtain ⟨x', hx', hreckoned'⟩ := hreckoned.work hs hw hx ht
  have hown := (h.own _ List.mem_cons_self).run hs hx hreckoned.unhindered.unlinked ht
  have hold : ∀ o ∈ os, (s.searches.run s.surroundings job).1.IsOwnWork i o := fun o ho => by
    refine (h.own o (List.mem_cons_of_mem _ ho)).keep hs ht ?_
    exact List.mem_append_right _ (List.mem_append_left _ ho)
  refine ⟨(s.searches.run s.surroundings job).2, rfl, ?_, rfl, fun o ho => ?_, ⟨x', hx', ?_⟩,
    h.collector⟩
  · have hnothing : told ++ (Order.job job).notices = told := List.append_nil told
    rw [hnothing] at hnext
    rw [List.map_append, List.append_assoc]
    exact hnext
  · exact (List.mem_append.1 ho).elim (hown o) (hold o)
  · rw [List.append_assoc]
    exact hreckoned'

/-- **An order that leaves the searches alone is handed over**, if the
collector hears of it. -/
theorem handOver (h : Collecting outer g i Y s (o :: os) told) (hjob : ∀ job, o ≠ .job job)
    (listener : Listener) (result : Option (Except QueryError SearchSummary))
    (hobey : s.obey o = ({ s with listeners := s.listeners.insert i listener }, []))
    (hlistener : listener = .collector (matchesOf i (told ++ o.notices)).reverse result)
    (hresult : ∀ r, result = some r → .done i r ∈ told ++ o.notices) :
    ∃ os', (s.obey o).2 = os'.map .order ∧
      Collecting outer g i Y (s.obey o).1 (os' ++ os) (told ++ o.notices) := by
  obtain ⟨x, hx, hreckoned⟩ := h.reckoned
  have hnext := h.next
  rw [hobey] at hnext ⊢
  refine ⟨[], rfl, hnext, h.graph, fun o' ho' => h.own o' (List.mem_cons_of_mem _ ho'),
    ⟨x, hx, ?_⟩, ⟨result, ?_, hresult⟩⟩
  · exact hreckoned.handOver h.table_sound h.faithful hx hjob
  · rw [← hlistener]
    simp

/-- **Nothing but the search's own work is carried out**, and the collector
hears of it. -/
theorem obey (h : Collecting outer g i Y s (o :: os) told) :
    ∃ os', (s.obey o).2 = os'.map .order ∧
      Collecting outer g i Y (s.obey o).1 (os' ++ os) (told ++ o.notices) := by
  have hwork := (h.own o List.mem_cons_self).worksFor
  obtain ⟨result, hcollector, hresult⟩ := h.collector
  cases o with
  | job job =>
    have hnothing : told ++ (Order.job job).notices = told := List.append_nil told
    rw [hnothing]
    exact h.work
  | deliver k m =>
    obtain rfl := Option.some.inj hwork
    have hone : matchesOf k (told ++ (Order.deliver k m).notices) = matchesOf k told ++ [m] := by
      rw [matchesOf_append]
      simp [matchesOf, Order.notices, Notice.match?]
    refine h.handOver (by simp) (.collector (m :: (matchesOf k told).reverse) result) result
      (Session.tell_collector hcollector m) ?_ fun r hr => List.mem_append_left _ (hresult r hr)
    rw [hone, List.reverse_append]
    rfl
  | finish k r =>
    obtain rfl := Option.some.inj hwork
    have hnone : matchesOf k (told ++ (Order.finish k r).notices) = matchesOf k told := by
      rw [matchesOf_append]
      simp [matchesOf, Order.notices, Notice.match?]
    refine h.handOver (by simp) (.collector (matchesOf k told).reverse (some r)) (some r)
      (Session.conclude_collector hcollector r) ?_ fun r' hr' => ?_
    · rw [hnone]
    · obtain rfl := Option.some.inj hr'
      exact List.mem_append_right _ (List.mem_singleton_self _)
  | _ => exact absurd hwork (by simp [Searches.worksFor?])

/-- **The answer is what the search amounts to.** -/
theorem collected {R : List Bindings} (h : Collecting outer g i Y s [] told)
    (hr : (s.collected i).reply = .results R) : Y = .of R := by
  obtain ⟨x, hx, hreckoned⟩ := h.reckoned
  obtain ⟨result, hcollector, hresult⟩ := h.collector
  unfold Session.collected at hr
  rw [hcollector] at hr
  cases result with
  | none => cases hr
  | some r =>
    cases r with
    | error e => cases hr
    | ok sum =>
      have hR : (matchesOf i told).reverse.reverse = R := Reply.results.inj hr
      rw [List.reverse_reverse] at hR
      rw [← hR]
      exact hreckoned.eq_of_done h.table_sound h.faithful hx (hresult _ rfl)

end Collecting

/-! ## From the command to the answer -/

/-- What a command to collect matches comes to, where there is an engine and the
pattern makes sense. -/
theorem Session.exec_searchAll {config : SearchConfig} (he : s.engine = some ⟨config, false⟩)
    (hv : p.validate = .ok ()) : s.exec (.command (.searchAll p)) =
      ({ s with
          searches := (s.searches.launch config false p).1
          listeners := s.listeners.insert s.searches.next (.collector [] none) },
        [.order (.job (s.searches.launch config false p).2.2), .collected s.searches.next]) := by
  change s.launch p _ _ = _
  unfold launch
  rw [he]
  simp only [hv]
  rfl

/-- And where the pattern makes none. -/
theorem Session.exec_searchAll_of_error {e : Engine} {err : QueryError} (he : s.engine = some e)
    (hv : p.validate = .error err) :
    s.exec (.command (.searchAll p)) = (s.answer (.failed err), []) := by
  change s.launch p _ _ = _
  unfold launch
  rw [he]
  simp only [hv]

/-- **A search whose matches are collected starts with the answers to its
pattern before it.** -/
theorem collecting_start {config : SearchConfig}
    (hm : Moment.IsSound ⟨s, .command (.searchAll p) :: outer, told⟩)
    (he : s.engine = some ⟨config, false⟩) (hlimit : config.maxMatches = none)
    (hv : p.validate = .ok ()) :
    Collecting outer s.graph s.searches.next (answers s.graph ∅ p p.initial)
      (s.exec (.command (.searchAll p))).1 [.job (s.searches.launch config false p).2.2]
      (told ++ [.started s.searches.next p]) := by
  have hs : Sound s.searches (ordersOf outer) := hm.sound
  have hw : Scene.IsFaithful ⟨s.graph, s.searches, ordersOf outer, told⟩ := hm.faithful
  have hnext := (Moment.Leads.steps (.single .task) hm).2
  rw [Session.news_searchAll he hv, Session.exec_searchAll he hv] at hnext
  rw [Session.exec_searchAll he hv]
  refine ⟨hnext, rfl, fun o ho => ?_, ⟨{ config := config, linked := false }, ?_, ?_⟩,
    ⟨none, ?_, by simp⟩⟩
  · obtain rfl := List.mem_singleton.1 ho
    exact ⟨rfl, by simp [Searches.launch]⟩
  · simp [Searches.launch]
  · exact Scene.reckoned_launch hs hw config p hlimit
  · have hnothing := hw.matchesOf_started (p := p) hs.layout.next_not_mem_searches
    change (s.listeners.insert s.searches.next _)[s.searches.next]? = _
    rw [show matchesOf s.searches.next (told ++ [.started s.searches.next p]) = [] from hnothing]
    simp

namespace Session

variable {s' : Session} {fuel : Nat} {R : List Bindings}

/-- **A run that collects matches answers with what the search amounts to.** -/
theorem eq_of_run_collecting (h : Collecting outer g i Y s os told)
    (hrun : run fuel (os.map .order ++ [.collected i]) s = some s')
    (hr : s'.reply = .results R) : Y = .of R := by
  -- either the search is still at work, or its caller has the answer
  have hend := run_preserves
    (P := fun s stack => (∃ os told, stack = os.map .order ++ [.collected i] ∧
        Collecting outer g i Y s os told) ∨
      stack = [] ∧ ∀ R, s.reply = .results R → Y = .of R)
    ?_ (.inl ⟨os, told, rfl, h⟩) hrun
  · rcases hend with ⟨os, told, hstack, -⟩ | ⟨-, hanswer⟩
    · cases os <;> cases hstack
    · exact hanswer R hr
  · rintro s task stack (⟨os, told, hstack, hcollecting⟩ | ⟨hnil, -⟩)
    · cases os with
      | nil =>
        cases hstack
        exact .inr ⟨rfl, fun R hr => hcollecting.collected hr⟩
      | cons o os =>
        cases hstack
        obtain ⟨os', htasks, hnext⟩ := hcollecting.obey
        refine .inl ⟨os' ++ os, told ++ o.notices, ?_, hnext⟩
        change (s.obey o).2 ++ (os.map .order ++ [.collected i]) = _
        rw [htasks, List.map_append, List.append_assoc]
    · cases hnil

end Session

namespace Moment

variable {source : Option Source} {config settings : SearchConfig} {ss : List Statement}
  {s' : Session} {fuel : Nat} {R : List Bindings}

/-- **What is collected is what the search amounts to.** -/
theorem Leads.answers_of_results
    (h : Leads (start g source config) ⟨s, .command (.searchAll p) :: outer, told⟩)
    (he : s.engine = some ⟨settings, false⟩) (hlimit : settings.maxMatches = none)
    (hrun : Session.run fuel [.command (.searchAll p)] s = some s')
    (hr : s'.reply = .results R) : p.validate = .ok () ∧ answers s.graph ∅ p p.initial = .of R := by
  cases fuel with
  | zero => cases hrun
  | succ fuel =>
    rw [Session.run_cons] at hrun
    cases hv : p.validate with
    | error err =>
      -- the answer says what is wrong with the pattern
      rw [Session.exec_searchAll_of_error he hv] at hrun
      obtain rfl := Option.some.inj ((Session.run_nil fuel _).symm.trans hrun)
      cases hr
    | ok u =>
      have hcollecting := collecting_start h.isSound he hlimit hv
      have htasks : (s.exec (.command (.searchAll p))).2 ++ [] =
          [.job (s.searches.launch settings false p).2.2].map .order ++
            [.collected s.searches.next] := by
        rw [Session.exec_searchAll he hv]
        rfl
      rw [htasks] at hrun
      exact ⟨rfl, Session.eq_of_run_collecting hcollecting hrun hr⟩

/-- **What is collected is what the pattern means.** Let a session, whatever it
did before, be told to collect the matches of a pattern whose fixed values are
of variables and blank nodes, over a store to which statements were added only,
with an engine that has no source of documents and no limit on matches. If the
answer is a list of results, it holds what the left join has, each as often. -/
theorem Leads.results_perm_leftJoin
    (h : Leads (start g source config) ⟨s, .command (.searchAll p) :: outer, told⟩)
    (hg : s.graph = .ofList ss) (he : s.engine = some ⟨settings, false⟩)
    (hlimit : settings.maxMatches = none) (hp : p.BindsVariables)
    (hrun : Session.run fuel [.command (.searchAll p)] s = some s')
    (hr : s'.reply = .results R) :
    R.Perm (leftJoin s.graph.statements.toList ∅ p p.initial) := by
  obtain ⟨-, heq⟩ := h.answers_of_results he hlimit hrun hr
  have hu : s.graph.Unmerged := by rw [hg]; exact Graph.unmerged_ofList ss
  have hreach : s.graph.Reachable := by rw [hg]; exact Graph.reachable_ofList ss
  rcases answers_agrees hu hreach p ∅ p.initial hp hp.initial with htop | hfound
  · rw [htop] at heq
    cases heq
  · exact Yield.perm_of_of_eq (heq.symm.trans hfound)

/-! ## Whom somebody knows, and their addresses -/

/-- Two acquaintances, one of whom has an address. -/
def acquaintances : List Statement :=
  [⟨.symbol "ann", .symbol "knows", .symbol "bob", none⟩,
    ⟨.symbol "ann", .symbol "knows", .symbol "cid", none⟩,
    ⟨.symbol "bob", .symbol "mail", .symbol "b", none⟩]

/-- Who knows whom, with the address if there is one. -/
def addresses : Pattern where
  triples := [⟨.var "x", .symbol "knows", .var "y", none⟩]
  optionals := [{ triples := [⟨.var "y", .symbol "mail", .var "m", none⟩] }]

/-- What is collected. -/
def addressesFound : List Bindings :=
  [.ofPairs [(.var "x", .symbol "ann"), (.var "y", .symbol "bob"), (.var "m", .symbol "b")],
    .ofPairs [(.var "x", .symbol "ann"), (.var "y", .symbol "cid")]]

theorem reply_addresses : (Session.run 100 [.command (.searchAll addresses)]
    (.start (.ofList acquaintances) none {})).map Session.reply =
      some (.results addressesFound) := by
  cbv

/-- Both acquaintances are collected, the second without an address. -/
theorem addresses_perm : ∃ s', Session.run 100 [.command (.searchAll addresses)]
    (.start (.ofList acquaintances) none {}) = some s' ∧ s'.reply = .results addressesFound ∧
      addresses.BindsVariables ∧ addressesFound.Perm
        (leftJoin (Graph.ofList acquaintances).statements.toList ∅ addresses addresses.initial) := by
  obtain ⟨s', hrun, hr⟩ := Option.map_eq_some_iff.1 reply_addresses
  have hleads : Leads (start (.ofList acquaintances) none {})
      ⟨.start (.ofList acquaintances) none {}, [.command (.searchAll addresses)], []⟩ :=
    .single (.command _)
  have hbinds : addresses.BindsVariables :=
    ⟨Bindings.onVariables_empty, ⟨Bindings.onVariables_empty, trivial⟩, trivial⟩
  exact ⟨s', hrun, hr, hbinds,
    hleads.results_perm_leftJoin rfl rfl rfl hbinds hrun hr⟩

end Moment

end TripleQuery
