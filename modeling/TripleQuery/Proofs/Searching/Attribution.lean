import TripleQuery.Proofs.Searching.Requesting
/-!
# Attribution — every request has its search

A run of a scene is kept with the requests that were made in it, each with the
path on whose behalf it was made (`Scene.Logs`). Every run is (`Scene.Steps.exists_logs`),
since behind every order to ask for a document stands the one that notes it.

A path comes to wait for what its own search has asked for. It has asked for what
a term of a remaining triple was bound to. And when a search ends, none of its
requests is still to be noted, so that its summary counts them
(`Scene.Attributed`).
-/

namespace TripleQuery

variable {t t' : Searches} {os rest : List Order} {o : Order} {job : Job}
  {env : Surroundings} {f : Frame} {d : String} {ds : List String} {i n : Nat} {x : Search}
  {told : List Notice} {log notes : List (Frame × String)} {g : Graph}
  {r : Except QueryError SearchSummary} {sum : SearchSummary}

/-- The fetches of a summary are those that the search has noted. -/
theorem Search.fetches_of_result (h : x.result = .ok sum) : sum.fetches = x.fetches := by
  unfold result at h
  split at h
  · cases h
  · cases h
    rfl

namespace Scene

variable {w₀ w w' : Scene}

/-! ## Runs with their requests -/

/-- What a scene comes to, with the requests that were made on the way, the first
one first. -/
inductive Logs (w₀ : Scene) : List (Frame × String) → Scene → Prop
  /-- Nothing has happened. -/
  | refl : Logs w₀ [] w₀
  /-- A document is asked for on behalf of the path that is to wait for it next. -/
  | asks {g : Graph} {t : Searches} {f : Frame} {d : String} {os : List Order}
      {told : List Notice} {log : List (Frame × String)} :
      Logs w₀ log ⟨g, t, .request d :: .job (.await f d true) :: os, told⟩ →
      Logs w₀ (log ++ [(f, d)]) ⟨g, t, .job (.await f d true) :: os, told⟩
  /-- Anything else happens: no order to ask for a document is carried out. -/
  | quiet {w w' : Scene} {log : List (Frame × String)} :
      Logs w₀ log w → Step w w' → (∀ d os, w.orders = .request d :: os → w'.orders ≠ os) →
      Logs w₀ log w'

/-- Carrying out an order to ask for a document is a step. -/
theorem Step.ask : Step ⟨g, t, .request d :: os, told⟩ ⟨g, t, os, told⟩ := by
  have hstep := @Step.handOver g t (.request d) os told (by simp)
  rwa [show (Order.request d).notices = [] from rfl, List.append_nil] at hstep

/-- A run with its requests is a run. -/
theorem Logs.steps (h : Logs w₀ log w) : Steps w₀ w := by
  induction h with
  | refl => exact .refl
  | asks _ ih => exact ih.tail .ask
  | quiet _ hstep _ ih => exact ih.tail hstep

/-- Only by carrying out an order to ask for a document is it gone. -/
theorem Step.eq_of_request (h : Step w w') (ho : w.orders = .request d :: os)
    (ho' : w'.orders = os) : w' = ⟨w.graph, w.table, os, w.told⟩ := by
  have hlength : w.orders.length = w'.orders.length + 1 := by
    rw [ho, ho']
    rfl
  cases h with
  | work _ => cases ho
  | handOver _ =>
    cases ho
    simp [Order.notices]
  | add _ | equate _ | stop _ | cancel _ => simp at hlength
  | launch _ _ _ | resume _ | discard _ =>
    simp only [List.length_append, List.length_cons] at hlength
    omega

/-! ## Requests and their searches -/

/-- A document that a bound term of a path points into, which the settings of its
search let it wait for. -/
def Links (w : Scene) (f : Frame) (d : String) : Prop :=
  ∃ x, w.table.searches[f.search]? = some x ∧ d ∈ f.links x.config

/-- The settings of a search stay what they are. -/
theorem Links.step (h : w.Links f d) (hstep : Step w w') (hw : w.IsSound) : w'.Links f d := by
  obtain ⟨x, hx, hd⟩ := h
  obtain ⟨x', hx', hc⟩ := hstep.config_eq hw hx
  exact ⟨x', hx', hc ▸ hd⟩

/-- Every request that was made is one of its search. -/
structure Attributed (w : Scene) (log : List (Frame × String)) : Prop where
  tallied : ∃ notes, Noting w.orders notes ∧ w.table.Tallied log notes
  /-- A path that is to wait has a document to wait for. -/
  awaits {f : Frame} {d : String} {asked : Bool} : .job (.await f d asked) ∈ w.orders →
    w.Links f d
  /-- If it does not ask for the document, its search has. -/
  joins {f : Frame} {d : String} : .job (.await f d false) ∈ w.orders →
    d ∈ requestsOf f.search log
  /-- What a parked path waits for, its search has asked for. -/
  parked {n : Nat} {f : Frame} : w.table.parked[n]? = some f →
    ∃ d, f.awaited.head? = some d ∧ d ∈ requestsOf f.search log
  /-- Whoever has asked had come along a route, and had a document to wait for. -/
  linked {f : Frame} {d : String} : (f, d) ∈ log → (∃ ds, w.Reaches f ds) ∧ w.Links f d
  /-- A summary counts the requests of its search. -/
  summed {i : Id} {sum : SearchSummary} : w.Closes i (.ok sum) →
    sum.fetches = (requestsOf i log).length

/-- **Whatever else happens, the requests tally.** -/
theorem Step.tallied (h : Step w w') (hw : w.IsSound)
    (hquiet : ∀ d os, w.orders = .request d :: os → w'.orders ≠ os)
    (hn : Noting w.orders notes) (ht : w.table.Tallied log notes) :
    ∃ notes', Noting w'.orders notes' ∧ w'.table.Tallied log notes' := by
  have hstay : ∀ i ∈ w.table.searches, i ∈ w'.table.searches := fun i hi => by
    obtain ⟨x, hx⟩ := exists_getElem? hi
    obtain ⟨x', hx', -⟩ := h.config_eq hw hx
    exact mem_of_getElem? hx'
  cases h with
  | work state? => exact ht.run hn (Sound.transition hw _)
  | @handOver g t o os told ho =>
    refine ⟨notes, hn.tail ?_, ht⟩
    cases o with
    | job job => exact absurd rfl (ho job)
    | request d => exact absurd rfl (hquiet d os rfl)
    | _ => rfl
  | add _ | equate _ => exact ⟨notes, hn, ht⟩
  | @launch g t os told config linked p _ =>
    exact ⟨notes, .other rfl hn, ht.launch hw.layout.next_not_mem_searches config linked p⟩
  | stop i => exact ⟨notes, hn, ht.keep (.update _ i (fun _ => rfl) fun _ => rfl) hstay⟩
  | cancel i => exact ⟨notes, hn, ht.keep (.update _ i (fun _ => rfl) fun _ => rfl) hstay⟩
  | @resume g t os told ticket =>
    refine ⟨notes, ?_, ht.keep (.of_eq (by simp)) hstay⟩
    rcases t.resume_cases ticket with he | ⟨f, -, he⟩ <;> rw [he]
    · exact hn
    · exact .other rfl hn
  | @discard g t os told ticket =>
    refine ⟨notes, ?_, ht.keep (.of_eq (by simp)) hstay⟩
    rcases t.discard_cases ticket with he | ⟨f, -, he⟩ <;> rw [he]
    · exact hn
    · exact .other rfl hn

namespace Attributed

/-- Nothing was asked for at first. -/
theorem empty : Attributed ⟨g, {}, [], []⟩ [] where
  tallied := ⟨[], .nil, ⟨id, fun he => absurd he List.not_mem_nil, fun hx => by simp at hx,
    fun hx => by simp at hx⟩⟩
  awaits ho := absurd ho List.not_mem_nil
  joins ho := absurd ho List.not_mem_nil
  parked hf := by simp at hf
  linked he := absurd he List.not_mem_nil
  summed hr := by
    rcases hr with hr | hr <;> cases hr

/-- **A document is asked for**: the path behind waits for it, and its search is not
over. -/
theorem ask (h : Attributed ⟨g, t, .request d :: .job (.await f d true) :: os, told⟩ log)
    (hw : InOrder ⟨g, t, .request d :: .job (.await f d true) :: os, told⟩)
    (hr : Routed ⟨g, t, .request d :: .job (.await f d true) :: os, told⟩) :
    Attributed ⟨g, t, .job (.await f d true) :: os, told⟩ (log ++ [(f, d)]) := by
  have hfirst : Order.job (.await f d true) ∈ .request d :: .job (.await f d true) :: os :=
    List.mem_cons_of_mem _ List.mem_cons_self
  have hlinks : Links ⟨g, t, .job (.await f d true) :: os, told⟩ f d := h.awaits hfirst
  have hgrow : ∀ {k d'}, d' ∈ requestsOf k log → d' ∈ requestsOf k (log ++ [(f, d)]) := by
    intro k d' hd
    rw [requestsOf_append]
    exact List.mem_append_left _ hd
  refine ⟨?_, fun ho => h.awaits (List.mem_cons_of_mem _ ho),
    fun ho => hgrow (h.joins (List.mem_cons_of_mem _ ho)), fun hf => ?_, fun {f' d'} he => ?_,
    fun {i sum} hend => ?_⟩
  · obtain ⟨notes, hn, ht⟩ := h.tallied
    obtain ⟨f', os', he, hn⟩ := hn.of_request
    cases he
    obtain ⟨x, hx, -⟩ := hlinks
    exact ⟨(f, d) :: notes, .note hn, ht.ask (mem_of_getElem? hx)⟩
  · obtain ⟨d', hhead, hd⟩ := h.parked hf
    exact ⟨d', hhead, hgrow hd⟩
  · rcases List.mem_append.1 he with he | he
    · exact h.linked he
    · cases List.mem_singleton.1 he
      exact ⟨hr.reaches (.order hfirst rfl), hlinks⟩
  · rw [requestsOf_append, requestsOf_cons_of_ne, requestsOf_nil, List.append_nil]
    · exact h.summed hend
    · -- the path keeps the root branch of its search
      rintro rfl
      obtain ⟨x, hx, -⟩ := hlinks
      have hover := hw.faithful.finished_of_closes hx hend
      have hroot := hw.sound.root_of_frame? hfirst rfl
      exact (hw.faithful.paced hx).gone hover (Searches.mem_of_seat? hroot)

/-- What a path is parked for, its search has asked for. -/
theorem parked_step (h : Attributed w log) (hstep : Step w w') (hw : w.IsSound)
    (hf : w'.table.parked[n]? = some f) :
    ∃ d, f.awaited.head? = some d ∧ d ∈ requestsOf f.search log := by
  rcases hstep.parked_cases hw hf with hf | ⟨f', d, asked, os, ho, rfl⟩
  · exact h.parked hf
  · refine ⟨d, rfl, ?_⟩
    cases asked with
    | false =>
      have hjoin : d ∈ requestsOf f'.search log := h.joins (ho ▸ List.mem_cons_self)
      exact hjoin
    | true =>
      -- the request stood in front of the order that is carried out
      obtain ⟨notes, hn, ht⟩ := h.tallied
      rw [ho] at hn
      obtain ⟨notes', rfl, -⟩ := hn.of_note
      exact mem_requestsOf.2 ⟨f', ht.made List.mem_cons_self, rfl⟩

/-- **Anything else happens**, and every request stays with its search. -/
theorem quiet (h : Attributed w log) (hstep : Step w w') (hw : w.InOrder)
    (hquiet : ∀ d os, w.orders = .request d :: os → w'.orders ≠ os) : Attributed w' log := by
  obtain ⟨notes, hn, ht⟩ := h.tallied
  obtain ⟨notes', hn', ht'⟩ := hstep.tallied hw.sound hquiet hn ht
  refine ⟨⟨notes', hn', ht'⟩, fun ho => ?_, fun ho => ?_, h.parked_step hstep hw.sound,
    fun he => ?_, fun {i sum} hend => ?_⟩
  · cases hstep.orderOrigin hw.sound ho with
    | same ho => exact (h.awaits ho).step hstep hw.sound
    | left _ hleft ho =>
      obtain ⟨x, hx, hd⟩ := hleft.nextFetch_of_await ho
      have hlinks : w.Links _ _ := ⟨x, hx, (Search.nextFetch_eq_some hd).2⟩
      exact hlinks.step hstep hw.sound
    | resumed _ he | discarded _ he | launched _ _ he => cases he
  · cases hstep.orderOrigin hw.sound ho with
    | same ho => exact h.joins ho
    | left _ hleft ho =>
      obtain ⟨x, hx, hd⟩ := hleft.requested_of_await ho
      exact ht.remembered hx hd
    | resumed _ he | discarded _ he | launched _ _ he => cases he
  · obtain ⟨⟨ds, hreach⟩, hlinks⟩ := h.linked he
    exact ⟨⟨ds, hreach.happens (.step hstep)⟩, hlinks.step hstep hw.sound⟩
  · rcases hstep.closes_cases hw.sound hw.faithful hend with hold | ⟨hgone, x, x', hx, hx', rfl, hr⟩
    · exact h.summed hold
    · -- a request that is still to be noted keeps the root branch
      have hnone : requestsOf i notes' = [] := by
        refine requestsOf_eq_nil fun e he => ?_
        rintro rfl
        have hroot := (hstep.sound hw.sound).root_of_frame? (hn'.mem_orders he) rfl
        exact hgone (Searches.mem_of_seat? hroot)
      rw [ht'.counted hx', hnone]
      exact Search.fetches_of_result hr.symm

end Attributed

/-- **Every request that was made is one of its search**, whatever happened. -/
theorem Logs.attributed (h : Logs ⟨g, {}, [], []⟩ log w) : w.Attributed log := by
  induction h with
  | refl => exact .empty
  | asks hlogs ih => exact ih.ask hlogs.steps.inOrder hlogs.steps.arises.routed
  | quiet hlogs hstep hquiet ih => exact ih.quiet hstep hlogs.steps.inOrder hquiet

/-- **Every run is one with its requests.** -/
theorem Steps.exists_logs (h : Steps ⟨g, {}, [], []⟩ w) :
    ∃ log, Logs ⟨g, {}, [], []⟩ log w := by
  induction h with
  | refl => exact ⟨[], .refl⟩
  | @tail w w' _ hstep ih =>
    obtain ⟨log, hlogs⟩ := ih
    by_cases hquiet : ∀ d os, w.orders = .request d :: os → w'.orders ≠ os
    · exact ⟨log, hlogs.quiet hstep hquiet⟩
    · -- a request is made, and the order behind it is to note it
      push Not at hquiet
      obtain ⟨d, os, ho, ho'⟩ := hquiet
      obtain rfl := hstep.eq_of_request ho ho'
      obtain ⟨notes, hn, -⟩ := hlogs.attributed.tallied
      obtain ⟨g', t, orders, told⟩ := w
      cases ho
      obtain ⟨f, os, rfl, -⟩ := hn.of_request
      exact ⟨_, hlogs.asks⟩

end Scene

end TripleQuery
