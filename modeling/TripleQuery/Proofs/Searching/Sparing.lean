import TripleQuery.Proofs.Searching.Attended
/-!
# Surroundings that spare a search

A scene goes on (`Scene.Proceeds`) when an order is carried out or a parked path
is resumed. Nothing is assumed of the source of documents: jobs see the state of
documents in any way, twice in the course of one job if need be, and parked
paths are resumed at any time and in any order — before the order to watch for
their document is carried out, while the caller is told of a match, or later.
What else happens spares a search (`Scene.Spares`) as long as the store stays as
it is, and the search is neither stopped nor cancelled, and none of its parked
paths is given up: other searches may come, go, and be stopped.
-/

namespace TripleQuery

variable {g : Graph} {t : Searches} {os rest : List Order} {o : Order} {told : List Notice}
  {env : Surroundings} {f : Frame} {i : Nat} {d : String}

/-- A scene goes on: its first order is carried out, or a path that is parked is
resumed. -/
inductive Scene.Proceeds : Scene → Scene → Prop
  /-- The first order is a job, and is done. -/
  | work {g : Graph} {t : Searches} {job : Job} {os : List Order} {told : List Notice}
      (state? : Option (String → FetchState)) :
      Proceeds ⟨g, t, .job job :: os, told⟩
        ⟨g, (t.run ⟨g, state?⟩ job).1, (t.run ⟨g, state?⟩ job).2 ++ os, told⟩
  /-- A path has to wait for a document, whose state may be another one by the
  time that this is acted upon. -/
  | recheck {g : Graph} {t : Searches} {f : Frame} {os : List Order} {told : List Notice}
      {x : Search} {d : String} (state? state'? : Option (String → FetchState)) :
      t.searches[f.search]? = some x → x.stopped = false →
      x.nextFetch ⟨g, state?⟩ f = some d →
      Proceeds ⟨g, t, .job (.step f) :: os, told⟩
        ⟨g, (t.suspend ⟨g, state'?⟩ f d).1, (t.suspend ⟨g, state'?⟩ f d).2 ++ os, told⟩
  /-- The first order is for somebody else. -/
  | handOver {g : Graph} {t : Searches} {o : Order} {os : List Order} {told : List Notice} :
      (∀ job, o ≠ .job job) → Proceeds ⟨g, t, o :: os, told⟩ ⟨g, t, os, told ++ o.notices⟩
  /-- A parked path is resumed. -/
  | resume {g : Graph} {t : Searches} {os : List Order} {told : List Notice} {ticket : Id} :
      ticket ∈ t.parked →
      Proceeds ⟨g, t, os, told⟩ ⟨g, (t.resume ticket).1, (t.resume ticket).2 ++ os, told⟩

/-- One thing that happens in a scene and spares a search. -/
inductive Scene.Spares (i : Id) : Scene → Scene → Prop
  /-- The scene goes on. -/
  | proceed {w w' : Scene} : Proceeds w w' → Spares i w w'
  /-- Another search is started. -/
  | launch {g : Graph} {t : Searches} {os : List Order} {told : List Notice}
      (config : SearchConfig) (linked : Bool) {p : Pattern} :
      p.validate = .ok () →
      Spares i ⟨g, t, os, told⟩
        ⟨g, (t.launch config linked p).1, .job (t.launch config linked p).2.2 :: os,
          told ++ [.started t.next p]⟩
  /-- Another search is stopped. -/
  | stop {g : Graph} {t : Searches} {os : List Order} {told : List Notice} {k : Id} :
      k ≠ i → Spares i ⟨g, t, os, told⟩ ⟨g, t.update k .stop, os, told⟩
  /-- Another search is cancelled. -/
  | cancel {g : Graph} {t : Searches} {os : List Order} {told : List Notice} {k : Id} :
      k ≠ i → Spares i ⟨g, t, os, told⟩ ⟨g, t.update k .cancel, os, told⟩
  /-- A parked path of another search is given up. -/
  | discard {g : Graph} {t : Searches} {os : List Order} {told : List Notice} {ticket : Id} :
      (∀ f, t.parked[ticket]? = some f → f.search ≠ i) →
      Spares i ⟨g, t, os, told⟩ ⟨g, (t.discard ticket).1, (t.discard ticket).2 ++ os, told⟩

/-! ## Orders that take the place of another -/

/-- Orders with the same path on the same branch may take the place of one that
reports nothing. -/
theorem Sound.exchange (h : Sound t (o :: rest)) (hheld : heldBy os = heldBy [o])
    (hframe : ∀ o' ∈ os, ∀ f, o'.frame? = some f → o.frame? = some f)
    (hquiet : ∀ o' ∈ os, o'.reportsTo? = none) : Sound t (os ++ rest) where
  layout := h.layout
  accounted := by
    have hacc := h.accounted
    unfold Accounted at hacc ⊢
    rw [hacc, heldBy_cons, heldBy_append, hheld]
  seated {o' f} ho' hf := by
    rcases List.mem_append.1 ho' with ho' | ho'
    · exact h.seated List.mem_cons_self (hframe o' ho' f hf)
    · exact h.seated (List.mem_cons_of_mem _ ho') hf
  parked := h.parked
  covered := h.covered.2.append hquiet
  rooted {o' i} ho' hi := by
    rcases List.mem_append.1 ho' with ho' | ho'
    · have hreport := Order.reportsTo?_of_tells? hi
      rw [hquiet o' ho'] at hreport
      cases hreport
    · exact h.rooted (List.mem_cons_of_mem _ ho') hi

/-- What becomes of a path that has to wait. -/
theorem Searches.suspend_cases (t : Searches) (env : Surroundings) (f : Frame) (d : String) :
    (t.suspend env f d).1 = t ∧
      ((t.suspend env f d).2 = [.enterSource, .request d, .job (.await f d true), .leaveSource] ∨
        (t.suspend env f d).2 = [.enterSource, .job (.await f d false), .leaveSource]) := by
  unfold suspend
  split
  · exact ⟨rfl, .inl rfl⟩
  · exact ⟨rfl, .inr rfl⟩

/-- A path may come to wait in place of taking its next step. -/
theorem Sound.suspend (h : Sound t (.job (.step f) :: rest)) (env : Surroundings) (d : String) :
    Sound (t.suspend env f d).1 ((t.suspend env f d).2 ++ rest) := by
  obtain ⟨ht, ho⟩ := t.suspend_cases env f d
  rw [ht]
  rcases ho with ho | ho <;> rw [ho]
  · exact h.exchange rfl (by simp [Order.frame?]) (by simp [Order.reportsTo?])
  · exact h.exchange rfl (by simp [Order.frame?]) (by simp [Order.reportsTo?])

namespace Scene

variable {w w' : Scene}

/-- An order that speaks of no search may be left out of the story. -/
theorem IsFaithful.tail (hw : IsFaithful ⟨g, t, o :: rest, told⟩) (ho : o.speaksOf? = none) :
    IsFaithful ⟨g, t, rest, told⟩ where
  paced {i x} hx := by
    have hp := hw.paced hx
    refine ⟨hp.queued, fun hd => ?_, hp.running, hp.gone⟩
    rcases List.mem_cons.1 (hp.draining hd) with rfl | hmem
    · cases ho
    · exact hmem
  story {i x} hx := by
    have hne : o.speaksOf? ≠ some i := by simp [ho]
    obtain ⟨p, found, ending, hst⟩ := hw.story hx
    have hcount := hst.count
    have hend := hst.endings
    have hsum := hst.summary
    rw [deliveriesOf_cons, Order.delivery?_of_speaksOf? hne] at hcount
    rw [finishesOf_cons, Order.finish?_of_speaksOf? hne] at hend hsum
    exact ⟨p, found, ending, hst.news, hcount, hend, hsum⟩
  unheard {i} hi := by
    have hne : o.speaksOf? ≠ some i := by simp [ho]
    obtain ⟨hnews, hfin⟩ := hw.unheard hi
    rw [finishesOf_cons, Order.finish?_of_speaksOf? hne] at hfin
    exact ⟨hnews, hfin⟩

/-- All that later steps rely on. -/
structure InOrder (w : Scene) : Prop where
  sound : w.IsSound
  faithful : w.IsFaithful
  attended : w.table.Attended

theorem InOrder.step (h : w.InOrder) (hstep : Step w w') : w'.InOrder :=
  ⟨hstep.sound h.sound, hstep.faithful h.sound h.faithful, hstep.attended h.sound h.attended⟩

/-- Whatever a scene without searches comes to is in order. -/
theorem Steps.inOrder (h : Steps ⟨g, {}, [], []⟩ w) : w.InOrder := by
  induction h with
  | refl =>
    exact ⟨Sound.empty, ⟨fun {i x} hx => by simp at hx, fun {i x} hx => by simp at hx,
      fun _ => ⟨rfl, rfl⟩⟩, attended_empty⟩
  | tail _ hstep ih => exact ih.step hstep

/-- **A scene that goes on stays in order.** -/
theorem Proceeds.inOrder (h : Proceeds w w') (hw : w.InOrder) : w'.InOrder := by
  cases h with
  | work state? => exact hw.step (.work state?)
  | handOver ho => exact hw.step (.handOver ho)
  | resume _ => exact hw.step (.resume _)
  | @recheck g t f os told x d state? state'? _ _ _ =>
    obtain ⟨ht, ho⟩ := t.suspend_cases ⟨g, state'?⟩ f d
    have hquiet : ∀ o ∈ (t.suspend ⟨g, state'?⟩ f d).2, o.speaksOf? = none := by
      rcases ho with ho | ho <;> simp [ho, Order.speaksOf?]
    refine ⟨Sound.suspend hw.sound _ d, ?_, ?_⟩
    · exact faithful_prepend (hw.faithful.tail rfl) (by rw [ht]) (by rw [ht]) hquiet
    · have ha : t.Attended := hw.attended
      rwa [ht]

/-- And so does one where a search is spared. -/
theorem Spares.inOrder (h : Spares i w w') (hw : w.InOrder) : w'.InOrder := by
  cases h with
  | proceed h => exact h.inOrder hw
  | launch config linked hp => exact hw.step (.launch config linked hp)
  | stop _ => exact hw.step (.stop _)
  | cancel _ => exact hw.step (.cancel _)
  | discard _ => exact hw.step (.discard _)

end Scene

end TripleQuery
