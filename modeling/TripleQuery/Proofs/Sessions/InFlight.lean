import TripleQuery.Proofs.Sessions.Ending
import TripleQuery.Proofs.Sessions.Soundness
import TripleQuery.Proofs.Sessions.Waiting
/-!
# Nothing parked without a request in flight

In a session over a library, whatever it was told to do and whatever its
callbacks did, a parked path that nobody is about to call watches for a document
that is requested and on the queue (`Moment.OnTrack.watches`). So once the queue
is empty no path is parked, and every search that is not at work at this very
moment is finished and has told its end (`Moment.Leads.in_flight`).
-/

namespace TripleQuery

open Std (ExtTreeMap)

namespace Moment

variable {m : Moment} {g : Graph} {config : SearchConfig} {eager eager' : Bool}
  {l : Library Callback} {i n : Id} {p : Pattern}

/-- No delivery is under way, and the next task is not about a parked path: it
neither puts the continuation of one where it waits, nor calls it, nor gives it
up. -/
structure IsCalm (m : Moment) : Prop where
  idle : ∀ task ∈ m.stack, ¬ task.isDelivery
  next : ∀ task ∈ m.stack.head?, task.ticket? = none

/-- **A parked path that no task is about waits for a document in flight.** -/
theorem OnTrack.watches (h : m.OnTrack) (hl : m.session.source = some (.library eager l))
    (hn : n ∈ m.session.searches.parked) (hticket : n ∉ ticketsOf m.stack) :
    ∃ d, l.Watches d (.resume n) ∧ l.state d = .requested ∧ d ∈ l.queue := by
  obtain ⟨source, hsource, hmem⟩ := (h.parked hn).resolve_right hticket
  obtain rfl := Option.some.inj (hl.symm.trans hsource)
  obtain ⟨d, hd⟩ := Library.mem_allWatchers.1 hmem
  exact ⟨d, hd, (h.inOrder hl).state_of_watches hd ⟨n, rfl⟩⟩

/-- Where no delivery is under way, no task is about a parked path. -/
theorem OnTrack.ticketsOf_eq_nil (h : m.OnTrack)
    (hl : m.session.source = some (.library eager l)) (hcalm : m.IsCalm) :
    ticketsOf m.stack = [] := by
  obtain ⟨s, stack, told⟩ := m
  cases stack with
  | nil => rfl
  | cons task stack =>
    have hrest := (h.guarded hl).ticketsOf_eq_nil fun task' ht =>
      hcalm.idle task' (List.mem_cons_of_mem _ ht)
    have hfirst := hcalm.next task rfl
    simpa [ticketsOf, hfirst] using hrest

/-- A search that somebody was told of is there. -/
theorem IsSound.exists_search (h : m.IsSound) (hi : .started i p ∈ m.told) :
    ∃ x, m.session.searches.searches[i]? = some x :=
  exists_getElem? (h.faithful.mem_of_told hi)

/-- Every moment of a session has its junctions attended. -/
theorem Leads.attended {source : Option Source} (h : Leads (start g source config) m) :
    m.session.searches.Attended := by
  have hstart := isSound_start g source config
  obtain ⟨hsteps, -⟩ := h.steps hstart
  exact (hsteps.preserves (P := fun w => w.table.Attended) (fun hstep hs ha => hstep.attended hs ha)
    hstart.sound Scene.attended_empty).2

/-- **No search is left parked with nothing in flight.** Let a session over a
library have come to a moment at which no delivery is under way. Then every
parked path watches for a document that is requested and on the queue. And if
nothing is on the queue, every accepted search is finished and has told its end,
unless orders of its own are left because it is at work at this very moment. -/
theorem Leads.in_flight (h : Leads (start g (some (.library eager {})) config) m)
    (hl : m.session.source = some (.library eager' l)) (hcalm : m.IsCalm) :
    (∀ n f, m.session.searches.parked[n]? = some f →
      ∃ d, l.Watches d (.resume n) ∧ l.state d = .requested ∧ d ∈ l.queue) ∧
    (l.queue = [] → ∀ i p, .started i p ∈ m.told →
      (∀ o ∈ ordersOf m.stack, m.session.searches.worksFor? o ≠ some i) →
      ∃ x result, m.session.searches.searches[i]? = some x ∧ x.finished = true ∧
        .done i result ∈ m.told) := by
  have htrack := h.onTrack
  have hwaits : ∀ n f, m.session.searches.parked[n]? = some f →
      ∃ d, l.Watches d (.resume n) ∧ l.state d = .requested ∧ d ∈ l.queue := fun n f hf => by
    refine htrack.watches hl (mem_of_getElem? hf) ?_
    rw [htrack.ticketsOf_eq_nil hl hcalm]
    exact List.not_mem_nil
  refine ⟨hwaits, fun hempty i p hi hidle => ?_⟩
  have hm := h.isSound
  obtain ⟨x, hx⟩ := hm.exists_search hi
  have hunparked : ∀ (n : Nat) (f : Frame),
      m.session.searches.parked[n]? = some f → f.search ≠ i := fun n f hf => by
    -- it would wait for a document on the queue
    obtain ⟨d, -, -, hd⟩ := hwaits n f hf
    rw [hempty] at hd
    cases hd
  obtain ⟨hover, result, hdone⟩ :=
    Scene.done_of_idle hm.sound hm.faithful h.attended hx hidle hunparked
  exact ⟨x, result, hx, hover, hdone⟩

/-! ## A search that waits for a document on the shelf -/

/-- A search waits for a document that can be loaded. -/
def waitingSearch : Moment :=
  carryOutAll 60
    [.library (.publish "b" [⟨.symbol "b", .symbol "q", .symbol "c", none⟩]),
      .search "links" twoLinks [] []]
    (start oneLink (some (.library false {})) {})

/-- Everything that was requested is delivered. -/
def servedSearch : Moment :=
  carryOutAll 60 [.library .runPending] waitingSearch

/-- The documents on the queue of a library. -/
def queue? (m : Moment) : Option (List String) :=
  match m.session.source with
  | some (.library _ l) => some l.queue
  | _ => none

theorem exists_library_of_queue? {queue : List String} (h : m.queue? = some queue) :
    ∃ eager l, m.session.source = some (.library eager l) ∧ l.queue = queue := by
  unfold queue? at h
  split at h
  · rename_i eager l hl
    exact ⟨eager, l, hl, Option.some.inj h⟩
  · cases h

/-- Between two commands from outside, no delivery is under way. -/
theorem isCalm_of_stack (h : m.stack = []) : m.IsCalm :=
  ⟨fun task ht => by simp [h] at ht, fun task ht => by simp [h] at ht⟩

theorem waitingSearch_waits : waitingSearch.queue? = some ["b"] ∧ waitingSearch.stack = [] ∧
    waitingSearch.session.searches.parked.keys = [2] := by
  cbv

theorem told_servedSearch : servedSearch.queue? = some [] ∧ servedSearch.stack = [] ∧
    servedSearch.told = [.started 0 twoLinks, .found 0 interruptedMatch,
      .done 0 (.ok ⟨1, 1, false, false⟩)] := by
  refine ⟨by cbv, ?_, ?_⟩
  · cbv
  · cbv

/-- The path waits for the document on the queue, and once that is delivered the
search is finished. -/
theorem servedSearch_finished :
    (∃ eager l f, waitingSearch.session.source = some (.library eager l) ∧
      waitingSearch.IsCalm ∧ waitingSearch.session.searches.parked[2]? = some f ∧
      ∃ d, l.Watches d (.resume 2) ∧ l.state d = .requested ∧ d ∈ l.queue) ∧
    ∃ eager l, servedSearch.session.source = some (.library eager l) ∧ servedSearch.IsCalm ∧
      l.queue = [] ∧ .started 0 twoLinks ∈ servedSearch.told ∧
      ∃ x result, servedSearch.session.searches.searches[0]? = some x ∧ x.finished = true ∧
        .done 0 result ∈ servedSearch.told := by
  have hwaiting : Leads (start oneLink (some (.library false {})) {}) waitingSearch :=
    leads_carryOutAll 60 _ _
  have hserved : Leads (start oneLink (some (.library false {})) {}) servedSearch :=
    hwaiting.trans (leads_carryOutAll 60 _ _)
  constructor
  · obtain ⟨hqueue, hstack, hkeys⟩ := waitingSearch_waits
    obtain ⟨eager, l, hl, -⟩ := exists_library_of_queue? hqueue
    have hcalm : waitingSearch.IsCalm := isCalm_of_stack hstack
    have hmem : 2 ∈ waitingSearch.session.searches.parked.keys := by rw [hkeys]; decide
    obtain ⟨f, hf⟩ := exists_getElem? (ExtTreeMap.mem_keys.1 hmem)
    exact ⟨eager, l, f, hl, hcalm, hf, (hwaiting.in_flight hl hcalm).1 2 f hf⟩
  · obtain ⟨hqueue, hstack, htold⟩ := told_servedSearch
    obtain ⟨eager, l, hl, hempty⟩ := exists_library_of_queue? hqueue
    have hcalm : servedSearch.IsCalm := isCalm_of_stack hstack
    have hstarted : .started 0 twoLinks ∈ servedSearch.told := by
      rw [htold]
      exact List.mem_cons_self
    refine ⟨eager, l, hl, hcalm, hempty, hstarted, ?_⟩
    exact (hserved.in_flight hl hcalm).2 hempty 0 twoLinks hstarted (by simp [hstack])

end Moment

end TripleQuery
