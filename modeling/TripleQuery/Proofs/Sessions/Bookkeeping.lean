import TripleQuery.Proofs.Sessions.Deeds
/-!
# Bookkeeping — what a library keeps agrees

A library keeps the states of documents, their outcomes, a queue, those who wait,
and a log, each changed on its own whenever something is asked for, refreshed or
delivered. At every moment of a session these agree with each other
(`Moment.Records.in_agreement`), also in the middle of deliveries whose callbacks
ask for documents, refresh, deliver, or come to wait themselves.
-/

namespace TripleQuery

/-! ## A library whose tables agree -/

namespace Library

variable {κ : Type} {l : Library κ} {d r : String} {o : FetchOutcome}

theorem mem_queue_iff (h : l.tables.Consistent) :
    d ∈ l.queue ↔ documentPart d = d ∧ l.state d = .requested := by
  constructor
  · intro hd
    have hname : documentPart d = d := h.named hd
    refine ⟨hname, ?_⟩
    rw [state_eq_tables, hname]
    exact h.queued.1 hd
  · rintro ⟨hname, hd⟩
    rw [state_eq_tables, hname] at hd
    exact h.queued.2 hd

/-- An outcome says what became of its document. -/
theorem state_of_outcome? (h : l.tables.Consistent) (ho : l.outcome? r = some o) :
    o.resource = documentPart r ∧ l.state r = o.state := by
  rw [state_eq_tables]
  exact h.resolved (l.outcome?_eq_tables r ▸ ho)

theorem isSome_outcome?_iff (h : l.tables.Consistent) : (l.outcome? r).isSome ↔
    l.state r = .fetched ∨ ∃ reason, l.state r = .failed reason := by
  constructor
  · intro ho
    obtain ⟨o, ho⟩ := Option.isSome_iff_exists.1 ho
    rw [(state_of_outcome? h ho).2, FetchOutcome.state]
    cases o.error with
    | none => exact .inl rfl
    | some reason => exact .inr ⟨reason, rfl⟩
  · intro hr
    rw [Option.isSome_iff_ne_none, outcome?_eq_tables]
    intro hnone
    refine h.recorded hnone ?_
    rw [← state_eq_tables]
    rcases hr with hr | ⟨reason, hr⟩ <;> rw [hr] <;> rfl

end Library

namespace Moment

variable {m m' : Moment} {T : List (Deed Callback)} {g : Graph} {config : SearchConfig}
  {eager : Bool} {l l' : Library Callback}

/-- The tables of a library agree at every moment. -/
theorem Kept.consistent (h : m.Kept T) (hl : m.session.stock? = some l) : l.tables.Consistent :=
  h.tables hl ▸ Tables.consistent_empty.after h.follows

/-- From one moment to the next a document is added to the log at most, and one that
is there already only by a refresh. -/
theorem Kept.log_next (h : m.Kept T) (hl : m.session.stock? = some l) (hnext : Next m m')
    (hl' : m'.session.stock? = some l') : l'.log = l.log ∨
      ∃ d, l'.log = l.log ++ [d] ∧ (d ∈ l.log →
        ∃ r, m.deed? = some (.refreshed r) ∧ documentPart r = d ∧ d ∉ l.queue ∧
          l.state d ≠ .requested) := by
  have hX := h.consistent hl
  have htables : l'.tables = l.tables.after m.deed?.toList := by
    rw [(h.next hnext).tables hl', h.tables hl, Tables.after_append]
  cases he : m.deed? with
  | none =>
    rw [he] at htables
    exact .inl (congrArg Tables.log htables)
  | some e =>
    rw [he] at htables
    have hlog : l'.log = (l.tables.apply e).log := congrArg Tables.log htables
    rw [hlog]
    refine (l.tables.log_apply_cases e).imp_right fun hpushed => ?_
    obtain ⟨d, hd⟩ := hpushed
    refine ⟨d, hd, fun hmem => ?_⟩
    obtain ⟨r, rfl, hr, hq⟩ := hX.refreshed_of_log hmem hd
    exact ⟨r, rfl, hr, hq, fun hstate =>
      hq ((Library.mem_queue_iff hX).2 ⟨hr ▸ documentPart_idem r, hstate⟩)⟩

/-- **What a library keeps agrees.** Let a session over a library have come to
any moment, by whatever commands and callbacks, with any history of its library.

No document is on the queue twice, and those that are there are the requested
ones. A document has an outcome recorded if and only if it was fetched or could
not be, and the outcome says which and why. Nobody waits for a document whose
outcome is recorded. The log is what was delivered, in order, followed by the
queue; and from one moment to the next at most one document is added to it, one
that is there already only by a refresh that has not found it on the queue. -/
theorem Records.in_agreement (h : Records (start g (some (.library eager {})) config) T m)
    (hl : m.session.stock? = some l) :
    l.queue.Nodup ∧
    (∀ d, d ∈ l.queue ↔ documentPart d = d ∧ l.state d = .requested) ∧
    (∀ r, (l.outcome? r).isSome ↔
      l.state r = .fetched ∨ ∃ reason, l.state r = .failed reason) ∧
    (∀ r o, l.outcome? r = some o → o.resource = documentPart r ∧
      (l.state r = .fetched ∧ o.error = none ∨
        ∃ reason, l.state r = .failed reason ∧ o.error = some reason)) ∧
    (∀ d c, l.Watches d c → l.outcome? d = none) ∧
    l.log = deliveredIn T ++ l.queue ∧
    ∀ m' l', Next m m' → m'.session.stock? = some l' → l'.log = l.log ∨
      ∃ d, l'.log = l.log ++ [d] ∧ (d ∈ l.log →
        ∃ r, m.deed? = some (.refreshed r) ∧ documentPart r = d ∧ d ∉ l.queue ∧
          l.state d ≠ .requested) := by
  have hkept := h.kept
  have hX := hkept.consistent hl
  refine ⟨hX.nodup, fun d => Library.mem_queue_iff hX, fun r => Library.isSome_outcome?_iff hX,
    fun r o ho => ?_, fun d c hc => ?_, ?_, fun m' l' => hkept.log_next hl⟩
  · obtain ⟨hresource, hstate⟩ := Library.state_of_outcome? hX ho
    refine ⟨hresource, ?_⟩
    rw [hstate, FetchOutcome.state]
    cases o.error with
    | none => exact .inl ⟨rfl, rfl⟩
    | some reason => exact .inr ⟨reason, rfl, rfl⟩
  · obtain ⟨eager', hs⟩ := Session.stock?_eq_some hl
    have hname := (h.leads.onTrack.inOrder hs).named hc
    rw [Library.outcome?_eq_tables, hname]
    obtain ⟨ws, hws, hmem⟩ := hc
    refine hX.waiting fun hempty => ?_
    have hwaiters : l.tables.waiters d = ws := by simp [Library.tables, hws]
    rw [hwaiters] at hempty
    exact List.not_mem_nil (hempty ▸ hmem)
  · have hlog := Tables.log_after (D := []) hkept.follows rfl
    rwa [← hkept.tables hl] at hlog

/-! ## A document that is refreshed while it is delivered -/

/-- A callback asks for its own document again, waits for it, and delivers it.
Inside that delivery a callback has asked for another document. -/
def refetching : Moment :=
  carryOutAll 12
    [.library (.publish "a" [⟨.symbol "a", .symbol "p", .symbol "b", none⟩]),
      .onAvailable "a#it" "first"
        [.library (.refresh "a"), .onAvailable "a" "again" [.request "b"], .library .deliver],
      .request "a#it", .library .deliver]
    (start .empty (some (.library false {})) {})

theorem stock?_refetching :
    refetching.session.stock?.map (fun l => (l.queue, l.log, l.outcome? "a")) =
      some (["b"], ["a", "a", "b"], some ⟨"a", none, 0⟩) := by
  cbv

/-- What is left of both deliveries is still to be carried out. -/
example : (refetching.stack.filter Task.isDelivery).length = 2 := by
  cbv

/-- The document was delivered twice and is in the log twice; its outcome is that
of the second delivery, and nobody waits for it any more. -/
theorem refetching_in_agreement : ∃ T l,
    Records (start .empty (some (.library false {})) {}) T refetching ∧
    refetching.session.stock? = some l ∧ l.queue = ["b"] ∧ l.queue.Nodup ∧
    l.state "b" = .requested ∧ deliveredIn T = ["a", "a"] ∧ l.log = deliveredIn T ++ l.queue ∧
    l.state "a" = .fetched ∧ ∀ c, ¬ l.Watches "a" c := by
  have hrecords : Records (start .empty (some (.library false {})) {}) _ refetching :=
    records_carryOutAll 12 _ _
  obtain ⟨l, hl, hfacts⟩ := Option.map_eq_some_iff.1 stock?_refetching
  have hqueue : l.queue = ["b"] := congrArg (·.1) hfacts
  have hlog : l.log = ["a", "a", "b"] := congrArg (·.2.1) hfacts
  have houtcome : l.outcome? "a" = some ⟨"a", none, 0⟩ := congrArg (·.2.2) hfacts
  obtain ⟨hnodup, hqueued, -, hrecorded, hwaiting, hall, -⟩ := hrecords.in_agreement hl
  refine ⟨_, l, hrecords, hl, hqueue, hnodup, ((hqueued "b").1 ?_).2, ?_, hall, ?_, fun c hc => ?_⟩
  · rw [hqueue]
    exact List.mem_singleton_self _
  · rw [hlog, hqueue] at hall
    exact (List.append_cancel_right (show ["a", "a"] ++ ["b"] = _ from hall)).symm
  · rcases (hrecorded "a" _ houtcome).2 with ⟨hstate, -⟩ | ⟨reason, -, herror⟩
    · exact hstate
    · cases herror
  · rw [hwaiting "a" c hc] at houtcome
    cases houtcome

end Moment

end TripleQuery
