import Mathlib.Logic.Function.Basic
import TripleQuery.Proofs.Fetching.Requests
/-!
# History — what a library keeps, by what was done with it

What is done with a library is a history of deeds: requests, refreshes, watchers
that are registered, deliveries, and watchers that are called (`Deed`). What it
keeps are five tables: the states of documents, their recorded outcomes, the
queue, those who wait, and the log of what was put on the queue (`Tables`). Each
deed changes them one by one (`Tables.apply`), and a library is what its history
has made of its tables, though it keeps states and outcomes in one record
(`Library.tables_request` and so on).

In a history each delivery is that of the oldest request, with all who wait for
it (`Tables.Follows`). The tables agree with each other at every point of one
(`Tables.Consistent`).
-/

namespace TripleQuery

open Function (update)

/-- What is done with a library whose watchers are of a type. -/
inductive Deed (κ : Type) where
  /-- Somebody asks for a document. -/
  | requested (resource : String)
  /-- Somebody asks for a document again. -/
  | refreshed (resource : String)
  /-- Somebody wants to be called once a document is there. -/
  | registered (resource : String) (watcher : κ)
  /-- A document is delivered, for which these have waited. -/
  | delivered (outcome : FetchOutcome) (watchers : List κ)
  /-- Somebody is called. -/
  | called (watcher : κ) (outcome : FetchOutcome)

/-- The document that is delivered. -/
def Deed.document? {κ : Type} : Deed κ → Option String
  | .delivered o _ => some o.resource
  | _ => none

/-- The documents that were delivered, in order. -/
def deliveredIn {κ : Type} (T : List (Deed κ)) : List String :=
  T.filterMap Deed.document?

/-- What a library keeps, each in a table of its own. -/
@[ext]
structure Tables (κ : Type) where
  /-- How far the fetching of documents has come. -/
  states : String → FetchState := fun _ => .unrequested
  /-- The outcomes that are recorded. -/
  outcomes : String → Option FetchOutcome := fun _ => none
  /-- The requested documents, the oldest request first. -/
  queue : List String := []
  /-- Those who wait for a document, the earliest first. -/
  waiters : String → List κ := fun _ => []
  /-- Every document that was put on the queue, in order. -/
  log : List String := []

variable {κ : Type} {X : Tables κ} {e : Deed κ} {T T₁ T₂ : List (Deed κ)} {d r : String}
  {o : FetchOutcome} {w : κ} {ws : List κ}

namespace Tables

/-- A document is put on the queue. -/
def enqueue (X : Tables κ) (d : String) : Tables κ :=
  { X with
    states := update X.states d .requested
    queue := X.queue ++ [d]
    log := X.log ++ [d] }

/-- What a deed does to the tables. -/
def apply (X : Tables κ) : Deed κ → Tables κ
  | .requested r =>
    if X.states (documentPart r) = .unrequested then X.enqueue (documentPart r) else X
  | .refreshed r =>
    if X.states (documentPart r) = .requested then X
    else { X with outcomes := update X.outcomes (documentPart r) none }.enqueue (documentPart r)
  | .registered r w =>
    match X.outcomes (documentPart r) with
    | some _ => X
    | none =>
      { X with waiters := update X.waiters (documentPart r) (X.waiters (documentPart r) ++ [w]) }
  | .delivered o _ =>
    { X with
      states := update X.states o.resource o.state
      outcomes := update X.outcomes o.resource (some o)
      queue := X.queue.tail
      waiters := update X.waiters o.resource [] }
  | .called _ _ => X

/-- The tables after some deeds. -/
def after (X : Tables κ) (T : List (Deed κ)) : Tables κ :=
  T.foldl apply X

@[simp] theorem after_nil (X : Tables κ) : X.after [] = X := rfl

@[simp] theorem after_cons (X : Tables κ) (e : Deed κ) (T : List (Deed κ)) :
    X.after (e :: T) = (X.apply e).after T := rfl

@[simp] theorem after_append (X : Tables κ) (T₁ T₂ : List (Deed κ)) :
    X.after (T₁ ++ T₂) = (X.after T₁).after T₂ :=
  List.foldl_append

/-- A delivery is that of the oldest request, for all who wait for it. -/
def Allows (X : Tables κ) : Deed κ → Prop
  | .delivered o ws => (∃ queue, X.queue = o.resource :: queue) ∧ ws = X.waiters o.resource
  | _ => True

/-- Who is to be called after a deed, and with which outcome. -/
def due (X : Tables κ) : Deed κ → List (κ × FetchOutcome)
  | .registered r w => ((X.outcomes (documentPart r)).map (w, ·)).toList
  | .delivered o ws => ws.map (·, o)
  | _ => []

/-- Every delivery among some deeds is that of the oldest request by then. -/
def Follows (X : Tables κ) : List (Deed κ) → Prop
  | [] => True
  | e :: T => X.Allows e ∧ (X.apply e).Follows T

theorem follows_append : X.Follows (T₁ ++ T₂) ↔ X.Follows T₁ ∧ (X.after T₁).Follows T₂ := by
  induction T₁ generalizing X with
  | nil => simp [Follows]
  | cons e T₁ ih => simp only [List.cons_append, Follows, ih, after_cons, and_assoc]

/-! ## The tables agree -/

/-- The tables agree with each other. -/
structure Consistent (X : Tables κ) : Prop where
  /-- No document is on the queue twice, -/
  nodup : X.queue.Nodup
  /-- and those that are there are the requested ones. -/
  queued {d : String} : d ∈ X.queue ↔ X.states d = .requested
  /-- They are named without fragments. -/
  named {d : String} : d ∈ X.queue → documentPart d = d
  /-- What is recorded of a document is its state, -/
  resolved {d : String} {o : FetchOutcome} : X.outcomes d = some o →
    o.resource = d ∧ X.states d = o.state
  /-- and of every document that is resolved something is. -/
  recorded {d : String} : X.outcomes d = none → ¬ (X.states d).isResolved
  /-- Nobody waits for what is resolved. -/
  waiting {d : String} : X.waiters d ≠ [] → X.outcomes d = none
  /-- What was ever put on the queue is known. -/
  logged {d : String} : d ∈ X.log → X.states d ≠ .unrequested

theorem consistent_empty : ({} : Tables κ).Consistent where
  nodup := List.nodup_nil
  queued := by simp
  named h := by cases h
  resolved h := by cases h
  recorded _ := by simp [FetchState.isResolved]
  waiting h := absurd rfl h
  logged h := by cases h

/-- A document that is not on the queue may be put there, if its outcome is
forgotten. -/
theorem Consistent.enqueue (h : X.Consistent) (hd : X.states d ≠ .requested)
    (hnamed : documentPart d = d) :
    ({ X with outcomes := update X.outcomes d none }.enqueue d).Consistent where
  nodup := by
    refine List.nodup_append.2 ⟨h.nodup, List.nodup_singleton d, fun a ha b hb hab => ?_⟩
    rw [List.mem_singleton.1 hb] at hab
    exact hd (h.queued.1 (hab ▸ ha))
  queued {d'} := by
    by_cases he : d' = d
    · subst he
      simp [Tables.enqueue]
    · simp [Tables.enqueue, he, h.queued]
  named {d'} hd' := by
    rcases List.mem_append.1 hd' with hd' | hd'
    · exact h.named hd'
    · rw [List.mem_singleton.1 hd', hnamed]
  resolved {d' o} ho := by
    by_cases he : d' = d
    · subst he
      simp [Tables.enqueue] at ho
    · have hold : X.outcomes d' = some o := by simpa [Tables.enqueue, he] using ho
      simpa [Tables.enqueue, he] using h.resolved hold
  recorded {d'} ho := by
    by_cases he : d' = d
    · subst he
      simp [Tables.enqueue, FetchState.isResolved]
    · have hold : X.outcomes d' = none := by simpa [Tables.enqueue, he] using ho
      simpa [Tables.enqueue, he] using h.recorded hold
  waiting {d'} hw := by
    by_cases he : d' = d
    · subst he
      simp [Tables.enqueue]
    · simpa [Tables.enqueue, he] using h.waiting hw
  logged {d'} hd' := by
    by_cases he : d' = d
    · subst he
      simp [Tables.enqueue]
    · have hold : d' ∈ X.log := by simpa [Tables.enqueue, he] using hd'
      simpa [Tables.enqueue, he] using h.logged hold

/-- Somebody may come to wait for what is not resolved. -/
theorem Consistent.wait (h : X.Consistent) (hnone : X.outcomes d = none) (ws : List κ) :
    ({ X with waiters := update X.waiters d ws } : Tables κ).Consistent where
  nodup := h.nodup
  queued := h.queued
  named := h.named
  resolved := h.resolved
  recorded := h.recorded
  waiting {d'} hw := by
    by_cases he : d' = d
    · exact he ▸ hnone
    · exact h.waiting (by simpa [he] using hw)
  logged := h.logged

/-- A document is no longer requested once its outcome is known. -/
theorem state_ne_requested (o : FetchOutcome) : o.state ≠ .requested := fun h => by
  have hr := o.isResolved_state
  rw [h] at hr
  cases hr

/-- **A delivery resolves its document**, and all other tables with it. -/
theorem Consistent.deliver {queue : List String} (h : X.Consistent)
    (hq : X.queue = o.resource :: queue) : (X.apply (.delivered o ws)).Consistent := by
  have hnodup := h.nodup
  rw [hq, List.nodup_cons] at hnodup
  refine ⟨?_, fun {d} => ?_, fun {d} hd => ?_, fun {d o'} ho => ?_, fun {d} ho => ?_,
    fun {d} hw => ?_, fun {d} hd => ?_⟩
  · simpa [apply, hq] using hnodup.2
  · have hold := h.queued (d := d)
    rw [hq, List.mem_cons] at hold
    by_cases he : d = o.resource
    · subst he
      simp [apply, hq, hnodup.1, state_ne_requested]
    · simpa [apply, hq, he] using hold
  · refine h.named (d := d) ?_
    rw [hq]
    exact List.mem_cons_of_mem _ (by simpa [apply, hq] using hd)
  · by_cases he : d = o.resource
    · subst he
      obtain rfl : o = o' := by simpa [apply] using ho
      simp [apply]
    · have hold : X.outcomes d = some o' := by simpa [apply, he] using ho
      simpa [apply, he] using h.resolved hold
  · by_cases he : d = o.resource
    · subst he
      simp [apply] at ho
    · have hold : X.outcomes d = none := by simpa [apply, he] using ho
      simpa [apply, he] using h.recorded hold
  · by_cases he : d = o.resource
    · subst he
      simp [apply] at hw
    · have hold : X.waiters d ≠ [] := by simpa [apply, he] using hw
      simpa [apply, he] using h.waiting hold
  · by_cases he : d = o.resource
    · subst he
      have hr := o.isResolved_state
      intro hun
      have hstate : o.state = .unrequested := by simpa [apply] using hun
      rw [hstate] at hr
      cases hr
    · simpa [apply, he] using h.logged hd

/-- A document that nobody has asked for has no outcome. -/
theorem Consistent.outcomes_of_unrequested (h : X.Consistent) (hd : X.states d = .unrequested) :
    X.outcomes d = none := by
  cases ho : X.outcomes d with
  | none => rfl
  | some o =>
    have hr := o.isResolved_state
    rw [← (h.resolved ho).2, hd] at hr
    cases hr

/-- **Every deed of a history leaves the tables in agreement.** -/
theorem Consistent.apply (h : X.Consistent) (ha : X.Allows e) : (X.apply e).Consistent := by
  cases e with
  | requested r =>
    simp only [Tables.apply]
    split
    · rename_i hun
      have hsame : update X.outcomes (documentPart r) none = X.outcomes :=
        Function.update_eq_self_iff.2 (h.outcomes_of_unrequested hun).symm
      have hnew := h.enqueue (d := documentPart r) (by simp [hun]) (documentPart_idem r)
      rwa [hsame] at hnew
    · exact h
  | refreshed r =>
    simp only [Tables.apply]
    split
    · exact h
    · rename_i hd
      exact h.enqueue hd (documentPart_idem r)
  | registered r w =>
    simp only [Tables.apply]
    split
    · exact h
    · rename_i hnone
      exact h.wait hnone _
  | delivered o ws =>
    obtain ⟨⟨queue, hq⟩, -⟩ := ha
    exact h.deliver hq
  | called w o => exact h

/-- **And so does every history.** -/
theorem Consistent.after (h : X.Consistent) (hT : X.Follows T) : (X.after T).Consistent := by
  induction T generalizing X with
  | nil => exact h
  | cons e T ih => exact ih (h.apply hT.1) hT.2

/-! ## The log -/

/-- What a deed puts on the queue it puts into the log, and what it takes off the
queue is delivered. -/
theorem log_apply {D : List String} (ha : X.Allows e) (h : X.log = D ++ X.queue) :
    (X.apply e).log = D ++ deliveredIn [e] ++ (X.apply e).queue := by
  cases e with
  | requested r | refreshed r =>
    simp only [apply]
    split <;> simp [enqueue, deliveredIn, Deed.document?, h]
  | registered r w =>
    simp only [apply]
    split <;> simp [deliveredIn, Deed.document?, h]
  | delivered o ws =>
    obtain ⟨⟨queue, hq⟩, -⟩ := ha
    simp [apply, deliveredIn, Deed.document?, h, hq]
  | called w o => simp [apply, deliveredIn, Deed.document?, h]

/-- **The log is what was delivered, followed by the queue.** -/
theorem log_after {D : List String} (hT : X.Follows T) (h : X.log = D ++ X.queue) :
    (X.after T).log = D ++ deliveredIn T ++ (X.after T).queue := by
  induction T generalizing X D with
  | nil => simpa [deliveredIn] using h
  | cons e T ih =>
    have hrest := ih hT.2 (log_apply hT.1 h)
    rw [after_cons, hrest, List.append_assoc D, deliveredIn, deliveredIn, deliveredIn,
      ← List.filterMap_append]
    rfl

/-- A deed puts at most one document into the log. -/
theorem log_apply_cases (X : Tables κ) (e : Deed κ) :
    (X.apply e).log = X.log ∨ ∃ d, (X.apply e).log = X.log ++ [d] := by
  cases e with
  | requested r | refreshed r =>
    simp only [apply]
    split
    · first | exact .inl rfl | exact .inr ⟨_, rfl⟩
    · first | exact .inl rfl | exact .inr ⟨_, rfl⟩
  | registered r w =>
    simp only [apply]
    split <;> exact .inl rfl
  | delivered o ws | called w o => exact .inl rfl

/-- **What is put on the queue again was refreshed**, when it was not on the queue.
-/
theorem Consistent.refreshed_of_log (h : X.Consistent) (hd : d ∈ X.log)
    (he : (X.apply e).log = X.log ++ [d]) :
    ∃ r, e = .refreshed r ∧ documentPart r = d ∧ d ∉ X.queue := by
  have hsame : ∀ {d' : String}, X.log ++ [d'] = X.log ++ [d] → d' = d := fun h =>
    (List.cons.inj (List.append_cancel_left h)).1
  have hno : X.log ≠ X.log ++ [d] := fun h => by simpa using congrArg List.length h
  cases e with
  | requested r =>
    simp only [Tables.apply] at he
    split at he
    · rename_i hun
      exact absurd (hsame he ▸ hun) (h.logged hd)
    · exact absurd he hno
  | refreshed r =>
    simp only [Tables.apply] at he
    split at he
    · exact absurd he hno
    · rename_i hnot
      have hr := hsame he
      exact ⟨r, rfl, hr, fun hq => hnot (hr ▸ h.queued.1 hq)⟩
  | registered r w =>
    simp only [Tables.apply] at he
    split at he <;> exact absurd he hno
  | delivered o ws | called w o => exact absurd he hno

/-! ## Without refreshing -/

/-- A document may still come without being asked for again: it is on the queue,
or nobody has asked for it yet. -/
def Pending (X : Tables κ) (d : String) : Prop :=
  d ∈ X.queue ∨ X.states d = .unrequested

/-- What may come after a deed might have come before it, and does not come with
it. -/
theorem Consistent.pending_of_apply (h : X.Consistent) (ha : X.Allows e)
    (hno : ∀ r, e ≠ .refreshed r) (hd : (X.apply e).Pending d) :
    X.Pending d ∧ d ∉ deliveredIn [e] := by
  cases e with
  | refreshed r => exact absurd rfl (hno r)
  | requested r =>
    refine ⟨?_, by simp [deliveredIn, Deed.document?]⟩
    simp only [Pending, Tables.apply] at hd
    split at hd
    · rename_i hun
      by_cases he : d = documentPart r
      · exact .inr (he ▸ hun)
      · have hold : d ∈ X.queue ∨ X.states d = .unrequested := by
          simpa [Tables.enqueue, he] using hd
        exact hold
    · exact hd
  | registered r w =>
    refine ⟨?_, by simp [deliveredIn, Deed.document?]⟩
    simp only [Pending, Tables.apply] at hd
    split at hd <;> exact hd
  | called w o => exact ⟨hd, by simp [deliveredIn, Deed.document?]⟩
  | delivered o ws =>
    have hnew := h.apply ha
    obtain ⟨⟨queue, hq⟩, -⟩ := ha
    have hnodup := h.nodup
    rw [hq, List.nodup_cons] at hnodup
    have hne : d ≠ o.resource := by
      rintro rfl
      rcases hd with hd | hd
      · exact hnodup.1 (by simpa [Tables.apply, hq] using hd)
      · have ho : (X.apply (.delivered o ws)).outcomes o.resource = some o := by
          simp [Tables.apply]
        exact absurd (hnew.outcomes_of_unrequested hd) (by simp [ho])
    refine ⟨?_, by simpa [deliveredIn, Deed.document?] using hne⟩
    rcases hd with hd | hd
    · exact .inl (List.mem_of_mem_tail hd)
    · exact .inr (by simpa [Tables.apply, hne] using hd)

/-- **Without refreshing, no document is delivered twice**, and none that was
resolved before. -/
theorem Consistent.nodup_deliveredIn (h : X.Consistent) (hT : X.Follows T)
    (hno : ∀ r, .refreshed r ∉ T) :
    (deliveredIn T).Nodup ∧ ∀ d ∈ deliveredIn T, X.Pending d := by
  induction T generalizing X with
  | nil => simp [deliveredIn]
  | cons e T ih =>
    obtain ⟨hnodup, hpending⟩ := ih (h.apply hT.1) hT.2 fun r hr =>
      hno r (List.mem_cons_of_mem _ hr)
    have hrest : ∀ d ∈ deliveredIn T, X.Pending d ∧ d ∉ deliveredIn [e] := fun d hd =>
      h.pending_of_apply hT.1 (fun r he => hno r (he ▸ List.mem_cons_self)) (hpending d hd)
    have hsplit : deliveredIn (e :: T) = deliveredIn [e] ++ deliveredIn T := by
      rw [deliveredIn, deliveredIn, deliveredIn, ← List.filterMap_append]
      rfl
    rw [hsplit]
    refine ⟨List.nodup_append.2 ⟨?_, hnodup, fun a ha b hb hab => ?_⟩, fun d hd => ?_⟩
    · cases e with
      | delivered o ws => exact List.nodup_singleton _
      | _ => exact List.nodup_nil
    · exact (hrest b hb).2 (hab ▸ ha)
    · rcases List.mem_append.1 hd with hd | hd
      · cases e with
        | delivered o ws =>
          obtain rfl : d = o.resource := by simpa [deliveredIn, Deed.document?] using hd
          obtain ⟨⟨queue, hq⟩, -⟩ := hT.1
          exact .inl (hq ▸ List.mem_cons_self)
        | _ => simp [deliveredIn, Deed.document?] at hd
      · exact (hrest d hd).1

end Tables

/-! ## The tables of a library -/

/-- What is recorded was requested. -/
theorem FetchRecord.state_ne_unrequested (record : FetchRecord) : record.state ≠ .unrequested := by
  cases record with
  | requested => simp [FetchRecord.state]
  | resolved o =>
    intro h
    have hr := o.isResolved_state
    rw [show o.state = .unrequested from h] at hr
    cases hr

/-- The outcome that a record has. -/
def FetchRecord.outcome? : FetchRecord → Option FetchOutcome
  | .requested => none
  | .resolved o => some o

namespace Library

variable {g : Graph} {dv : Delivery κ} {l : Library κ}

/-- The tables that a library keeps, states and outcomes in one. -/
def tables (l : Library κ) : Tables κ where
  states d := (l.records[d]?.map FetchRecord.state).getD .unrequested
  outcomes d := l.records[d]?.bind FetchRecord.outcome?
  queue := l.queue
  waiters d := l.watchers[d]?.getD []
  log := l.log

theorem tables_empty : ({} : Library κ).tables = {} := by
  simp [tables]

theorem state_eq_tables (l : Library κ) (r : String) :
    l.state r = l.tables.states (documentPart r) := by
  simp only [state, tables]
  cases l.records[documentPart r]? <;> rfl

theorem outcome?_eq_tables (l : Library κ) (r : String) :
    l.outcome? r = l.tables.outcomes (documentPart r) := by
  simp only [outcome?, tables]
  cases l.records[documentPart r]? with
  | none => rfl
  | some record => cases record <;> rfl

@[simp] theorem tables_publish (l : Library κ) (d : String) (ss : List Statement) :
    (l.publish d ss).tables = l.tables := rfl

@[simp] theorem tables_failWith (l : Library κ) (d reason : String) :
    (l.failWith d reason).tables = l.tables := rfl

/-- What is written to the records is written to both tables. -/
theorem tables_record (l : Library κ) (d : String) (record : FetchRecord) :
    ({ l with records := l.records.insert d record } : Library κ).tables =
      { l.tables with
        states := update l.tables.states d record.state
        outcomes := update l.tables.outcomes d record.outcome? } := by
  refine Tables.ext (funext fun d' => ?_) (funext fun d' => ?_) rfl rfl rfl
  · by_cases he : d' = d
    · subst he
      simp [tables]
    · simp [tables, Std.ExtTreeMap.getElem?_insert, he, Ne.symm he]
  · by_cases he : d' = d
    · subst he
      simp [tables]
    · simp [tables, Std.ExtTreeMap.getElem?_insert, he, Ne.symm he]

theorem tables_enqueue (l : Library κ) (d : String) : (l.enqueue d).tables =
    { l.tables with outcomes := update l.tables.outcomes d none }.enqueue d := by
  have h := tables_record { l with queue := l.queue ++ [d], log := l.log ++ [d] } d .requested
  exact h

/-- **A library is asked for a document as its tables are**, -/
theorem tables_request (l : Library κ) (r : String) :
    (l.request r).tables = l.tables.apply (.requested r) := by
  unfold request
  cases h : l.records[documentPart r]? with
  | none =>
    have hstate : l.tables.states (documentPart r) = .unrequested := by simp [tables, h]
    have hsame : update l.tables.outcomes (documentPart r) none = l.tables.outcomes :=
      Function.update_eq_self_iff.2 (by simp [tables, h])
    simp only [Tables.apply, if_pos hstate, tables_enqueue, hsame]
  | some record =>
    have hstate : l.tables.states (documentPart r) ≠ .unrequested := by
      simpa [tables, h] using record.state_ne_unrequested
    simp only [Tables.apply, if_neg hstate]

/-- asked for one again, -/
theorem tables_refresh (l : Library κ) (r : String) :
    (l.refresh r).tables = l.tables.apply (.refreshed r) := by
  unfold refresh
  split
  · rename_i h
    have hstate : l.tables.states (documentPart r) = .requested := by
      simp [tables, h, FetchRecord.state]
    simp only [Tables.apply, if_pos hstate]
  · rename_i h
    have hstate : l.tables.states (documentPart r) ≠ .requested := by
      intro hr
      cases hrecord : l.records[documentPart r]? with
      | none => simp [tables, hrecord] at hr
      | some record =>
        cases record with
        | requested => exact h hrecord
        | resolved o =>
          refine Tables.state_ne_requested o ?_
          simpa [tables, hrecord, FetchRecord.state] using hr
    simp only [Tables.apply, if_neg hstate, tables_enqueue]

/-- watched, -/
theorem tables_watch (l : Library κ) (r : String) (w : κ) :
    (l.watch r w).1.tables = l.tables.apply (.registered r w) ∧
      (l.watch r w).2 = l.tables.outcomes (documentPart r) := by
  unfold watch
  simp only [outcome?_eq_tables, Tables.apply]
  cases ho : l.tables.outcomes (documentPart r) with
  | some o => exact ⟨rfl, rfl⟩
  | none =>
    refine ⟨Tables.ext rfl rfl rfl (funext fun d => ?_) rfl, rfl⟩
    by_cases he : d = documentPart r
    · subst he
      simp [tables]
    · simp [tables, Std.ExtTreeMap.getElem?_insert, he, Ne.symm he]

/-- **and delivers as its tables allow it.** -/
theorem tables_deliver (h : l.deliver g = some dv) :
    l.tables.Allows (.delivered dv.outcome dv.watchers) ∧
      dv.library.tables = l.tables.apply (.delivered dv.outcome dv.watchers) := by
  obtain ⟨d, hq, hrecords, hwatchers, hw, hlog, -, hfetch⟩ := deliver_eq_some h
  obtain rfl : dv.outcome.resource = d := by
    have hname := l.resource_fetch g d
    rwa [hfetch] at hname
  have hrecord := tables_record l dv.outcome.resource (.resolved dv.outcome)
  rw [← hrecords] at hrecord
  have hstates : ({ l with records := dv.library.records } : Library κ).tables.states = _ :=
    congrArg Tables.states hrecord
  have houtcomes : ({ l with records := dv.library.records } : Library κ).tables.outcomes = _ :=
    congrArg Tables.outcomes hrecord
  refine ⟨⟨⟨dv.library.queue, hq⟩, hw⟩, Tables.ext ?_ ?_ ?_ (funext fun d => ?_) hlog⟩
  · exact hstates
  · exact houtcomes
  · simp [Tables.apply, tables, hq]
  · by_cases he : d = dv.outcome.resource
    · subst he
      simp [tables, Tables.apply, hwatchers]
    · simp [tables, Tables.apply, hwatchers, Std.ExtTreeMap.getElem?_erase, he, Ne.symm he]

end Library

end TripleQuery
