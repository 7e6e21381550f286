import Mathlib.Data.List.Nodup
import Mathlib.Data.List.TakeWhile
import TripleQuery.Fetch.Library
/-!
# Requests — what those who watch wait for

The requested documents of a library are those on its queue, each once, and
those who watch for a document, as far as they count, wait for one on the queue
(`Library.InOrder`). Whatever is done with a library keeps this, and the library
forgets no request (`Library.Leads`), as long as those who count come to watch
only for what was requested before.

Nobody who watches is lost: a delivery hands over those who watched for its
document, and leaves the others (`Library.watches_or_mem_of_deliver`).
-/

namespace TripleQuery

open Std (ExtTreeMap)

theorem documentPart_idem (resource : String) :
    documentPart (documentPart resource) = documentPart resource := by
  simp [documentPart, List.takeWhile_idem]

namespace Library

variable {κ : Type} {counts : κ → Prop} {l l' : Library κ} {g : Graph} {d resource : String}
  {w v : κ}

/-- Whether somebody watches for a document. -/
def Watches (l : Library κ) (d : String) (w : κ) : Prop :=
  ∃ ws, l.watchers[d]? = some ws ∧ w ∈ ws

theorem mem_allWatchers : w ∈ l.allWatchers ↔ ∃ d, l.Watches d w := by
  simp only [allWatchers, List.mem_flatMap, Prod.exists, ExtTreeMap.mem_toList_iff_getElem?_eq_some,
    Watches]

/-- The requested documents are those on the queue, and whoever counts watches
for one of them. -/
structure InOrder (counts : κ → Prop) (l : Library κ) : Prop where
  nodup : l.queue.Nodup
  queued {d : String} : l.records[d]? = some .requested ↔ d ∈ l.queue
  /-- Those who watch name documents without fragments. -/
  named {d : String} {w : κ} : l.Watches d w → documentPart d = d
  watched {d : String} {w : κ} : l.Watches d w → counts w → d ∈ l.queue

/-- What a library in order comes to is in order, and no request is forgotten. -/
structure Leads (counts : κ → Prop) (l l' : Library κ) : Prop where
  inOrder : l.InOrder counts → l'.InOrder counts
  recorded {d : String} : d ∈ l.records → d ∈ l'.records

/-- A library is in order at the start. -/
theorem inOrder_empty (counts : κ → Prop) : InOrder counts {} where
  nodup := List.nodup_nil
  queued := by simp
  named := by simp [Watches]
  watched := by simp [Watches]

/-- A document on the queue is requested. -/
theorem InOrder.state_of_watches (h : l.InOrder counts) (hw : l.Watches d w) (hc : counts w) :
    l.state d = .requested ∧ d ∈ l.queue := by
  have hd := h.watched hw hc
  refine ⟨?_, hd⟩
  rw [state, h.named hw, h.queued.2 hd]
  rfl

/-- A document whose state is known was requested. -/
theorem mem_records_of_state (h : l.state resource ≠ .unrequested) :
    documentPart resource ∈ l.records := by
  unfold state at h
  cases hr : l.records[documentPart resource]? with
  | none =>
    rw [hr] at h
    exact absurd rfl h
  | some r => exact ExtTreeMap.mem_iff_isSome_getElem?.2 (by rw [hr]; rfl)

/-! ## What is done with a library -/

theorem Leads.refl (l : Library κ) : Leads counts l l := ⟨id, id⟩

theorem leads_publish (l : Library κ) (document : String) (ss : List Statement) :
    Leads counts l (l.publish document ss) :=
  ⟨fun h => ⟨h.nodup, h.queued, h.named, h.watched⟩, id⟩

theorem leads_failWith (l : Library κ) (document reason : String) :
    Leads counts l (l.failWith document reason) :=
  ⟨fun h => ⟨h.nodup, h.queued, h.named, h.watched⟩, id⟩

/-- A document that is not on the queue may be put there. -/
theorem leads_enqueue (hd : l.records[d]? ≠ some .requested) :
    Leads counts l (l.enqueue d) where
  inOrder h := by
    have hnot : d ∉ l.queue := fun hq => hd (h.queued.2 hq)
    refine ⟨?_, fun {d'} => ?_, h.named, fun hw hc => List.mem_append_left _ (h.watched hw hc)⟩
    · exact List.nodup_append.2 ⟨h.nodup, List.nodup_singleton d, fun a ha b hb hab =>
        hnot (List.mem_singleton.1 hb ▸ hab ▸ ha)⟩
    · change (l.records.insert d .requested)[d']? = _ ↔ d' ∈ l.queue ++ [d]
      rw [ExtTreeMap.getElem?_insert, List.mem_append, List.mem_singleton, ← h.queued]
      by_cases he : d = d'
      · simp [he]
      · simp [he, Ne.symm he]
  recorded h := ExtTreeMap.mem_insert.2 (.inr h)

theorem leads_request (l : Library κ) (resource : String) :
    Leads counts l (l.request resource) := by
  unfold request
  split
  · exact .refl l
  · rename_i hnone
    exact leads_enqueue (by simp [hnone])

theorem leads_refresh (l : Library κ) (resource : String) :
    Leads counts l (l.refresh resource) := by
  unfold refresh
  split
  · exact .refl l
  · rename_i hnot
    exact leads_enqueue hnot

/-- What was asked for is recorded. -/
theorem mem_records_request (l : Library κ) (resource : String) :
    documentPart resource ∈ (l.request resource).records := by
  unfold request
  split
  · rename_i r hr
    exact ExtTreeMap.mem_iff_isSome_getElem?.2 (by rw [hr]; rfl)
  · exact ExtTreeMap.mem_insert.2 (.inl (by simp))

/-- Those who watch once somebody has been added. -/
theorem watches_insert (l : Library κ) (d d' : String) (w v : κ) :
    ({ l with watchers := l.watchers.insert d (l.watchers[d]?.getD [] ++ [w]) } :
        Library κ).Watches d' v ↔ l.Watches d' v ∨ d' = d ∧ v = w := by
  unfold Watches
  simp only
  rw [ExtTreeMap.getElem?_insert]
  by_cases he : d = d'
  · subst he
    cases h : l.watchers[d]? <;> simp
  · simp [he, Ne.symm he]

/-- **Somebody who counts may watch** for a document that was requested. -/
theorem leads_watch (h : counts w → documentPart resource ∈ l.records) :
    Leads counts l (l.watch resource w).1 := by
  unfold watch
  cases ho : l.outcome? resource with
  | some o => exact .refl l
  | none =>
    refine ⟨fun hl => ⟨hl.nodup, hl.queued, fun {d v} hv => ?_, fun {d v} hv hc => ?_⟩, id⟩
    · rcases (watches_insert l _ d w v).1 hv with hv | ⟨rfl, -⟩
      · exact hl.named hv
      · exact documentPart_idem resource
    · rcases (watches_insert l _ d w v).1 hv with hv | ⟨rfl, rfl⟩
      · exact hl.watched hv hc
      · -- the document was requested, and is not resolved
        obtain ⟨r, hr⟩ := Option.isSome_iff_exists.1 (ExtTreeMap.mem_iff_isSome_getElem?.1 (h hc))
        unfold outcome? at ho
        rw [hr] at ho
        cases r with
        | requested => exact hl.queued.1 hr
        | resolved o => cases ho

/-- Whoever watches is kept, or is told at once. -/
theorem mem_allWatchers_watch (l : Library κ) (resource : String) (w : κ) :
    (l.watch resource w).2.isSome ∨ w ∈ (l.watch resource w).1.allWatchers := by
  unfold watch
  cases l.outcome? resource with
  | some o => exact .inl rfl
  | none =>
    have hw := (watches_insert l (documentPart resource) (documentPart resource) w w).2
      (.inr ⟨rfl, rfl⟩)
    exact .inr (mem_allWatchers.2 ⟨_, hw⟩)

/-- And those who watched before still do. -/
theorem mem_allWatchers_watch_of_mem (h : v ∈ l.allWatchers) :
    v ∈ (l.watch resource w).1.allWatchers := by
  unfold watch
  cases l.outcome? resource with
  | some o => exact h
  | none =>
    obtain ⟨d, hd⟩ := mem_allWatchers.1 h
    exact mem_allWatchers.2 ⟨d, (watches_insert l _ d w v).2 (.inl hd)⟩

theorem allWatchers_request (l : Library κ) (resource : String) :
    (l.request resource).allWatchers = l.allWatchers := by
  unfold request
  split <;> rfl

theorem allWatchers_refresh (l : Library κ) (resource : String) :
    (l.refresh resource).allWatchers = l.allWatchers := by
  unfold refresh
  split <;> rfl

/-! ## Deliveries -/

variable {dv : Delivery κ}

/-- What is loaded is the document that is asked for. -/
theorem resource_fetch (l : Library κ) (g : Graph) (d : String) :
    (l.fetch g d).2.resource = d := by
  unfold fetch
  split <;> rfl

/-- What a delivery does to the library. -/
theorem deliver_eq_some (h : l.deliver g = some dv) : ∃ d, l.queue = d :: dv.library.queue ∧
    dv.library.records = l.records.insert d (.resolved dv.outcome) ∧
    dv.library.watchers = l.watchers.erase d ∧ dv.watchers = l.watchers[d]?.getD [] ∧
    dv.library.log = l.log ∧ dv.library.shelf = l.shelf ∧
    l.fetch g d = (dv.graph, dv.outcome) := by
  unfold deliver at h
  cases hq : l.queue with
  | nil => rw [hq] at h; cases h
  | cons d queue =>
    rw [hq] at h
    obtain rfl := Option.some.inj h
    exact ⟨d, rfl, rfl, rfl, rfl, rfl, rfl, rfl⟩

theorem leads_deliver (h : l.deliver g = some dv) : Leads counts l dv.library := by
  obtain ⟨d, hqueue, hrecords, hwatchers, -⟩ := deliver_eq_some h
  have herased : ∀ {d' v}, dv.library.Watches d' v → d ≠ d' ∧ l.Watches d' v := by
    rintro d' v ⟨ws, hws, hv⟩
    rw [hwatchers, ExtTreeMap.getElem?_erase] at hws
    split at hws
    · cases hws
    · rename_i hne
      exact ⟨fun he => hne (Std.LawfulEqCmp.compare_eq_iff_eq.2 he), ws, hws, hv⟩
  refine ⟨fun hl => ?_, fun hd => hrecords ▸ ExtTreeMap.mem_insert.2 (.inr hd)⟩
  have hnodup := hl.nodup
  rw [hqueue, List.nodup_cons] at hnodup
  refine ⟨hnodup.2, fun {d'} => ?_, fun hv => hl.named (herased hv).2, fun {d' v} hv hc => ?_⟩
  · rw [hrecords, ExtTreeMap.getElem?_insert]
    have hold := hl.queued (d := d')
    rw [hqueue, List.mem_cons] at hold
    by_cases he : d = d'
    · subst he
      simp [hnodup.1]
    · simp [he, hold, Ne.symm he]
  · have hmem := hl.watched (herased hv).2 hc
    rw [hqueue, List.mem_cons] at hmem
    exact hmem.resolve_left fun he => (herased hv).1 he.symm

/-- **A delivery loses nobody who watched.** -/
theorem watches_or_mem_of_deliver (h : l.deliver g = some dv) (hv : v ∈ l.allWatchers) :
    v ∈ dv.library.allWatchers ∨ v ∈ dv.watchers := by
  obtain ⟨d, -, -, hwatchers, hcalled, -⟩ := deliver_eq_some h
  obtain ⟨d', ws, hws, hv⟩ := mem_allWatchers.1 hv
  by_cases he : d = d'
  · subst he
    rw [hcalled, hws]
    exact .inr hv
  · refine .inl (mem_allWatchers.2 ⟨d', ws, ?_, hv⟩)
    rw [hwatchers, ExtTreeMap.getElem?_erase]
    simpa [he] using hws

end Library

end TripleQuery
