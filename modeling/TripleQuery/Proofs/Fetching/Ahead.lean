import Mathlib
import TripleQuery.Proofs.Fetching.Requests
import TripleQuery.Proofs.Matching.Mentioning
import TripleQuery.Proofs.Tally
/-!
# Ahead — what a library may still deliver

Let all that is on the queue of a library, and all that its documents mention, be
among some documents (`Library.Within`). Then it stays so whatever is asked for
among them, and what a delivery adds to the store mentions no other ones
(`Library.Within.deliver`). As long as nothing is refreshed, the documents ahead of
the library are the requests on its queue and those of the documents that nobody
has asked for (`Library.ahead`): asking for one makes them no more
(`Library.ahead_request_le`), and each delivery makes them fewer
(`Library.ahead_deliver_lt`). Those who watch are weighed along
(`Library.load`): a delivery hands over as much as it takes away
(`Library.load_deliver`).
-/

namespace TripleQuery

open Std (ExtTreeMap)

namespace Library

variable {κ : Type} {P : κ → Prop} {D : Finset String} {l : Library κ} {g : Graph} {d : String}
  {c : κ} {dv : Delivery κ}

/-- What those who watch weigh together. -/
def load (weight : κ → ℕ) (l : Library κ) : ℕ :=
  tally l.watchers fun _ ws => (ws.map weight).sum

/-- How many documents may still be delivered: those that nobody has asked for,
and the requests on the queue. -/
def ahead (D : Finset String) (l : Library κ) : ℕ :=
  (D.filter (· ∉ l.records)).card + l.queue.length

/-- What a library has to deliver and what that mentions is among some documents,
and those who watch have a property. -/
structure Within (D : Finset String) (P : κ → Prop) (l : Library κ) : Prop where
  queued {d : String} : d ∈ l.queue → d ∈ D
  mentioned {document : String} {ss : List Statement} : l.shelf[document]? = some (.ok ss) →
    ∀ s ∈ ss, ∀ d ∈ s.documents, d ∈ D
  watched {c : κ} : c ∈ l.allWatchers → P c

/-! ## Those who watch -/

theorem sum_allWatchers (weight : κ → ℕ) (l : Library κ) :
    (l.allWatchers.map weight).sum = l.load weight := by
  rw [allWatchers, load, tally, List.map_flatMap, List.flatMap_def, List.sum_flatten, List.map_map]
  rfl

/-- Those who watch for one document weigh with the others. -/
theorem load_eq_erase (weight : κ → ℕ) (l : Library κ) (d : String) :
    l.load weight = ((l.watchers[d]?.getD []).map weight).sum +
      tally (l.watchers.erase d) fun _ ws => (ws.map weight).sum := by
  cases hw : l.watchers[d]? with
  | none => simp [load, erase_of_getElem?_eq_none hw]
  | some ws => exact tally_erase hw _

theorem load_request (weight : κ → ℕ) (l : Library κ) (d : String) :
    (l.request d).load weight = l.load weight := by
  unfold request
  split <;> rfl

/-- Whoever comes to watch adds his own weight at most. -/
theorem load_watch_le (weight : κ → ℕ) (l : Library κ) (d : String) (c : κ) :
    (l.watch d c).1.load weight ≤ weight c + l.load weight := by
  unfold watch
  cases l.outcome? d with
  | some o => exact Nat.le_add_left _ _
  | none =>
    rw [l.load_eq_erase weight (documentPart d)]
    simp only [load, tally_write, List.map_append, List.sum_append, List.map_cons, List.map_nil,
      List.sum_cons, List.sum_nil]
    omega

/-- **A delivery hands over those whom it takes away.** -/
theorem load_deliver (weight : κ → ℕ) (h : l.deliver g = some dv) :
    l.load weight = (dv.watchers.map weight).sum + dv.library.load weight := by
  obtain ⟨d, -, -, hwatchers, hcalled, -⟩ := deliver_eq_some h
  rw [l.load_eq_erase weight d, ← hcalled, ← hwatchers]
  rfl

/-! ## What is ahead -/

/-- **Asking for a document that counts adds nothing**: it is asked for, or was
before. -/
theorem ahead_request_le (hd : documentPart d ∈ D) : (l.request d).ahead D ≤ l.ahead D := by
  unfold request
  split
  · exact Nat.le_refl _
  · rename_i hnone
    have hnot : documentPart d ∉ l.records := fun hmem => by
      obtain ⟨r, hr⟩ := exists_getElem? hmem
      rw [hnone] at hr
      cases hr
    have hfewer : (D.filter (· ∉ l.records.insert (documentPart d) .requested)) ⊂
        D.filter (· ∉ l.records) := by
      refine (Finset.ssubset_iff_of_subset fun a ha => ?_).2 ⟨documentPart d, ?_, ?_⟩
      · obtain ⟨haD, ha⟩ := Finset.mem_filter.1 ha
        exact Finset.mem_filter.2 ⟨haD, fun hr => ha (ExtTreeMap.mem_insert.2 (.inr hr))⟩
      · exact Finset.mem_filter.2 ⟨hd, hnot⟩
      · exact fun ha => (Finset.mem_filter.1 ha).2 ExtTreeMap.mem_insert_self
    have hcard := Finset.card_lt_card hfewer
    change (D.filter (· ∉ l.records.insert (documentPart d) .requested)).card +
      (l.queue ++ [documentPart d]).length ≤ _
    rw [List.length_append, List.length_singleton, ahead]
    omega

theorem ahead_watch (l : Library κ) (d : String) (c : κ) :
    (l.watch d c).1.ahead D = l.ahead D := by
  unfold watch
  cases l.outcome? d <;> rfl

/-- **After a delivery there is less ahead.** -/
theorem ahead_deliver_lt (h : l.deliver g = some dv) : dv.library.ahead D < l.ahead D := by
  obtain ⟨d, hqueue, hrecords, -⟩ := deliver_eq_some h
  have hsub : D.filter (· ∉ dv.library.records) ⊆ D.filter (· ∉ l.records) := by
    intro a ha
    obtain ⟨haD, ha⟩ := Finset.mem_filter.1 ha
    exact Finset.mem_filter.2 ⟨haD, fun hr => ha (hrecords ▸ ExtTreeMap.mem_insert.2 (.inr hr))⟩
  have hcard := Finset.card_le_card hsub
  simp only [ahead, hqueue, List.length_cons]
  omega

/-! ## Staying within -/

theorem Within.request (h : l.Within D P) (hd : documentPart d ∈ D) : (l.request d).Within D P := by
  refine ⟨fun {a} ha => ?_, fun {a ss} ha => ?_, fun {c} hc => ?_⟩
  · unfold Library.request at ha
    split at ha
    · exact h.queued ha
    · rcases List.mem_append.1 ha with ha | ha
      · exact h.queued ha
      · exact List.mem_singleton.1 ha ▸ hd
  · unfold Library.request at ha
    split at ha <;> exact h.mentioned ha
  · exact h.watched (l.allWatchers_request d ▸ hc)

theorem Within.watch (h : l.Within D P) (hc : P c) : (l.watch d c).1.Within D P := by
  unfold Library.watch
  cases l.outcome? d with
  | some o => exact h
  | none =>
    refine ⟨h.queued, h.mentioned, fun {v} hv => ?_⟩
    obtain ⟨d', hd'⟩ := mem_allWatchers.1 hv
    rcases (watches_insert l _ d' c v).1 hd' with hold | ⟨-, rfl⟩
    · exact h.watched (mem_allWatchers.2 ⟨d', hold⟩)
    · exact hc

/-- **A delivery stays within**: its document, what that adds to the store, and
those who are to be called. -/
theorem Within.deliver (h : l.Within D P) (hdv : l.deliver g = some dv)
    (hg : ∀ d ∈ g.documents, d ∈ D) :
    dv.library.Within D P ∧ (∀ d ∈ dv.graph.documents, d ∈ D) ∧ dv.outcome.resource ∈ D ∧
      ∀ c ∈ dv.watchers, P c := by
  obtain ⟨d, hqueue, -, hwatchers, hcalled, -, hshelf, hfetch⟩ := deliver_eq_some hdv
  have hd : d ∈ D := h.queued (hqueue ▸ List.mem_cons_self)
  refine ⟨⟨fun {a} ha => ?_, fun {a ss} ha => ?_, fun {c} hc => ?_⟩, fun a ha => ?_, ?_,
    fun c hc => ?_⟩
  · exact h.queued (hqueue ▸ List.mem_cons_of_mem _ ha)
  · exact h.mentioned (hshelf ▸ ha)
  · obtain ⟨d', ws, hws, hc⟩ := mem_allWatchers.1 hc
    exact h.watched (mem_allWatchers.2 ⟨d', ws, of_getElem?_erase (hwatchers ▸ hws), hc⟩)
  · -- what is loaded stands on the shelf
    have hgraph : (l.fetch g d).1 = dv.graph := congrArg Prod.fst hfetch
    rw [← hgraph, fetch] at ha
    split at ha
    · rename_i ss hcontents
      rcases Graph.mem_documents_load ha with ha | ⟨s, hs, ha⟩
      · exact hg a ha
      · have hstands : l.shelf[d]? = some (.ok ss) := by
          unfold contents at hcontents
          cases hd : l.shelf[d]? with
          | none => rw [hd] at hcontents; cases hcontents
          | some found =>
            rw [hd] at hcontents
            exact congrArg some hcontents
        exact h.mentioned hstands s hs a ha
    · exact hg a ha
  · have hresource := l.resource_fetch g d
    rw [hfetch] at hresource
    exact hresource ▸ hd
  · rw [hcalled] at hc
    cases hw : l.watchers[d]? with
    | none => rw [hw] at hc; cases hc
    | some ws =>
      rw [hw] at hc
      exact h.watched (mem_allWatchers.2 ⟨d, ws, hw, hc⟩)

end Library

end TripleQuery
