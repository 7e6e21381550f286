import TripleQuery.Proofs.Searching.Dwindling
import TripleQuery.Proofs.Searching.Resuming
import TripleQuery.Proofs.Sessions.Merged
/-!
# Resumed — the same matches in whatever order paths are resumed

What a caller collects who reaches no source of documents, a caller is told who
does, if nothing is added to the store: whatever the source says of the state of
documents, and whenever and in whatever order it calls those who wait
(`Scene.Steps.done_with_results`). No source can keep the search going for ever.
-/

namespace TripleQuery

open Relation (ReflTransGen)

namespace Scene

variable {g : Graph} {w w' : Scene} {p : Pattern} {config settings : SearchConfig}
  {linked : Bool} {s' : Session} {fuel : Nat} {R : List Bindings}

/-- The scene in which a search for a pattern has just been started. -/
def started (w : Scene) (config : SearchConfig) (linked : Bool) (p : Pattern) : Scene :=
  ⟨w.graph, (w.table.launch config linked p).1,
    .job (w.table.launch config linked p).2.2 :: w.orders,
    w.told ++ [.started w.table.next p]⟩

/-- **The order of resumption does not change the answer.** Let collecting the
matches of a pattern in a store, without a source of documents and without a
limit, give a list of results. Start a search for the pattern over that store,
again without a limit, and let anything happen that spares it. From there on,
carrying out orders and resuming parked paths comes to an end, in whatever way it
is done. And once all parked paths of the search were resumed, and none of its
work is left, the search is done without an error, and its caller was told just
these results, each as often. -/
theorem Steps.done_with_results (h : Steps ⟨g, {}, [], []⟩ w)
    (hrun : Session.run fuel [.command (.searchAll p)] (.start w.graph none settings) = some s')
    (hr : s'.reply = .results R) (hsettings : settings.maxMatches = none)
    (hconfig : config.maxMatches = none)
    (hspared : ReflTransGen (Spares w.table.next) (w.started config linked p) w') :
    Acc (flip Proceeds) w' ∧
      ((∀ (n : Nat) (f : Frame), w'.table.parked[n]? = some f → f.search ≠ w.table.next) →
        (∀ o ∈ w'.orders, w'.table.worksFor? o ≠ some w.table.next) →
        ∃ sum, .done w.table.next (.ok sum) ∈ w'.told ∧
          (matchesOf w.table.next w'.told).Perm R) := by
  have hleads : Moment.Leads (Moment.start w.graph none settings)
      ⟨.start w.graph none settings, [.command (.searchAll p)], []⟩ := .single (.command _)
  obtain ⟨hvalid, hanswers⟩ := hleads.answers_of_results rfl hsettings hrun hr
  have hw := h.inOrder
  have hstarted : (w.started config linked p).InOrder := hw.step (.launch config linked hvalid)
  -- at its start the search amounts to what was collected
  have hcourse : OnCourse (w.started config linked p) w.table.next (.of R)
      { config := config, linked := linked } :=
    hanswers ▸ onCourse_launch hw.sound hw.faithful hconfig
  obtain ⟨hw', x, hcourse'⟩ := onCourse_of_spared hspared WithTop.coe_ne_top hstarted hcourse
  exact ⟨hw'.acc, fun hresumed hidle => hcourse'.done hw' hidle hresumed⟩

/-! ## Two documents, the second one first -/

/-- The scene after so many orders, where nobody has asked for any document. -/
def carryOn : Nat → Scene → Scene
  | n + 1, ⟨g, t, .job job :: os, told⟩ =>
    let done := t.run ⟨g, some fun _ => .unrequested⟩ job
    carryOn n ⟨g, done.1, done.2 ++ os, told⟩
  | n + 1, ⟨g, t, o :: os, told⟩ => carryOn n ⟨g, t, os, told ++ o.notices⟩
  | _, w => w

/-- The scene after some parked paths were resumed, with so many orders after
each of them. -/
def resumeAll (n : Nat) : List Id → Scene → Scene
  | [], w => w
  | ticket :: tickets, ⟨g, t, os, told⟩ =>
    resumeAll n tickets
      (carryOn n ⟨g, (t.resume ticket).1, (t.resume ticket).2 ++ os, told⟩)

theorem proceeds_carryOn (n : Nat) (w : Scene) : ReflTransGen Proceeds w (carryOn n w) := by
  induction n generalizing w with
  | zero => exact .refl
  | succ n ih =>
    obtain ⟨g, t, os, told⟩ := w
    cases os with
    | nil => exact .refl
    | cons o os =>
      cases o with
      | job job => exact .head (.work _) (ih _)
      | _ => exact .head (.handOver (by simp)) (ih _)

theorem proceeds_resumeAll (n : Nat) (tickets : List Id) (w : Scene) :
    ReflTransGen Proceeds w (resumeAll n tickets w) := by
  induction tickets generalizing w with
  | nil => exact .refl
  | cons ticket tickets ih =>
    obtain ⟨g, t, os, told⟩ := w
    refine .trans ?_ ((proceeds_carryOn n _).trans (ih _))
    by_cases hmem : ticket ∈ t.parked
    · exact .single (.resume hmem)
    · -- nothing happens for a ticket that nobody holds
      have hnone : t.resume ticket = (t, []) := by
        unfold Searches.resume
        rw [Std.ExtTreeMap.getElem?_eq_none hmem]
      rw [hnone]
      exact .refl

/-- A store that knows acquaintances, and a search for them and their addresses
that has just been started. -/
def addressSearch : Scene :=
  started ⟨.ofList Moment.acquaintances, {}, [], []⟩ {} true Moment.addresses

/-- The search once both optional clauses wait for a document. -/
def waitingForAddresses : Scene :=
  carryOn 20 addressSearch

/-- The search once the second one was resumed, and then the first one. -/
def addressesResumed : Scene :=
  resumeAll 20 [7, 4] waitingForAddresses

theorem addressesResumed_rests : waitingForAddresses.table.parked.keys = [4, 7] ∧
    addressesResumed.table.parked.isEmpty ∧ addressesResumed.orders.isEmpty := by
  decide +kernel

/-- The caller is told of both acquaintances, one of them with an address. -/
theorem addressesResumed_perm :
    (∃ s', Session.run 100 [.command (.searchAll Moment.addresses)]
        (.start (.ofList Moment.acquaintances) none {}) = some s' ∧
      s'.reply = .results Moment.addressesFound) ∧
    ReflTransGen (Spares 0) addressSearch addressesResumed ∧
    Acc (flip Proceeds) addressesResumed ∧
    (∀ (n : Nat) (f : Frame), addressesResumed.table.parked[n]? = some f → f.search ≠ 0) ∧
    (∀ o ∈ addressesResumed.orders, addressesResumed.table.worksFor? o ≠ some 0) ∧
    ∃ sum, .done 0 (.ok sum) ∈ addressesResumed.told ∧
      (matchesOf 0 addressesResumed.told).Perm Moment.addressesFound := by
  obtain ⟨s', hrun, hr⟩ := Option.map_eq_some_iff.1 Moment.reply_addresses
  obtain ⟨-, hparked, horders⟩ := addressesResumed_rests
  have hproceeds : ReflTransGen Proceeds addressSearch addressesResumed :=
    (proceeds_carryOn 20 _).trans (proceeds_resumeAll 20 [7, 4] _)
  have hspared : ReflTransGen (Spares 0) addressSearch addressesResumed :=
    hproceeds.lift id fun _ _ => Spares.proceed
  have hresumed : ∀ (n : Nat) (f : Frame),
      addressesResumed.table.parked[n]? = some f → f.search ≠ 0 := fun n f hf => by
    rw [Std.ExtTreeMap.isEmpty_iff.1 hparked] at hf
    simp at hf
  have hidle : ∀ o ∈ addressesResumed.orders, addressesResumed.table.worksFor? o ≠ some 0 := by
    rw [List.isEmpty_iff.1 horders]
    simp
  have hempty : Steps ⟨.ofList Moment.acquaintances, {}, [], []⟩
      ⟨.ofList Moment.acquaintances, {}, [], []⟩ := .refl
  obtain ⟨hends, hdone⟩ := hempty.done_with_results hrun hr rfl rfl hspared
  exact ⟨⟨s', hrun, hr⟩, hspared, hends, hresumed, hidle, hdone hresumed hidle⟩

end Scene

end TripleQuery
