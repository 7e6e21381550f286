import TripleQuery.Proofs.Searching.Ending
import TripleQuery.Proofs.Sessions.Moment
/-!
# The end of a search in a session

Whatever a session is told to do and whatever its callbacks do, the caller of
an accepted search is told its start, its matches and then, once nothing of the
search is left, its end, and no more (`Moment.Leads.done_once_and_last`).
-/

namespace TripleQuery

namespace Moment

variable {m : Moment} {g : Graph} {source : Option Source} {config : SearchConfig} {i : Id}
  {p : Pattern}

/-- **The end is told once, and last.** What was told of an accepted search is
its start, the matches, and then the end if it was told; it was told exactly
when no order, no parked path and no junction of the search is left; and a
summary counts the matches that were told. -/
theorem Leads.done_once_and_last (h : Leads (start g source config) m)
    (hi : .started i p ∈ m.told) :
    ∃ (found : List Bindings) (ending : Option (Except QueryError SearchSummary)),
      newsOf i m.told = .started i p :: (found.map (.found i) ++ ending.toList.map (.done i)) ∧
      (ending.isSome ↔ ¬ m.session.searches.IsBusy (ordersOf m.stack) i) ∧
      ∀ sum, ending = some (.ok sum) → sum.matchCount = found.length := by
  have hm := h.isSound
  have hnews : .started i p ∈ newsOf i m.told :=
    List.mem_filter.2 ⟨hi, by simp [Notice.search]⟩
  -- somebody was told of the search, so it was started
  have hmem : i ∈ m.session.searches.searches := by
    by_contra hne
    have hnone := (hm.faithful.unheard hne).1
    rw [show newsOf i m.told = [] from hnone] at hnews
    cases hnews
  obtain ⟨x, hx⟩ := exists_getElem? hmem
  obtain ⟨p', found, ending, hst⟩ := hm.faithful.story hx
  have hp : p' = p := by
    have hstory := hst.news
    rw [show newsOf i m.told = _ from hstory] at hnews
    rcases List.mem_cons.1 hnews with he | hrest
    · cases he
      rfl
    · simp at hrest
  subst hp
  refine ⟨found, ending, hst.news, Scene.story_ended_iff hm.sound hm.faithful hx hst, ?_⟩
  rintro sum rfl
  exact hst.summary _ (List.mem_append.2 (.inl (List.mem_singleton_self _))) sum rfl

/-! ## A run to the end -/

/-- The moment after some more tasks. -/
def carryOut : Nat → Moment → Moment
  | n + 1, ⟨s, task :: stack, told⟩ =>
    carryOut n ⟨(s.exec task).1, (s.exec task).2 ++ stack, told ++ s.news task⟩
  | _, m => m

theorem leads_carryOut (n : Nat) (m : Moment) : Leads m (carryOut n m) := by
  induction n generalizing m with
  | zero => exact .refl
  | succ n ih =>
    obtain ⟨s, stack, told⟩ := m
    cases stack with
    | nil => exact .refl
    | cons task stack => exact .head .task (ih _)

/-- The moment after some commands, each with so many tasks to be carried out
for it. -/
def carryOutAll (n : Nat) : List Command → Moment → Moment
  | c :: cs, ⟨s, [], told⟩ =>
    carryOutAll n cs (carryOut n ⟨{ s with events := #[] }, [.command c], told⟩)
  | _, m => m

theorem leads_carryOutAll (n : Nat) (cs : List Command) (m : Moment) :
    Leads m (carryOutAll n cs m) := by
  induction cs generalizing m with
  | nil => exact .refl
  | cons c cs ih =>
    obtain ⟨s, stack, told⟩ := m
    cases stack with
    | nil => exact .head (.command c) ((leads_carryOut n _).trans (ih _))
    | cons task stack => exact .refl

/-- A search for nothing in an empty store, when it is done. -/
def trivialSearch : Moment :=
  carryOutAll 20 [.searchAll {}] (start .empty none {})

theorem leads_trivialSearch : Leads (start .empty none {}) trivialSearch :=
  leads_carryOutAll 20 _ _

theorem told_trivialSearch : trivialSearch.told =
    [.started 0 {}, .found 0 ∅, .done 0 (.ok ⟨1, 0, false, false⟩)] := by
  rfl

/-- It had one match, and its end was told. -/
theorem trivialSearch_done : .started 0 {} ∈ trivialSearch.told ∧
    ∃ (found : List Bindings) (ending : Option (Except QueryError SearchSummary)),
      newsOf 0 trivialSearch.told =
        .started 0 {} :: (found.map (.found 0) ++ ending.toList.map (.done 0)) ∧
      (ending.isSome ↔
        ¬ trivialSearch.session.searches.IsBusy (ordersOf trivialSearch.stack) 0) ∧
      ∀ sum, ending = some (.ok sum) → sum.matchCount = found.length := by
  have hstarted : .started 0 {} ∈ trivialSearch.told := by
    rw [told_trivialSearch]
    exact List.mem_cons_self
  exact ⟨hstarted, leads_trivialSearch.done_once_and_last hstarted⟩

end Moment

end TripleQuery
