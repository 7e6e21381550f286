import TripleQuery.Proofs.Searching.Accounts
import TripleQuery.Proofs.Sessions.Cancelled
import TripleQuery.Proofs.Sessions.Limited
/-!
# Capped searches — the limit holds, except for a limit of none

Whatever a session is told to do, and however its callbacks go on with the
search that called them, a search with a limit takes no more matches than the
limit says, counting those that its caller is still to be told; and it goes on
only as long as there are fewer (`Moment.Leads.matches_le_limit`). The limit is
looked at when a match was taken already. So a search that is to find nothing at
all finds one match, if there is any (`Moment.not_forall_matches_le_limit`).
-/

namespace TripleQuery

namespace Moment

variable {m m' : Moment} {g : Graph} {source : Option Source} {settings : SearchConfig} {i : Id}
  {x : Search} {n : Nat}

/-- The record of a search fits together at every moment. -/
theorem Leads.consistent (h : Leads (start g source settings) m)
    (hx : m.session.searches.searches[i]? = some x) : x.IsConsistent :=
  Scene.Steps.consistent (h.steps (isSound_start g source settings)).1 hx

/-- A search counts the matches that its caller was told, and those that are
waiting for him. -/
theorem IsSound.matchCount_eq (h : m.IsSound) (hx : m.session.searches.searches[i]? = some x) :
    x.matchCount = (matchesOf i m.told).length + (m.unheard i).length := by
  have hcount := h.faithful.matchCount_eq hx
  rwa [Scene.taken, List.length_append] at hcount

/-- **The limit holds for the whole life of a search.** Let a search have a
limit on matches. Whatever happens from then on, what its caller was told and
what is waiting for him is what was counted, at most as many matches as the
limit says, or one; and there are fewer as long as the search goes on. So the
caller is told of no more matches than the limit says, unless it says none: then
he is so exactly when no match is found. -/
theorem Leads.matches_le_limit (h : Leads (start g source settings) m)
    (hx : m.session.searches.searches[i]? = some x) (hn : x.config.maxMatches = some n)
    (h' : Leads m m') :
    ∃ x', m'.session.searches.searches[i]? = some x' ∧ x'.config = x.config ∧
      x'.matchCount = (matchesOf i m'.told).length + (m'.unheard i).length ∧
      x'.matchCount ≤ max n 1 ∧ (x'.stopped = false → x'.matchCount < max n 1) ∧
      (matchesOf i m'.told).length ≤ max n 1 ∧
      ((matchesOf i m'.told).length ≤ n ↔ n ≠ 0 ∨ matchesOf i m'.told = []) := by
  have hm := h.isSound
  obtain ⟨hsteps, hm'⟩ := h'.steps hm
  obtain ⟨x', hx', hconfig⟩ := hsteps.config_eq hm.sound hx
  have hlimit : x'.config.maxMatches = some n := by rw [hconfig, hn]
  have hrecord : x'.IsConsistent := Leads.consistent (h.trans h') hx'
  have hcount := hm'.matchCount_eq hx'
  have hle : (matchesOf i m'.told).length ≤ max n 1 := by
    have hall := hrecord.count_le hlimit
    omega
  refine ⟨x', hx', hconfig, hcount, hrecord.count_le hlimit, hrecord.count_lt hlimit, hle, ?_⟩
  rw [← List.length_eq_zero_iff]
  omega

/-! ## A search that is to find nothing -/

theorem leads_searched (config : SearchConfig) :
    Leads (start (.ofList acquaintances) none config) (searched config) :=
  .head (.command _) ((leads_carryOut 1 _).trans (leads_carryOut 40 _))

theorem told_searched_none : (searched (atMost 0)).told = [.started 0 addresses] ++
    (addressesFound.take 1).map (.found 0) ++ [.done 0 (.ok ⟨1, 0, true, false⟩)] := by
  cbv

theorem limit_searched_none :
    (searched (atMost 0)).session.searches.searches[0]?.map (·.config.maxMatches) =
      some (some 0) := by
  cbv

/-- Its caller is told of one acquaintance, and of no other. -/
theorem searched_none_le : ∃ x,
    (searched (atMost 0)).session.searches.searches[0]? = some x ∧
      x.config.maxMatches = some 0 ∧ matchesOf 0 (searched (atMost 0)).told ≠ [] ∧
      ¬ (matchesOf 0 (searched (atMost 0)).told).length ≤ 0 ∧
      ∀ m', Leads (searched (atMost 0)) m' → (matchesOf 0 m'.told).length ≤ 1 := by
  obtain ⟨x, hx, hn⟩ := Option.map_eq_some_iff.1 limit_searched_none
  have hone : matchesOf 0 (searched (atMost 0)).told ≠ [] := by
    rw [told_searched_none]
    simp [matchesOf, Notice.match?, addressesFound]
  obtain ⟨-, -, -, -, -, -, -, hiff⟩ := (leads_searched _).matches_le_limit hx hn .refl
  refine ⟨x, hx, hn, hone, fun hle => ?_, fun m' h' => ?_⟩
  · exact (hiff.1 hle).elim (fun hne => hne rfl) hone
  · obtain ⟨-, -, -, -, -, -, hle, -⟩ := (leads_searched _).matches_le_limit hx hn h'
    exact hle

/-- **A caller may be told of more matches than the limit says**: of one, where
it says none. -/
theorem not_forall_matches_le_limit :
    ¬ ∀ (g : Graph) (source : Option Source) (settings : SearchConfig) (m : Moment) (i : Id)
      (x : Search) (n : Nat), Leads (start g source settings) m →
        m.session.searches.searches[i]? = some x → x.config.maxMatches = some n →
          (matchesOf i m.told).length ≤ n := by
  intro hall
  obtain ⟨x, hx, hn⟩ := Option.map_eq_some_iff.1 limit_searched_none
  have hle := hall _ _ _ _ 0 x 0 (leads_searched (atMost 0)) hx hn
  rw [told_searched_none] at hle
  simp [matchesOf, Notice.match?, addressesFound] at hle

end Moment

end TripleQuery
