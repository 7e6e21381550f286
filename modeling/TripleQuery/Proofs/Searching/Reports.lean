import TripleQuery.Proofs.Searching.Chronicle
/-!
# Reports — callers hear of what is reported to root branches

What a chronicle says was reported to the root branch of a search is what the
search has taken: what its caller was told, is about to be told, and what is
queued for him, in this order (`Chronicle.Recorded.reportedTo_root`).
-/

namespace TripleQuery

open Std (ExtTreeMap)

variable {t t' : Searches} {os rest : List Order} {job : Job} {env : Surroundings}
  {mark : Option Id} {i b k : Nat} {x x' z z' : Search} {y : Branch} {m : Bindings}
  {ms : List Bindings}

/-! ## Jobs -/

/-- What a job, after which the search is in the state `x'`, takes for the caller
of the search `i`: nothing, or the match that it reports to the root branch. -/
def Searches.TakesRoot (t : Searches) (job : Job) (mark : Option Id) (i : Nat) (x x' : Search) :
    Prop :=
  (x'.matchCount = x.matchCount ∧ reportedIn (t.entries job mark) (i + 1) = []) ∨
    ∃ b m ms, job = .report b (m :: ms) ∧ x'.matchCount = x.matchCount + 1 ∧
      reportedIn (t.entries job mark) (i + 1) = [m]

/-- A match that is reported to a root branch is for the caller of its search. -/
theorem takesRoot_report (hl : Layout t) (hy : t.branches[b]? = some y)
    (hz : t.searches[y.search]? = some z) (hgoes : z.stopped = false) (hroot : y.role = .root)
    (hx : t.searches[i]? = some x) (hx' : (t.searches.insert y.search z')[i]? = some x')
    (hcount : z'.matchCount = z.matchCount + 1) :
    t.TakesRoot (.report b (m :: ms)) mark i x x' := by
  have hseat := Searches.seat?_of_role hy hroot
  obtain rfl := hl.root hseat
  unfold Searches.TakesRoot
  rw [Searches.entries_report hy hz hgoes]
  by_cases hi : y.search = i
  · subst hi
    rw [ExtTreeMap.getElem?_insert_self] at hx'
    obtain rfl := Option.some.inj hx'
    obtain rfl := Option.some.inj (hz.symm.trans hx)
    exact .inr ⟨_, m, ms, rfl, hcount, by simp [reportedIn]⟩
  · rw [ExtTreeMap.getElem?_insert, if_neg (by simpa using hi), hx] at hx'
    obtain rfl := Option.some.inj hx'
    exact .inl ⟨rfl, by simp [reportedIn, hi]⟩

/-- What is written for a search without a match being taken leaves the number
of its matches. -/
theorem matchCount_insert (hx : t.searches[i]? = some x) (hz : t.searches[k]? = some z)
    (hx' : (t.searches.insert k z')[i]? = some x') (hcount : z'.matchCount = z.matchCount) :
    x'.matchCount = x.matchCount := by
  rcases of_getElem?_insert hx' with ⟨rfl, rfl⟩ | hold
  · rw [hcount, Option.some.inj (hz.symm.trans hx)]
  · rw [Option.some.inj (hold.symm.trans hx)]

/-- **A job takes a match for the caller of a search when it reports it to the
root branch**, and then only. -/
theorem Transition.takesRoot (hs : Sound t (.job job :: rest)) (h : Transition env t job t' os)
    (hx : t.searches[i]? = some x) (hx' : t'.searches[i]? = some x')
    (hp : Paced t (.job job :: rest) i x) : t.TakesRoot job mark i x x' := by
  have hsame : t'.searches = t.searches → x'.matchCount = x.matchCount := fun he => by
    rw [he] at hx'
    rw [Option.some.inj (hx'.symm.trans hx)]
  cases h with
  | failed hz _ _ _ _ | parkedAsked hz | drained hz _ | delivered hz _ | finished _ _ _ hz =>
    exact .inl ⟨matchCount_insert hx hz hx' rfl, rfl⟩
  | queued hy hz hgoes hroot _ | announced hy hz hgoes hroot _ =>
    exact takesRoot_report hs.layout hy hz hgoes hroot hx hx' (by simp)
  | refused hy hz hstop =>
    exact .inl ⟨hsame rfl, by rw [Searches.entries_refused hy hz hstop]; rfl⟩
  | @kept c m ms y z j slot hy hz hgoes hr =>
    -- the branch of a clause is no root branch
    have hc : c ≠ i + 1 := by
      rintro rfl
      have hroot := (hp.eq_root (Searches.seat?_of_role hy hr)).2
      cases hroot
    refine .inl ⟨hsame rfl, ?_⟩
    rw [Searches.entries_report hy hz hgoes]
    simp [reportedIn, hc]
  | _ => exact .inl ⟨hsame rfl, rfl⟩

namespace Chronicle

variable {c c' : Chronicle} {g : Graph}

/-! ## Chronicles -/

/-- What happens aside from the orders takes no match. -/
theorem matchCount_aside {g g' : Graph} {told told' : List Notice} (hi : i ≠ t.next)
    (h : Scene.Step ⟨g, t, [], told⟩ ⟨g', t', os, told'⟩) (hx : t.searches[i]? = some x)
    (hx' : t'.searches[i]? = some x') : x'.matchCount = x.matchCount := by
  have hsame : t'.searches[i]? = t.searches[i]? → x'.matchCount = x.matchCount := fun he => by
    rw [Option.some.inj (hx'.symm.trans (he.trans hx))]
  have hchange : ∀ {k : Nat} {change : Search → Search}, t' = t.update k change →
      (∀ z, (change z).matchCount = z.matchCount) → x'.matchCount = x.matchCount := by
    rintro k change rfl hcount
    cases hz : t.searches[k]? with
    | none => exact hsame (by simp only [Searches.update, hz])
    | some z =>
      rw [Searches.update_of_getElem? hz] at hx'
      exact matchCount_insert hx hz hx' (hcount z)
  cases h with
  | add _ | equate _ => exact hsame rfl
  | launch config linked _ =>
    refine hsame ?_
    change (t.searches.insert t.next _)[i]? = _
    rw [ExtTreeMap.getElem?_insert, if_neg (by simpa using Ne.symm hi)]
  | stop k => exact hchange rfl fun _ => rfl
  | cancel k => exact hchange rfl fun _ => rfl
  | resume _ | discard _ => exact hsame (by simp)

/-- A search that was there takes what is reported to its root branch. -/
theorem Records.reportedTo_root (h : Records c c') (ht : c.IsTrue)
    (hl : AllInLine c.table c.scene.orders) (hx : c.table.searches[i]? = some x)
    (hx' : c'.table.searches[i]? = some x') (hsame : c.reportedTo (i + 1) = c.scene.taken i) :
    c'.reportedTo (i + 1) = c'.scene.taken i := by
  have hs : c.scene.IsSound := ht.inOrder.sound
  have hne : i ≠ c.table.next :=
    Nat.ne_of_lt (Nat.lt_of_succ_lt (hs.layout.search_lt (mem_of_getElem? hx)))
  have htaken := h.step.taken hs hl hx hx'
  -- nothing is taken while nothing is counted
  have hquiet : c'.log = c.log → x'.matchCount = x.matchCount →
      c'.reportedTo (i + 1) = c'.scene.taken i := by
    intro hlog hcount
    rcases htaken with ⟨htaken, -⟩ | ⟨-, -, -, -, -, -, hm⟩
    · rw [htaken, reportedTo, hlog]
      exact hsame
    · omega
  cases h with
  | @work g t job mark rest told log state? =>
    have hturn : t.TakesRoot job mark i x x' :=
      (Sound.transition hs ⟨g, state?⟩).takesRoot hs hx hx' (ht.inOrder.faithful.paced hx)
    change reportedIn (log ++ t.entries job mark) (i + 1) = _
    rw [reportedIn_append]
    rcases hturn with ⟨hcount, hnone⟩ | ⟨b, m, ms, rfl, hcount, hone⟩
    · rcases htaken with ⟨htaken, -⟩ | ⟨-, -, -, -, -, -, hm⟩
      · rw [hnone, List.append_nil, htaken]
        exact hsame
      · omega
    · rcases htaken with ⟨-, hm⟩ | ⟨b', m', ms', rest', horders, htaken, -⟩
      · omega
      · cases horders
        rw [hone, htaken, ← hsame]
        rfl
  | handOver _ => exact hquiet rfl (by rw [Option.some.inj (hx'.symm.trans hx)])
  | aside hstep => exact hquiet rfl (matchCount_aside hne hstep hx hx')

/-- A search that is started has taken nothing, and nothing was reported to its
root branch. -/
theorem Records.reportedTo_new (h : Records c c') (ht : c.IsTrue) (hi : i ∉ c.table.searches)
    (hi' : i ∈ c'.table.searches) : c'.reportedTo (i + 1) = c'.scene.taken i := by
  have hs : c.scene.IsSound := ht.inOrder.sound
  cases h with
  | work state? => exact absurd (((Sound.transition hs _).mem_searches i).1 hi') hi
  | handOver _ => exact absurd hi' hi
  | @aside g g' t t' os told told' orders log hstep =>
    cases hstep with
    | add _ | equate _ => exact absurd hi' hi
    | @launch _ _ _ _ config linked p hp =>
      obtain rfl : i = t.next := by
        by_contra hne
        refine hi ?_
        have hmem : i ∈ t.searches.insert t.next _ := hi'
        rcases ExtTreeMap.mem_insert.1 hmem with he | hmem
        · exact absurd (by simpa using he) (Ne.symm hne)
        · exact hmem
      have hnone : reportedIn log (t.next + 1) = [] :=
        reportedIn_eq_nil fun e he => Nat.ne_of_lt (Nat.lt_succ_of_lt (ht.known he))
      have htaken := Scene.taken_launch hs ht.inOrder.faithful config linked p
      simp only [scene, List.map_cons, List.map_nil, List.cons_append, List.nil_append]
      exact hnone.trans htaken.symm
    | stop k | cancel k => exact absurd (Searches.mem_of_mem_update hi') hi
    | resume _ | discard _ => exact absurd (by simpa [scene] using hi') hi

/-- **The caller of a search hears of what is reported to its root branch**, in
its order, and of nothing else. -/
theorem Recorded.reportedTo_root (h : Recorded (start g) c)
    (hx : c.table.searches[i]? = some x) : c.reportedTo (i + 1) = c.scene.taken i := by
  induction h generalizing x with
  | refl => simp [start] at hx
  | @tail c c' hrun hstep ih =>
    have ht : c.IsTrue := Recorded.isTrue hrun
    by_cases hi : i ∈ c.table.searches
    · obtain ⟨z, hz⟩ := exists_getElem? hi
      exact hstep.reportedTo_root ht (Recorded.steps hrun).inLine.1 hz hx (ih hz)
    · exact hstep.reportedTo_new ht hi (mem_of_getElem? hx)

end Chronicle

end TripleQuery
