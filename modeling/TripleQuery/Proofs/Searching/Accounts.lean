import TripleQuery.Proofs.Searching.Origin
import TripleQuery.Proofs.Searching.Outcome
import TripleQuery.Proofs.Searching.Stopped
/-!
# Accounts — what the record of a search says

A search keeps account of its matches, of whether the limit has stopped it, and
of the error that did (`Search.IsConsistent`). A match is taken before the limit
is looked at, so a search that is to take none takes one, and any other takes as
many as its limit at most. The limit has stopped it exactly at that number, and
the only error that is ever recorded is that a collection of the pattern met a
datum that is none (`Frame.isShapeMismatch_of_expand`). Whatever happens in a
scene, the record of every search is consistent, its settings stay what they
were (`Scene.Steps.consistent`, `Scene.Steps.config_eq`), and the end that its
caller is told is as the record has it (`Scene.Steps.endsAsRecorded`).
-/

namespace TripleQuery

open Std (ExtTreeMap)

/-- A collection of the pattern met a datum that is none. -/
def QueryError.isShapeMismatch : QueryError → Bool
  | .shapeMismatch _ _ => true
  | _ => false

variable {e : QueryError}

/-- The error that the end of a search tells of. -/
def errorOf : Except QueryError SearchSummary → Option QueryError
  | .error e => some e
  | .ok _ => none

theorem Search.errorOf_result (x : Search) : errorOf x.result = x.error := by
  unfold result
  split <;> simp_all [errorOf]

/-! ## Matching meets no other error -/

/-- **A path that goes on to its next triple** meets no error, unless a
collection of it meets a datum that is none. -/
theorem Frame.isShapeMismatch_of_expand {g : Graph} {f : Frame} (h : f.expand g = .error e) :
    e.isShapeMismatch := by
  unfold expand at h
  split at h
  · cases h
  split at h
  · cases h
  rename_i p _ _ triple _
  cases ha : alternatives g f.bindings triple p.estimate.candidates.toList with
  | ok bs => rw [ha] at h; cases h
  | error err =>
    rw [ha] at h
    obtain rfl : err = e := Except.error.inj h
    unfold alternatives at ha
    cases hr : p.estimate.candidates.toList.mapM (g.unifyStatement f.bindings triple) with
    | ok rs => rw [hr] at ha; cases ha
    | error err' =>
      rw [hr] at ha
      obtain rfl : err' = err := Except.error.inj ha
      obtain ⟨s, -, hs⟩ := exists_error_of_mapM hr
      obtain ⟨xs, y, rfl, -⟩ := Graph.exists_shapeMismatch_of_unifyAll _ _ _ hs
      rfl

/-! ## Records -/

namespace Search

variable {x x' : Search} {m : Bindings} {n : Nat}

/-- The record of a search fits together. -/
structure IsConsistent (x : Search) : Prop where
  /-- At most as many matches are taken as the limit says, or one. -/
  count_le {n : Nat} : x.config.maxMatches = some n → x.matchCount ≤ max n 1
  /-- There are fewer as long as the search goes on. -/
  count_lt {n : Nat} : x.config.maxMatches = some n → x.stopped = false → x.matchCount < max n 1
  /-- The limit has stopped a search that has taken all of them. -/
  truncated : x.truncated = true →
    x.stopped = true ∧ ∃ n, x.config.maxMatches = some n ∧ x.matchCount = max n 1
  /-- An error has stopped the search too. -/
  error {e : QueryError} : x.error = some e → x.stopped = true ∧ e.isShapeMismatch

theorem isConsistent_new (config : SearchConfig) (linked : Bool) :
    IsConsistent { config := config, linked := linked } where
  count_le _ := Nat.zero_le _
  count_lt _ _ := by simp
  truncated h := by cases h
  error h := by cases h

/-- A record that differs in other things is as good, and so is that of a search
that was stopped meanwhile. -/
theorem IsConsistent.congr (h : x.IsConsistent) (hc : x'.config = x.config)
    (hm : x'.matchCount = x.matchCount) (ht : x'.truncated = x.truncated)
    (he : x'.error = x.error) (hs : x.stopped = true → x'.stopped = true) :
    x'.IsConsistent where
  count_le hn := by
    rw [hm]
    exact h.count_le (hc ▸ hn)
  count_lt hn hgoes := by
    rw [hm]
    refine h.count_lt (hc ▸ hn) ?_
    rw [← Bool.not_eq_true]
    intro hstop
    rw [hs hstop] at hgoes
    cases hgoes
  truncated hcut := by
    obtain ⟨hstop, hfull⟩ := h.truncated (ht ▸ hcut)
    rw [hc, hm]
    exact ⟨hs hstop, hfull⟩
  error herr := by
    obtain ⟨hstop, hkind⟩ := h.error (he ▸ herr)
    exact ⟨hs hstop, hkind⟩

/-- The search that has taken a match is stopped when it has as many as its
limit. -/
theorem stopped_take_eq (x : Search) (m : Bindings) : (x.take m).stopped =
    (x.stopped || x.config.maxMatches.any (· ≤ x.matchCount + 1)) := by
  simp only [take]
  split <;> rename_i hfull <;> simp only [isFull] at hfull <;> simp [hfull]

theorem truncated_take_eq (x : Search) (m : Bindings) : (x.take m).truncated =
    (x.truncated || x.config.maxMatches.any (· ≤ x.matchCount + 1)) := by
  simp only [take]
  split <;> rename_i hfull <;> simp only [isFull] at hfull <;> simp [hfull]

/-- **A search that goes on has room for one more match.** -/
theorem IsConsistent.take (h : x.IsConsistent) (hgoes : x.stopped = false) (m : Bindings) :
    (x.take m).IsConsistent where
  count_le hn := by
    rw [config_take] at hn
    have hlt := h.count_lt hn hgoes
    rw [matchCount_take]
    omega
  count_lt {n} hn hroom := by
    rw [config_take] at hn
    rw [stopped_take_eq, hn, hgoes, Bool.false_or, Option.any_some,
      decide_eq_false_iff_not] at hroom
    rw [matchCount_take]
    omega
  truncated hcut := by
    have hnot : x.truncated = false := by
      rw [← Bool.not_eq_true]
      intro hbefore
      rw [(h.truncated hbefore).1] at hgoes
      cases hgoes
    rw [truncated_take_eq, hnot, Bool.false_or, Option.any_eq_true] at hcut
    obtain ⟨n, hn, hfull⟩ := hcut
    rw [decide_eq_true_iff] at hfull
    have hlt := h.count_lt hn hgoes
    rw [stopped_take_eq, config_take, matchCount_take, hn]
    refine ⟨by simp [hfull], n, rfl, by omega⟩
  error he := by
    rw [error_take] at he
    rw [(h.error he).1] at hgoes
    cases hgoes

/-- A path may meet an error. -/
theorem IsConsistent.fail (h : x.IsConsistent) (he : e.isShapeMismatch) :
    (x.fail e).IsConsistent where
  count_le hn := h.count_le hn
  count_lt hn hgoes := by cases hgoes
  truncated hcut := ⟨rfl, (h.truncated hcut).2⟩
  error {e'} he' := by
    refine ⟨rfl, ?_⟩
    cases hx : x.error with
    | none =>
      rw [Search.fail, hx] at he'
      obtain rfl := Option.some.inj he'
      exact he
    | some first =>
      rw [Search.fail, hx] at he'
      obtain rfl := Option.some.inj he'
      exact (h.error hx).2

end Search

/-! ## Every record, whatever happens -/

variable {t t' : Searches} {os : List Order} {job : Job} {env : Surroundings} {i k : Nat}
  {x x' z z' : Search}

/-- The record of every search fits together. -/
def Searches.AllConsistent (t : Searches) : Prop :=
  ∀ (i : Nat) (x : Search), t.searches[i]? = some x → x.IsConsistent

theorem Searches.AllConsistent.insert (h : t.AllConsistent)
    (hs : t'.searches = t.searches.insert k z) (hz : z.IsConsistent) : t'.AllConsistent := by
  intro i x hx
  rw [hs] at hx
  rcases of_getElem?_insert hx with ⟨-, rfl⟩ | hx
  · exact hz
  · exact h i x hx

/-- **Every job keeps the records consistent.** -/
theorem Transition.allConsistent (h : Transition env t job t' os) (ht : t.AllConsistent) :
    t'.AllConsistent := by
  cases h with
  | failed hx _ _ _ he =>
    exact ht.insert rfl ((ht _ _ hx).fail (Frame.isShapeMismatch_of_expand he))
  | queued _ hx hgoes _ _ => exact ht.insert rfl ((ht _ _ hx).take hgoes _)
  | announced _ hx hgoes _ _ =>
    exact ht.insert rfl (((ht _ _ hx).take hgoes _).congr rfl rfl rfl rfl id)
  | parkedAsked hx | drained hx _ | delivered hx _ | finished _ _ _ hx =>
    exact ht.insert rfl ((ht _ _ hx).congr rfl rfl rfl rfl id)
  | _ => exact ht

/-- The matches of a story are those that were told. -/
theorem Story.matchesOf_eq {told : List Notice} {p : Pattern} {found : List Bindings}
    {ending : Option (Except QueryError SearchSummary)}
    (h : Story os told i x p found ending) : matchesOf i told = found := by
  have hsome : Notice.match? i ∘ Notice.found i = some := by
    funext m
    simp [Notice.match?]
  have hfound : (newsOf i told).filterMap (Notice.match? i) = found := by
    rw [h.news, List.filterMap_cons_none rfl, List.filterMap_append, List.filterMap_map, hsome]
    cases ending <;> simp [Notice.match?]
  -- what tells a match of the search is news of it
  have hsame : (newsOf i told).filterMap (Notice.match? i) = matchesOf i told := by
    rw [newsOf, List.filterMap_filter, matchesOf]
    refine List.filterMap_congr fun n _ => ?_
    by_cases hn : n.search = i
    · simp [hn]
    · cases n <;> simp_all [Notice.match?, Notice.search]
  rw [← hsame, hfound]

/-- A search that is there stays there when one is changed. -/
theorem Searches.getElem?_update (k : Id) (change : Search → Search)
    (hx : t.searches[i]? = some x) : (t.update k change).searches[i]? = some x ∨
      (t.update k change).searches[i]? = some (change x) := by
  unfold update
  split
  · exact .inl hx
  · rename_i z hz
    rw [ExtTreeMap.getElem?_insert]
    split
    · rename_i hk
      obtain rfl := Std.LawfulEqCmp.eq_of_compare hk
      obtain rfl := Option.some.inj (hz.symm.trans hx)
      exact .inr rfl
    · exact .inl hx

namespace Scene

variable {w w' : Scene} {g : Graph} {r : Except QueryError SearchSummary}

/-- **A search counts what it has taken.** -/
theorem IsFaithful.matchCount_eq (hw : w.IsFaithful) (hx : w.table.searches[i]? = some x) :
    x.matchCount = (w.taken i).length := by
  obtain ⟨p, found, ending, hst⟩ := hw.story hx
  rw [taken, Searches.queueOf_of_getElem? hx, hst.matchesOf_eq, hst.count]
  simp [Nat.add_assoc]

/-- A search may be stopped. -/
theorem allConsistent_update (ht : t.AllConsistent) (k : Nat) {change : Search → Search}
    (hc : ∀ z : Search, z.IsConsistent → (change z).IsConsistent) :
    (t.update k change).AllConsistent := by
  intro i x hx
  obtain ⟨z, hz, rfl | rfl⟩ := Searches.of_getElem?_update hx
  · exact ht i x hz
  · exact hc z (ht i z hz)

/-- **Whatever happens, the records stay consistent.** -/
theorem Step.allConsistent (h : Step w w') (hw : w.IsSound) (ht : w.table.AllConsistent) :
    w'.table.AllConsistent := by
  cases h with
  | work state? => exact (Sound.transition hw _).allConsistent ht
  | handOver _ | add _ | equate _ => exact ht
  | launch config linked _ => exact ht.insert rfl (Search.isConsistent_new config linked)
  | stop k | cancel k =>
    exact allConsistent_update ht k fun _ hz => hz.congr rfl rfl rfl rfl fun _ => rfl
  | resume ticket =>
    simp only [Searches.resume]
    split <;> exact ht
  | discard ticket =>
    simp only [Searches.discard]
    split <;> exact ht

/-- **A search is never forgotten.** It is left as it is, stopped or cancelled, unless
the first order is a job. -/
theorem Step.search_cases (h : Step w w') (hw : w.IsSound)
    (hx : w.table.searches[i]? = some x) :
    ∃ x', w'.table.searches[i]? = some x' ∧ ((x' = x ∨ x' = x.stop ∨ x' = x.cancel) ∨
      ∃ env job os rest, w.orders = .job job :: rest ∧ w'.orders = os ++ rest ∧
        Transition env w.table job w'.table os) := by
  cases h with
  | @work g t job rest told state? =>
    have ht := Sound.transition hw ⟨g, state?⟩
    obtain ⟨x', hx', -⟩ := ht.course hx
    exact ⟨x', hx', .inr ⟨_, _, _, _, rfl, rfl, ht⟩⟩
  | handOver _ | add _ | equate _ => exact ⟨x, hx, .inl (.inl rfl)⟩
  | @launch g t os told config linked p _ =>
    have hne : t.next ≠ i := by
      rintro rfl
      exact hw.layout.next_not_mem_searches (mem_of_getElem? hx)
    refine ⟨x, ?_, .inl (.inl rfl)⟩
    change (t.searches.insert t.next _)[i]? = _
    rw [ExtTreeMap.getElem?_insert, if_neg (by simpa using hne)]
    exact hx
  | stop k =>
    rcases Searches.getElem?_update k .stop hx with hx' | hx'
    · exact ⟨x, hx', .inl (.inl rfl)⟩
    · exact ⟨_, hx', .inl (.inr (.inl rfl))⟩
  | cancel k =>
    rcases Searches.getElem?_update k .cancel hx with hx' | hx'
    · exact ⟨x, hx', .inl (.inl rfl)⟩
    · exact ⟨_, hx', .inl (.inr (.inr rfl))⟩
  | resume _ | discard _ => exact ⟨x, by simpa using hx, .inl (.inl rfl)⟩

/-- Nobody changes the settings of a search. -/
theorem Step.config_eq (h : Step w w') (hw : w.IsSound) (hx : w.table.searches[i]? = some x) :
    ∃ x', w'.table.searches[i]? = some x' ∧ x'.config = x.config := by
  obtain ⟨x', hx', (rfl | rfl | rfl) | ⟨env, job, os, rest, -, -, ht⟩⟩ := h.search_cases hw hx
  · exact ⟨x', hx', rfl⟩
  · exact ⟨_, hx', rfl⟩
  · exact ⟨_, hx', rfl⟩
  · obtain ⟨z, hz, -, hc, -⟩ := ht.course hx
    exact ⟨z, hz, hc⟩

/-- **The settings of a search stay what they were.** -/
theorem Steps.config_eq (h : Steps w w') (hw : w.IsSound)
    (hx : w.table.searches[i]? = some x) :
    ∃ x', w'.table.searches[i]? = some x' ∧ x'.config = x.config := by
  have hkeep := h.preserves
    (P := fun v => ∃ x', v.table.searches[i]? = some x' ∧ x'.config = x.config)
    (fun {v v'} hstep hv hp => ?_) hw ⟨x, hx, rfl⟩
  · exact hkeep.2
  · obtain ⟨z, hz, hc⟩ := hp
    obtain ⟨z', hz', hc'⟩ := hstep.config_eq hv hz
    exact ⟨z', hz', hc'.trans hc⟩

/-- **The record of every search is consistent.** -/
theorem Steps.consistent (h : Steps ⟨g, {}, [], []⟩ w) (hx : w.table.searches[i]? = some x) :
    x.IsConsistent := by
  have hempty : Searches.AllConsistent {} := fun i x hx => by simp at hx
  have hkeep := h.preserves (P := fun v => v.table.AllConsistent)
    (fun hstep hs hp => hstep.allConsistent hs hp) Sound.empty hempty
  exact hkeep.2 i x hx

/-! ## The end as the record has it -/

/-- The end of a search, told already or about to be told, says what its record
says: the error, if there is one. -/
def EndsAsRecorded (w : Scene) : Prop :=
  ∀ (i : Nat) (x : Search) (r : Except QueryError SearchSummary),
    w.table.searches[i]? = some x → .done i r ∈ w.told ∨ r ∈ finishesOf i w.orders →
    x.error = errorOf r

/-- The end of a search was told, or is about to be told. -/
def Closes (w : Scene) (i : Id) (r : Except QueryError SearchSummary) : Prop :=
  .done i r ∈ w.told ∨ r ∈ finishesOf i w.orders

/-- A search that ends was started. -/
theorem IsFaithful.mem_of_closes (hw : w.IsFaithful) (hr : w.Closes i r) :
    i ∈ w.table.searches := by
  rcases hr with hr | hr
  · exact hw.mem_of_told hr
  · by_contra hi
    rw [(hw.unheard hi).2] at hr
    cases hr

/-- A search whose end is told, or about to be told, is over. -/
theorem IsFaithful.finished_of_closes (hw : w.IsFaithful) (hx : w.table.searches[i]? = some x)
    (hr : w.Closes i r) : x.finished = true := by
  obtain ⟨p, found, ending, hst⟩ := hw.story hx
  have hmem : r ∈ ending.toList ++ finishesOf i w.orders := by
    rcases hr with hr | hr
    · rw [hst.ending_of_done hr]
      exact List.mem_append_left _ (List.mem_singleton_self r)
    · exact List.mem_append_right _ hr
  by_contra hgoes
  have hend := hst.endings
  rw [if_neg hgoes, List.length_eq_zero_iff] at hend
  rw [hend] at hmem
  cases hmem

/-- **A search ends when its root branch goes**, and as its record has it. -/
theorem Step.closes_cases (h : Step w w') (hs : w.IsSound) (hw : w.IsFaithful)
    (hr : w'.Closes i r) :
    w.Closes i r ∨ i + 1 ∉ w'.table.branches ∧ ∃ x x' : Search,
      w.table.searches[i]? = some x ∧ w'.table.searches[i]? = some x' ∧
      x' = { x with finished := true } ∧ r = x.result := by
  have hi := (h.faithful hs hw).mem_of_closes hr
  cases h with
  | @work g t job rest told state? =>
    have ht := Sound.transition hs ⟨g, state?⟩
    obtain ⟨x, hx⟩ := exists_getElem? ((ht.mem_searches i).1 hi)
    obtain ⟨x', hx', hturn⟩ := ht.turn hs hx
    rcases hr with hr | hr
    · exact .inl (.inl hr)
    · rw [finishesOf_append, List.mem_append] at hr
      rcases hr with hnew | hold
      · rcases hturn.delivers.2 with ⟨hnil, -⟩ | ⟨hone, he, -, hgone⟩
        · rw [hnil] at hnew
          cases hnew
        · rw [hone, List.mem_singleton] at hnew
          exact .inr ⟨hgone, x, x', hx, hx', he, hnew⟩
      · exact .inl (.inr hold)
  | @handOver g t o os told ho =>
    rcases hr with hr | hr
    · rcases List.mem_append.1 hr with hr | hr
      · exact .inl (.inl hr)
      · exact .inl (.inr (mem_finishesOf_of_notices hr))
    · refine .inl (.inr ?_)
      rw [finishesOf_cons]
      exact List.mem_append_right _ hr
  | launch _ _ _ =>
    exact .inl (hr.imp (fun hr => (List.mem_append.1 hr).resolve_right (by simp)) id)
  | @resume g t os told ticket =>
    rcases t.resume_cases ticket with he | ⟨f, -, he⟩ <;> rw [he] at hr <;> exact .inl hr
  | @discard g t os told ticket =>
    rcases t.discard_cases ticket with he | ⟨f, -, he⟩ <;> rw [he] at hr <;> exact .inl hr
  | _ => exact .inl hr

/-- Of a search that is over no path is left to meet an error. -/
theorem Step.error_eq (h : Step w w') (hs : w.IsSound) (hw : w.IsFaithful)
    (hx : w.table.searches[i]? = some x) (hover : x.finished = true) :
    ∃ x', w'.table.searches[i]? = some x' ∧ x'.error = x.error := by
  obtain ⟨x', hx', (rfl | rfl | rfl) | ⟨env, job, os, rest, ho, -, ht⟩⟩ := h.search_cases hs hx
  · exact ⟨x', hx', rfl⟩
  · exact ⟨_, hx', rfl⟩
  · exact ⟨_, hx', rfl⟩
  · obtain ⟨z, hz, -, -, he | ⟨-, f, e, rfl, rfl, -⟩⟩ := ht.course hx
    · exact ⟨z, hz, he.1⟩
    · have hstep : Order.job (.step f) ∈ w.orders := ho ▸ List.mem_cons_self
      have hroot := hs.root_of_frame? hstep rfl
      exact absurd (Searches.mem_of_seat? hroot) ((hw.paced hx).gone hover)

/-- **Whatever happens, searches end as their records have it.** -/
theorem Step.endsAsRecorded (h : Step w w') (hs : w.IsSound) (hw : w.IsFaithful)
    (he : w.EndsAsRecorded) : w'.EndsAsRecorded := by
  intro i x' r hx' hr
  rcases h.closes_cases hs hw hr with hold | ⟨-, x, z, hx, hz, rfl, rfl⟩
  · obtain ⟨x, hx⟩ := exists_getElem? (hw.mem_of_closes hold)
    obtain ⟨z, hz, herror⟩ := h.error_eq hs hw hx (hw.finished_of_closes hx hold)
    obtain rfl := Option.some.inj (hx'.symm.trans hz)
    rw [herror]
    exact he i x r hx hold
  · obtain rfl := Option.some.inj (hx'.symm.trans hz)
    rw [Search.errorOf_result]

theorem Steps.endsAsRecorded (h : Steps w w') (hs : w.IsSound) (hw : w.IsFaithful)
    (he : w.EndsAsRecorded) : w'.EndsAsRecorded :=
  (h.preserves (P := fun v => v.IsFaithful ∧ v.EndsAsRecorded)
    (fun hstep hs hp => ⟨hstep.faithful hs hp.1, hstep.endsAsRecorded hs hp.1 hp.2⟩) hs
    ⟨hw, he⟩).2.2

end Scene

end TripleQuery
