import TripleQuery.Proofs.Searching.Waning
/-!
# Owning — whose work is carried out

Let the orders before some point, and the parked paths, be work of certain
searches (`Searches.Owned`). What is carried out up to that point is then work of
these, whatever it leaves (`Searches.Owned.run`): the orders behind may be work of
others, and stay behind. What surroundings do keeps this too, if a search that is
started is one of them.
-/

namespace TripleQuery

variable {t t' : Searches} {os rest : List Order} {o : Order} {job : Job} {env : Surroundings}
  {P Q : Id → Prop} {change : Search → Search} {d : String}

/-- Some orders, and all parked paths, are work of searches with a property. -/
structure Searches.Owned (P : Id → Prop) (t : Searches) (os : List Order) : Prop where
  orders {o : Order} {i : Id} : o ∈ os → t.worksFor? o = some i → P i
  parked {n : Id} {f : Frame} : t.parked[n]? = some f → P f.search

namespace Searches.Owned

theorem mono (h : t.Owned P os) (hPQ : ∀ i, P i → Q i) : t.Owned Q os :=
  ⟨fun ho hi => hPQ _ (h.orders ho hi), fun hf => hPQ _ (h.parked hf)⟩

/-- What is known of more orders is known of fewer. -/
theorem of_subset (h : t.Owned P os) (hsub : rest ⊆ os) : t.Owned P rest :=
  ⟨fun ho => h.orders (hsub ho), h.parked⟩

/-- **A job leaves work of its own search**, and the other orders are whose they
were. -/
theorem run {after : List Order} (hs : Sound t (.job job :: (os ++ after)))
    (h : t.Owned P (.job job :: os)) (ht : Transition env t job t' rest) :
    t'.Owned P (rest ++ os) := by
  obtain ⟨k, hk⟩ := hs.exists_worksFor?
  have hP : P k := h.orders List.mem_cons_self hk
  refine ⟨fun {o i} ho hi => ?_, fun {n f} hf => ?_⟩
  · rcases List.mem_append.1 ho with ho | ho
    · rcases ht.worksFor?_of_mem hs hk ho with hwork | hsource
      · have hnew := hs.worksFor?_run ht (List.mem_append_left _ ho) hwork
        exact Option.some.inj (hnew.symm.trans hi) ▸ hP
      · rw [t'.worksFor?_of_isForSource hsource] at hi
        cases hi
    · rw [hs.worksFor?_eq ht (List.mem_append_left _ ho)] at hi
      exact h.orders (List.mem_cons_of_mem _ ho) hi
  · rcases ht.parked_cases hf with hf | ⟨f', d, asked, rfl, rfl⟩
    · exact h.parked hf
    · exact Option.some.inj hk ▸ hP

/-- A search is started that is one of these. -/
theorem launch (hs : Sound t (os ++ rest)) (h : t.Owned P os) (hP : P t.next)
    (config : SearchConfig) (linked : Bool) (p : Pattern) :
    (t.launch config linked p).1.Owned P (.job (t.launch config linked p).2.2 :: os) := by
  refine ⟨fun {o i} ho hi => ?_, h.parked⟩
  rcases List.mem_cons.1 ho with rfl | ho
  · exact Option.some.inj hi ▸ hP
  · rw [hs.worksFor?_launch (List.mem_append_left _ ho)] at hi
    exact h.orders ho hi

/-- A search is stopped or cancelled. -/
theorem update (h : t.Owned P os) (i : Id) : (t.update i change).Owned P os := by
  refine ⟨fun {o k} ho hk => ?_, fun hf => h.parked (by simpa using hf)⟩
  have hsame : (t.update i change).worksFor? o = t.worksFor? o :=
    worksFor?_of_branches (by simp) o
  exact h.orders ho (hsame.symm.trans hk)

/-- A path that goes on is work of its search. -/
theorem resume (h : t.Owned P os) (n : Id) : (t.resume n).1.Owned P ((t.resume n).2 ++ os) := by
  rcases t.resume_cases n with he | ⟨f, hf, he⟩ <;> rw [he]
  · exact h
  · refine ⟨fun {o i} ho hi => ?_, fun hf' => h.parked (of_getElem?_erase hf')⟩
    rcases List.mem_cons.1 ho with rfl | ho
    · exact Option.some.inj hi ▸ h.parked hf
    · exact h.orders ho hi

/-- And so is giving it up. -/
theorem discard (hs : Sound t rest) (h : t.Owned P os) (n : Id) :
    (t.discard n).1.Owned P ((t.discard n).2 ++ os) := by
  rcases t.discard_cases n with he | ⟨f, hf, he⟩ <;> rw [he]
  · exact h
  · refine ⟨fun {o i} ho hi => ?_, fun hf' => h.parked (of_getElem?_erase hf')⟩
    rcases List.mem_cons.1 ho with rfl | ho
    · obtain ⟨r, hr⟩ := hs.parked hf
      have hown : t.owner? f.branch = some f.search := owner?_eq_some_iff.2 ⟨r, hr⟩
      exact Option.some.inj (hown.symm.trans hi) ▸ h.parked hf
    · exact h.orders ho hi

end Searches.Owned

/-- **Only a path that has to wait for a document asks for it.** -/
theorem Transition.nextFetch_of_request (h : Transition env t job t' os)
    (hd : .request d ∈ os) :
    ∃ (f : Frame) (x : Search), job = .step f ∧ x.nextFetch env f = some d := by
  cases h.leaves hd with
  | request _ hnext => exact ⟨_, _, rfl, hnext⟩

end TripleQuery
