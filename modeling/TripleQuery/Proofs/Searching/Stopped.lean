import TripleQuery.Proofs.Searching.Queueing
/-!
# Stopped searches — nothing more is found

Once a search was stopped, whoever stopped it, it stays so, and so does what it
was stopped for: it meets no error any more, and it takes no match
(`Search.Halts`). Whatever happens later, its caller is told of the matches that
were taken before, and of no others (`Scene.Steps.taken_of_stopped`).
-/

namespace TripleQuery

open Std (ExtTreeMap)
open Relation (ReflTransGen)

variable {t t' : Searches} {os : List Order} {job : Job} {env : Surroundings}
  {i k : Nat} {x x' z z' : Search}

/-- What a search that was stopped is later. -/
structure Search.Halts (x x' : Search) : Prop where
  stopped : x'.stopped = true
  cancelled : x.cancelled = true → x'.cancelled = true
  error : x'.error = x.error
  matchCount : x'.matchCount = x.matchCount

namespace Search

@[simp] theorem cancelled_take (m : Bindings) : (x.take m).cancelled = x.cancelled := by
  simp only [take]
  split <;> rfl

/-- A search that was cancelled says so in the end, unless it met an error. -/
theorem result_of_cancelled (h : x.cancelled = true) :
    (∃ e, x.error = some e ∧ x.result = .error e) ∨
      x.error = none ∧ ∃ sum, x.result = .ok sum ∧ sum.cancelled = true := by
  unfold result
  cases he : x.error with
  | some e => exact .inl ⟨e, rfl, rfl⟩
  | none => exact .inr ⟨rfl, _, rfl, h⟩

theorem Halts.refl (h : x.stopped = true) : x.Halts x :=
  ⟨h, id, rfl, rfl⟩

theorem Halts.trans (h : x.Halts x') (h' : x'.Halts z) : x.Halts z :=
  ⟨h'.stopped, h'.cancelled ∘ h.cancelled, h'.error.trans h.error,
    h'.matchCount.trans h.matchCount⟩

end Search

/-- What is written for one search leaves another one as it is, and must stop
the same one no less. -/
theorem halts_insert (hk : t.searches[k]? = some z) (hx : t.searches[i]? = some x)
    (hs : x.stopped = true) (hz : k = i → z = x → x.Halts z') :
    ∃ x', (t.searches.insert k z')[i]? = some x' ∧ x.Halts x' := by
  rw [ExtTreeMap.getElem?_insert]
  by_cases h : k = i
  · subst h
    obtain rfl : z = x := Option.some.inj (hk.symm.trans hx)
    exact ⟨z', by simp, hz rfl rfl⟩
  · exact ⟨x, by simp [h, hx], .refl hs⟩

/-- **No job takes a match for a stopped search, or meets an error for it.** -/
theorem Transition.halts (h : Transition env t job t' os) (hx : t.searches[i]? = some x)
    (hs : x.stopped = true) : ∃ x', t'.searches[i]? = some x' ∧ x.Halts x' := by
  cases h with
  | failed hf hgoes _ _ _ | queued _ hf hgoes _ _ | announced _ hf hgoes _ _ =>
    -- these are jobs of a search that goes on
    refine halts_insert hf hx hs fun _ hz => ?_
    rw [hz, hs] at hgoes
    cases hgoes
  | parkedAsked hf | drained hf _ | delivered hf _ | finished _ _ _ hf =>
    refine halts_insert hf hx hs fun _ hz => ?_
    subst hz
    exact ⟨hs, id, rfl, rfl⟩
  | _ => exact ⟨x, hx, .refl hs⟩

/-- No job cancels a search. -/
theorem Transition.cancelled_eq (h : Transition env t job t' os) (hx : t.searches[i]? = some x)
    (hx' : t'.searches[i]? = some x') : x'.cancelled = x.cancelled := by
  have insert : ∀ {k : Nat} {z z' : Search}, t.searches[k]? = some z →
      z'.cancelled = z.cancelled → (t.searches.insert k z')[i]? = some x' →
      x'.cancelled = x.cancelled := by
    intro k z z' hz hc hx'
    rcases of_getElem?_insert hx' with ⟨rfl, rfl⟩ | hx'
    · obtain rfl := Option.some.inj (hz.symm.trans hx)
      exact hc
    · obtain rfl := Option.some.inj (hx'.symm.trans hx)
      rfl
  cases h with
  | failed hf _ _ _ _ | parkedAsked hf | drained hf _ | delivered hf _ | finished _ _ _ hf =>
    refine insert hf ?_ hx'
    rfl
  | queued _ hf _ _ _ | announced _ hf _ _ _ => exact insert hf (by simp) hx'
  | _ =>
    obtain rfl := Option.some.inj (hx'.symm.trans hx)
    rfl

namespace Scene

variable {w w' : Scene}

/-- A search may be stopped again. -/
theorem halts_update (hx : t.searches[i]? = some x) (hs : x.stopped = true) (k : Nat)
    (change : Search → Search) (hc : ∀ z : Search, z.stopped = true → z.Halts (change z)) :
    ∃ x', (t.update k change).searches[i]? = some x' ∧ x.Halts x' := by
  cases hz : t.searches[k]? with
  | none => exact ⟨x, by simpa only [Searches.update, hz] using hx, .refl hs⟩
  | some z =>
    rw [Searches.update_of_getElem? hz]
    exact halts_insert hz hx hs fun _ he => he ▸ hc z (he ▸ hs)

/-- **Whatever happens, a stopped search stays so.** -/
theorem Step.halts (h : Step w w') (hw : w.IsSound) (hx : w.table.searches[i]? = some x)
    (hs : x.stopped = true) : ∃ x', w'.table.searches[i]? = some x' ∧ x.Halts x' := by
  cases h with
  | work state? => exact (Sound.transition hw _).halts hx hs
  | handOver _ | add _ | equate _ => exact ⟨x, hx, .refl hs⟩
  | @launch g t os told config linked p _ =>
    refine ⟨x, ?_, .refl hs⟩
    have hne : t.next ≠ i := by
      rintro rfl
      exact hw.layout.next_not_mem_searches (mem_of_getElem? hx)
    change (t.searches.insert t.next _)[i]? = _
    rw [ExtTreeMap.getElem?_insert, if_neg (by simpa using hne)]
    exact hx
  | stop k => exact halts_update hx hs k .stop fun _ _ => ⟨rfl, id, rfl, rfl⟩
  | cancel k => exact halts_update hx hs k .cancel fun _ _ => ⟨rfl, fun _ => rfl, rfl, rfl⟩
  | resume ticket =>
    refine ⟨x, ?_, .refl hs⟩
    simp only [Searches.resume]
    split <;> exact hx
  | discard ticket =>
    refine ⟨x, ?_, .refl hs⟩
    simp only [Searches.discard]
    split <;> exact hx

/-- **The caller of a stopped search is told of what was taken before**, and of
no other match: what he was told, is about to be told and is queued for him
stays the same. -/
theorem Steps.taken_of_stopped (h : Steps w w') (hw : w.IsSound)
    (hl : AllInLine w.table w.orders) (hx : w.table.searches[i]? = some x)
    (hs : x.stopped = true) :
    ∃ x', w'.table.searches[i]? = some x' ∧ x.Halts x' ∧ w'.taken i = w.taken i := by
  have hkeep := h.preserves (P := fun v => AllInLine v.table v.orders ∧
    ∃ x', v.table.searches[i]? = some x' ∧ x.Halts x' ∧ v.taken i = w.taken i)
    (fun {v v'} hstep hv hp => ?_) hw ⟨hl, x, hx, .refl hs, rfl⟩
  · exact hkeep.2.2
  · obtain ⟨hline, z, hz, hhalts, htaken⟩ := hp
    obtain ⟨z', hz', hhalts'⟩ := hstep.halts hv hz hhalts.stopped
    refine ⟨hstep.inLine hv hline, z', hz', hhalts.trans hhalts', ?_⟩
    rcases hstep.taken hv hline hz hz' with ⟨heq, -⟩ | ⟨-, -, -, -, -, -, hm⟩
    · exact heq.trans htaken
    · rw [hhalts'.matchCount] at hm
      omega

/-- Whoever cancels a search stops it. -/
def AllHalted (t : Searches) : Prop :=
  ∀ (i : Nat) (x : Search), t.searches[i]? = some x → x.cancelled = true → x.stopped = true

theorem allHalted_insert (h : AllHalted t) (k : Nat)
    (hz : z.cancelled = true → z.stopped = true) :
    AllHalted { t with searches := t.searches.insert k z } := by
  intro i x hx
  rcases of_getElem?_insert hx with ⟨-, rfl⟩ | hx
  · exact hz
  · exact h i x hx

/-- **A search that was cancelled is stopped.** -/
theorem Step.allHalted (h : Step w w') (hw : w.IsSound) (ha : AllHalted w.table) :
    AllHalted w'.table := by
  have update : ∀ (t : Searches) (k : Nat) (change : Search → Search), AllHalted t →
      (∀ z, (change z).stopped = true) → AllHalted (t.update k change) := by
    intro t k change ha hc
    unfold Searches.update
    split
    · exact ha
    · exact allHalted_insert ha k fun _ => hc _
  cases h with
  | @work g t job os told state? =>
    intro i x' hx'
    have ht := Sound.transition hw ⟨g, state?⟩
    obtain ⟨x, hx⟩ := exists_getElem? ((ht.mem_searches i).1 (mem_of_getElem? hx'))
    intro hc
    have hold : x.cancelled = true := ht.cancelled_eq hx hx' ▸ hc
    obtain ⟨x'', hx'', hhalts⟩ := ht.halts hx (ha i x hx hold)
    obtain rfl := Option.some.inj (hx'.symm.trans hx'')
    exact hhalts.stopped
  | handOver _ | add _ | equate _ => exact ha
  | @launch g t os told config linked p _ => exact allHalted_insert ha t.next (by simp)
  | @stop g t os told k => exact update t k .stop ha fun _ => rfl
  | @cancel g t os told k => exact update t k .cancel ha fun _ => rfl
  | resume ticket =>
    simp only [Searches.resume]
    split <;> exact ha
  | discard ticket =>
    simp only [Searches.discard]
    split <;> exact ha

/-- **In every scene callers are in line, and cancelled searches stopped.** -/
theorem Steps.inLine {g : Graph} (h : Steps ⟨g, {}, [], []⟩ w) :
    AllInLine w.table w.orders ∧ AllHalted w.table := by
  have hline : AllInLine ({} : Searches) [] := fun i x hx => by simp at hx
  have hhalted : AllHalted {} := fun i x hx => by simp at hx
  exact (h.preserves (P := fun v => AllInLine v.table v.orders ∧ AllHalted v.table)
    (fun hstep hs hp => ⟨hstep.inLine hs hp.1, hstep.allHalted hs hp.2⟩) Sound.empty
    ⟨hline, hhalted⟩).2

end Scene

end TripleQuery
