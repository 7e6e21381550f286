import TripleQuery.Plan
import TripleQuery.Proofs.Merging.Finding
/-!
# Planning — the triple that is chosen, and where it is looked for

The plan names one of the remaining triples with its own estimate
(`Graph.plan_eq_some`), and there is none only if nothing remains or some
triple has no candidates (`Graph.plan_eq_none`). No bound position has fewer
statements than there are candidates (`Graph.size_candidates_le`). In an orderly
store every candidate is a stored statement
(`Graph.Orderly.mem_statements_of_mem_candidates`), and none is one twice.
-/

namespace TripleQuery

/-- There is a narrowest list among some. -/
theorem narrowest_eq_none {bs : List (Array Statement)} (h : narrowest bs = none) : bs = [] := by
  cases bs with
  | nil => rfl
  | cons b bs =>
    have hsome : (narrowest (b :: bs)).isSome := narrowest_isSome
    rw [h] at hsome
    cases hsome

/-- No list is shorter than the narrowest. -/
theorem size_narrowest_le {bs : List (Array Statement)} {m n : Array Statement}
    (h : narrowest bs = some n) (hm : m ∈ bs) : n.size ≤ m.size := by
  induction bs generalizing n with
  | nil => cases hm
  | cons b bs ih =>
    rw [narrowest] at h
    cases hbs : narrowest bs with
    | none =>
      obtain rfl := narrowest_eq_none hbs
      rw [hbs] at h
      obtain rfl := Option.some.inj h
      rw [List.mem_singleton.1 hm]
    | some k =>
      simp only [hbs] at h
      rcases List.mem_cons.1 hm with rfl | hm
      · split at h <;> obtain rfl := Option.some.inj h <;> omega
      · have hk := ih hbs hm
        split at h <;> obtain rfl := Option.some.inj h <;> omega

namespace Graph

variable {g : Graph} {b : Bindings} {remaining : List Statement} {p : Plan} {i : Nat}
  {es : List Estimate} {triple s : Statement} {t : Term} {pos : Position}

/-- The easiest estimate is one of them, at its place. -/
theorem easiest_eq_some (h : easiest i es = some p) :
    ∃ k, p.selected = i + k ∧ es[k]? = some p.estimate := by
  induction es generalizing i p with
  | nil => cases h
  | cons e es ih =>
    rw [easiest_cons] at h
    split at h
    · cases h
      exact ⟨0, rfl, rfl⟩
    · rename_i q hq
      split at h
      · cases h
        obtain ⟨k, hk, he⟩ := ih hq
        exact ⟨k + 1, by omega, he⟩
      · cases h
        exact ⟨0, rfl, rfl⟩

/-- There is an easiest one among some. -/
theorem easiest_eq_none (h : easiest i es = none) : es = [] := by
  cases es with
  | nil => rfl
  | cons e es =>
    rw [easiest_cons] at h
    split at h
    · cases h
    · split at h <;> cases h

/-- **What is planned is to match one of the remaining triples.** -/
theorem plan_eq_some (h : g.plan b remaining = some p) :
    ∃ triple, remaining[p.selected]? = some triple ∧ p.estimate = g.prepare b triple ∧
      p.estimate.candidates ≠ #[] := by
  unfold plan at h
  split at h
  · cases h
  · rename_i q hq
    split at h
    · cases h
    · rename_i hne
      cases h
      obtain ⟨k, hk, he⟩ := easiest_eq_some hq
      rw [List.getElem?_map, Option.map_eq_some_iff] at he
      obtain ⟨triple, ht, he⟩ := he
      refine ⟨triple, by rw [hk, Nat.zero_add, ht], he.symm, ?_⟩
      simpa using hne

/-- **Nothing is planned only when some triple has no candidates**, or no
triple remains. -/
theorem plan_eq_none (h : g.plan b remaining = none) (hne : remaining ≠ []) :
    ∃ triple ∈ remaining, (g.prepare b triple).candidates = #[] := by
  unfold plan at h
  split at h
  · rename_i hq
    exact absurd (List.map_eq_nil_iff.1 (easiest_eq_none hq)) hne
  · rename_i q hq
    split at h
    · rename_i hempty
      obtain ⟨k, -, he⟩ := easiest_eq_some hq
      rw [List.getElem?_map, Option.map_eq_some_iff] at he
      obtain ⟨triple, ht, he⟩ := he
      refine ⟨triple, List.mem_of_getElem? ht, ?_⟩
      rw [he]
      simpa using hempty
    · cases h

/-- **Induction along a plan.** No triple remains, or some triple has no
candidates and none is planned, or one is planned and the others come after
it. -/
theorem plan_induction {g : Graph} {motive : List Statement → Bindings → Prop}
    (nil : ∀ b, motive [] b)
    (stuck : ∀ remaining b triple, remaining ≠ [] → g.plan b remaining = none →
      triple ∈ remaining → (g.prepare b triple).candidates = #[] → motive remaining b)
    (planned : ∀ remaining b p triple, remaining ≠ [] → g.plan b remaining = some p →
      remaining[p.selected]? = some triple → p.estimate = g.prepare b triple →
      (∀ b', motive (remaining.eraseIdx p.selected) b') → motive remaining b)
    (remaining : List Statement) (b : Bindings) : motive remaining b := by
  induction hn : remaining.length using Nat.strongRecOn generalizing remaining b with
  | ind n ih =>
    by_cases hne : remaining = []
    · rw [hne]
      exact nil b
    cases hp : g.plan b remaining with
    | none =>
      obtain ⟨triple, hm, hnone⟩ := plan_eq_none hp hne
      exact stuck remaining b triple hne hp hm hnone
    | some p =>
      obtain ⟨triple, ht, he, -⟩ := plan_eq_some hp
      obtain ⟨hlt, -⟩ := List.getElem?_eq_some_iff.1 ht
      have hfewer : (remaining.eraseIdx p.selected).length < n := by
        rw [← hn, List.length_eraseIdx_of_lt hlt]
        omega
      exact planned remaining b p triple hne hp ht he fun b' => ih _ hfewer _ b' rfl

/-- The candidates of a triple are all statements, or those that the index has
for one of its bound positions. -/
theorem candidates_cases (g : Graph) (b : Bindings) (triple : Statement) :
    (g.prepare b triple).candidates = g.statements ∨
      ∃ pos, b.hasUnbound (triple.term pos) = false ∧
        (g.prepare b triple).candidates = g.indexFor pos (b.substitute (triple.term pos)) := by
  unfold prepare
  simp only
  cases hn : narrowest ((boundPositions b triple).map fun p =>
      g.indexFor p (b.substitute (triple.term p))) with
  | none => exact .inl rfl
  | some n =>
    obtain ⟨pos, hpos, rfl⟩ := List.mem_map.1 (narrowest_mem hn)
    refine .inr ⟨pos, ?_, rfl⟩
    simpa [boundPositions] using (List.mem_filter.1 hpos).2

/-- **No bound position has fewer statements** than there are candidates. -/
theorem size_candidates_le (g : Graph) (h : b.hasUnbound (triple.term pos) = false) :
    (g.prepare b triple).candidates.size ≤
      (g.indexFor pos (b.substitute (triple.term pos))).size := by
  have hmem : g.indexFor pos (b.substitute (triple.term pos)) ∈
      (boundPositions b triple).map fun p => g.indexFor p (b.substitute (triple.term p)) :=
    List.mem_map.2 ⟨pos, List.mem_filter.2 ⟨pos.mem_all, by rw [h]; rfl⟩, rfl⟩
  unfold prepare
  simp only
  cases hn : narrowest ((boundPositions b triple).map fun p =>
      g.indexFor p (b.substitute (triple.term p))) with
  | none => exact absurd (narrowest_eq_none hn) (List.ne_nil_of_mem hmem)
  | some n => exact size_narrowest_le hn hmem

/-- What an orderly store finds, it has. -/
theorem Orderly.mem_statements_of_mem_indexFor (h : g.Orderly) (hs : s ∈ g.indexFor pos t) :
    s ∈ g.statements := by
  have hfiled := Index.mem_filed_of_mem_bucket hs
  rw [h.filed] at hfiled
  simpa using hfiled

/-- **Every candidate is a stored statement.** -/
theorem Orderly.mem_statements_of_mem_candidates (h : g.Orderly)
    (hs : s ∈ (g.prepare b triple).candidates) : s ∈ g.statements := by
  rcases g.candidates_cases b triple with hall | ⟨pos, -, hone⟩
  · exact hall ▸ hs
  · rw [hone] at hs
    exact h.mem_statements_of_mem_indexFor hs

/-- No statement is a candidate twice. -/
theorem Orderly.nodup_candidates (h : g.Orderly) (b : Bindings) (triple : Statement) :
    (g.prepare b triple).candidates.toList.Nodup := by
  rcases g.candidates_cases b triple with hall | ⟨pos, -, hone⟩
  · rw [hall]
    exact h.nodup
  · rw [hone]
    exact h.nodup_indexFor pos _

end Graph

end TripleQuery
