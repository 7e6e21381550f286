import TripleQuery.Proofs.Searching.Truth
/-!
# Restraint — constraints in force down to the last clause

A constraint of a pattern is in force in all its clauses, unless one of them has
another for the same variable (`Scope.Enforces`). It is tested when a path enters
a scope and whenever one of its triples has matched, and at no other time. So
every path that was let into its scope keeps the constraints, while it waits for
a document too (`Scene.IsAdmissible`), and what is bound when all its triples
have matched keeps them. A junction takes every value from its trunk or from a
clause, and needs no test of its own. Hence no match that is on its way to the
caller, at a branch, a place of a junction or in a queue, breaks a constraint
that is in force everywhere (`Scene.Restrained`).
-/

namespace TripleQuery

open Std (ExtTreeMap)

variable {w w' : Scene} {i j k b n : Nat} {p q : Pattern} {s s' : Scope} {f : Frame}
  {x y trunk : Bindings} {r : BranchRole} {v : Term} {c : Constraint}

/-! ## Values that pass -/

namespace Bindings

/-- What is bound to a variable, if anything is, passes a test. -/
def Passes (x : Bindings) (v : Term) (c : Constraint) : Prop :=
  ∀ value : Term, x[v]? = some value → c.test value

theorem passes_empty : (∅ : Bindings).Passes v c := by
  intro value hvalue
  simp at hvalue

/-- A union takes each of its values from one side. -/
theorem Passes.union (hx : x.Passes v c) (hy : y.Passes v c) : (x ∪ y).Passes v c := by
  intro value hvalue
  rw [ExtTreeMap.getElem?_union] at hvalue
  rcases Option.or_eq_some_iff.1 hvalue with hright | ⟨-, hleft⟩
  · exact hy value hright
  · exact hx value hleft

end Bindings

/-- What keeps all constraints passes each of them. -/
theorem Constraints.passes_of_satisfiedBy {cs : Constraints} (h : cs.satisfiedBy x)
    (hc : cs[v]? = some c) : x.Passes v c := by
  intro value hvalue
  exact Constraints.satisfiedBy_iff.1 h v c value hc hvalue

/-- **A combination passes**, if the trunk and all results of the clauses do. -/
theorem Junction.passes_of_mem_combine {results : List (List Bindings)}
    (hall : ∀ rs ∈ results, ∀ r ∈ rs, r.Passes v c) (htrunk : trunk.Passes v c)
    (hx : x ∈ combine trunk results) : x.Passes v c := by
  induction results generalizing trunk with
  | nil =>
    obtain rfl := List.mem_singleton.1 hx
    exact htrunk
  | cons rs results ih =>
    rw [combine_cons] at hx
    obtain ⟨r, hr, hx⟩ := List.mem_flatMap.1 hx
    have hrest : ∀ rs ∈ results, ∀ r ∈ rs, r.Passes v c :=
      fun rs hrs => hall rs (List.mem_cons_of_mem _ hrs)
    exact ih hrest (htrunk.union (hall rs List.mem_cons_self r hr)) hx

/-! ## Constraints in force -/

/-- A pattern is a clause of another one, or a clause of a clause of it, and so
on. -/
inductive Pattern.IsClauseOf (q : Pattern) : Pattern → Prop
  | clause {p : Pattern} : q ∈ p.optionals → IsClauseOf q p
  | deeper {p p' : Pattern} : IsClauseOf q p' → p' ∈ p.optionals → IsClauseOf q p

/-- A scope tests a variable, and no clause at any depth replaces the test. -/
structure Scope.Enforces (s : Scope) (v : Term) (c : Constraint) : Prop where
  inForce : s.constraints[v]? = some c
  clauses {q : Pattern} : q.IsClauseOf s.pattern → v ∉ q.constraints

namespace Scope

theorem enforces_ofPattern (hc : p.constraints[v]? = some c)
    (hq : ∀ q : Pattern, q.IsClauseOf p → v ∉ q.constraints) : (ofPattern p).Enforces v c where
  inForce := by
    change ((∅ : Constraints) ∪ p.constraints)[v]? = some c
    rw [ExtTreeMap.getElem?_union, hc]
    rfl
  clauses := hq _

/-- **What a scope enforces, its clauses enforce.** -/
theorem Enforces.clause (h : s.Enforces v c) (hs : s' ∈ s.clauses) : s'.Enforces v c := by
  obtain ⟨q, hq, rfl⟩ := List.mem_map.1 hs
  have hnone : q.constraints[v]? = none := ExtTreeMap.getElem?_eq_none (h.clauses (.clause hq))
  refine ⟨?_, fun hdeep => h.clauses (.deeper hdeep hq)⟩
  change (s.constraints ∪ q.constraints)[v]? = some c
  rw [ExtTreeMap.getElem?_union, hnone]
  exact h.inForce

end Scope

/-! ## Paths that were let in -/

namespace Scene

/-- Every path that was let into its scope keeps the constraints in force. -/
def IsAdmissible (w : Scene) : Prop :=
  ∀ f, w.Explores f → f.isAllowed f.bindings = true

/-- **Wherever such a path comes from**, it was let in with the bindings it has,
or they were tested when a triple had matched. -/
theorem IsAdmissible.of_origin (h : w.IsAdmissible) (ho : ExploreOrigin w f) :
    f.isAllowed f.bindings = true := by
  cases ho with
  | same hf => exact h f hf
  | entered _ hallowed => exact hallowed
  | @waiting f d hf => exact h f hf
  | matched _ he hm =>
    obtain ⟨plan, triple, bs, x, -, -, -, -, hallowed, rfl⟩ := Frame.mem_expand he hm
    exact hallowed

/-- Whatever happens, paths that were let in keep the constraints in force. -/
theorem Step.isAdmissible (h : Step w w') (hs : w.IsSound) (ha : w.IsAdmissible) :
    w'.IsAdmissible :=
  fun _ hf => ha.of_origin (h.exploreOrigin hs hf)

/-! ## What a search is restrained to -/

/-- **Search `i` is restrained to values of a variable that pass a test.** -/
structure Restrained (w : Scene) (i : Nat) (v : Term) (c : Constraint) : Prop where
  /-- Its paths are in scopes that enforce the test. -/
  scope {f : Frame} {r : BranchRole} :
    w.Walks f → w.table.seat? f.branch = some (i, r) → f.scope.Enforces v c
  /-- Matches on their way to its branches pass. -/
  carried {b : Nat} {x : Bindings} {r : BranchRole} :
    w.Carries b x → w.table.seat? b = some (i, r) → x.Passes v c
  /-- So do the results of clauses that are complete. -/
  slot {j k : Nat} {jn : Junction} {rs : List Bindings} {r : BranchRole} {x : Bindings} :
    w.table.junctions[j]? = some jn → w.table.seat? jn.parent = some (i, r) →
    jn.slots[k]? = some (some rs) → x ∈ rs → x.Passes v c
  /-- So do the matches that the caller was told of. -/
  told {x : Bindings} : .found i x ∈ w.told → x.Passes v c

namespace Restrained

variable {jn : Junction} {y : Branch} {slot : Nat} {combos : List Bindings}

/-- Nothing is known of a search that was not started, and nothing is said. -/
theorem of_not_mem (hs : w.IsSound) (hf : w.IsFaithful) (hi : i ∉ w.table.searches) :
    w.Restrained i v c := by
  have hseat : ∀ {b r}, w.table.seat? b ≠ some (i, r) := fun h => hi (hs.layout.launched h)
  refine ⟨fun _ h => absurd h hseat, fun _ h => absurd h hseat, fun _ h => absurd h hseat,
    fun {x} hm => ?_⟩
  exact absurd (hf.mem_of_told hm) hi

/-- What a path has bound when it has come to its end passes. -/
theorem found (h : w.Restrained i v c) (ha : w.IsAdmissible) (hf : w.Explores f)
    (hb : w.table.seat? f.branch = some (i, r)) : f.bindings.Passes v c :=
  Constraints.passes_of_satisfiedBy (ha f hf) (h.scope hf.walks hb).inForce

/-- What a complete clause hands to its junction passes. -/
theorem results (h : w.Restrained i v c) (hs : w.IsSound) (hj : w.table.junctions[j]? = some jn)
    (hp : w.table.seat? jn.parent = some (i, r)) (hy : w.table.branches[b]? = some y)
    (hr : y.role = .clause j slot) (hx : x ∈ y.results) : x.Passes v c := by
  rcases carries_of_mem_results hs hj hp hy hr hx with rfl | ⟨hx, hseat⟩
  · exact Bindings.passes_empty
  · exact h.carried hx hseat

/-- What a junction reports passes. -/
theorem combination (h : w.Restrained i v c) (hs : w.IsSound) (hr : jn.Reports w.table combos)
    (hp : w.table.seat? jn.parent = some (i, r)) (hx : x ∈ combos) : x.Passes v c := by
  obtain ⟨j, rss, hj, rfl, hrss⟩ := hr.exists_combine
  refine Junction.passes_of_mem_combine (fun rs hrs u hu => ?_) (h.carried (.trunk hj) hp) hx
  rcases hrss rs hrs with ⟨d, slot, y, hy, hrole, rfl⟩ | ⟨k, hold⟩
  · exact h.results hs hj hp hy hrole hu
  · exact h.slot hj hp hold hu

/-! ## What becomes of it -/

/-- **Every path is in a scope that enforces the test, wherever it comes from.**
-/
theorem scope_of_origin (h : w.Restrained i v c) (hs : w.IsSound) (hw : w.Before w')
    (hp : (Scope.ofPattern p).Enforces v c)
    (hstart : ∀ q, w'.told = w.told ++ [.started i q] → w.table.next = i → q = p)
    (ho : PathOrigin w w' f) (hb : w'.table.seat? f.branch = some (i, r)) :
    f.scope.Enforces v c := by
  cases ho with
  | same hf => exact h.scope hf (hw.table.seat (hf.branch_lt hs) hb)
  | @waiting f d hf => exact h.scope (f := f) hf (hw.table.seat (hf.branch_lt hs) hb)
  | matched hf he hm =>
    rw [Frame.branch_of_mem_expand he hm] at hb
    rw [Frame.scope_of_mem_expand he hm]
    exact h.scope hf (hw.table.seat (hf.branch_lt hs) hb)
  | @clause f k s hf _ hc ht =>
    obtain ⟨hk, -⟩ := List.getElem?_eq_some_iff.1 hc
    -- the branch of the clause belongs to the search of the path
    change w'.table.seat? (w.table.next + 1 + k) = some (i, r) at hb
    rw [ht, Searches.seat?_split_clause _ hk] at hb
    obtain rfl : f.search = i := congrArg Prod.fst (Option.some.inj hb)
    obtain ⟨r', hseat⟩ := hf.seats hs
    exact (h.scope hf hseat).clause (List.mem_of_getElem? hc)
  | @launched config linked q ht htold =>
    change w'.table.seat? (w.table.next + 1) = some (i, r) at hb
    rw [ht, Sound.seat?_launch_root] at hb
    obtain rfl : w.table.next = i := congrArg Prod.fst (Option.some.inj hb)
    obtain rfl := hstart q htold rfl
    exact hp

/-- **A search that is restrained stays so.** -/
theorem step (h : w.Restrained i v c) (hstep : Step w w') (hs : w.IsSound) (ha : w.IsAdmissible)
    (hp : (Scope.ofPattern p).Enforces v c)
    (hstart : ∀ q, w'.told = w.told ++ [.started i q] → w.table.next = i → q = p) :
    w'.Restrained i v c := by
  have hbefore := hstep.before hs
  refine ⟨fun hf hb => ?_, fun hx hb => ?_, fun {j k jn rs r x} hj hb hk hx => ?_, fun hn => ?_⟩
  · exact h.scope_of_origin hs hbefore hp hstart (hstep.pathOrigin hs hf) hb
  · cases hstep.matchOrigin hs hx with
    | same hx => exact h.carried hx (hbefore.table.seat (hx.branch_lt hs) hb)
    | found hf _ => exact h.found ha hf (hbefore.table.seat (hf.walks.branch_lt hs) hb)
    | combined hr hm =>
      obtain ⟨j, slot, d, y, hj, -⟩ := hr.filled
      exact h.combination hs hr (hbefore.table.seat (hs.parent_lt hj) hb) hm
  · have hold : ∀ {jn' : Junction}, w.table.junctions[j]? = some jn' →
        jn.parent = jn'.parent → w.table.seat? jn'.parent = some (i, r) := by
      intro jn' hj' hparent
      rw [hparent] at hb
      exact hbefore.table.seat (hs.parent_lt hj') hb
    cases hstep.slotOrigin hs hj hk with
    | same hj' _ hparent hk' => exact h.slot hj' (hold hj' hparent) hk' hx
    | filled hj' _ hparent hy hr hrs =>
      exact h.results hs hj' (hold hj' hparent) hy hr (hrs ▸ hx)
  · rcases hstep.found_cases hs hn with hn | ⟨hx, hseat⟩
    · exact h.told hn
    · exact h.carried hx hseat

end Restrained

/-- Every search that callers know of is restrained to what its pattern enforces
everywhere. -/
def IsRestrained (w : Scene) : Prop :=
  ∀ i p v c, .started i p ∈ w.told → (Scope.ofPattern p).Enforces v c → w.Restrained i v c

/-- **Whatever happens, searches stay restrained.** -/
theorem Step.restrained (h : Step w w') (hs : w.IsSound) (hf : w.IsFaithful)
    (ha : w.IsAdmissible) (hr : w.IsRestrained) : w'.IsRestrained := by
  intro i p v c hstarted hp
  exact h.of_started (P := fun u => u.Restrained i v c) hs hf hstarted
    (fun hi => .of_not_mem hs hf hi) (fun hold => hr i p v c hold hp)
    fun hrestrained hstart => hrestrained.step h hs ha hp hstart

/-- Every scene that follows on a restrained one is restrained. -/
theorem Steps.restrained (h : Steps w w') (hs : w.IsSound) (hf : w.IsFaithful)
    (ha : w.IsAdmissible) (hr : w.IsRestrained) : w'.IsRestrained := by
  have hkeep := h.preserves (P := fun u => u.IsFaithful ∧ u.IsAdmissible ∧ u.IsRestrained)
    (fun hstep hs hu => ⟨hstep.faithful hs hu.1, hstep.isAdmissible hs hu.2.1,
      hstep.restrained hs hu.1 hu.2.1 hu.2.2⟩) hs ⟨hf, ha, hr⟩
  exact hkeep.2.2.2

end Scene

end TripleQuery
