import TripleQuery.Proofs.Joining.Answers
import TripleQuery.Proofs.Joining.Course
/-!
# Yields — courses with their order forgotten

What a search finds in its order (`course`) is what its work amounts to
(`answers`), once the order is forgotten, and an error takes the place of
everything that was found before it (`yield_course`).
-/

namespace TripleQuery

namespace Course

variable {c d : Course} {k : Bindings → Course}

/-- What is found, the order forgotten, or an error. -/
def yield (c : Course) : Yield :=
  match c.error with
  | some _ => ⊤
  | none => .of c.found

theorem yield_of_error {e : QueryError} (h : c.error = some e) : c.yield = ⊤ := by
  rw [yield, h]

theorem yield_of_no_error (h : c.error = none) : c.yield = .of c.found := by
  rw [yield, h]

@[simp] theorem yield_of (l : List Bindings) : (of l).yield = .of l := rfl

@[simp] theorem yield_failing (e : QueryError) : (failing e).yield = ⊤ := rfl

/-- A course that amounts to what a list holds meets no error. -/
theorem error_of_yield {l : List Bindings} (h : c.yield = .of l) : c.error = none := by
  cases he : c.error with
  | none => rfl
  | some e =>
    rw [yield_of_error he] at h
    exact absurd h WithTop.top_ne_coe

/-- **What is found one behind the other is found together.** -/
theorem yield_add (c d : Course) : (c + d).yield = c.yield + d.yield := by
  cases hc : c.error with
  | some e => rw [add_of_error hc, yield_of_error hc, WithTop.top_add]
  | none =>
    rw [add_of_no_error hc, yield_of_no_error hc]
    cases hd : d.error with
    | some e => rw [yield_of_error hd, WithTop.add_top, yield_of_error rfl]
    | none => rw [yield_of_no_error hd, yield_of_no_error rfl, Yield.of_append]

theorem yield_sum (cs : List Course) : cs.sum.yield = (cs.map yield).sum := by
  induction cs with
  | nil => rfl
  | cons c cs ih => rw [List.sum_cons, yield_add, ih, List.map_cons, List.sum_cons]

/-- Going on from everything that is found. -/
theorem yield_bind (c : Course) (k : Bindings → Course) :
    (c.bind k).yield = c.yield.bind fun r => (k r).yield := by
  rw [bind, yield_add, yield_sum, List.map_map]
  cases hc : c.error with
  | some e => rw [yield_of_error rfl, WithTop.add_top, yield_of_error hc, Yield.bind_top]
  | none =>
    rw [yield_of_no_error rfl, yield_of_no_error hc, Yield.of_nil, add_zero, Yield.bind_of]
    rfl

/-- What a complete clause contributes. -/
theorem orEmpty_yield (h : c.error = none) : c.yield.orEmpty = .of c.results := by
  rw [yield_of_no_error h, results]
  cases c.found with
  | nil => rfl
  | cons x l => rfl

/-- **What a trunk finds with its clauses are the combinations.** -/
theorem yield_join (trunk : Bindings) (cs : List Course) :
    (join trunk cs).yield = Yield.combine trunk (cs.map fun c => c.yield.orEmpty) := by
  cases he : cs.findSome? Course.error with
  | some e =>
    -- some clause meets an error, and the others contribute something
    obtain ⟨c, hc, hce⟩ := List.exists_of_findSome?_eq_some he
    rw [join, joinFrom, he, yield_failing]
    refine (Yield.combine_eq_top (fun y hy => ?_) ?_ trunk).symm
    · obtain ⟨d, -, rfl⟩ := List.mem_map.1 hy
      exact Yield.orEmpty_ne_zero _
    · refine List.mem_map.2 ⟨c, hc, ?_⟩
      rw [yield_of_error hce, Yield.orEmpty_top]
  | none =>
    rw [List.findSome?_eq_none_iff] at he
    have hall : cs.map (fun c => c.yield.orEmpty) = (cs.map results).map Yield.of := by
      rw [List.map_map]
      exact List.map_congr_left fun c hc => orEmpty_yield (he c hc)
    rw [join, joinFrom, List.findSome?_eq_none_iff.2 he, hall, Yield.combine_map_of]
    rfl

end Course

variable {g : Graph} {cs : Constraints} {remaining : List Statement} {b : Bindings}

/-- The triples are matched with the same, in their order or not. -/
theorem yield_trunkCourse : (trunkCourse g cs remaining b).yield = trunks g cs remaining b := by
  induction remaining, b using Graph.plan_induction (g := g) with
  | nil b => rw [trunkCourse_nil, trunks_nil, Course.yield_of]
  | stuck remaining b triple hne hp =>
    rw [trunkCourse_of_plan_eq_none hne hp, trunks_of_plan_eq_none hne hp]
    rfl
  | planned remaining b p triple hne hp ht _ ih =>
    rw [trunkCourse_of_plan_eq_some hne hp ht, trunks_of_plan_eq_some hne hp ht]
    cases Frame.alternatives g b triple p.estimate.candidates.toList with
    | error e => rfl
    | ok bs =>
      simp only [Course.yield_sum, List.map_map]
      congr 1
      exact List.map_congr_left fun x _ => ih x

mutual

/-- **What a search finds is what its work amounts to.** -/
theorem yield_course (g : Graph) : ∀ (outer : Constraints) (p : Pattern) (b : Bindings),
    (course g outer p b).yield = answers g outer p b
  | outer, ⟨triples, optionals, constraints, initial⟩, b => by
    rw [course, answers]
    split
    · rw [Course.yield_bind, yield_trunkCourse]
      refine congrArg _ (funext fun trunk => ?_)
      rw [Course.yield_join, orEmpty_yield_clauseCourses g _ optionals]
    · rfl

/-- And so it is for clauses. -/
theorem orEmpty_yield_clauseCourses (g : Graph) : ∀ (inForce : Constraints)
    (clauses : List Pattern) (trunk : Bindings),
    (clauseCourses g inForce trunk clauses).map (fun c => c.yield.orEmpty) =
      clauseAnswers g inForce trunk clauses
  | _, [], _ => by rw [clauseCourses, clauseAnswers, List.map_nil]
  | inForce, clause :: clauses, trunk => by
    rw [clauseCourses, clauseAnswers, List.map_cons, yield_course g inForce clause,
      orEmpty_yield_clauseCourses g inForce clauses]

end

end TripleQuery
