import Mathlib.Algebra.BigOperators.Group.List.Basic
import TripleQuery.Search.Branch
import TripleQuery.Proofs.Matching.Planning
import TripleQuery.Proofs.Matching.Unifying
/-!
# Courses — what the work of a search finds, in its order

A search that never has to wait finds its matches in a fixed order, up to the
first error that it meets (`course`). Courses are put one behind the other: what
would come after an error is never found (`Course.failing_add`). A path whose
triples have all matched goes on into the clauses, one after the other, and if
none of them meets an error, finds the combinations of what they find
(`Course.join`); an error in a clause is met before any of them.

No branches, junctions or orders are spoken of here, nor whom the matches are
told, and no limit on them.
-/

namespace TripleQuery

/-- What is found, one after the other, up to the error that is met, if one is.
-/
@[ext]
structure Course where
  found : List Bindings
  error : Option QueryError

namespace Course

variable {c d : Course} {e : QueryError} {l l' : List Bindings} {k : Bindings → Course}

instance : Zero Course := ⟨⟨[], none⟩⟩

/-- Nothing comes after an error. -/
instance : Add Course where
  add c d :=
    match c.error with
    | some _ => c
    | none => ⟨c.found ++ d.found, d.error⟩

/-- What is found without an error. -/
def of (found : List Bindings) : Course := ⟨found, none⟩

/-- An error that is met at once. -/
def failing (e : QueryError) : Course := ⟨[], some e⟩

@[simp] theorem of_nil : of [] = 0 := rfl

@[simp] theorem found_of (l : List Bindings) : (of l).found = l := rfl

@[simp] theorem error_of (l : List Bindings) : (of l).error = none := rfl

theorem add_of_error (h : c.error = some e) (d : Course) : c + d = c := by
  change (match c.error with
    | some _ => c
    | none => ⟨c.found ++ d.found, d.error⟩) = c
  rw [h]

theorem add_of_no_error (h : c.error = none) (d : Course) :
    c + d = ⟨c.found ++ d.found, d.error⟩ := by
  change (match c.error with
    | some _ => c
    | none => ⟨c.found ++ d.found, d.error⟩) = _
  rw [h]

theorem of_add (l : List Bindings) (d : Course) : of l + d = ⟨l ++ d.found, d.error⟩ := rfl

/-- **Nothing comes after an error.** -/
@[simp] theorem failing_add (e : QueryError) (d : Course) : failing e + d = failing e := rfl

instance : AddMonoid Course where
  nsmul := nsmulRec
  zero_add c := rfl
  add_zero c := by
    cases h : c.error with
    | some e => exact add_of_error h 0
    | none =>
      rw [add_of_no_error h]
      ext1
      · exact List.append_nil _
      · exact h.symm
  add_assoc c d f := by
    cases h : c.error with
    | some e => rw [add_of_error h, add_of_error h, add_of_error h]
    | none =>
      rw [add_of_no_error h d, add_of_no_error h]
      cases h' : d.error with
      | some e => rw [add_of_error h', h', add_of_error rfl]
      | none => simp only [add_of_no_error h', add_of_no_error, List.append_assoc]

theorem of_append (l l' : List Bindings) : of (l ++ l') = of l + of l' := rfl

/-- What is found first, is found. -/
theorem prefix_of_add (h : of l + d = c) : l <+: c.found := by
  rw [← h, of_add]
  exact List.prefix_append l d.found

/-- Go on from everything that is found. -/
def bind (c : Course) (k : Bindings → Course) : Course :=
  (c.found.map k).sum + ⟨[], c.error⟩

@[simp] theorem bind_of (l : List Bindings) (k : Bindings → Course) :
    (of l).bind k = (l.map k).sum :=
  add_zero _

@[simp] theorem zero_bind (k : Bindings → Course) : (0 : Course).bind k = 0 := rfl

@[simp] theorem failing_bind (e : QueryError) (k : Bindings → Course) :
    (failing e).bind k = failing e := rfl

/-- Going on from what is found first, and then from what is found later. -/
theorem add_bind (c d : Course) (k : Bindings → Course) :
    (c + d).bind k = c.bind k + d.bind k := by
  cases h : c.error with
  | some e =>
    rw [add_of_error h, bind, h, add_assoc]
    rfl
  | none =>
    have hnone : (⟨[], none⟩ : Course) = 0 := rfl
    rw [add_of_no_error h, bind, bind, bind, h, hnone, add_zero, List.map_append, List.sum_append,
      add_assoc]

theorem sum_bind (cs : List Course) (k : Bindings → Course) :
    cs.sum.bind k = (cs.map fun c => c.bind k).sum := by
  induction cs with
  | nil => rfl
  | cons c cs ih => rw [List.sum_cons, add_bind, ih, List.map_cons, List.sum_cons]

/-! ## Clauses -/

/-- What a complete clause contributes: the empty binding set stands in for
nothing. -/
def results (c : Course) : List Bindings :=
  if c.found.isEmpty then [∅] else c.found

/-- A trunk with its clauses, some of them complete, and the others to be gone
through one after the other: the combinations, or the first error that is met. -/
def joinFrom (trunk : Bindings) (complete : List (List Bindings)) (clauses : List Course) :
    Course :=
  match clauses.findSome? Course.error with
  | some e => failing e
  | none => of (Junction.combine trunk (complete ++ clauses.map results))

/-- A trunk with its clauses. -/
def join (trunk : Bindings) (clauses : List Course) : Course :=
  joinFrom trunk [] clauses

end Course

/-! ## The work of a search -/

/-- What the triples that remain are matched with: the one that is planned
first, among its candidates in their order, and then the others. -/
def trunkCourse (g : Graph) (cs : Constraints) (remaining : List Statement) (b : Bindings) :
    Course :=
  if remaining = [] then .of [b]
  else
    match g.plan b remaining with
    | none => 0
    | some p =>
      match _h : remaining[p.selected]? with
      | none => 0
      | some triple =>
        match Frame.alternatives g b triple p.estimate.candidates.toList with
        | .error e => .failing e
        | .ok bs =>
          ((bs.filter cs.satisfiedBy).map (trunkCourse g cs (remaining.eraseIdx p.selected))).sum
termination_by remaining.length
decreasing_by
  obtain ⟨hlt, -⟩ := List.getElem?_eq_some_iff.1 _h
  rw [List.length_eraseIdx_of_lt hlt]
  omega

mutual

/-- What a search for a pattern finds, inside enclosing constraints, from one
binding set on. -/
def course (g : Graph) (outer : Constraints) : Pattern → Bindings → Course
  | ⟨triples, optionals, constraints, _⟩, b =>
    if (outer ∪ constraints).satisfiedBy b then
      (trunkCourse g (outer ∪ constraints) triples b).bind fun trunk =>
        .join trunk (clauseCourses g (outer ∪ constraints) trunk optionals)
    else 0

/-- What the clauses find, each from the trunk and its own fixed values. -/
def clauseCourses (g : Graph) (inForce : Constraints) (trunk : Bindings) :
    List Pattern → List Course
  | [] => []
  | clause :: clauses =>
    course g inForce clause (clause.initial ∪ trunk) :: clauseCourses g inForce trunk clauses

end

theorem trunkCourse_nil (g : Graph) (cs : Constraints) (b : Bindings) :
    trunkCourse g cs [] b = .of [b] := by
  rw [trunkCourse, if_pos rfl]

section

variable {g : Graph} {cs : Constraints} {remaining : List Statement} {b : Bindings} {p : Plan}
  {triple : Statement}

/-- Nothing is found if no triple has a candidate. -/
theorem trunkCourse_of_plan_eq_none (hne : remaining ≠ []) (hp : g.plan b remaining = none) :
    trunkCourse g cs remaining b = 0 := by
  rw [trunkCourse, if_neg hne]
  simp only [hp]

/-- The triple that is planned first is matched with its candidates. -/
theorem trunkCourse_of_plan_eq_some (hne : remaining ≠ []) (hp : g.plan b remaining = some p)
    (ht : remaining[p.selected]? = some triple) : trunkCourse g cs remaining b =
      match Frame.alternatives g b triple p.estimate.candidates.toList with
      | .error e => .failing e
      | .ok bs =>
        ((bs.filter cs.satisfiedBy).map
          (trunkCourse g cs (remaining.eraseIdx p.selected))).sum := by
  rw [trunkCourse, if_neg hne]
  simp only [hp]
  split
  · rename_i hno
    rw [ht] at hno
    cases hno
  · rename_i triple' ht'
    obtain rfl : triple = triple' := Option.some.inj (ht.symm.trans ht')
    rfl

end

namespace Frame

variable {g : Graph} {f : Frame} {fs : List Frame} {e : QueryError}

/-- What a path finds. -/
def course (g : Graph) (f : Frame) : Course :=
  (trunkCourse g f.scope.constraints f.remaining f.bindings).bind fun trunk =>
    .join trunk (clauseCourses g f.scope.constraints trunk f.scope.pattern.optionals)

/-- A path with no triple left goes on into the clauses. -/
theorem course_of_nil (h : f.remaining = []) : f.course g =
    .join f.bindings
      (clauseCourses g f.scope.constraints f.bindings f.scope.pattern.optionals) := by
  rw [course, h, trunkCourse_nil, Course.bind_of, List.map_singleton, List.sum_singleton]

/-- **A path finds what the paths that go on find**, one after the other. -/
theorem course_of_expand (hne : f.remaining ≠ []) (h : f.expand g = .ok fs) :
    f.course g = (fs.map (Frame.course g)).sum := by
  cases hp : g.plan f.bindings f.remaining with
  | none =>
    rw [expand_of_plan_eq_none hp] at h
    cases h
    rw [course, trunkCourse_of_plan_eq_none hne hp]
    rfl
  | some p =>
    obtain ⟨triple, ht, -, -⟩ := Graph.plan_eq_some hp
    rw [expand_of_plan_eq_some hp ht] at h
    rw [course, trunkCourse_of_plan_eq_some hne hp ht]
    cases hbs : alternatives g f.bindings triple p.estimate.candidates.toList with
    | error e =>
      rw [hbs] at h
      cases h
    | ok bs =>
      rw [hbs] at h
      cases h
      rw [Course.sum_bind, List.map_map, List.map_map]
      rfl

/-- An error that a path meets is all that it finds. -/
theorem course_of_error (hne : f.remaining ≠ []) (h : f.expand g = .error e) :
    f.course g = .failing e := by
  cases hp : g.plan f.bindings f.remaining with
  | none =>
    rw [expand_of_plan_eq_none hp] at h
    cases h
  | some p =>
    obtain ⟨triple, ht, -, -⟩ := Graph.plan_eq_some hp
    rw [expand_of_plan_eq_some hp ht] at h
    rw [course, trunkCourse_of_plan_eq_some hne hp ht]
    cases hbs : alternatives g f.bindings triple p.estimate.candidates.toList with
    | error e' =>
      rw [hbs] at h
      cases h
      rfl
    | ok bs =>
      rw [hbs] at h
      cases h

/-- **A scope that is entered finds what its pattern does**, unless the bindings
break its constraints. -/
theorem course_enter (g : Graph) (outer : Constraints) (p : Pattern) (b : Bindings)
    (search branch : Id) (awaited : List String) : TripleQuery.course g outer p b =
      if (enter search branch (.inside outer p) b awaited).isAllowed b then
        (enter search branch (.inside outer p) b awaited).course g
      else 0 := by
  cases p
  rw [TripleQuery.course]
  rfl

end Frame

end TripleQuery
