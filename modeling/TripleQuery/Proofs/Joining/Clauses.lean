import TripleQuery.Proofs.Joining.Pursuit
/-!
# Clauses — siblings in another order

The clauses of a pattern may be listed in another order, and so may those of its
clauses (`Pattern.Reorders`). In a pattern that makes sense they contribute sets
that agree, so it does not matter which is put to the trunk first
(`Yield.combine_perm`); and no clause contributes nothing, so no error is
overlooked. The other pattern makes sense too, and what a search for it amounts
to is the same, errors included (`Pattern.Reorders.answers_eq`).
-/

namespace TripleQuery

variable {p p' q c c' : Pattern} {l r clauses : List Pattern} {outer trunk : TermSet} {v : Term}

/-! ## Combinations -/

namespace Yield

variable {y z : Yield} {ys zs : List Yield} {k : Bindings → Bindings → Yield}

/-- Whatever the one finds agrees with whatever the other finds. -/
def Agreeing (y z : Yield) : Prop :=
  ∀ r s, y.Finds r → z.Finds s → r.Agrees s

theorem Agreeing.symm (h : y.Agreeing z) : z.Agreeing y :=
  fun r s hr hs => (h s r hs hr).symm

/-- Going on from two yields that are not nothing, it does not matter from which
one first. -/
theorem bind_comm (hy : y ≠ 0) (hz : z ≠ 0) :
    (y.bind fun r => z.bind fun s => k r s) = z.bind fun s => y.bind fun r => k r s := by
  rcases eq_top_or_of y with rfl | ⟨l, rfl⟩
  · exact (bind_eq_top hz fun s => rfl).symm
  rcases eq_top_or_of z with rfl | ⟨l', rfl⟩
  · exact bind_eq_top hy fun r => rfl
  simp only [bind_of]
  exact Multiset.sum_map_sum_map (l : Multiset Bindings) (l' : Multiset Bindings)

/-- **It does not matter in which order sets that agree are put together.** -/
theorem combine_perm (h : ys.Perm zs) (hne : ∀ y ∈ ys, y ≠ 0) (hagree : ys.Pairwise Agreeing)
    (sofar : Bindings) : combine sofar ys = combine sofar zs := by
  induction h generalizing sofar with
  | nil => rfl
  | cons y _ ih =>
    rw [combine, combine]
    exact bind_congr fun r _ => ih (fun z hz => hne z (List.mem_cons_of_mem _ hz))
      (List.pairwise_cons.1 hagree).2 _
  | swap y z ys =>
    simp only [combine]
    rw [bind_comm (hne _ List.mem_cons_self) (hne _ (List.mem_cons_of_mem _ List.mem_cons_self))]
    refine bind_congr fun r hr => bind_congr fun s hs => ?_
    have hrs := (List.pairwise_cons.1 hagree).1 _ List.mem_cons_self s r hs hr
    rw [Bindings.union_assoc, hrs.union_comm, ← Bindings.union_assoc]
  | @trans ys us zs h _ ih ih' =>
    have hne' : ∀ y ∈ us, y ≠ 0 := fun y hy => hne y (h.mem_iff.2 hy)
    exact (ih hne hagree sofar).trans
      (ih' hne' ((h.pairwise_iff Agreeing.symm).1 hagree) sofar)

end Yield

namespace Pattern

/-! ## Patterns with their clauses in another order -/

/-- A pattern, with clauses that are siblings of each other in another order. -/
inductive Reorders : Pattern → Pattern → Prop
  /-- Its own clauses are in another order. -/
  | siblings {p : Pattern} {clauses : List Pattern} :
      p.optionals.Perm clauses → Reorders p { p with optionals := clauses }
  /-- Those of one of its clauses are. -/
  | inside {p c c' : Pattern} {l r : List Pattern} :
      p.optionals = l ++ c :: r → Reorders c c' →
      Reorders p { p with optionals := l ++ c' :: r }
  /-- One change after another. -/
  | trans {p q p' : Pattern} : Reorders p q → Reorders q p' → Reorders p p'

/-- A pattern has the variables that it had. -/
theorem Reorders.mem_allVariableList (h : Reorders p p') :
    v ∈ p'.allVariableList ↔ v ∈ p.allVariableList := by
  induction h with
  | @siblings p clauses hperm =>
    rw [Pattern.mem_allVariableList, Pattern.mem_allVariableList]
    simp only [hperm.mem_iff]
    rfl
  | @inside p c c' l r hsplit _ ih =>
    rw [Pattern.mem_allVariableList, Pattern.mem_allVariableList, hsplit]
    simp only [List.mem_append, List.mem_cons, or_and_right, exists_or, exists_eq_left, ih]
    rfl
  | trans _ _ ih ih' => rw [ih', ih]

theorem Reorders.initial_eq (h : Reorders p p') : p'.initial = p.initial := by
  induction h with
  | siblings _ | inside _ _ _ => rfl
  | trans _ _ ih ih' => rw [ih', ih]

/-- **It fixes values of variables only, if it did.** -/
theorem Reorders.bindsVariables (h : Reorders p p') (hp : p.BindsVariables) :
    p'.BindsVariables := by
  induction h with
  | @siblings p clauses hperm =>
    exact bindsVariables_iff.2 ⟨hp.initial, fun c hc => hp.optionals.mem (hperm.mem_iff.2 hc)⟩
  | @inside p c c' l r hsplit _ ih =>
    have hmem := hp.optionals
    rw [hsplit] at hmem
    refine bindsVariables_iff.2 ⟨hp.initial, fun d hd => ?_⟩
    rcases List.mem_append.1 hd with hd | hd
    · exact hmem.mem (List.mem_append_left _ hd)
    rcases List.mem_cons.1 hd with rfl | hd
    · exact ih (hmem.mem (List.mem_append_right _ List.mem_cons_self))
    · exact hmem.mem (List.mem_append_right _ (List.mem_cons_of_mem _ hd))
  | trans _ _ ih ih' => exact ih' (ih hp)

/-- **It makes sense, if it did.** -/
theorem Reorders.validateIn (h : Reorders p p') (hp : p.validateIn outer = .ok ()) :
    p'.validateIn outer = .ok () := by
  induction h generalizing outer with
  | @siblings p clauses hperm =>
    have hvars := fun v => (Reorders.siblings hperm).mem_allVariableList (v := v)
    obtain ⟨hmean, hapart, hall⟩ := validateIn_eq_ok.1 hp
    refine validateIn_eq_ok.2 ⟨fun v hv => ?_, ?_, fun c hc => hall c (hperm.mem_iff.2 hc)⟩
    · exact ⟨(hmean v hv).1, (hmean v hv).2.imp_right (hvars v).2⟩
    · exact (hperm.pairwise_iff Apart.symm).1 hapart
  | @inside p c c' l r hsplit hc ih =>
    have hvars := fun v => (Reorders.inside hsplit hc).mem_allVariableList (v := v)
    obtain ⟨hmean, hapart, hall⟩ := validateIn_eq_ok.1 hp
    rw [hsplit] at hapart hall
    refine validateIn_eq_ok.2 ⟨fun v hv => ?_, ?_, fun d hd => ?_⟩
    · exact ⟨(hmean v hv).1, (hmean v hv).2.imp_right (hvars v).2⟩
    · -- the clause that was changed has the variables that it had
      have hleft : ∀ d, Apart (p.trunk outer) d c' ↔ Apart (p.trunk outer) d c := fun d => by
        simp only [Apart, hc.mem_allVariableList]
      have hright : ∀ d, Apart (p.trunk outer) c' d ↔ Apart (p.trunk outer) c d := fun d => by
        simp only [Apart, hc.mem_allVariableList]
      change (l ++ c' :: r).Pairwise (Apart (p.trunk outer))
      simpa only [List.pairwise_append, List.pairwise_cons, List.mem_cons, forall_eq_or_imp,
        hleft, hright] using hapart
    · rcases List.mem_append.1 hd with hd | hd
      · exact hall d (List.mem_append_left _ hd)
      rcases List.mem_cons.1 hd with rfl | hd
      · exact ih (hall c (List.mem_append_right _ List.mem_cons_self))
      · exact hall d (List.mem_append_right _ (List.mem_cons_of_mem _ hd))
  | trans _ _ ih ih' => exact ih' (ih hp)

end Pattern

/-! ## What a search amounts to -/

section

variable {g : Graph} {outer inForce : Constraints} {base trunk x : Bindings}

theorem answers_eq (g : Graph) (outer : Constraints) (p : Pattern) (x : Bindings) :
    answers g outer p x = if (outer ∪ p.constraints).satisfiedBy x then
        (trunks g (outer ∪ p.constraints) p.triples x).bind fun trunk =>
          Yield.combine trunk (clauseAnswers g (outer ∪ p.constraints) trunk p.optionals)
      else 0 := by
  cases p
  rw [answers]

/-- What is contributed by clauses that are apart agrees. -/
theorem clauseAnswers_agreeing (hv : ∀ c ∈ clauses, c.validateIn trunk.keySet = .ok ())
    (hp : ∀ c ∈ clauses, c.BindsVariables) (ht : trunk.OnVariables)
    (hapart : clauses.Pairwise (Pattern.ApartFrom trunk)) :
    (clauseAnswers g inForce trunk clauses).Pairwise Yield.Agreeing := by
  have hcontributes : ∀ c ∈ clauses, ∀ r,
      (answers g inForce c (c.initial ∪ trunk)).orEmpty.Finds r → c.Contributes trunk r := by
    intro c hc r hr
    refine (Yield.finds_of_orEmpty hr).imp_right fun hr => ?_
    exact Pattern.spans_of_finds g c (hv c hc) (hp c hc)
      (Pattern.starts_clause (hp c hc).initial ht) hr
  rw [clauseAnswers_eq_map, List.pairwise_map]
  exact hapart.imp_of_mem fun hc hc' hcc r s hr hs =>
    (hcontributes _ hc r hr).agrees (hcontributes _ hc' s hs) hcc

/-- **A search for a pattern amounts to the same whatever order sibling clauses
are in.** -/
theorem Pattern.Reorders.answers_eq (h : Pattern.Reorders p p')
    (hv : p.validateIn base.keySet = .ok ()) (hp : p.BindsVariables) (hx : p.Starts base x) :
    answers g outer p' x = answers g outer p x := by
  induction h generalizing outer base x with
  | @siblings p clauses hperm =>
    rw [TripleQuery.answers_eq, TripleQuery.answers_eq]
    split
    · refine Yield.bind_congr fun trunk htrunk => ?_
      have ht := Pattern.isTrunk_of_finds hx htrunk
      have hagree : (clauseAnswers g (outer ∪ p.constraints) trunk p.optionals).Pairwise
          Yield.Agreeing :=
        clauseAnswers_agreeing (fun c hc => ht.validateIn hv hc)
          (fun c hc => hp.optionals.mem hc) ht.onVariables (ht.apart hv)
      rw [clauseAnswers_eq_map] at hagree ⊢
      rw [clauseAnswers_eq_map]
      refine (Yield.combine_perm (hperm.map _) (fun y hy => ?_) hagree trunk).symm
      obtain ⟨c, -, rfl⟩ := List.mem_map.1 hy
      exact Yield.orEmpty_ne_zero _
    · rfl
  | @inside p c c' l r hsplit hc ih =>
    rw [TripleQuery.answers_eq, TripleQuery.answers_eq]
    split
    · refine Yield.bind_congr fun trunk htrunk => ?_
      have ht := Pattern.isTrunk_of_finds hx htrunk
      have hmem : c ∈ p.optionals := by rw [hsplit]; simp
      have hbinds := hp.optionals.mem hmem
      have hclause : answers g (outer ∪ p.constraints) c' (c.initial ∪ trunk) =
          answers g (outer ∪ p.constraints) c (c.initial ∪ trunk) :=
        ih (ht.validateIn hv hmem) hbinds (Pattern.starts_clause hbinds.initial ht.onVariables)
      rw [← hc.initial_eq] at hclause
      rw [clauseAnswers_eq_map, clauseAnswers_eq_map, hsplit, List.map_append, List.map_append,
        List.map_cons, List.map_cons, hclause, hc.initial_eq]
    · rfl
  | trans h _ ih ih' =>
    have hx' : Pattern.Starts _ base x :=
      ⟨hx.onVariables, hx.extends_, fun v => by rw [h.initial_eq, hx.mem_iff]⟩
    exact (ih' (h.validateIn hv) (h.bindsVariables hp) hx').trans (ih hv hp hx)

end

end TripleQuery
