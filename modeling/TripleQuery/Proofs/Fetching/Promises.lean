import TripleQuery.Proofs.Fetching.History
/-!
# Promises — who is to be called, and with what

Whoever registers for a document is promised a call: with the outcome that is
recorded, or with that of the first delivery from then on (`Tables.promised`).
Until that delivery he waits (`Tables.waits`). Those who wait in the tables are
those who wait by the history (`Tables.waiters_after`), and each deed promises
the calls that are due after it, no more and no fewer (`Tables.promised_concat`).
-/

namespace TripleQuery

variable {κ : Type} {X : Tables κ} {e : Deed κ} {T : List (Deed κ)} {d r : String}
  {o : FetchOutcome} {w : κ} {ws : List κ}

/-- The call that is made. -/
def Deed.call? : Deed κ → Option (κ × FetchOutcome)
  | .called w o => some (w, o)
  | _ => none

/-- The outcome that a document is delivered with. -/
def Deed.outcome? (d : String) : Deed κ → Option FetchOutcome
  | .delivered o _ => if o.resource = d then some o else none
  | _ => none

/-- The calls that were made, in order. -/
def calledIn (T : List (Deed κ)) : List (κ × FetchOutcome) :=
  T.filterMap Deed.call?

/-- The outcome of the first delivery of a document. -/
def firstDelivery (d : String) (T : List (Deed κ)) : Option FetchOutcome :=
  T.findSome? (Deed.outcome? d)

@[simp] theorem calledIn_append (T T' : List (Deed κ)) :
    calledIn (T ++ T') = calledIn T ++ calledIn T' :=
  List.filterMap_append

@[simp] theorem firstDelivery_nil : firstDelivery d ([] : List (Deed κ)) = none := rfl

theorem firstDelivery_cons (d : String) (e : Deed κ) (T : List (Deed κ)) :
    firstDelivery d (e :: T) = (e.outcome? d).or (firstDelivery d T) := by
  rw [firstDelivery, List.findSome?_cons]
  cases e.outcome? d <;> rfl

theorem firstDelivery_append (d : String) (T T' : List (Deed κ)) :
    firstDelivery d (T ++ T') = (firstDelivery d T).or (firstDelivery d T') :=
  List.findSome?_append

/-- A delivery is that of its document. -/
theorem resource_of_firstDelivery (h : firstDelivery d T = some o) : o.resource = d := by
  obtain ⟨e, -, he⟩ := List.exists_of_findSome?_eq_some h
  cases e with
  | delivered o' ws =>
    simp only [Deed.outcome?] at he
    split at he
    · rename_i hd
      exact Option.some.inj he ▸ hd
    · cases he
  | _ => cases he

namespace Tables

/-- What those who register after some deeds are promised, as far as it has come
true. -/
def promised (X : Tables κ) : List (Deed κ) → List (κ × FetchOutcome)
  | [] => []
  | .registered r w :: T =>
    (((X.outcomes (documentPart r)).or (firstDelivery (documentPart r) T)).map (w, ·)).toList ++
      (X.apply (.registered r w)).promised T
  | e :: T => (X.apply e).promised T

/-- Those who have registered for a document and wait for it to be delivered. -/
def waits (X : Tables κ) (d : String) : List (Deed κ) → List κ
  | [] => []
  | .registered r w :: T =>
    (if documentPart r = d ∧ (X.outcomes d).or (firstDelivery d T) = none then [w] else []) ++
      (X.apply (.registered r w)).waits d T
  | e :: T => (X.apply e).waits d T

/-- **Those who are kept are those who wait**: with those who waited before, until
there is a delivery. -/
theorem waiters_after (X : Tables κ) (d : String) (T : List (Deed κ)) :
    (X.after T).waiters d =
      (firstDelivery d T).elim (X.waiters d) (fun _ => []) ++ X.waits d T := by
  induction T generalizing X with
  | nil => simp [waits]
  | cons e T ih =>
    rw [after_cons, ih, firstDelivery_cons]
    cases e with
    | requested r | refreshed r =>
      refine congrArg (fun ws => (firstDelivery d T).elim ws (fun _ => []) ++ _) ?_
      simp only [apply]
      split <;> rfl
    | called w o => rfl
    | delivered o ws =>
      by_cases hd : o.resource = d
      · subst hd
        cases hfirst : firstDelivery o.resource T <;> simp [apply, waits, Deed.outcome?]
      · simp [apply, waits, Deed.outcome?, hd, Ne.symm hd]
    | registered r w =>
      rw [waits, ← List.append_assoc]
      refine congrArg (· ++ _) ?_
      simp only [Deed.outcome?, Option.none_or, apply]
      by_cases hr : documentPart r = d
      · subst hr
        cases X.outcomes (documentPart r) <;> cases firstDelivery (documentPart r) T <;> simp
      · simp only [hr, false_and, if_false, List.append_nil]
        cases X.outcomes (documentPart r) <;> simp [Ne.symm hr]

/-- What does not deliver makes no promise come true but its own. -/
theorem promised_concat_of_outcome? (he : ∀ d, e.outcome? d = none) (X : Tables κ)
    (T : List (Deed κ)) : X.promised (T ++ [e]) = X.promised T ++ (X.after T).due e := by
  have hfirst : ∀ d T', firstDelivery d (T' ++ [e]) = firstDelivery d T' := fun d T' => by
    rw [firstDelivery_append, firstDelivery_cons, he]
    simp
  induction T generalizing X with
  | nil =>
    cases e with
    | delivered o ws => simpa [Deed.outcome?] using he o.resource
    | _ => simp [promised, due]
  | cons e' T ih =>
    cases e' with
    | registered r w =>
      simp only [List.cons_append, promised, hfirst, ih, after_cons, List.append_assoc]
    | _ => simp only [List.cons_append, promised, ih, after_cons]

/-- **A delivery makes true what was promised to those who wait.** -/
theorem promised_concat_delivered (X : Tables κ) (T : List (Deed κ)) (o : FetchOutcome)
    (ws : List κ) : (X.promised (T ++ [.delivered o ws])).Perm
      (X.promised T ++ (X.waits o.resource T).map (·, o)) := by
  induction T generalizing X with
  | nil => simp [promised, waits]
  | cons e T ih =>
    cases e with
    | registered r w =>
      have hrest := ih (X.apply (.registered r w))
      simp only [List.cons_append, promised, waits, firstDelivery_append, firstDelivery_cons,
        firstDelivery_nil, Option.or_none]
      -- the promise of this registration comes true before, now, or not yet
      cases hcall : (X.outcomes (documentPart r)).or (firstDelivery (documentPart r) T) with
      | some o' =>
        have hsame : (X.outcomes (documentPart r)).or ((firstDelivery (documentPart r) T).or
            ((Deed.delivered o ws).outcome? (documentPart r))) = some o' := by
          rw [← Option.or_assoc, hcall]
          rfl
        have hwaits : ¬ (documentPart r = o.resource ∧
            (X.outcomes o.resource).or (firstDelivery o.resource T) = none) := by
          rintro ⟨hr, hn⟩
          rw [← hr, hcall] at hn
          cases hn
        rw [hsame, if_neg hwaits]
        exact hrest.cons _
      | none =>
        have hnext : (X.outcomes (documentPart r)).or ((firstDelivery (documentPart r) T).or
            ((Deed.delivered o ws).outcome? (documentPart r))) =
              (Deed.delivered o ws).outcome? (documentPart r) := by
          rw [← Option.or_assoc, hcall]
          rfl
        rw [hnext]
        by_cases hr : documentPart r = o.resource
        · rw [hr] at hcall ⊢
          simp only [hcall, Deed.outcome?, if_true, and_self, Option.map_some, Option.map_none,
            Option.toList_some, Option.toList_none, List.map_cons, List.nil_append,
            List.singleton_append]
          exact (hrest.cons _).trans List.perm_middle.symm
        · simpa [Deed.outcome?, hr, Ne.symm hr] using hrest
    | requested r | refreshed r | delivered o' ws' | called w' o' =>
      exact ih _

/-- **Each deed makes true what is due after it**, if nobody waits but those who
have registered since. -/
theorem promised_concat (hX : ∀ d, X.waiters d = []) (ha : (X.after T).Allows e) :
    (X.promised (T ++ [e])).Perm (X.promised T ++ (X.after T).due e) := by
  cases e with
  | delivered o ws =>
    have hws : ws = X.waits o.resource T := by
      rw [ha.2, waiters_after, hX]
      cases firstDelivery o.resource T <;> rfl
    rw [due]
    exact hws ▸ promised_concat_delivered X T o ws
  | requested r | refreshed r | registered r w | called w o =>
    rw [promised_concat_of_outcome? (fun _ => rfl)]

/-- **Whoever is called has registered** for the document that he is told of. -/
theorem registered_of_mem_promised (hX : X.Consistent) (hT : X.Follows T)
    (h : (w, o) ∈ X.promised T) : ∃ r, .registered r w ∈ T ∧ o.resource = documentPart r := by
  induction T generalizing X with
  | nil => cases h
  | cons e T ih =>
    have later : (w, o) ∈ (X.apply e).promised T →
        ∃ r, .registered r w ∈ e :: T ∧ o.resource = documentPart r := fun hmem => by
      obtain ⟨r, hr, ho⟩ := ih (hX.apply hT.1) hT.2 hmem
      exact ⟨r, List.mem_cons_of_mem _ hr, ho⟩
    cases e with
    | registered r w' =>
      rcases List.mem_append.1 h with hnow | hlater
      · obtain ⟨o', ho', he⟩ := Option.map_eq_some_iff.1 (Option.mem_toList.1 hnow)
        cases he
        refine ⟨r, List.mem_cons_self, ?_⟩
        rcases Option.or_eq_some_iff.1 ho' with hrecorded | ⟨-, hfirst⟩
        · exact (hX.resolved hrecorded).1
        · exact resource_of_firstDelivery hfirst
      · exact later hlater
    | requested r | refreshed r | delivered o' ws' | called w' o' => exact later h

end Tables

end TripleQuery
