import TripleQuery.Search.Branch
import TripleQuery.Proofs.Matching.Unifying
import TripleQuery.Proofs.Matching.Validation
/-!
# Siblings — clauses whose results go together

Binding sets that agree on the keys that they share, two by two, are put
together without conflict: no union replaces a value by another one, and the
result goes beyond each of them (`Bindings.conflictFree_of_pairwise`). The
results of a clause go beyond its trunk, by variables of the clause only
(`Pattern.Contributes`). So if no two clauses have a variable in common that the
trunk does not bind, their results agree with each other and with the trunk
(`Pattern.pairwise_agrees`), and whatever a junction combines is put together
without conflict.
-/

namespace TripleQuery

open Std (ExtTreeMap)

namespace Bindings

variable {a b c r trunk : Bindings} {choice : List Bindings} {v : Term}

/-! ## Agreement -/

/-- Two binding sets give one value to every key that they share. -/
def Agrees (a b : Bindings) : Prop :=
  ∀ v x y : Term, a[v]? = some x → b[v]? = some y → x = y

theorem Agrees.symm (h : a.Agrees b) : b.Agrees a :=
  fun v x y hx hy => (h v y x hy hx).symm

theorem agrees_empty (a : Bindings) : a.Agrees ∅ := fun _ _ _ _ hy => by simp at hy

/-- What goes beyond a set agrees with it. -/
theorem Extends.agrees (h : b.Extends a) : a.Agrees b := fun v x _ hx hy =>
  Option.some.inj ((h v x hx).symm.trans hy)

/-- **A union replaces no value** where the two sides agree. -/
theorem Agrees.extends_union (h : a.Agrees b) : (a ∪ b).Extends a := by
  intro v x hx
  rw [ExtTreeMap.getElem?_union]
  cases hb : b[v]? with
  | none => simpa using hx
  | some y => simp [h v x y hx hb]

theorem Agrees.union (ha : a.Agrees c) (hb : b.Agrees c) : (a ∪ b).Agrees c := by
  intro v x y hx hy
  rw [ExtTreeMap.getElem?_union] at hx
  cases hbv : b[v]? with
  | none =>
    rw [hbv] at hx
    exact ha v x y (by simpa using hx) hy
  | some z =>
    rw [hbv] at hx
    obtain rfl : z = x := by simpa using hx
    exact hb v z y hbv hy

/-- Sets that agree may change sides. -/
theorem Agrees.union_comm (h : a.Agrees b) : a ∪ b = b ∪ a := by
  ext v x
  rw [ExtTreeMap.getElem?_union, ExtTreeMap.getElem?_union]
  cases ha : a[v]? with
  | none => simp
  | some y =>
    cases hb : b[v]? with
    | none => simp
    | some z => simp [h v y z ha hb]

theorem union_assoc (a b c : Bindings) : a ∪ b ∪ c = a ∪ (b ∪ c) := by
  ext v x
  simp [ExtTreeMap.getElem?_union, Option.or_assoc]

/-! ## Sets put together -/

/-- A trunk with some binding sets added to it, one after the other. -/
def joined (trunk : Bindings) (choice : List Bindings) : Bindings :=
  choice.foldl (· ∪ ·) trunk

/-- A trunk and some binding sets are put together without conflict. -/
structure ConflictFree (trunk : Bindings) (choice : List Bindings) : Prop where
  /-- They agree, two by two. -/
  agree : (trunk :: choice).Pairwise Agrees
  /-- No set that is added replaces a value by another one. -/
  added {n : Nat} {r : Bindings} : choice[n]? = some r → (trunk.joined (choice.take n)).Agrees r
  /-- What comes out goes beyond all of them. -/
  beyond : (trunk.joined choice).Extends trunk
  beyondChosen {r : Bindings} : r ∈ choice → (trunk.joined choice).Extends r

/-- **Sets that agree two by two are put together without conflict.** -/
theorem conflictFree_of_pairwise (h : (trunk :: choice).Pairwise Agrees) :
    ConflictFree trunk choice := by
  induction choice generalizing trunk with
  | nil =>
    exact ⟨h, fun hn => by simp at hn, .refl trunk, fun hr => by cases hr⟩
  | cons r choice ih =>
    obtain ⟨htrunk, hrest⟩ := List.pairwise_cons.1 h
    obtain ⟨hr, hchoice⟩ := List.pairwise_cons.1 hrest
    have hfirst : trunk.Agrees r := htrunk r List.mem_cons_self
    have hnext : ((trunk ∪ r) :: choice).Pairwise Agrees :=
      List.pairwise_cons.2
        ⟨fun s hs => (htrunk s (List.mem_cons_of_mem _ hs)).union (hr s hs), hchoice⟩
    have hjoined := ih hnext
    refine ⟨h, fun {n s} hn => ?_, hjoined.beyond.trans hfirst.extends_union, fun {s} hs => ?_⟩
    · cases n with
      | zero => exact Option.some.inj hn ▸ hfirst
      | succ n => exact hjoined.added hn
    · rcases List.mem_cons.1 hs with rfl | hs
      · exact hjoined.beyond.trans (extends_union trunk s)
      · exact hjoined.beyondChosen hs

/-- Every key of what is put together is a key of some part. -/
theorem mem_joined : v ∈ trunk.joined choice ↔ v ∈ trunk ∨ ∃ r ∈ choice, v ∈ r := by
  induction choice generalizing trunk with
  | nil => simp [joined]
  | cons r choice ih =>
    rw [joined, List.foldl_cons, ← joined, ih, ExtTreeMap.mem_union_iff]
    simp [or_assoc]

/-- What is put together of values of variables has values of variables. -/
theorem OnVariables.joined (ht : trunk.OnVariables) (hc : ∀ r ∈ choice, r.OnVariables) :
    (trunk.joined choice).OnVariables := by
  intro v hv
  rcases mem_joined.1 hv with hv | ⟨r, hr, hv⟩
  · exact ht v hv
  · exact hc r hr v hv

end Bindings

/-- **What a junction combines**: its trunk with one result of each clause. -/
theorem Junction.mem_combine_iff {trunk x : Bindings} {results : List (List Bindings)} :
    x ∈ combine trunk results ↔
      ∃ choice, List.Forall₂ (· ∈ ·) choice results ∧ x = trunk.joined choice := by
  induction results generalizing trunk with
  | nil => simp [combine_nil, Bindings.joined]
  | cons rs results ih =>
    simp only [combine_cons, List.mem_flatMap, ih, List.forall₂_cons_right_iff]
    constructor
    · rintro ⟨r, hr, choice, hc, rfl⟩
      exact ⟨_, ⟨r, choice, hr, hc, rfl⟩, rfl⟩
    · rintro ⟨_, ⟨r, choice, hr, hc, rfl⟩, rfl⟩
      exact ⟨r, hr, choice, hc, rfl⟩

namespace Pattern

variable {c c' p : Pattern} {clauses : List Pattern} {base trunk r r' x : Bindings}
  {choice : List Bindings}

/-! ## What clauses contribute -/

/-- A binding set goes beyond another by variables of a pattern only. -/
structure Spans (p : Pattern) (base x : Bindings) : Prop where
  onVariables : x.OnVariables
  extends_ : x.Extends base
  within {v : Term} : v ∈ x → v ∈ base ∨ v ∈ p.allVariableList

/-- What a clause may contribute to a trunk: the empty set, or the trunk with
values for variables of the clause. -/
def Contributes (c : Pattern) (trunk r : Bindings) : Prop :=
  r = ∅ ∨ c.Spans trunk r

/-- Two clauses have no variable in common that the trunk does not bind. -/
def ApartFrom (trunk : Bindings) (c c' : Pattern) : Prop :=
  ∀ v, v ∈ c.allVariableList → v ∈ c'.allVariableList → v ∈ trunk

theorem Contributes.onVariables (h : c.Contributes trunk r) : r.OnVariables := by
  rcases h with rfl | h
  · exact Bindings.onVariables_empty
  · exact h.onVariables

theorem Contributes.within (h : c.Contributes trunk r) {v : Term} (hv : v ∈ r) :
    v ∈ trunk ∨ v ∈ c.allVariableList := by
  rcases h with rfl | h
  · simp at hv
  · exact h.within hv

/-- A contribution agrees with the trunk. -/
theorem Contributes.agrees_trunk (h : c.Contributes trunk r) : trunk.Agrees r := by
  rcases h with rfl | h
  · exact Bindings.agrees_empty trunk
  · exact h.extends_.agrees

/-- **Contributions of clauses that are apart agree.** -/
theorem Contributes.agrees (h : c.Contributes trunk r) (h' : c'.Contributes trunk r')
    (hapart : ApartFrom trunk c c') : r.Agrees r' := by
  rcases h with rfl | h
  · exact (Bindings.agrees_empty r').symm
  rcases h' with rfl | h'
  · exact Bindings.agrees_empty r
  intro v x y hx hy
  -- the trunk binds every variable of both
  have hv : v ∈ trunk := by
    rcases h.within (mem_of_getElem? hx) with hv | hv
    · exact hv
    · rcases h'.within (mem_of_getElem? hy) with hv' | hv'
      · exact hv'
      · exact hapart v hv hv'
  obtain ⟨value, hvalue⟩ := exists_getElem? hv
  have hleft : some value = some x := (h.extends_ v value hvalue).symm.trans hx
  have hright : some value = some y := (h'.extends_ v value hvalue).symm.trans hy
  exact Option.some.inj (hleft.symm.trans hright)

/-- **One contribution of each clause, and the trunk, agree two by two**, if the
clauses are apart. -/
theorem pairwise_agrees (hclauses : clauses.Pairwise (ApartFrom trunk))
    (hchoice : List.Forall₂ (fun c r => c.Contributes trunk r) clauses choice) :
    (trunk :: choice).Pairwise Bindings.Agrees := by
  refine List.pairwise_cons.2 ⟨fun r hr => ?_, ?_⟩
  · obtain ⟨c, -, hc⟩ := exists_of_mem_forall₂ hchoice hr
    exact hc.agrees_trunk
  · induction hchoice with
    | nil => exact .nil
    | @cons c r clauses choice hc hrest ih =>
      obtain ⟨hfirst, hclauses⟩ := List.pairwise_cons.1 hclauses
      refine List.pairwise_cons.2 ⟨fun r' hr' => ?_, ih hclauses⟩
      obtain ⟨c', hmem, hc'⟩ := exists_of_mem_forall₂ hrest hr'
      exact hc.agrees hc' (hfirst c' hmem)

/-- What is put together of a trunk and one contribution of each clause goes
beyond what the trunk goes beyond, by variables of the pattern. -/
theorem Spans.joined (h : p.Spans base trunk)
    (hclauses : p.optionals.Pairwise (ApartFrom trunk))
    (hchoice : List.Forall₂ (fun c r => c.Contributes trunk r) p.optionals choice) :
    p.Spans base (trunk.joined choice) where
  onVariables := h.onVariables.joined fun r hr => by
    obtain ⟨c, -, hc⟩ := exists_of_mem_forall₂ hchoice hr
    exact hc.onVariables
  extends_ :=
    (Bindings.conflictFree_of_pairwise (pairwise_agrees hclauses hchoice)).beyond.trans h.extends_
  within {v} hv := by
    rcases Bindings.mem_joined.1 hv with hv | ⟨r, hr, hv⟩
    · exact h.within hv
    · obtain ⟨c, hmem, hc⟩ := exists_of_mem_forall₂ hchoice hr
      rcases hc.within hv with hv | hv
      · exact h.within hv
      · exact .inr (mem_allVariableList.2 (.inr ⟨c, hmem, hv⟩))

end Pattern

end TripleQuery
