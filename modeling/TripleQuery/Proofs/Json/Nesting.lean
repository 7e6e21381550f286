import TripleQuery.Json.Terms
import TripleQuery.Proofs.Merging.Redirections
/-!
# Nesting — how deep a written term is

The nesting of a text is the greatest number of arrays and objects that are
open at once (`nesting`). It is found by one scan that knows whether it is
inside of a string, since brackets there do not count.

A written value opens as many levels as its text nests, wherever it stands and
whatever comes after it (`Nests`). Such texts are put together from the strings
up; for terms this gives `nests_writeTerm`, and for statements
`nests_writeStatement`. A collection takes two levels more than its elements.
-/

namespace TripleQuery

namespace Json

/-! ## The nesting of a text -/

/-- Where in a text a scan is. -/
inductive Scan where
  /-- Outside of strings. -/
  | plain
  /-- Inside of a string. -/
  | quoted
  /-- After a backslash in a string. -/
  | escaped

/-- The greatest number of arrays and objects that are open at once from here
on, when so many are open already. -/
def deepest : Scan → Nat → List Char → Nat
  | _, n, [] => n
  | .plain, n, c :: cs =>
    if c = '"' then deepest .quoted n cs
    else if c = '[' ∨ c = '{' then deepest .plain (n + 1) cs
    else if c = ']' ∨ c = '}' then max n (deepest .plain (n - 1) cs)
    else deepest .plain n cs
  | .quoted, n, c :: cs =>
    if c = '"' then deepest .plain n cs
    else if c = '\\' then deepest .escaped n cs
    else deepest .quoted n cs
  | .escaped, n, _ :: cs => deepest .quoted n cs

theorem deepest_nil (m : Scan) (n : Nat) : deepest m n [] = n := by
  cases m <;> rfl

theorem deepest_plain_cons (n : Nat) (c : Char) (cs : List Char) :
    deepest .plain n (c :: cs) =
      if c = '"' then deepest .quoted n cs
      else if c = '[' ∨ c = '{' then deepest .plain (n + 1) cs
      else if c = ']' ∨ c = '}' then max n (deepest .plain (n - 1) cs)
      else deepest .plain n cs := rfl

theorem deepest_quoted_cons (n : Nat) (c : Char) (cs : List Char) :
    deepest .quoted n (c :: cs) =
      if c = '"' then deepest .plain n cs
      else if c = '\\' then deepest .escaped n cs
      else deepest .quoted n cs := rfl

theorem deepest_escaped_cons (n : Nat) (c : Char) (cs : List Char) :
    deepest .escaped n (c :: cs) = deepest .quoted n cs := rfl

/-- The greatest number of arrays and objects that are open at once in a text. -/
def nesting (cs : List Char) : Nat :=
  deepest .plain 0 cs

/-- What is open already counts. -/
theorem le_deepest (m : Scan) (n : Nat) (cs : List Char) : n ≤ deepest m n cs := by
  induction cs generalizing m n with
  | nil => exact Nat.le_of_eq (deepest_nil m n).symm
  | cons c cs ih =>
    cases m with
    | plain =>
      have hopen : n ≤ deepest .plain (n + 1) cs :=
        Nat.le_of_succ_le (ih .plain (n + 1))
      rw [deepest_plain_cons]
      split
      · exact ih .quoted n
      split
      · exact hopen
      split
      · exact Nat.le_max_left ..
      · exact ih .plain n
    | quoted =>
      rw [deepest_quoted_cons]
      split
      · exact ih .plain n
      split
      · exact ih .escaped n
      · exact ih .quoted n
    | escaped => exact ih .quoted n

/-! ## Texts that close what they open -/

/-- A text opens so many levels and closes them again, whatever comes after it. -/
def Nests (w : List Char) (l : Nat) : Prop :=
  ∀ n rest, deepest .plain n (w ++ rest) = max (n + l) (deepest .plain n rest)

variable {v w : List Char} {l m : Nat} {ws : List (List Char)} {ls : List Nat}

theorem Nests.nesting_eq (h : Nests w l) : nesting w = l := by
  have hw := h 0 []
  rw [List.append_nil] at hw
  rw [nesting, hw, deepest_nil, Nat.zero_add, Nat.max_zero]

theorem nests_nil : Nests [] 0 := fun n rest =>
  (Nat.max_eq_right (le_deepest .plain n rest)).symm

theorem Nests.append (hv : Nests v l) (hw : Nests w m) : Nests (v ++ w) (max l m) := by
  intro n rest
  rw [List.append_assoc, hv, hw, ← Nat.max_assoc, Nat.add_max_add_left]

/-- A character that is no bracket and no quote opens nothing. -/
theorem Nests.cons {c : Char} (hc : c ∉ ['"', '[', '{', ']', '}']) (hw : Nests w l) :
    Nests (c :: w) l := by
  intro n rest
  simp only [List.mem_cons, List.not_mem_nil, or_false, not_or] at hc
  obtain ⟨hquote, hbracket, hbrace, hbracket', hbrace'⟩ := hc
  rw [List.cons_append, deepest_plain_cons, if_neg hquote, if_neg (not_or.2 ⟨hbracket, hbrace⟩),
    if_neg (not_or.2 ⟨hbracket', hbrace'⟩), hw]

/-- Brackets around a text open one more level. -/
theorem Nests.enclose {o c : Char} (ho : o = '[' ∨ o = '{') (hc : c = ']' ∨ c = '}')
    (hw : Nests w l) : Nests (o :: w ++ [c]) (l + 1) := by
  intro n rest
  have hopen : o ≠ '"' := by rcases ho with rfl | rfl <;> decide
  have hclose : c ≠ '"' ∧ ¬ (c = '[' ∨ c = '{') := by rcases hc with rfl | rfl <;> decide
  rw [List.append_assoc, List.cons_append, deepest_plain_cons, if_neg hopen, if_pos ho, hw,
    List.singleton_append, deepest_plain_cons, if_neg hclose.1, if_neg hclose.2, if_pos hc,
    Nat.add_sub_cancel]
  omega

/-- What stands for a character inside of a string leaves the scan there. -/
theorem deepest_writeChar (c : Char) (n : Nat) (rest : List Char) :
    deepest .quoted n (writeChar c ++ rest) = deepest .quoted n rest := by
  have hdigit : ∀ k < 16, hexDigit k ≠ '"' ∧ hexDigit k ≠ '\\' := by decide
  unfold writeChar
  split
  · rfl
  · rename_i he
    have hq : c ≠ '"' := by rintro rfl; simp [escapeLetter?] at he
    have hb : c ≠ '\\' := by rintro rfl; simp [escapeLetter?] at he
    split
    · obtain ⟨hhigh, hhigh'⟩ := hdigit (c.toNat / 16) (by omega)
      obtain ⟨hlow, hlow'⟩ := hdigit (c.toNat % 16) (by omega)
      simp [deepest_quoted_cons, deepest_escaped_cons, hhigh, hhigh', hlow, hlow']
    · rw [List.singleton_append, deepest_quoted_cons, if_neg hq, if_neg hb]

/-- **A string opens nothing**, whatever is in it. -/
theorem nests_writeString (s : String) : Nests (writeString s) 0 := by
  have hchars : ∀ (cs : List Char) n rest,
      deepest .quoted n (cs.flatMap writeChar ++ rest) = deepest .quoted n rest := by
    intro cs n rest
    induction cs with
    | nil => rfl
    | cons c cs ih => rw [List.flatMap_cons, List.append_assoc, deepest_writeChar, ih]
  intro n rest
  rw [writeString, List.append_assoc, List.cons_append, deepest_plain_cons, if_pos rfl, hchars,
    List.singleton_append, deepest_quoted_cons, if_pos rfl]
  exact (Nat.max_eq_right (le_deepest ..)).symm

theorem nests_writeNull : Nests writeNull 0 :=
  .cons (by decide) (.cons (by decide) (.cons (by decide) (.cons (by decide) nests_nil)))

/-- The first of several parts, and each other one after a comma. -/
theorem commaSeparated_cons (w : List Char) (ws : List (List Char)) :
    commaSeparated (w :: ws) = w ++ ws.flatMap (',' :: ·) := by
  induction ws generalizing w with
  | nil => simp [commaSeparated]
  | cons v ws ih =>
    rw [commaSeparated, ih, List.flatMap_cons, List.cons_append]
    exact List.cons_ne_nil v ws

/-- Parts with commas between them nest as deep as the deepest of them. -/
theorem nests_commaSeparated (h : List.Forall₂ Nests ws ls) :
    Nests (commaSeparated ws) (ls.foldr max 0) := by
  cases h with
  | nil => exact nests_nil
  | cons hw hws =>
    rw [commaSeparated_cons, List.foldr_cons]
    refine hw.append ?_
    induction hws with
    | nil => exact nests_nil
    | cons hv _ ih => exact (Nests.cons (by decide) hv).append ih

theorem nests_writeArray (h : List.Forall₂ Nests ws ls) :
    Nests (writeArray ws) (ls.foldr max 0 + 1) :=
  (nests_commaSeparated h).enclose (.inl rfl) (.inl rfl)

/-- An object nests one level deeper than its members. -/
theorem nests_writeObject {ms : List (String × List Char)}
    (h : List.Forall₂ (fun m l => Nests m.2 l) ms ls) :
    Nests (writeObject ms) (ls.foldr max 0 + 1) := by
  refine (nests_commaSeparated ?_).enclose (.inr rfl) (.inr rfl)
  rw [List.forall₂_map_left_iff]
  refine h.imp fun m l hm => ?_
  have hmember := (nests_writeString m.1).append (Nests.cons (by decide : ':' ∉ _) hm)
  rwa [Nat.zero_max] at hmember

theorem nests_writeTagged (tag : String) (h : Nests w l) : Nests (writeTagged tag w) (l + 1) := by
  have hobject : Nests (writeObject [(tag, w)]) ([l].foldr max 0 + 1) :=
    nests_writeObject (.cons h .nil)
  rwa [List.foldr_cons, List.foldr_nil, Nat.max_zero] at hobject

theorem nests_writeOption {α : Type} {write : α → List Char} {levels : α → Nat} {o : Option α}
    (h : ∀ a ∈ o, Nests (write a) (levels a)) :
    Nests (writeOption write o) (o.elim 0 levels) := by
  cases o with
  | none => exact nests_writeNull
  | some a => exact h a rfl

/-! ## Terms and statements -/

mutual

/-- How many levels a term takes. -/
def levels : Term → Nat
  | .var _ | .blank _ | .symbol _ => 1
  | .literal _ => 2
  | .collection items => (levelsOf items).foldr max 0 + 2

/-- How many levels each of a list of terms takes. -/
def levelsOf : List Term → List Nat
  | [] => []
  | t :: ts => levels t :: levelsOf ts

end

/-- How many levels a statement takes. -/
def statementLevels (s : Statement) : Nat :=
  [levels s.subject, levels s.predicate, levels s.object, s.why.elim 0 levels].foldr max 0 + 1

theorem writeTerms_eq_map (ts : List Term) : writeTerms ts = ts.map writeTerm := by
  induction ts with
  | nil => rfl
  | cons t ts ih => rw [writeTerms, ih, List.map_cons]

theorem levelsOf_eq_map (ts : List Term) : levelsOf ts = ts.map levels := by
  induction ts with
  | nil => rfl
  | cons t ts ih => rw [levelsOf, ih, List.map_cons]

/-- The record of a literal is one object, whatever is absent from it. -/
theorem nests_writeLiteral (l : Literal) : Nests (writeLiteral l) 1 := by
  have hoption : ∀ o : Option String, Nests (writeOption writeString o) 0 := by
    rintro (_ | s)
    · exact nests_writeNull
    · exact nests_writeString s
  have hobject : Nests (writeLiteral l) ([0, 0, 0].foldr max 0 + 1) :=
    nests_writeObject
      (.cons (nests_writeString l.lexical) (.cons (hoption l.datatype)
        (.cons (hoption l.language) .nil)))
  exact hobject

/-- **A written term nests as deep as it takes levels.** -/
theorem nests_writeTerm (t : Term) : Nests (writeTerm t) (levels t) := by
  induction t using Term.atomic_induction with
  | atomic t h =>
    cases t with
    | var name => exact nests_writeTagged _ (nests_writeString name)
    | blank id => exact nests_writeTagged _ (nests_writeString id)
    | symbol iri => exact nests_writeTagged _ (nests_writeString iri)
    | literal l => exact nests_writeTagged _ (nests_writeLiteral l)
    | collection ts => cases h
  | collection ts ih =>
    rw [writeTerm, levels, writeTerms_eq_map, levelsOf_eq_map]
    refine nests_writeTagged _ (nests_writeArray ?_)
    rw [List.forall₂_map_left_iff, List.forall₂_map_right_iff]
    exact List.forall₂_same.2 ih

/-- And so does a written statement. -/
theorem nests_writeStatement (s : Statement) :
    Nests (writeStatement s) (statementLevels s) :=
  nests_writeObject
    (.cons (nests_writeTerm s.subject) (.cons (nests_writeTerm s.predicate)
      (.cons (nests_writeTerm s.object)
        (.cons (nests_writeOption fun t _ => nests_writeTerm t) .nil))))

/-- **A collection nests two levels deeper than the deepest of its elements.** -/
theorem nesting_writeTerm_collection (ts : List Term) :
    nesting (writeTerm (.collection ts)) =
      (ts.map fun t => nesting (writeTerm t)).foldr max 0 + 2 := by
  have hlevels : (fun t => nesting (writeTerm t)) = levels :=
    funext fun t => (nests_writeTerm t).nesting_eq
  rw [(nests_writeTerm _).nesting_eq, levels, levelsOf_eq_map, hlevels]

/-- A symbol in 63 collections takes all the levels that a typed value may have. -/
example : levels (Nat.repeat (fun t => Term.collection [t]) 63 (.symbol "a")) = maxDepth := by
  cbv

end Json

end TripleQuery
