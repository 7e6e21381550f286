import TripleQuery.Proofs.Json.Reading
/-!
# Terms and statements are read back

A written term is read back by any reader that may open as many levels as the
term takes, and found malformed by any other (`reads_readTerm`), and the same
for statements. For whole texts, whose readers may open `maxDepth` levels, this
is `readText_writeTerm`: the value that was written, or a malformed text, and
never another value.
-/

namespace TripleQuery

namespace Json

variable {room l : Nat} {w : List Char}

theorem opens_writeTerm (t : Term) : Opens (writeTerm t) := by
  cases t <;> exact opens_writeTagged ..

/-! ## Literals -/

/-- **A literal is read back**, its datatype and language absent or not. -/
theorem reads_readLiteral (lit : Literal) :
    Reads (readLiteral room) room (writeLiteral lit) 1 lit := by
  have hoption : ∀ room (o : Option String),
      Reads (optional text) room (writeOption writeString o) 0 o := by
    intro room o
    have ho : Reads (optional text) room (writeOption writeString o) (o.elim 0 fun _ => 0) o :=
      reads_writeOption opens_writeString reads_text o
    cases o <;> exact ho
  have hfills : ∀ room, Fills literalFields room {}
      [("lexical", writeString lit.lexical),
        ("datatype", writeOption writeString lit.datatype),
        ("language", writeOption writeString lit.language)] (max 0 (max 0 (max 0 0)))
      { lexical := some lit.lexical, datatype := some lit.datatype,
        language := some lit.language } := fun room =>
    .cons rfl rfl (reads_field (reads_text _))
      (.cons rfl rfl (reads_field (hoption room _))
        (.cons rfl rfl (reads_field (hoption room _)) .nil))
  exact reads_record (fun room' _ => hfills room') rfl

/-! ## Terms -/

/-- How the elements of a collection are read by a reader of terms. -/
def elementReader : Nat → Reader Term
  | 0 | 1 => fun _ => .error .malformed
  | room + 2 => readTerm room

theorem readTerm_eq_tagged (room : Nat) :
    readTerm room = tagged (termTags (elementReader room)) room := by
  rcases room with _ | _ | room <;> rfl

/-- **A term is read back** when the reader may open as many levels as the term
takes. -/
theorem reads_readTerm (t : Term) (room : Nat) :
    Reads (readTerm room) room (writeTerm t) (levels t) t := by
  induction t using Term.atomic_induction generalizing room with
  | atomic t h =>
    rw [readTerm_eq_tagged]
    cases t with
    | var name => exact reads_tagged rfl fun _ _ => (reads_text name).map Term.var
    | blank id => exact reads_tagged rfl fun _ _ => (reads_text id).map Term.blank
    | symbol iri => exact reads_tagged rfl fun _ _ => (reads_text iri).map Term.symbol
    | literal l => exact reads_tagged rfl fun _ _ => (reads_readLiteral l).map Term.literal
    | collection ts => cases h
  | collection ts ih =>
    rw [readTerm_eq_tagged, writeTerm, levels, writeTerms_eq_map, levelsOf_eq_map]
    refine reads_tagged rfl fun room' hroom => Reads.map Term.collection ?_
    refine reads_list opens_writeTerm fun room'' hroom' t ht => ?_
    -- two levels are open by now
    subst hroom' hroom
    exact ih t ht room''

/-! ## Statements -/

/-- **A statement is read back** when the reader may open as many levels as the
statement takes. -/
theorem reads_readStatement (s : Statement) (room : Nat) :
    Reads (readStatement room) room (writeStatement s) (statementLevels s) s := by
  have hfills : ∀ room, Fills statementFields room {}
      [("subject", writeTerm s.subject), ("predicate", writeTerm s.predicate),
        ("object", writeTerm s.object), ("why", writeOption writeTerm s.why)]
      (max (levels s.subject) (max (levels s.predicate) (max (levels s.object)
        (max (s.why.elim 0 levels) 0))))
      { subject := some s.subject, predicate := some s.predicate, object := some s.object,
        why := some s.why } := fun room =>
    .cons rfl rfl (reads_field (reads_readTerm _ room))
      (.cons rfl rfl (reads_field (reads_readTerm _ room))
        (.cons rfl rfl (reads_field (reads_readTerm _ room))
          (.cons rfl rfl (reads_field
            (reads_writeOption opens_writeTerm (fun t => reads_readTerm t room) _)) .nil)))
  exact reads_record (fun room' _ => hfills room') rfl

/-! ## Whole texts -/

/-- **Writing loses nothing.** The text of a term or a statement is read back
as just that when it nests at most as deep as a typed value may, and otherwise
it is found malformed; it is never read as another value. A collection nests
two levels deeper than the deepest of its elements. -/
theorem readText_writeTerm :
    (∀ t : Term, readText readTerm (String.ofList (writeTerm t)) =
      if nesting (writeTerm t) ≤ 127 then .ok t else .error .malformed) ∧
    (∀ s : Statement, readText readStatement (String.ofList (writeStatement s)) =
      if nesting (writeStatement s) ≤ 127 then .ok s else .error .malformed) ∧
    ∀ ts : List Term, nesting (writeTerm (.collection ts)) =
      (ts.map fun t => nesting (writeTerm t)).foldr max 0 + 2 := by
  refine ⟨fun t => ?_, fun s => ?_, nesting_writeTerm_collection⟩
  · rw [(nests_writeTerm t).nesting_eq]
    exact readText_ofList (reads_readTerm t maxDepth)
  · rw [(nests_writeStatement s).nesting_eq]
    exact readText_ofList (reads_readStatement s maxDepth)

end Json

end TripleQuery
