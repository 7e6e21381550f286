import TripleQuery.Json.Reader
import TripleQuery.Statement
/-!
# Terms and statements in JSON

A term is a tagged value: the tag says of which kind it is, and the value is its name, its IRI, the
record of a literal, or the list of its elements. A statement is a record of its three terms and its
provenance. What is absent is written as null; in reading, an absent optional member is the same as
null. A collection takes two levels of nesting, so a term can be too deep to be read back.
-/

namespace TripleQuery

namespace Json

/-! ## Writing -/

/-- The parts of a text with commas between them. -/
def commaSeparated : List (List Char) → List Char
  | [] => []
  | [p] => p
  | p :: ps => p ++ ',' :: commaSeparated ps

/-- A member of an object. -/
def writeMember (name : String) (value : List Char) : List Char :=
  writeString name ++ ':' :: value

/-- An object with the given members. -/
def writeObject (members : List (String × List Char)) : List Char :=
  '{' :: commaSeparated (members.map fun m => writeMember m.1 m.2) ++ ['}']

/-- An array with the given elements. -/
def writeArray (elements : List (List Char)) : List Char :=
  '[' :: commaSeparated elements ++ [']']

/-- The null value. -/
def writeNull : List Char := ['n', 'u', 'l', 'l']

/-- A truth value. -/
def writeBool (b : Bool) : List Char :=
  if b then ['t', 'r', 'u', 'e'] else ['f', 'a', 'l', 's', 'e']

/-- A natural number. -/
def writeNat (n : Nat) : List Char :=
  Nat.toDigits 10 n

/-- A value, or null in its place. -/
def writeOption {α : Type} (write : α → List Char) : Option α → List Char
  | none => writeNull
  | some a => write a

/-- A value with a tag. -/
def writeTagged (tag : String) (value : List Char) : List Char :=
  writeObject [(tag, value)]

/-- A literal as a record. -/
def writeLiteral (l : Literal) : List Char :=
  writeObject
    [("lexical", writeString l.lexical),
      ("datatype", writeOption writeString l.datatype),
      ("language", writeOption writeString l.language)]

mutual

/-- A term with the tag of its kind. -/
def writeTerm : Term → List Char
  | .var name => writeTagged "Variable" (writeString name)
  | .blank id => writeTagged "BlankNode" (writeString id)
  | .symbol iri => writeTagged "Symbol" (writeString iri)
  | .literal l => writeTagged "Literal" (writeLiteral l)
  | .collection items => writeTagged "Collection" (writeArray (writeTerms items))

/-- Each of a list of terms. -/
def writeTerms : List Term → List (List Char)
  | [] => []
  | t :: ts => writeTerm t :: writeTerms ts

end

/-- A statement as a record. -/
def writeStatement (s : Statement) : List Char :=
  writeObject
    [("subject", writeTerm s.subject),
      ("predicate", writeTerm s.predicate),
      ("object", writeTerm s.object),
      ("why", writeOption writeTerm s.why)]

/-! ## Reading -/

/-- What has been read of a literal. -/
structure LiteralParts where
  lexical : Option String := none
  datatype : Option (Option String) := none
  language : Option (Option String) := none

/-- The fields of a literal. -/
def literalFields : List (Field LiteralParts) :=
  [.of "lexical" (fun _ => text) (·.lexical) fun v s => { s with lexical := some v },
    .of "datatype" (fun _ => optional text) (·.datatype) fun v s => { s with datatype := some v },
    .of "language" (fun _ => optional text) (·.language) fun v s => { s with language := some v }]

/-- The literal made of its parts. Its text must not be missing. -/
def LiteralParts.build (p : LiteralParts) : Option Literal :=
  p.lexical.map fun lexical => ⟨lexical, p.datatype.join, p.language.join⟩

/-- A literal. -/
def readLiteral : Nat → Reader Literal :=
  record literalFields false {} LiteralParts.build

/-- A value of another type, put into a term. -/
def carryingTerm {α : Type} (r : Nat → Reader α) (make : α → Term) : Option (Tagged Term) :=
  some (.carrying fun room cs => (r room cs).map fun (a, rest) => (make a, rest))

/-- The tags of terms, given how the elements of a collection are read. -/
def termTags (element : Reader Term) : String → Option (Tagged Term)
  | "Variable" => carryingTerm (fun _ => text) .var
  | "BlankNode" => carryingTerm (fun _ => text) .blank
  | "Symbol" => carryingTerm (fun _ => text) .symbol
  | "Literal" => carryingTerm readLiteral .literal
  | "Collection" => carryingTerm (list fun _ => element) .collection
  | _ => none

/-- A term with the given number of levels to open. A collection opens two before its elements. -/
def readTerm : Nat → Reader Term
  | 0 => tagged (termTags fun _ => .error .malformed) 0
  | 1 => tagged (termTags fun _ => .error .malformed) 1
  | room + 2 => tagged (termTags (readTerm room)) (room + 2)

/-- What has been read of a statement. -/
structure StatementParts where
  subject : Option Term := none
  predicate : Option Term := none
  object : Option Term := none
  why : Option (Option Term) := none

/-- The fields of a statement. -/
def statementFields : List (Field StatementParts) :=
  [.of "subject" readTerm (·.subject) fun v s => { s with subject := some v },
    .of "predicate" readTerm (·.predicate) fun v s => { s with predicate := some v },
    .of "object" readTerm (·.object) fun v s => { s with object := some v },
    .of "why" (fun room => optional (readTerm room)) (·.why) fun v s => { s with why := some v }]

/-- The statement made of its parts. None of its terms must be missing. -/
def StatementParts.build (p : StatementParts) : Option Statement := do
  return ⟨← p.subject, ← p.predicate, ← p.object, p.why.join⟩

/-- A statement. -/
def readStatement : Nat → Reader Statement :=
  record statementFields false {} StatementParts.build

end Json

end TripleQuery
