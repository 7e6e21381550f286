/-!
# Terms

A term is what a position of a statement can hold. Matching asks two things of it. A variable or a
blank node stands for *something* when it occurs in a pattern. Everything except a collection
compares as a whole, while a collection is compared element by element.
-/

namespace TripleQuery

/-- The datatype of plain character strings, which the written form of a literal leaves out. -/
def xsdString : String := "http://www.w3.org/2001/XMLSchema#string"

/-- A literal value: its text, and optionally the IRI of its datatype and a language tag. -/
structure Literal where
  /-- The text as written. -/
  lexical : String
  /-- The IRI of the datatype, if one was given. -/
  datatype : Option String := none
  /-- The language tag, if one was given. -/
  language : Option String := none
deriving DecidableEq, Inhabited

/-- What a statement position can hold. -/
inductive Term where
  /-- A named query variable. -/
  | var (name : String)
  /-- A blank node. In a pattern it stands for something, as a variable does. -/
  | blank (id : String)
  /-- A resource, named by its IRI. -/
  | symbol (iri : String)
  /-- A literal value. -/
  | literal (value : Literal)
  /-- An ordered list of terms. -/
  | collection (items : List Term)
deriving Inhabited

/-- The part of an IRI before its first `#`: the document in which the resource is described. -/
def documentPart (iri : String) : String :=
  String.ofList (iri.toList.takeWhile (· != '#'))

namespace Term

/-- A variable or a blank node. -/
def isVariable : Term → Bool
  | var _ | blank _ => true
  | _ => false

/-- Every term but a collection. -/
def isAtomic : Term → Bool
  | collection _ => false
  | _ => true

/-- A literal, of any datatype or language. -/
def isLiteral : Term → Bool
  | literal _ => true
  | _ => false

/-- A resource named by an IRI. -/
def isSymbol : Term → Bool
  | symbol _ => true
  | _ => false

/-- A named variable; a blank node is none. -/
def isNamedVariable : Term → Bool
  | var _ => true
  | _ => false

/-- A collection. -/
def isCollection : Term → Bool
  | collection _ => true
  | _ => false

/-- The IRI of a resource. -/
def iri? : Term → Option String
  | symbol iri => some iri
  | _ => none

/-- The document that a resource is described in. Only resources have one. -/
def document? (t : Term) : Option String :=
  t.iri?.map documentPart

/-- When two terms are merged, the one of lower rank represents both. -/
def mergeRank : Term → Nat
  | symbol _ => 0
  | literal _ => 1
  | collection _ => 2
  | blank _ => 3
  | var _ => 4

@[simp] theorem document?_symbol (iri : String) :
    (symbol iri).document? = some (documentPart iri) := rfl

end Term

end TripleQuery
