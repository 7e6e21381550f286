import TripleQuery.Term
import TripleQuery.Text.Quoted
/-!
# Terms as text

The text form used in messages: a question mark before a variable, an underscore and a colon before
a blank node, angle brackets around an IRI, quotes around a literal and parentheses around a
collection. A literal shows its language tag, or else its datatype unless that is the one of plain
strings.
-/

namespace TripleQuery

/-- A literal as text. A language tag leaves no room for a datatype. -/
def Literal.display (l : Literal) : String :=
  quoted l.lexical ++
    match l.language, l.datatype with
    | some tag, _ => "@" ++ tag
    | none, some iri => if iri = xsdString then "" else "^^<" ++ iri ++ ">"
    | none, none => ""

namespace Term

mutual

/-- A term as text. -/
def display : Term → String
  | var name => "?" ++ name
  | blank id => "_:" ++ id
  | symbol iri => "<" ++ iri ++ ">"
  | literal l => l.display
  | collection items => "(" ++ " ".intercalate (displayAll items) ++ ")"

/-- Each of a list of terms as text. -/
def displayAll : List Term → List String
  | [] => []
  | t :: ts => display t :: displayAll ts

end

end Term

end TripleQuery
