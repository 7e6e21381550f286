import TripleQuery.Text.CharSet
/-!
# Classes of ASCII characters

The classes of ASCII characters that have a name.
-/

namespace TripleQuery

namespace CharSet

/-- The digits of ASCII. -/
def asciiDigits : CharSet := .ofTable "30-39"

/-- The word characters of ASCII. -/
def asciiWord : CharSet := .ofTable "30-39 41-5a 5f 61-7a"

/-- The white space of ASCII. -/
def asciiSpace : CharSet := .ofTable "9-d 20"

/-- The class of ASCII characters with a name. -/
def asciiClass? (name : String) : Option CharSet :=
  match name with
  | "alnum" => some (.ofTable "30-39 41-5a 61-7a")
  | "alpha" => some (.ofTable "41-5a 61-7a")
  | "ascii" => some (.ofTable "0-7f")
  | "blank" => some (.ofTable "9 20")
  | "cntrl" => some (.ofTable "0-1f 7f")
  | "digit" => some asciiDigits
  | "graph" => some (.ofTable "21-7e")
  | "lower" => some (.ofTable "61-7a")
  | "print" => some (.ofTable "20-7e")
  | "punct" => some (.ofTable "21-2f 3a-40 5b-60 7b-7e")
  | "space" => some asciiSpace
  | "upper" => some (.ofTable "41-5a")
  | "word" => some asciiWord
  | "xdigit" => some (.ofTable "30-39 41-46 61-66")
  | _ => none

end CharSet

end TripleQuery
