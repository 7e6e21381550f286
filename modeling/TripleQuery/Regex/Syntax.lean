import TripleQuery.Text.CharSet
/-!
# Regular expressions as they are written

The parts of a written regular expression, before any flag is applied: what a dot, a class or a
letter stands for depends on the flags that hold where it is written, and is settled later. An
expression has a depth (`RegexSyntax.depth`), which tells how far its parts are nested.
-/

namespace TripleQuery

/-- A switch for how an expression is read and matched. -/
inductive RegexFlag where
  /-- Characters match in any case. -/
  | caseless
  /-- Line anchors match at every line. -/
  | multiLine
  /-- The dot matches line ends. -/
  | dotAll
  /-- Repetitions prefer few times to many, and the other way round with a question mark. -/
  | swapGreed
  /-- Classes of characters are those of all scripts. -/
  | unicode
  /-- Lines end with a carriage return, a line feed or both. -/
  | crlf
  /-- White space and comments in the expression mean nothing. -/
  | verbose
deriving DecidableEq, Inhabited

/-- A flag that is switched on or off. -/
structure FlagChange where
  /-- The flag. -/
  flag : RegexFlag
  /-- Whether it is switched on. -/
  on : Bool
deriving DecidableEq, Inhabited

/-- A character that is written down, as itself or by an escape. -/
structure WrittenChar where
  /-- The character. -/
  char : Char
  /-- Whether it is written as a byte, by exactly two hexadecimal digits. -/
  isByte : Bool := false
deriving DecidableEq, Inhabited

/-- The classes that are named by a letter. -/
inductive LetterClass where
  /-- Decimal digits. -/
  | digit
  /-- White space. -/
  | space
  /-- Word characters. -/
  | word
deriving DecidableEq, Inhabited

/-- A class that is written by its name. -/
inductive NamedClass where
  /-- A class named by a letter. -/
  | letter (c : LetterClass)
  /-- A class of ASCII characters, which stands in brackets only. -/
  | ascii (s : CharSet)
  /-- A property, a category or a script. -/
  | property (name : String)
  /-- A property with a value. -/
  | propertyValue (name value : String)
deriving Inhabited

/-- An operator between two sets in brackets. -/
inductive SetOp where
  /-- What is in both. -/
  | inter
  /-- What is in the first only. -/
  | diff
  /-- What is in one of the two only. -/
  | symmDiff
deriving DecidableEq, Inhabited

/-- What is written in brackets. -/
inductive SetSyntax where
  /-- Nothing, beside an operator. -/
  | empty
  /-- A character. -/
  | char (c : WrittenChar)
  /-- A range of characters. -/
  | range (first last : WrittenChar)
  /-- A class by its name, or all that is not in it. -/
  | named (negated : Bool) (c : NamedClass)
  /-- Another pair of brackets. -/
  | bracketed (negated : Bool) (s : SetSyntax)
  /-- Several things, one after the other. -/
  | union (ss : List SetSyntax)
  /-- An operator with its operands. -/
  | binary (op : SetOp) (s t : SetSyntax)
deriving Inhabited

/-- A condition on a position, as it is written. -/
inductive WrittenAnchor where
  /-- The caret. -/
  | caret
  /-- The dollar sign. -/
  | dollar
  /-- The start of the text. -/
  | textStart
  /-- The end of the text. -/
  | textEnd
  /-- A boundary of a word. -/
  | wordBoundary
  /-- No boundary of a word. -/
  | notWordBoundary
  /-- The start of a word. -/
  | wordStart
  /-- The end of a word. -/
  | wordEnd
  /-- No word before. -/
  | wordStartHalf
  /-- No word after. -/
  | wordEndHalf
deriving DecidableEq, Inhabited

/-- A regular expression as it is written. -/
inductive RegexSyntax where
  /-- Nothing. -/
  | empty
  /-- A character. -/
  | char (c : WrittenChar)
  /-- The dot. -/
  | dot
  /-- A condition on the position. -/
  | anchor (a : WrittenAnchor)
  /-- A class by its name, or all that is not in it. -/
  | named (negated : Bool) (c : NamedClass)
  /-- A set in brackets, or all that is not in it. -/
  | bracketed (negated : Bool) (s : SetSyntax)
  /-- Flags that hold from here up to the end of the group. -/
  | flags (changes : List FlagChange)
  /-- A group, whose match may be asked for, and the flags that hold in it. -/
  | group (capturing : Bool) (changes : List FlagChange) (r : RegexSyntax)
  /-- An expression several times, with or without a limit, and whether many times are preferred. -/
  | times (r : RegexSyntax) (least : Nat) (most : Option Nat) (greedy : Bool)
  /-- Several expressions, one after the other. -/
  | seq (rs : List RegexSyntax)
  /-- One of several expressions. -/
  | alt (rs : List RegexSyntax)
deriving Inhabited

namespace SetSyntax

/-- What several things in brackets make together. -/
def ofList : List SetSyntax → SetSyntax
  | [] => empty
  | [s] => s
  | ss => union ss

mutual

/-- How far sets in brackets are nested. -/
def depth : SetSyntax → Nat
  | empty | char _ | range _ _ | named _ _ => 0
  | bracketed _ s => s.depth + 1
  | union ss => depthOfList ss + 1
  | binary _ s t => max s.depth t.depth + 1

/-- The depth of the deepest of several sets. -/
def depthOfList : List SetSyntax → Nat
  | [] => 0
  | s :: ss => max s.depth (depthOfList ss)

end

end SetSyntax

namespace RegexSyntax

/-- How far the parts of an expression may be nested. -/
def maxDepth : Nat := 250

/-- What several expressions, one after the other, make together. -/
def ofList : List RegexSyntax → RegexSyntax
  | [] => empty
  | [r] => r
  | rs => seq rs

mutual

/-- How far the parts of an expression are nested. -/
def depth : RegexSyntax → Nat
  | empty | char _ | dot | anchor _ | named _ _ | flags _ => 0
  | bracketed _ s => s.depth + 1
  | group _ _ r | times r _ _ _ => r.depth + 1
  | seq rs | alt rs => depthOfList rs + 1

/-- The depth of the deepest of several expressions. -/
def depthOfList : List RegexSyntax → Nat
  | [] => 0
  | r :: rs => max r.depth (depthOfList rs)

end

end RegexSyntax

end TripleQuery
