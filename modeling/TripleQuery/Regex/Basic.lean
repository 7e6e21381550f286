import TripleQuery.Text.CharSet
/-!
# Regular expressions

A regular expression is matched against a text by following the set of positions that can be
reached. A set of positions is a number whose binary digit `i` tells whether position `i`, the one
before the `i`-th character, is in it. Each expression takes the positions where a match may start
to those where it may end (`Regex.ends`); a text matches when from some position some position is
reached (`Regex.isMatch`).
-/

namespace TripleQuery

/-- A condition on a position of the text. -/
inductive Anchor where
  /-- The start of the text. -/
  | textStart
  /-- The end of the text. -/
  | textEnd
  /-- The start of a line. With `crlf`, a carriage return ends lines too, but not between it and a
  line feed. -/
  | lineStart (crlf : Bool)
  /-- The end of a line. -/
  | lineEnd (crlf : Bool)
  /-- A word character on one side only. -/
  | wordBoundary (word : CharSet)
  /-- A word character on both sides or on neither. -/
  | notWordBoundary (word : CharSet)
  /-- A word character after and none before. -/
  | wordStart (word : CharSet)
  /-- A word character before and none after. -/
  | wordEnd (word : CharSet)
  /-- No word character before. -/
  | wordStartHalf (word : CharSet)
  /-- No word character after. -/
  | wordEndHalf (word : CharSet)
deriving DecidableEq, Inhabited

/-- What a regular expression asks of a text. -/
inductive RegexTree where
  /-- Nothing at all. -/
  | empty
  /-- Characters, one after the other. -/
  | text (cs : List Char)
  /-- One character of a set. -/
  | chars (s : CharSet)
  /-- A condition on the position. -/
  | anchor (a : Anchor)
  /-- An expression whose match may be asked for. -/
  | capture (r : RegexTree)
  /-- An expression several times, with or without a limit, and whether many times are preferred. -/
  | times (r : RegexTree) (least : Nat) (most : Option Nat) (greedy : Bool)
  /-- Several expressions, one after the other. -/
  | seq (rs : List RegexTree)
  /-- One of several expressions. -/
  | alt (rs : List RegexTree)
deriving Inhabited

/-- A regular expression with the text it was written as. -/
structure Regex where
  /-- The text of the expression. -/
  source : String
  /-- Its meaning. -/
  tree : RegexTree
deriving Inhabited

namespace Anchor

/-- Whether a position satisfies the condition, given the characters on its two sides. -/
def holds (a : Anchor) (before after : Option Char) : Bool :=
  match a with
  | textStart => before.isNone
  | textEnd => after.isNone
  | lineStart false => before.all (· = '\n')
  | lineStart true => before.all fun c => c = '\n' || (c = '\r' && after != some '\n')
  | lineEnd false => after.all (· = '\n')
  | lineEnd true => after.all fun c => c = '\r' || (c = '\n' && before != some '\r')
  | wordBoundary w => isWord w before != isWord w after
  | notWordBoundary w => isWord w before == isWord w after
  | wordStart w => !isWord w before && isWord w after
  | wordEnd w => isWord w before && !isWord w after
  | wordStartHalf w => !isWord w before
  | wordEndHalf w => !isWord w after
where
  /-- Whether there is a character and it is a word character. -/
  isWord (w : CharSet) (c : Option Char) : Bool :=
    c.any fun c => w.contains c.toNat

end Anchor

/-- The number whose binary digits are given, the lowest first. -/
def ofDigits : List Bool → Nat
  | [] => 0
  | b :: bs => b.toNat + 2 * ofDigits bs

/-- The positions before the characters of a set. -/
def positionsOf (s : CharSet) (text : List Char) : Nat :=
  ofDigits (text.map fun c => s.contains c.toNat)

/-- The positions that satisfy a condition, `before` being the character in front of the text. -/
def anchoredPositions (a : Anchor) (before : Option Char) : List Char → List Bool
  | [] => [a.holds before none]
  | c :: cs => a.holds before (some c) :: anchoredPositions a (some c) cs

/-- Repeat a step a number of times, unless it reaches nothing before. -/
def iterate (step : Nat → Nat) : Nat → Nat → Nat
  | 0, x => x
  | n + 1, x => if x = 0 then 0 else iterate step n (step x)

/-- Repeat a step until it reaches nothing new, at most `fuel` times. -/
def closure (step : Nat → Nat) : Nat → Nat → Nat
  | 0, x => x
  | fuel + 1, x =>
    let y := x ||| step x
    if y = x then x else closure step fuel y

namespace RegexTree

mutual

/-- The positions where a match can end when it starts at one of the given positions. -/
def ends (text : List Char) : RegexTree → Nat → Nat
  | .empty, x => x
  | .text cs, x => cs.foldl (fun x c => (x &&& positionsOf (.ofChar c) text) <<< 1) x
  | .chars s, x => (x &&& positionsOf s text) <<< 1
  | .anchor a, x => x &&& ofDigits (anchoredPositions a none text)
  | .capture r, x => ends text r x
  | .times r least most _, x =>
    let x' := iterate (ends text r) least x
    match most with
    | none => closure (ends text r) (text.length + 1) x'
    | some m => closure (ends text r) (m - least) x'
  | .seq rs, x => endsOfSeq text rs x
  | .alt rs, x => endsOfAlt text rs x

/-- The positions where matches of several expressions, one after the other, can end. -/
def endsOfSeq (text : List Char) : List RegexTree → Nat → Nat
  | [], x => x
  | r :: rs, x => endsOfSeq text rs (ends text r x)

/-- The positions where a match of one of several expressions can end. -/
def endsOfAlt (text : List Char) : List RegexTree → Nat → Nat
  | [], _ => 0
  | r :: rs, x => ends text r x ||| endsOfAlt text rs x

end

end RegexTree

/-- Whether the expression matches somewhere in the text. -/
def Regex.isMatch (r : Regex) (s : String) : Bool :=
  let text := s.toList
  r.tree.ends text (Nat.pow 2 (text.length + 1) - 1) != 0

end TripleQuery
