import TripleQuery.Regex.Basic
/-!
# Expressions in their simplest form

How expressions are put together so that simple cases keep a simple form: a set of one character is
a text, texts that follow each other are one text, expressions inside expressions of the same kind
are taken out of them, alternatives of one character each are a set, and what alternatives have in
common at their beginning stands in front of them. What an expression matches does not depend on its
form; how much room it takes does.
-/

namespace TripleQuery

namespace RegexTree

/-! ## Lengths -/

mutual

/-- How many characters a match has at least, if there can be a match at all. An expression in which
some part cannot match is counted as one that cannot. -/
def leastLength : RegexTree → Option Nat
  | empty | anchor _ => some 0
  | text cs => some cs.length
  | chars s => if s.isEmpty then none else some 1
  | capture r => r.leastLength
  | times r least _ _ => r.leastLength.map (· * least)
  | seq rs => leastLengthOfSeq rs
  | alt rs => leastLengthOfAlt rs

/-- The least length of matches that follow each other. -/
def leastLengthOfSeq : List RegexTree → Option Nat
  | [] => some 0
  | r :: rs =>
    match r.leastLength, leastLengthOfSeq rs with
    | some m, some n => some (m + n)
    | _, _ => none

/-- The least length of the matches of several alternatives. -/
def leastLengthOfAlt : List RegexTree → Option Nat
  | [] => none
  | [r] => r.leastLength
  | r :: rs =>
    match r.leastLength, leastLengthOfAlt rs with
    | some m, some n => some (min m n)
    | _, _ => none

end

mutual

/-- Whether the only match is the empty one. -/
def matchesOnlyEmpty : RegexTree → Bool
  | empty | anchor _ => true
  | text cs => cs.isEmpty
  | chars _ => false
  | capture r => r.matchesOnlyEmpty
  | times r _ most _ => most.isSome && r.matchesOnlyEmpty
  | seq rs | alt rs => allMatchOnlyEmpty rs

/-- Whether the only match of each of several expressions is the empty one. -/
def allMatchOnlyEmpty : List RegexTree → Bool
  | [] => true
  | r :: rs => r.matchesOnlyEmpty && allMatchOnlyEmpty rs

end

/-! ## Single expressions -/

/-- One character of a set. -/
def ofSet (s : CharSet) : RegexTree :=
  match s.only? with
  | some c => text [c]
  | none => chars s

/-- An expression several times. What matches nothing but the empty text is not repeated. -/
def repeated (r : RegexTree) (least : Nat) (most : Option Nat) (greedy : Bool) : RegexTree :=
  let (least, most) :=
    if r.matchesOnlyEmpty then (min least 1, some (min (most.getD 1) 1)) else (least, most)
  if least = 0 && most = some 0 then empty
  else if least = 1 && most = some 1 then r
  else times r least most greedy

/-! ## Sequences -/

/-- The parts of an expression that is a sequence, or the expression alone. -/
def toSeq : RegexTree → List RegexTree
  | empty => []
  | seq rs => rs
  | r => [r]

/-- Join texts that follow each other. -/
def joinTexts : List RegexTree → List RegexTree
  | [] => []
  | text cs :: rs =>
    match joinTexts rs with
    | text ds :: rest => text (cs ++ ds) :: rest
    | rest => text cs :: rest
  | r :: rs => r :: joinTexts rs

/-- Several expressions, one after the other. -/
def sequence (rs : List RegexTree) : RegexTree :=
  match joinTexts (rs.flatMap toSeq) with
  | [] => empty
  | [r] => r
  | rs => seq rs

/-! ## Alternatives -/

/-- The alternatives of an expression that has them, or the expression alone. -/
def toAlt : RegexTree → List RegexTree
  | alt rs => rs
  | r => [r]

/-- The only character that an expression matches, if it is a text of one character. -/
def single? : RegexTree → Option Char
  | text [c] => some c
  | _ => none

/-- The set of an expression that matches one character of it. -/
def set? : RegexTree → Option CharSet
  | chars s => some s
  | _ => none

mutual

/-- Whether two expressions are the same in every part. Two whose match may be asked for are never
the same, since they are asked for apart. -/
def same : RegexTree → RegexTree → Bool
  | empty, empty => true
  | text cs, text ds => cs = ds
  | chars s, chars t => s = t
  | anchor a, anchor b => a = b
  | times r least most greedy, times r' least' most' greedy' =>
    least = least' && most = most' && greedy = greedy' && same r r'
  | seq rs, seq rs' | alt rs, alt rs' => sameAll rs rs'
  | _, _ => false

/-- Whether two lists hold the same expressions. -/
def sameAll : List RegexTree → List RegexTree → Bool
  | [], [] => true
  | r :: rs, r' :: rs' => same r r' && sameAll rs rs'
  | _, _ => false

end

/-- How many parts two sequences have in common at their beginning. -/
def commonLength : List RegexTree → List RegexTree → Nat
  | r :: rs, r' :: rs' => if same r r' then commonLength rs rs' + 1 else 0
  | _, _ => 0

/-- The parts of an expression that is a sequence. -/
def parts? : RegexTree → Option (List RegexTree)
  | seq rs => some rs
  | _ => none

/-- One of several expressions. Alternatives that are all of one character, or all sets, make a
set. -/
def choiceOf (rs : List RegexTree) : RegexTree :=
  match rs.flatMap toAlt with
  | [] => chars .empty
  | [r] => r
  | rs =>
    match rs.mapM single?, rs.mapM set? with
    | some cs, _ => ofSet (.ofList (cs.map Char.toNat))
    | none, some ss => ofSet (.unions ss)
    | none, none => alt rs

/-- One of several expressions. If all are sequences that begin in the same way, the beginning is
taken out of them. -/
def choice (rs : List RegexTree) : RegexTree :=
  match choiceOf rs with
  | alt rs =>
    match rs.mapM parts? with
    | some (ps :: pss) =>
      let n := pss.foldl (fun n qs => min n (commonLength ps qs)) ps.length
      if n = 0 then alt rs
      else sequence (ps.take n ++ [choiceOf ((ps :: pss).map fun qs => sequence (qs.drop n))])
    | _ => alt rs
  | r => r

/-! ## Beginnings and ends -/

mutual

/-- Whether every match begins at the start of the text, by an anchor in front of it. -/
def startsAtText : RegexTree → Bool
  | anchor .textStart => true
  | capture r => r.startsAtText
  | times r least _ _ => least != 0 && r.startsAtText
  | seq rs => seqStartsAtText rs
  | alt rs => allStartAtText rs
  | _ => false

/-- Whether a sequence begins with an anchor at the start of the text. -/
def seqStartsAtText : List RegexTree → Bool
  | [] => false
  | r :: rs => r.startsAtText || (r.matchesOnlyEmpty && seqStartsAtText rs)

/-- Whether all alternatives begin with an anchor at the start of the text. -/
def allStartAtText : List RegexTree → Bool
  | [] => true
  | r :: rs => r.startsAtText && allStartAtText rs

end

mutual

/-- Whether every match ends at the end of the text, by an anchor behind it. -/
def endsAtText : RegexTree → Bool
  | anchor .textEnd => true
  | capture r => r.endsAtText
  | times r least _ _ => least != 0 && r.endsAtText
  | seq rs => seqEndsAtText rs
  | alt rs => allEndAtText rs
  | _ => false

/-- Whether a sequence ends with an anchor at the end of the text. -/
def seqEndsAtText : List RegexTree → Bool
  | [] => false
  | r :: rs => seqEndsAtText rs || (r.endsAtText && allMatchOnlyEmpty rs)

/-- Whether all alternatives end with an anchor at the end of the text. -/
def allEndAtText : List RegexTree → Bool
  | [] => true
  | r :: rs => r.endsAtText && allEndAtText rs

end

end RegexTree

end TripleQuery
