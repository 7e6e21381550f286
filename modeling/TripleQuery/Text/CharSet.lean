/-!
# Sets of characters

A set of characters is kept as closed ranges of code points, in increasing order and with a gap
between each two of them. Every operation gives its result in this form, so that the number of
ranges is that of the shortest way to write the set down, and equal sets are equal as values.

Tables of ranges are written as text: code points in hexadecimal, a hyphen between the ends of a
range, white space between ranges.
-/

namespace TripleQuery

/-- A set of code points. -/
structure CharSet where
  /-- The ranges from first to last code point. -/
  ranges : List (Nat × Nat)
deriving DecidableEq, Inhabited

namespace CharSet

/-- The greatest code point. -/
def maxCodePoint : Nat := 0x10ffff

/-- Whether a code point is in the set. -/
def contains (s : CharSet) (n : Nat) : Bool :=
  s.ranges.any fun r => r.1 ≤ n && n ≤ r.2

/-! ## Building sets -/

/-- Join ranges that meet or overlap to the one in front of them. The ranges come in the order of
their first code points. -/
def joinRanges : Nat × Nat → List (Nat × Nat) → List (Nat × Nat)
  | r, [] => [r]
  | r, q :: qs =>
    if q.1 ≤ r.2 + 1 then joinRanges (r.1, max r.2 q.2) qs else r :: joinRanges q qs

/-- The set of the code points in any of several ranges. -/
def ofRanges (rs : List (Nat × Nat)) : CharSet :=
  match (rs.filter fun r => r.1 ≤ r.2).mergeSort fun r q => r.1 ≤ q.1 with
  | [] => ⟨[]⟩
  | r :: rs => ⟨joinRanges r rs⟩

/-- The set of the code points from the first to the last. -/
def range (first last : Nat) : CharSet := ofRanges [(first, last)]

/-- The set that holds nothing. -/
def empty : CharSet := ⟨[]⟩

/-- The set of all code points. -/
def all : CharSet := ⟨[(0, maxCodePoint)]⟩

/-- The set of one code point. -/
def single (n : Nat) : CharSet := ⟨[(n, n)]⟩

/-- The set of one character. -/
def ofChar (c : Char) : CharSet := single c.toNat

/-- The set of some code points. -/
def ofList (ns : List Nat) : CharSet := ofRanges (ns.map fun n => (n, n))

/-! ## Operations -/

/-- What is in one of two sets. -/
def union (s t : CharSet) : CharSet := ofRanges (s.ranges ++ t.ranges)

/-- What is in one of several sets. -/
def unions (ss : List CharSet) : CharSet := ofRanges (ss.flatMap ranges)

/-- The code point of the character that comes after another. -/
def next (n : Nat) : Nat := if n = 0xd7ff then 0xe000 else n + 1

/-- The code point of the character that comes before another. -/
def previous (n : Nat) : Nat := if n = 0xe000 then 0xd7ff else n - 1

/-- The first and the last character between ranges and behind them, after a code point that is in
the set. Of ranges that meet at the surrogates the first comes after the last. -/
def gapsAfter : Nat → List (Nat × Nat) → List (Nat × Nat)
  | last, [] => if last < maxCodePoint then [(next last, maxCodePoint)] else []
  | last, r :: rs => (next last, previous r.1) :: gapsAfter r.2 rs

/-- The first and the last character in front of ranges, between them and behind them. -/
def gaps : List (Nat × Nat) → List (Nat × Nat)
  | [] => [(0, maxCodePoint)]
  | r :: rs =>
    if 0 < r.1 then (0, previous r.1) :: gapsAfter r.2 rs else gapsAfter r.2 rs

/-- What is not in the set. Ranges that meet at the surrogates are not joined, and the gap between
them is taken to be the range of its two ends. -/
def complement (s : CharSet) : CharSet :=
  ⟨(gaps s.ranges).map fun r => (min r.1 r.2, max r.1 r.2)⟩

/-- What is in both of two lists of ranges. -/
def interRanges : List (Nat × Nat) → List (Nat × Nat) → List (Nat × Nat)
  | [], _ => []
  | _, [] => []
  | r :: rs, q :: qs =>
    let rest := if r.2 < q.2 then interRanges rs (q :: qs) else interRanges (r :: rs) qs
    if max r.1 q.1 ≤ min r.2 q.2 then (max r.1 q.1, min r.2 q.2) :: rest else rest
termination_by rs qs => rs.length + qs.length

/-- What is in both of two sets. -/
def inter (s t : CharSet) : CharSet := ⟨interRanges s.ranges t.ranges⟩

/-- What is in the first set and not in the second. -/
def diff (s t : CharSet) : CharSet :=
  s.inter ⟨(gaps t.ranges).filter fun r => r.1 ≤ r.2⟩

/-- What is in exactly one of two sets. -/
def symmDiff (s t : CharSet) : CharSet := (s.union t).diff (s.inter t)

/-- Whether nothing is in the set. -/
def isEmpty (s : CharSet) : Bool := s.ranges.isEmpty

/-- Whether all members are ASCII. -/
def isAscii (s : CharSet) : Bool := s.ranges.all fun r => r.2 < 128

/-- The only member of a set that holds one character and no more. -/
def only? (s : CharSet) : Option Char :=
  match s.ranges with
  | [(first, last)] => if first = last && first.isValidChar then some (Char.ofNat first) else none
  | _ => none

/-! ## Tables -/

/-- The value of a hexadecimal digit. -/
def hexValue? (c : Char) : Option Nat :=
  if '0' ≤ c ∧ c ≤ '9' then some (c.toNat - 48)
  else if 'a' ≤ c ∧ c ≤ 'f' then some (c.toNat - 87)
  else if 'A' ≤ c ∧ c ≤ 'F' then some (c.toNat - 55)
  else none

/-- How far a table has been read. -/
structure TableReader where
  /-- The ranges that have been read, the latest first. -/
  ranges : List (Nat × Nat) := []
  /-- The first code point of the present range, if its hyphen has been read. -/
  first : Option Nat := none
  /-- The code point that is being read. -/
  number : Option Nat := none

namespace TableReader

/-- The present range ends here. -/
def finish (r : TableReader) : TableReader :=
  match r.number with
  | none => r
  | some n => { ranges := (r.first.getD n, n) :: r.ranges }

/-- Read one character of a table. -/
def step (r : TableReader) (c : Char) : TableReader :=
  match hexValue? c with
  | some d => { r with number := some (16 * r.number.getD 0 + d) }
  | none => if c = '-' then { r with first := r.number, number := none } else r.finish

end TableReader

/-- The set that a table holds. -/
def ofTable (table : String) : CharSet :=
  ⟨(table.foldl TableReader.step {}).finish.ranges.reverse⟩

end CharSet

end TripleQuery
