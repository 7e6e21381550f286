import TripleQuery.Text.CharSet
/-!
# Characters as bytes

A character is written as one to four bytes: a leading byte, which tells how many there are, and
bytes that each carry six bits more. The characters of a set are written as sequences of ranges of
bytes: a sequence stands for all characters whose bytes lie in its ranges, one after the other.
-/

namespace TripleQuery

/-- A range of bytes, from first to last. -/
abbrev ByteRange := Nat × Nat

namespace Utf8

/-- The bytes of the character with a code point. -/
def encode (n : Nat) : List Nat :=
  if n < 0x80 then [n]
  else if n < 0x800 then [0xc0 + n / 0x40, 0x80 + n % 0x40]
  else if n < 0x10000 then [0xe0 + n / 0x1000, 0x80 + n / 0x40 % 0x40, 0x80 + n % 0x40]
  else
    [0xf0 + n / 0x40000, 0x80 + n / 0x1000 % 0x40, 0x80 + n / 0x40 % 0x40, 0x80 + n % 0x40]

/-- The bytes of several characters. -/
def encodeAll (cs : List Char) : List Nat :=
  cs.flatMap fun c => encode c.toNat

/-- The sequences for the numbers from the first to the last, which are written with a leading byte
and a number of bytes behind it. Numbers with the same leading byte are split further, unless they
are all there are with it. -/
def split (lead : Nat) : Nat → Nat → Nat → List (List ByteRange)
  | 0, first, last => [[(lead + first, lead + last)]]
  | k + 1, first, last =>
    let unit := Nat.pow 0x40 (k + 1)
    let below (head first last : Nat) :=
      (split 0x80 k first last).map ((lead + head, lead + head) :: ·)
    let head := first / unit
    let head' := last / unit
    let startsWhole := first % unit = 0
    let endsWhole := last % unit = unit - 1
    if head = head' && !(startsWhole && endsWhole) then below head (first % unit) (last % unit)
    else
      let wholeFrom := if startsWhole then head else head + 1
      let wholeUpTo := if endsWhole then head' + 1 else head'
      (if startsWhole then [] else below head (first % unit) (unit - 1)) ++
      (if wholeFrom < wholeUpTo then
        [(lead + wholeFrom, lead + (wholeUpTo - 1)) :: List.replicate (k + 1) (0x80, 0xbf)]
      else []) ++
      (if endsWhole then [] else below head' 0 (last % unit))

/-- The ranges of characters that are written alike: their ends, what is added to the leading byte
and the number of bytes behind it. -/
def forms : List (Nat × Nat × Nat × Nat) :=
  [(0, 0x7f, 0, 0), (0x80, 0x7ff, 0xc0, 1), (0x800, 0xd7ff, 0xe0, 2), (0xe000, 0xffff, 0xe0, 2),
   (0x10000, 0x10ffff, 0xf0, 3)]

/-- The sequences for the characters of a range of code points. -/
def sequencesOfRange (r : Nat × Nat) : List (List ByteRange) :=
  forms.flatMap fun (least, greatest, lead, k) =>
    if max r.1 least ≤ min r.2 greatest then split lead k (max r.1 least) (min r.2 greatest) else []

/-- The sequences for the characters of a set, in increasing order. -/
def sequences (s : CharSet) : List (List ByteRange) :=
  s.ranges.flatMap sequencesOfRange

end Utf8

end TripleQuery
