import TripleQuery.Json.Text
/-!
# JSON numbers

A number is an optional sign, a whole part without leading zeros, and optionally a fraction and an
exponent. The only numbers that are asked for are naturals of 64 bits, which have no sign, no
fraction and no exponent; all others are of the wrong type, unless they are beyond every double, in
which case they are not well formed.

What is beyond every double is decided in doubles: the significand, as many leading digits as fit
into 64 bits, and the power of ten are each rounded before they are multiplied. Near the greatest
double the verdict may thus differ from that of exact arithmetic.
-/

namespace TripleQuery

namespace Json

/-- The nearest natural with 53 binary digits before its final zeros. Of two that are equally near
it is the one whose last of these digits is even. -/
def roundToDouble (n : Nat) : Nat :=
  let unit := Nat.pow 2 ((n.log2 + 1) - 53)
  let kept := n / unit
  let rest := n % unit
  if 2 * rest > unit || (2 * rest = unit && kept % 2 = 1) then (kept + 1) * unit else kept * unit

/-- A number as it is taken up: `significand · 10 ^ exponent`, with its sign. -/
structure Number where
  negative : Bool
  /-- Whether there is neither fraction nor exponent. -/
  whole : Bool
  /-- The leading digits of the whole part and the fraction. -/
  significand : Nat
  exponent : Int
deriving DecidableEq, Inhabited

namespace Number

/-- The least number that rounds beyond the greatest double. -/
def magnitudeBound : Nat :=
  Nat.pow 2 1024 - Nat.pow 2 970

/-- Whether a number is beyond every double. Only powers of ten that are doubles themselves are
raised to. -/
def isTooLarge (n : Number) : Bool :=
  if n.significand = 0 || n.exponent < 0 then false
  else if n.exponent > 308 then true
  else
    magnitudeBound ≤
      roundToDouble n.significand * roundToDouble (Nat.pow 10 n.exponent.toNat)

/-- The natural of 64 bits that a number is, if it is one. -/
def natural? (n : Number) : Option Nat :=
  if n.whole && !n.negative && n.exponent = 0 then some n.significand else none

end Number

/-- A number with one more decimal digit. -/
def withDigit (n : Nat) (d : Char) : Nat :=
  10 * n + (d.toNat - 48)

/-- The value of decimal digits. -/
def decimalValue (ds : List Char) : Nat :=
  ds.foldl withDigit 0

/-- Take up digits as long as the significand fits into 64 bits. The digits from the first one on
that does not are left over. -/
def takeDigits (significand : Nat) : List Char → Nat × List Char
  | [] => (significand, [])
  | d :: ds =>
    if withDigit significand d < Nat.pow 2 64 then takeDigits (withDigit significand d) ds
    else (significand, d :: ds)

/-- One digit or more. What stands in place of the first is a fault. -/
def someDigits : Reader (List Char)
  | [] => .error .endOfText
  | c :: cs =>
    if c.isDigit then .ok (c :: cs.takeWhile Char.isDigit, cs.dropWhile Char.isDigit)
    else .error .malformed

/-- A whole part without leading zeros. -/
def wholePart : Reader (List Char)
  | '0' :: cs => if cs.head?.any Char.isDigit then .error .malformed else .ok (['0'], cs)
  | cs => someDigits cs

/-- A fraction, if there is one. -/
def fraction : Reader (List Char)
  | '.' :: cs => someDigits cs
  | cs => .ok ([], cs)

/-- An exponent, if there is one: whether it is negative, and its digits. -/
def exponentPart : Reader (Option (Bool × List Char))
  | c :: cs =>
    if c = 'e' || c = 'E' then
      let negative := cs.head? = some '-'
      let signed := negative || cs.head? = some '+'
      match someDigits (if signed then cs.drop 1 else cs) with
      | .error e => .error e
      | .ok (ds, rest) => .ok (some (negative, ds), rest)
    else .ok (none, c :: cs)
  | [] => .ok (none, [])

/-- The value of an exponent. -/
def exponentValue : Option (Bool × List Char) → Int
  | none => 0
  | some (negative, ds) => if negative then -(decimalValue ds : Int) else decimalValue ds

/-- A number. One beyond all doubles is not well formed. -/
def readNumber : Reader Number := fun cs =>
  let negative := cs.head? = some '-'
  match wholePart (if negative then cs.drop 1 else cs) with
  | .error e => .error e
  | .ok (ws, rest) =>
    let start := rest
    match fraction rest with
    | .error e => .error e
    | .ok (fs, rest) =>
      match exponentPart rest with
      | .error e => .error e
      | .ok (ex, rest) =>
        let (wholeValue, wholeLeft) := takeDigits 0 ws
        let (significand, left) := takeDigits wholeValue fs
        let n : Number :=
          { negative := negative
            whole := rest.length = start.length
            significand := significand
            exponent := exponentValue ex + wholeLeft.length + left.length - fs.length }
        if n.isTooLarge then .error .malformed else .ok (n, rest)

end Json

end TripleQuery
