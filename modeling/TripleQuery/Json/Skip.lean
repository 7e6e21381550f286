import TripleQuery.Json.Number
/-!
# Skipping JSON values

The value of a member that is not asked for is skipped. It has to be well formed, but it may be
nested to any depth, its numbers may have any size, and its strings may hold lone surrogates, since
nothing is made of them. A number that ends too early is not well formed.
-/

namespace TripleQuery

namespace Json

/-- White space between the parts of a text. -/
def isBlank (c : Char) : Bool :=
  c = ' ' || c = '\n' || c = '\t' || c = '\r'

/-- Leave out white space. -/
def skipSpace (cs : List Char) : List Char :=
  cs.dropWhile isBlank

/-- The given characters. -/
def word : List Char → List Char → Except Fault (List Char)
  | [], cs => .ok cs
  | _ :: _, [] => .error .endOfText
  | w :: ws, c :: cs => if c = w then word ws cs else .error .malformed

/-- Skip the digits that must be there. -/
def skipDigits : List Char → Except Fault (List Char)
  | [] => .error .malformed
  | c :: cs => if c.isDigit then .ok (cs.dropWhile Char.isDigit) else .error .malformed

/-- Skip a number. -/
def skipNumber (cs : List Char) : Except Fault (List Char) := do
  let cs := if cs.head? = some '-' then cs.drop 1 else cs
  let rest ← skipDigits cs
  if cs.head? = some '0' && (cs.drop 1).head?.any Char.isDigit then .error .malformed
  let rest ← if rest.head? = some '.' then skipDigits (rest.drop 1) else .ok rest
  if rest.head?.any fun c => c = 'e' || c = 'E' then
    let rest := rest.drop 1
    skipDigits (if rest.head?.any fun c => c = '+' || c = '-' then rest.drop 1 else rest)
  else .ok rest

/-- Skip a string up to its closing quote, in at most the given number of steps. -/
def skipString : Nat → List Char → Except Fault (List Char)
  | 0, _ | _, [] => .error .endOfText
  | fuel + 1, c :: cs =>
    if c = '"' then .ok cs
    else if c = '\\' then
      match cs with
      | [] => .error .endOfText
      | e :: cs =>
        if (shortEscape? e).isSome then skipString fuel cs
        else if e = 'u' then
          match codeUnit cs with
          | .error f => .error f
          | .ok (_, rest) => skipString fuel rest
        else .error .malformed
    else if c.toNat < 32 then .error .malformed
    else skipString fuel cs

/-- What a value that is being skipped is inside of. -/
inductive Enclosing where
  | array
  | object
deriving DecidableEq

/-- The bracket that closes an array or an object. -/
def Enclosing.closing : Enclosing → Char
  | array => ']'
  | object => '}'

/-- Skip the name of a member and its colon. -/
def skipName (cs : List Char) : Except Fault (List Char) :=
  match skipSpace cs with
  | [] => .error .endOfText
  | '"' :: cs =>
    match skipString cs.length cs with
    | .error e => .error e
    | .ok rest =>
      match skipSpace rest with
      | [] => .error .endOfText
      | ':' :: rest => .ok rest
      | _ => .error .malformed
  | _ => .error .malformed

/-- Skip to the value that comes next inside an array or an object: in an object, over its name. -/
def skipToValue (enclosing : Enclosing) (cs : List Char) : Except Fault (List Char) :=
  match enclosing with
  | .array => .ok cs
  | .object => skipName cs

/-- A value that is not an array or an object, or the opening of one. -/
def skipSimple : List Char → Except Fault (Option Enclosing × List Char)
  | [] => .error .endOfText
  | 'n' :: cs => (word ['u', 'l', 'l'] cs).map (none, ·)
  | 't' :: cs => (word ['r', 'u', 'e'] cs).map (none, ·)
  | 'f' :: cs => (word ['a', 'l', 's', 'e'] cs).map (none, ·)
  | '"' :: cs => (skipString cs.length cs).map (none, ·)
  | '[' :: cs => .ok (some .array, cs)
  | '{' :: cs => .ok (some .object, cs)
  | c :: cs =>
    if c = '-' || c.isDigit then (skipNumber (c :: cs)).map (none, ·) else .error .malformed

mutual

/-- Skip a value inside the given arrays and objects, the innermost first, in at most the given
number of steps. -/
def skipInside : Nat → List Enclosing → List Char → Except Fault (List Char)
  | 0, _, _ => .error .malformed
  | fuel + 1, outer, cs =>
    match skipSimple (skipSpace cs) with
    | .error e => .error e
    | .ok (none, rest) => skipAfter fuel outer false rest
    | .ok (some opened, rest) => skipAfter fuel (opened :: outer) true rest

/-- Skip what follows inside the given arrays and objects, the innermost first. Right after its
opening an array or an object needs no comma before a value. -/
def skipAfter : Nat → List Enclosing → Bool → List Char → Except Fault (List Char)
  | 0, _, _, _ => .error .malformed
  | _, [], _, cs => .ok cs
  | fuel + 1, inner :: outer, opened, cs =>
    match skipSpace cs with
    | [] => .error .endOfText
    | c :: rest =>
      if c = inner.closing then skipAfter fuel outer false rest
      else if c = ',' && !opened then
        match skipToValue inner rest with
        | .error e => .error e
        | .ok rest => skipInside fuel (inner :: outer) rest
      else if opened then
        match skipToValue inner (c :: rest) with
        | .error e => .error e
        | .ok rest => skipInside fuel (inner :: outer) rest
      else .error .malformed

end

/-- Skip a value. -/
def skipValue (cs : List Char) : Except Fault (List Char) :=
  skipInside (2 * cs.length + 2) [] cs

end Json

end TripleQuery
