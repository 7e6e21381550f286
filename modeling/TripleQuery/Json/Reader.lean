import TripleQuery.Json.Skip
/-!
# Reading typed values from JSON

Readers for naturals, truth values, strings, optional values, lists, records and tagged values. Each
reads a value of its type from the front of a text, and the first fault from left to right decides.
A record is an object whose members may come in any order, each at most once, among others that are
skipped; it may also be an array of the values of its fields in their order. A tagged value is an
object with one member, whose name is the tag; a tag without a value may also stand alone as a
string.

Readers of nested values are told how many levels of arrays and objects may still be opened.
-/

namespace TripleQuery

namespace Json

variable {α β σ : Type}

/-- How many levels of arrays and objects a typed value may have. -/
def maxDepth : Nat := 127

/-! ## Simple values -/

/-- What is wrong with a value that is not of the type that is asked for: it is of another type if
it is well formed, so far as it has to be looked at. -/
def mismatchFault : List Char → Fault
  | [] => .endOfText
  | 'n' :: cs => ofResult (word ['u', 'l', 'l'] cs)
  | 't' :: cs => ofResult (word ['r', 'u', 'e'] cs)
  | 'f' :: cs => ofResult (word ['a', 'l', 's', 'e'] cs)
  | '"' :: cs => ofResult (readString cs)
  | '[' :: _ | '{' :: _ => .mismatch
  | c :: cs =>
    if c = '-' || c.isDigit then ofResult (readNumber (c :: cs)) else .malformed
where
  /-- The fault of a value that was read and is of the wrong type. -/
  ofResult {α : Type} : Except Fault α → Fault
    | .ok _ => .mismatch
    | .error e => e

/-- A string. -/
def text : Reader String := fun cs =>
  match skipSpace cs with
  | '"' :: rest => readString rest
  | cs => .error (mismatchFault cs)

/-- A natural of 64 bits. -/
def natural : Reader Nat := fun cs =>
  match skipSpace cs with
  | [] => .error .endOfText
  | c :: rest =>
    if c = '-' || c.isDigit then
      match readNumber (c :: rest) with
      | .error e => .error e
      | .ok (n, rest) =>
        match n.natural? with
        | some n => .ok (n, rest)
        | none => .error .mismatch
    else .error (mismatchFault (c :: rest))

/-- A truth value. -/
def truth : Reader Bool := fun cs =>
  match skipSpace cs with
  | 't' :: rest => (word ['r', 'u', 'e'] rest).map (true, ·)
  | 'f' :: rest => (word ['a', 'l', 's', 'e'] rest).map (false, ·)
  | cs => .error (mismatchFault cs)

/-- The null value. -/
def null : Reader Unit := fun cs =>
  match skipSpace cs with
  | 'n' :: rest => (word ['u', 'l', 'l'] rest).map ((), ·)
  | cs => .error (mismatchFault cs)

/-- A value, or null in its place. -/
def optional (r : Reader α) : Reader (Option α) := fun cs =>
  match skipSpace cs with
  | 'n' :: rest => (word ['u', 'l', 'l'] rest).map (none, ·)
  | cs => (r cs).map fun (a, rest) => (some a, rest)

/-! ## Lists -/

/-- Whether an array goes on, and the text from its next element on, or from its closing bracket. -/
def nextElement (isFirst : Bool) (cs : List Char) : Except Fault (Bool × List Char) :=
  match skipSpace cs with
  | [] => .error .endOfText
  | c :: rest =>
    if c = ']' then .ok (false, c :: rest)
    else if isFirst then .ok (true, c :: rest)
    else if c = ',' then
      match skipSpace rest with
      | [] => .error .endOfText
      | d :: rest => if d = ']' then .error .malformed else .ok (true, d :: rest)
    else .error .malformed

/-- The closing bracket of an array from which nothing more is asked. A comma in its place is not
well formed, whatever comes after it. -/
def closeArray (cs : List Char) : Except Fault (List Char) :=
  match skipSpace cs with
  | [] => .error .endOfText
  | c :: rest => if c = ']' then .ok rest else .error .malformed

/-- The elements of an array up to its closing bracket, at most as many as given. -/
def elements (r : Reader α) : Nat → Bool → Reader (List α)
  | 0, _, _ => .error .malformed
  | fuel + 1, isFirst, cs =>
    match nextElement isFirst cs with
    | .error e => .error e
    | .ok (false, rest) => (closeArray rest).map ([], ·)
    | .ok (true, rest) =>
      match r rest with
      | .error e => .error e
      | .ok (a, rest) =>
        match elements r fuel false rest with
        | .error e => .error e
        | .ok (as, rest) => .ok (a :: as, rest)

/-- A list. Its elements are read with one level less to open. -/
def list (r : Nat → Reader α) (room : Nat) : Reader (List α) := fun cs =>
  match skipSpace cs with
  | '[' :: rest =>
    match room with
    | 0 => .error .malformed
    | room + 1 => elements (r room) (rest.length + 1) true rest
  | cs => .error (mismatchFault cs)

/-! ## Records -/

/-- A field of a record, seen from what has been read of the record so far. -/
structure Field (σ : Type) where
  /-- The name of the member. -/
  name : String
  /-- Whether the field has been read. -/
  isSet : σ → Bool
  /-- Read the field, with the given number of levels to open. -/
  read : Nat → σ → Reader σ

/-- The field whose value is read by `r` and kept by `put`. -/
def Field.of (name : String) (r : Nat → Reader α) (get : σ → Option α) (put : α → σ → σ) :
    Field σ where
  name := name
  isSet s := (get s).isSome
  read room s cs := (r room cs).map fun (a, rest) => (put a s, rest)

/-- Whether an object goes on with another member, and the text after the quote that opens its name,
or from its closing bracket on. -/
def nextMember (isFirst : Bool) (cs : List Char) : Except Fault (Bool × List Char) :=
  match skipSpace cs with
  | [] => .error .endOfText
  | c :: rest =>
    if c = '}' then .ok (false, rest)
    else if isFirst then if c = '"' then .ok (true, rest) else .error .malformed
    else if c = ',' then
      match skipSpace rest with
      | [] => .error .endOfText
      | d :: rest => if d = '"' then .ok (true, rest) else .error .malformed
    else .error .malformed

/-- The colon after the name of a member. -/
def colon (cs : List Char) : Except Fault (List Char) :=
  match skipSpace cs with
  | [] => .error .endOfText
  | c :: rest => if c = ':' then .ok rest else .error .malformed

/-- Read one member into a record. A field that has been read already is a mismatch before its value
is looked at, and a member that is no field is skipped. -/
def member (fields : List (Field σ)) (room : Nat) (s : σ) (name : String) : Reader σ := fun cs =>
  match fields.find? (·.name = name) with
  | some f =>
    if f.isSet s then .error .mismatch
    else
      match colon cs with
      | .error e => .error e
      | .ok rest => f.read room s rest
  | none =>
    match colon cs with
    | .error e => .error e
    | .ok rest => (skipValue rest).map (s, ·)

/-- The members of an object up to its closing bracket, at most as many as given. -/
def members (fields : List (Field σ)) (room : Nat) : Nat → Bool → σ → Reader σ
  | 0, _, _, _ => .error .malformed
  | fuel + 1, isFirst, s, cs =>
    match nextMember isFirst cs with
    | .error e => .error e
    | .ok (false, rest) => .ok (s, rest)
    | .ok (true, rest) =>
      match readString rest with
      | .error e => .error e
      | .ok (name, rest) =>
        match member fields room s name rest with
        | .error e => .error e
        | .ok (s, rest) => members fields room fuel false s rest

/-- The values of fields in their order, up to the closing bracket of an array. Where values are
missing, `partly` tells whether that is allowed. -/
def fieldValues (partly : Bool) (room : Nat) : List (Field σ) → Bool → σ → Reader σ
  | [], _, s, cs => (closeArray cs).map (s, ·)
  | f :: fs, isFirst, s, cs =>
    match nextElement isFirst cs with
    | .error e => .error e
    | .ok (false, rest) =>
      if partly then (closeArray rest).map (s, ·) else .error .mismatch
    | .ok (true, rest) =>
      match f.read room s rest with
      | .error e => .error e
      | .ok (s, rest) => fieldValues partly room fs false s rest

/-- A record: what has been read of it is put together by `build`, which fails if a field is
missing. -/
def record (fields : List (Field σ)) (partly : Bool) (blank : σ) (build : σ → Option α)
    (room : Nat) : Reader α := fun cs =>
  let finish : Except Fault (σ × List Char) → Except Fault (α × List Char)
    | .error e => .error e
    | .ok (s, rest) =>
      match build s with
      | some a => .ok (a, rest)
      | none => .error .mismatch
  match skipSpace cs, room with
  | '[' :: _, 0 | '{' :: _, 0 => .error .malformed
  | '[' :: rest, room + 1 => finish (fieldValues partly room fields true blank rest)
  | '{' :: rest, room + 1 => finish (members fields room (rest.length + 1) true blank rest)
  | cs, _ => .error (mismatchFault cs)

/-! ## Tagged values -/

/-- What a tag stands for. -/
inductive Tagged (α : Type) where
  /-- A value by itself. -/
  | alone (a : α)
  /-- A value made from another one, which is read with the given number of levels to open. -/
  | carrying (r : Nat → Reader α)

/-- The closing bracket of a tagged value. -/
def closeTagged (cs : List Char) : Except Fault (List Char) :=
  match skipSpace cs with
  | [] => .error .endOfText
  | c :: rest => if c = '}' then .ok rest else .error .malformed

/-- The tag of a tagged value. Like every name of a member it has to be a string: anything else in
its place is not well formed, whatever it would be as a value. -/
def tag : Reader String := fun cs =>
  match skipSpace cs with
  | [] => .error .endOfText
  | c :: rest => if c = '"' then readString rest else .error .malformed

/-- The tag and the value of a tagged value, whose opening bracket has been read. -/
def tagAndValue (tags : String → Option (Tagged α)) (room : Nat) : Reader α := fun cs =>
  match tag cs with
  | .error e => .error e
  | .ok (tag, rest) =>
    match tags tag with
    | none => .error .mismatch
    | some t =>
      match colon rest with
      | .error e => .error e
      | .ok rest =>
        match t with
        | .alone a => (null rest).map fun (_, rest) => (a, rest)
        | .carrying r => r room rest

/-- A tagged value. -/
def tagged (tags : String → Option (Tagged α)) (room : Nat) : Reader α := fun cs =>
  match skipSpace cs with
  | [] => .error .endOfText
  | '{' :: rest =>
    match room with
    | 0 => .error .malformed
    | room + 1 =>
      match tagAndValue tags room rest with
      | .error e => .error e
      | .ok (a, rest) => (closeTagged rest).map (a, ·)
  | '"' :: rest =>
    match readString rest with
    | .error e => .error e
    | .ok (tag, rest) =>
      match tags tag with
      | some (.alone a) => .ok (a, rest)
      | _ => .error .mismatch
  | _ => .error .malformed

/-! ## Whole texts -/

/-- A text that holds one value and nothing else. -/
def readText (r : Nat → Reader α) (s : String) : Except Fault α :=
  match r maxDepth s.toList with
  | .error e => .error e
  | .ok (a, rest) => if (skipSpace rest).isEmpty then .ok a else .error .malformed

end Json

end TripleQuery
