import TripleQuery.Regex.Syntax
import TripleQuery.Text.AsciiClass
import TripleQuery.Text.Newest
/-!
# Reading regular expressions

The written form of regular expressions: characters stand for themselves, except for the operators
of alternation, repetition and grouping, the anchors, the dot, bracketed sets and escapes. Groups
may be named and may change flags for their own extent; a group of flags alone changes them up to
the end of the enclosing group. An expression that does not follow the grammar has no reading.

Reading works on the list of the characters that are left. Of the flags it needs the one for verbose
expressions only, under which white space and comments mean nothing in most places. The functions
that call each other in circles are given the number of calls they may make at most; the length of
the expression bounds it.
-/

namespace TripleQuery

namespace RegexSyntax

/-! ## White space -/

/-- Whether a character is white space. -/
def isSpace (c : Char) : Bool :=
  CharSet.whiteSpace.contains c.toNat

/-- Skip white space and comments. A comment goes from a number sign to the end of its line. -/
def skipBlank : Bool → List Char → List Char
  | _, [] => []
  | true, c :: cs => skipBlank (c ≠ '\n') cs
  | false, c :: cs =>
    if isSpace c then skipBlank false cs
    else if c = '#' then skipBlank true cs
    else c :: cs

/-- Skip what means nothing in a verbose expression. -/
def skip (verbose : Bool) (cs : List Char) : List Char :=
  if verbose then skipBlank false cs else cs

theorem length_skipBlank_le (b : Bool) (cs : List Char) :
    (skipBlank b cs).length ≤ cs.length := by
  fun_induction skipBlank b cs <;> simp_all <;> omega

theorem length_skip_le (verbose : Bool) (cs : List Char) :
    (skip verbose cs).length ≤ cs.length := by
  unfold skip
  split
  · exact length_skipBlank_le false cs
  · exact Nat.le_refl _

/-- The characters in front of the first that is an end, without what means nothing behind each of
them, and the characters from there on. -/
def upTo (verbose : Bool) (isEnd : Char → Bool) : List Char → List Char × List Char
  | [] => ([], [])
  | c :: cs =>
    if isEnd c then ([], c :: cs)
    else
      let (ds, rest) := upTo verbose isEnd (skip verbose cs)
      (c :: ds, rest)
termination_by cs => cs.length
decreasing_by
  have := length_skip_le verbose cs
  simp
  omega

/-- The first character that is no white space, or the one after a number sign that comes before it;
the very first character if there is none. -/
def peek (verbose : Bool) (cs : List Char) : Option Char :=
  if verbose then
    match cs.dropWhile isSpace with
    | '#' :: rest => (rest.dropWhile isSpace).head?.or cs.head?
    | rest => rest.head?.or cs.head?
  else cs.head?

/-! ## Numbers -/

/-- The number written in hexadecimal digits. -/
def hexNumber? (ds : List Char) : Option Nat :=
  ds.foldlM (fun n d => (CharSet.hexValue? d).map (16 * n + ·)) 0

/-- The character with a code point in hexadecimal digits, if it is one. -/
def charOfHex? (ds : List Char) : Option Char := do
  let n ← hexNumber? ds
  guard (!ds.isEmpty && n.isValidChar)
  return Char.ofNat n

/-- Some characters, without what means nothing between them. -/
def several (verbose : Bool) : Nat → List Char → Option (List Char × List Char)
  | 0, cs => some ([], cs)
  | _ + 1, [] => none
  | k + 1, c :: cs => (several verbose k (skip verbose cs)).map fun (ds, rest) => (c :: ds, rest)

/-- A decimal number with white space around it, no greater than fits into 32 bits. -/
def decimal (verbose : Bool) (cs : List Char) : Option (Nat × List Char) :=
  let (ds, rest) := upTo verbose (!·.isDigit) (cs.dropWhile isSpace)
  let n := ds.foldl (fun n d => 10 * n + (d.toNat - 48)) 0
  if ds.isEmpty || n ≥ Nat.pow 2 32 then none else some (n, rest.dropWhile isSpace)

/-! ## Escapes -/

/-- What an escape stands for. -/
inductive Escape where
  | char (c : WrittenChar)
  | named (negated : Bool) (c : NamedClass)
  | anchor (a : WrittenAnchor)

/-- The class that a letter names. The upper-case letter names the complement. -/
def letterClass? : Char → Option Escape
  | 'd' => some (.named false (.letter .digit))
  | 's' => some (.named false (.letter .space))
  | 'w' => some (.named false (.letter .word))
  | 'D' => some (.named true (.letter .digit))
  | 'S' => some (.named true (.letter .space))
  | 'W' => some (.named true (.letter .word))
  | _ => none

/-- The character or the condition that a letter names. -/
def letterEscape? : Char → Option Escape
  | 'a' => some (.char ⟨'\x07', false⟩)
  | 'f' => some (.char ⟨'\x0c', false⟩)
  | 't' => some (.char ⟨'\t', false⟩)
  | 'n' => some (.char ⟨'\n', false⟩)
  | 'r' => some (.char ⟨'\r', false⟩)
  | 'v' => some (.char ⟨'\x0b', false⟩)
  | 'A' => some (.anchor .textStart)
  | 'z' => some (.anchor .textEnd)
  | 'B' => some (.anchor .notWordBoundary)
  | '<' => some (.anchor .wordStart)
  | '>' => some (.anchor .wordEnd)
  | _ => none

/-- Whether a character may be escaped to stand for itself: the punctuation of ASCII, the angle
brackets apart, which are kept for anchors. -/
def isEscapable (c : Char) : Bool :=
  c.toNat < 128 && !c.isAlphanum && c ≠ '<' && c ≠ '>'

/-- The character with a code point in hexadecimal digits: in braces, or of a fixed number of
digits. Two digits are a byte. -/
def hexEscape (verbose : Bool) (digits : Nat) (cs : List Char) :
    Option (WrittenChar × List Char) :=
  match skip verbose cs with
  | '{' :: cs => do
    let (ds, rest) := upTo verbose (· = '}') (skip verbose cs)
    guard !rest.isEmpty
    return (⟨← charOfHex? ds, false⟩, skip verbose (rest.drop 1))
  | cs => do
    let (ds, rest) ← several verbose digits cs
    return (⟨← charOfHex? ds, digits = 2⟩, rest)

/-- Cut characters at the first place where some others stand. -/
def cutAt? (separator : List Char) : List Char → Option (List Char × List Char)
  | [] => none
  | c :: cs =>
    if separator.isPrefixOf (c :: cs) then some ([], (c :: cs).drop separator.length)
    else (cutAt? separator cs).map fun (before, after) => (c :: before, after)

/-- The property that stands in braces: its name, or its name and a value with a sign between. -/
def propertyOf (cs : List Char) : NamedClass :=
  match (cutAt? ['!', '='] cs).or ((cutAt? [':'] cs).or (cutAt? ['='] cs)) with
  | some (name, value) => .propertyValue (String.ofList name) (String.ofList value)
  | none => .property (String.ofList cs)

/-- A property, in braces or by a single letter. -/
def property (verbose : Bool) (cs : List Char) : Option (NamedClass × List Char) :=
  match skip verbose cs with
  | [] => none
  | '{' :: cs =>
    let (name, rest) := upTo verbose (· = '}') (skip verbose cs)
    if rest.isEmpty then none else some (propertyOf name, rest.drop 1)
  | c :: cs => if c = '\\' then none else some (.property (String.singleton c), skip verbose cs)

/-- The anchor after a word boundary escape: one of the four special ones in braces, or the plain
one. Braces that do not start with a letter are left for a repetition. -/
def boundary (verbose : Bool) : List Char → Option (WrittenAnchor × List Char)
  | '{' :: cs =>
    let (name, rest) := upTo verbose (fun c => !(c.isAlpha || c = '-')) (skip verbose cs)
    if name.isEmpty then
      if rest.isEmpty then none else some (.wordBoundary, '{' :: cs)
    else do
      guard (rest.head? = some '}')
      let a ← match String.ofList name with
        | "start" => some WrittenAnchor.wordStart
        | "end" => some .wordEnd
        | "start-half" => some .wordStartHalf
        | "end-half" => some .wordEndHalf
        | _ => none
      return (a, rest.drop 1)
  | cs => some (.wordBoundary, cs)

/-- What the characters after a backslash stand for. -/
def escape (verbose : Bool) : List Char → Option (Escape × List Char)
  | [] => none
  | c :: cs =>
    match c with
    | 'x' => (hexEscape verbose 2 cs).map fun (e, rest) => (.char e, rest)
    | 'u' => (hexEscape verbose 4 cs).map fun (e, rest) => (.char e, rest)
    | 'U' => (hexEscape verbose 8 cs).map fun (e, rest) => (.char e, rest)
    | 'p' => (property verbose cs).map fun (p, rest) => (.named false p, rest)
    | 'P' => (property verbose cs).map fun (p, rest) => (.named true p, rest)
    | 'b' => (boundary verbose cs).map fun (a, rest) => (.anchor a, rest)
    | _ =>
      if isEscapable c then some (.char ⟨c, false⟩, cs)
      else ((letterClass? c).or (letterEscape? c)).map (·, cs)

/-! ## Bracketed sets -/

/-- The set up to here: the members since the last operator, the latest first, and what was before
it. -/
def joinOperands (before : Option (SetSyntax × SetOp)) (members : List SetSyntax) : SetSyntax :=
  match before with
  | none => .ofList members.reverse
  | some (s, op) => .binary op s (.ofList members.reverse)

/-- A named class of ASCII characters, in colons inside its own brackets. The opening bracket has
been read. -/
def namedClass : List Char → Option (SetSyntax × List Char)
  | ':' :: cs =>
    let negated := cs.head? = some '^'
    let cs := if negated then cs.drop 1 else cs
    let name := cs.takeWhile (· ≠ ':')
    match cs.drop name.length with
    | ':' :: ']' :: rest =>
      (CharSet.asciiClass? (String.ofList name)).map fun s => (.named negated (.ascii s), rest)
    | _ => none
  | _ => none

/-- One member of a set: a character, or a class named by an escape. -/
def member (verbose : Bool) : List Char → Option (Escape × List Char)
  | [] => none
  | '\\' :: cs => escape verbose cs
  | c :: cs => some (.char ⟨c, false⟩, cs)

/-- One member as a set. An anchor is none. -/
def Escape.toSet? : Escape → Option SetSyntax
  | .char c => some (.char c)
  | .named negated c => some (.named negated c)
  | .anchor _ => none

/-- One member of a set or a range from one character to another. A hyphen that another hyphen or
the closing bracket follows makes no range. -/
def memberOrRange (verbose : Bool) (cs : List Char) : Option (SetSyntax × List Char) := do
  let (first, rest) ← member verbose cs
  let rest := skip verbose rest
  match rest with
  | [] => none
  | '-' :: after =>
    if peek verbose after = some ']' || peek verbose after = some '-' then
      return (← first.toSet?, rest)
    else
      let (last, rest) ← member verbose (skip verbose after)
      match first, last with
      | .char a, .char b =>
        guard (a.char ≤ b.char)
        return (.range a b, rest)
      | _, _ => none
  | _ => return (← first.toSet?, rest)

/-- Whether a set begins with a caret, and the characters that stand for themselves only because
they come first: hyphens, or else a closing bracket. They are given the latest first. -/
def openBracket (verbose : Bool) (cs : List Char) : Bool × List SetSyntax × List Char :=
  let cs := skip verbose cs
  let negated := cs.head? = some '^'
  let cs := if negated then skip verbose (cs.drop 1) else cs
  let (hyphens, rest) := upTo verbose (· ≠ '-') cs
  match hyphens, rest with
  | [], ']' :: rest => (negated, [.char ⟨']', false⟩], skip verbose rest)
  | _, _ => (negated, hyphens.map fun c => .char ⟨c, false⟩, rest)

/-- The members of a set up to its closing bracket, given how brackets inside are read, what was
before the last operator and the members since, the latest first. -/
def members (verbose : Bool) (nested : List Char → Option (Bool × SetSyntax × List Char)) :
    Nat → Option (SetSyntax × SetOp) → List SetSyntax → List Char →
      Option (SetSyntax × List Char)
  | 0, _, _, _ => none
  | fuel + 1, before, ms, cs =>
    let continueWith (s : SetSyntax) (rest : List Char) :=
      members verbose nested fuel before (s :: ms) rest
    let operator (op : SetOp) (rest : List Char) :=
      members verbose nested fuel (some (joinOperands before ms, op)) [] rest
    match skip verbose cs with
    | [] => none
    | ']' :: rest => some (joinOperands before ms, rest)
    | '&' :: '&' :: rest => operator .inter rest
    | '-' :: '-' :: rest => operator .diff rest
    | '~' :: '~' :: rest => operator .symmDiff rest
    | '[' :: rest =>
      match namedClass rest with
      | some (s, rest) => continueWith s rest
      | none =>
        match nested rest with
        | some (negated, s, rest) => continueWith (.bracketed negated s) rest
        | none => none
    | cs =>
      match memberOrRange verbose cs with
      | some (s, rest) => continueWith s rest
      | none => none

/-- A set in brackets, whose opening bracket has been read, and whether it is negated, given how
many levels of brackets there may be. -/
def inBrackets (verbose : Bool) : Nat → List Char → Option (Bool × SetSyntax × List Char)
  | 0, _ => none
  | levels + 1, cs =>
    let (negated, first, cs) := openBracket verbose cs
    (members verbose (inBrackets verbose levels) (cs.length + 1) none first cs).map (negated, ·)

/-! ## Groups and expressions -/

/-- The flag that a letter names. -/
def flag? : Char → Option RegexFlag
  | 'i' => some .caseless
  | 'm' => some .multiLine
  | 's' => some .dotAll
  | 'U' => some .swapGreed
  | 'u' => some .unicode
  | 'R' => some .crlf
  | 'x' => some .verbose
  | _ => none

/-- How a group begins. -/
inductive GroupStart where
  /-- A group of flags alone. -/
  | flags (changes : List FlagChange)
  /-- A group with an expression inside. -/
  | group (capturing : Bool) (changes : List FlagChange) (name : Option String)

/-- Flags up to the colon of a group or the end of a group of flags alone, given those so far, the
latest first. Each occurs once, a hyphen goes before those to be switched off, and there is at least
one after it. -/
def groupFlags (on : Bool) (changes : List FlagChange) (last : Char) :
    List Char → Option (GroupStart × List Char)
  | [] => none
  | c :: cs =>
    if c = ':' then
      if last = '-' then none else some (.group false changes.reverse none, cs)
    else if c = ')' then
      if last = '-' || last = '?' then none else some (.flags changes.reverse, cs)
    else if c = '-' then if on then groupFlags false changes c cs else none
    else
      match flag? c with
      | some f =>
        if changes.any (·.flag = f) then none else groupFlags on (⟨f, on⟩ :: changes) c cs
      | none => none

/-- The name of a group, up to the closing angle bracket. -/
def groupName (cs : List Char) : Option (GroupStart × List Char) := do
  let name := cs.takeWhile (· ≠ '>')
  guard (name.length < cs.length)
  guard (name.head?.any fun c => c = '_' || CharSet.nameStart.contains c.toNat)
  guard (name.all fun c =>
    c = '_' || c = '.' || c = '[' || c = ']' || CharSet.nameContinue.contains c.toNat)
  return (.group true [] (some (String.ofList name)), cs.drop (name.length + 1))

/-- How a group begins, its opening parenthesis having been read. -/
def groupStart (verbose : Bool) (cs : List Char) : Option (GroupStart × List Char) :=
  match skip verbose cs with
  | '?' :: 'P' :: '<' :: cs => groupName cs
  | '?' :: '<' :: cs => groupName cs
  | '?' :: cs => groupFlags true [] '?' cs
  | cs => some (.group true [] none, cs)

/-- Whether an expression is verbose after some changes of flags. -/
def verboseAfter (verbose : Bool) (changes : List FlagChange) : Bool :=
  match changes.find? (·.flag = .verbose) with
  | some change => change.on
  | none => verbose

/-- The numbers of a counted repetition, whose opening brace has been read. -/
def counts (verbose : Bool) (cs : List Char) : Option (Nat × Option Nat × List Char) := do
  let (least, rest) ← decimal verbose (skip verbose cs)
  let (most, rest) ← match rest with
    | ',' :: rest =>
      match skip verbose rest with
      | '}' :: rest => some (none, '}' :: rest)
      | rest => (decimal verbose rest).map fun (n, rest) => (some n, rest)
    | _ => some (some least, rest)
  guard (rest.head? = some '}' && most.all (least ≤ ·))
  return (least, most, rest.drop 1)

/-- Whether a repetition prefers many times: a question mark after it says that it does not. -/
def greediness : List Char → Bool × List Char
  | '?' :: cs => (false, cs)
  | cs => (true, cs)

/-- The expression read up to here: the alternatives before, the latest first, and the parts of the
present one, the latest first. -/
def joinAlternatives (alternatives : List RegexSyntax) (parts : List RegexSyntax) : RegexSyntax :=
  match alternatives with
  | [] => ofList parts.reverse
  | _ => alt (ofList parts.reverse :: alternatives).reverse

/-- Read an expression up to the end or to a closing parenthesis, given how many more groups may be
nested, whether it is verbose, the names of the groups so far, the alternatives so far and the parts
of the present one, the latest first. -/
def expression : Nat → Nat → Bool → List String → List RegexSyntax → List RegexSyntax →
    List Char → Option (RegexSyntax × List String × List Char)
  | 0, _, _, _, _, _, _ => none
  | fuel + 1, levels, verbose, names, alternatives, parts, cs =>
    let continueWith (part : RegexSyntax) (rest : List Char) :=
      expression fuel levels verbose names alternatives (part :: parts) rest
    let repeatLast (least : Nat) (most : Option Nat) (rest : List Char) :=
      match parts with
      | [] | .flags _ :: _ => none
      | r :: earlier =>
        let (greedy, rest) := greediness rest
        expression fuel levels verbose names alternatives (.times r least most greedy :: earlier)
          rest
    let finish (rest : List Char) := some (joinAlternatives alternatives parts, names, rest)
    match skip verbose cs with
    | [] => finish []
    | c :: rest =>
      match c with
      | ')' => finish (c :: rest)
      | '|' =>
        expression fuel levels verbose names (ofList parts.reverse :: alternatives) [] rest
      | '(' =>
        match groupStart verbose rest with
        | none => none
        | some (.flags changes, rest) =>
          expression fuel levels (verboseAfter verbose changes) names alternatives
            (.flags changes :: parts) rest
        | some (.group capturing changes name, rest) =>
          if levels = 0 || name.any names.contains then none
          else
            match expression fuel (levels - 1) (verboseAfter verbose changes)
              (name.toList ++ names) [] [] rest with
            | some (inner, names', ')' :: rest) =>
              expression fuel levels verbose names' alternatives
                (.group capturing changes inner :: parts) rest
            | _ => none
      | '*' => repeatLast 0 none rest
      | '+' => repeatLast 1 none rest
      | '?' => repeatLast 0 (some 1) rest
      | '{' =>
        match counts verbose rest with
        | some (least, most, rest) => repeatLast least most (skip verbose rest)
        | none => none
      | '[' =>
        match inBrackets verbose maxDepth rest with
        | some (negated, s, rest) => continueWith (.bracketed negated s) rest
        | none => none
      | '.' => continueWith .dot rest
      | '^' => continueWith (.anchor .caret) rest
      | '$' => continueWith (.anchor .dollar) rest
      | '\\' =>
        match escape verbose rest with
        | some (.char e, rest) => continueWith (.char e) rest
        | some (.named negated s, rest) => continueWith (.named negated s) rest
        | some (.anchor a, rest) => continueWith (.anchor a) rest
        | none => none
      | _ => continueWith (.char ⟨c, false⟩) rest

/-- The regular expression written as the given text, if it is one. -/
def ofText? (text : String) : Option RegexSyntax :=
  match expression (text.length + 1) maxDepth false [] [] [] text.toList with
  | some (r, _, []) => some r
  | _ => none

end RegexSyntax

end TripleQuery
