import TripleQuery.Regex.Simplify
import TripleQuery.Text.Utf8
import Std.Data.HashMap
/-!
# The room that an expression takes

An expression is searched for by an automaton over the bytes of a text and by a second one that
reads them backwards. An expression whose automata take too much room is refused, so the size of
both is worked out here, without building them. A state takes the same room whatever it is; a state
that branches takes some more for each branch. The automaton is made of the automata of the parts,
and a repetition that is counted holds its part as often as it counts.

A set of characters becomes an automaton over the bytes of its characters, in which states that do
the same are shared. What may be shared is looked up in a table with a fixed number of slots, so
that some states are made twice because another one has taken the slot.
-/

namespace TripleQuery

/-- What an automaton is made of so far. -/
structure AutomatonSize where
  /-- The number of states. -/
  states : Nat := 0
  /-- The bytes that branches take. -/
  branches : Nat := 0

namespace AutomatonSize

/-- The bytes that an automaton takes. -/
def bytes (a : AutomatonSize) : Nat := 32 * a.states + a.branches

/-- The bytes that an automaton may take. -/
def limit : Nat := 10485760

/-- The automaton with more states and more branches. -/
def add (a : AutomatonSize) (states branches : Nat) : AutomatonSize :=
  ⟨a.states + states, a.branches + branches⟩

/-- The automaton, if it does not take too much room. -/
def fits? (a : AutomatonSize) : Option AutomatonSize :=
  if a.bytes ≤ limit then some a else none

/-- A state that branches in so many directions. -/
def union (a : AutomatonSize) (k : Nat) : AutomatonSize := a.add 1 (4 * k)

/-- A state that leads on by so many ranges of bytes. -/
def ranges (a : AutomatonSize) (k : Nat) : AutomatonSize := a.add 1 (8 * k)

end AutomatonSize

/-! ## Sets of characters -/

/-- A table of the states made so far, by what they do. Each entry has one slot, where it takes the
place of the one before. -/
structure StateTable where
  /-- The number of slots. -/
  size : Nat
  /-- What the state in a slot does, and the state. -/
  slots : Std.HashMap Nat (List Nat × Nat) := {}

namespace StateTable

/-- The slot of an entry. -/
def slot (t : StateTable) (key : List Nat) : Nat :=
  let hash : UInt64 :=
    key.foldl (fun h n => (h ^^^ n.toUInt64) * 1099511628211) 14695981039346656037
  hash.toNat % t.size

/-- The state that does a thing, if it is in the table. -/
def find? (t : StateTable) (key : List Nat) : Option Nat :=
  match t.slots[t.slot key]? with
  | some (other, state) => if other = key then some state else none
  | none => none

/-- Put a state into its slot. -/
def insert (t : StateTable) (key : List Nat) (state : Nat) : StateTable :=
  { t with slots := t.slots.insert (t.slot key) (key, state) }

end StateTable

/-- An automaton with its table. -/
structure SharedStates where
  /-- The automaton so far. -/
  automaton : AutomatonSize
  /-- The states of the present set. -/
  table : StateTable

namespace SharedStates

/-- The state that does a thing: the one in the table, or a new one with so many branching bytes. -/
def state (s : SharedStates) (key : List Nat) (branches : Nat) : Nat × SharedStates :=
  match s.table.find? key with
  | some n => (n, s)
  | none =>
    let n := s.automaton.states
    (n, ⟨s.automaton.add 1 branches, s.table.insert key n⟩)

end SharedStates

/-- A state that is being made: where it leads by which ranges, the latest first, and a last range
whose goal is open. -/
structure OpenState where
  /-- The ranges with their goals. -/
  ranges : List (ByteRange × Nat) := []
  /-- The range without a goal so far. -/
  last : Option ByteRange := none

namespace OpenState

/-- The state whose last range leads to a goal. -/
def close (o : OpenState) (goal : Nat) : OpenState :=
  match o.last with
  | some r => ⟨(r, goal) :: o.ranges, none⟩
  | none => o

/-- The finished state. -/
def finish (o : OpenState) (s : SharedStates) : Nat × SharedStates :=
  s.state (o.ranges.reverse.flatMap fun (r, goal) => [r.1, r.2, goal]) (8 * o.ranges.length)

end OpenState

/-- Finish the innermost open states until so many are left around the innermost one, whose last
range then leads to what was finished. -/
def finishDownTo (outer : Nat) (goal : Nat) :
    List OpenState → SharedStates → List OpenState × SharedStates
  | [], s => ([], s)
  | o :: os, s =>
    if outer < os.length then
      let (n, s) := (o.close goal).finish s
      finishDownTo outer n os s
    else (o.close goal :: os, s)

/-- Add a sequence of ranges that comes after all sequences so far. The open states are those of the
last sequence, the innermost first. -/
def addSequence (goal : Nat) (opened : List OpenState × SharedStates) (q : List ByteRange) :
    List OpenState × SharedStates :=
  let common := ((opened.1.reverse.zip q).takeWhile fun (o, r) => o.last = some r).length
  match finishDownTo common goal opened.1 opened.2, q.drop common with
  | (o :: os, s), r :: rs =>
    (rs.foldl (fun os r => { last := some r } :: os) ({ o with last := some r } :: os), s)
  | opened, _ => opened

namespace AutomatonSize

/-- The automaton with one for a set of characters. -/
def forwardSet (a : AutomatonSize) (s : CharSet) : AutomatonSize :=
  let goal := a.states
  let opened :=
    (Utf8.sequences s).foldl (addSequence goal) ([{}], ⟨a.add 1 0, { size := 10000 }⟩)
  match finishDownTo 0 goal opened.1 opened.2 with
  | (o :: _, s) => (o.finish s).2.automaton
  | ([], s) => s.automaton

/-- The automaton with one that reads the characters of a set backwards. It branches into all
sequences, which share the states at their beginnings. -/
def backwardSet (a : AutomatonSize) (s : CharSet) : AutomatonSize :=
  let goal := a.states + 1
  let sequences := Utf8.sequences s
  let start : SharedStates := ⟨a.add 2 (4 * sequences.length), { size := 1000 }⟩
  let states := sequences.foldl (fun s q =>
    (q.foldl (fun (n, s) r => s.state [n, r.1, r.2] 0) (goal, s)).2) start
  states.automaton

/-- The automaton with one for a set of characters, forwards or backwards. For ASCII one state is
enough beside the one where it ends. -/
def set (a : AutomatonSize) (forwards : Bool) (s : CharSet) : AutomatonSize :=
  if s.isAscii then (a.add 1 0).ranges s.ranges.length
  else if forwards then a.forwardSet s
  else a.backwardSet s

end AutomatonSize

/-! ## Alternatives that are texts -/

/-- How far the words of a list have been told apart: those since a word last ended, the latest
first, and the groups before, the latest first. -/
abbrev WordGroups := List (List Nat) × List (List (List Nat))

/-- Add a word. One that ends here closes the group, unless it is a second one in front of all
others. -/
def addWord (groups : WordGroups) (word : List Nat) : WordGroups :=
  if !word.isEmpty then (word :: groups.1, groups.2)
  else if groups.1.isEmpty && !groups.2.isEmpty && groups.2.all (·.isEmpty) then groups
  else ([], groups.1.reverse :: groups.2)

/-- The automaton with one for several words. Words share what they have in common at their
beginnings, except across the place where a word ends, since earlier words are preferred. -/
def AutomatonSize.words : Nat → AutomatonSize → List (List Nat) → AutomatonSize
  | 0, a, _ => a
  | fuel + 1, a, words =>
    if words.all (·.isEmpty) then a
    else
      let (latest, earlier) := words.foldl addWord ([], [])
      let groups := (latest.reverse :: earlier).reverse
      let full := groups.filter (!·.isEmpty)
      let a := a.union (full.length + (groups.length - 1))
      full.foldl (fun a group =>
        let heads := (group.filterMap List.head?).eraseDups
        let a := if heads.length = 1 then a.add 1 0 else a.ranges heads.length
        heads.foldl (fun a head =>
          AutomatonSize.words fuel a
            (group.filterMap fun word => if word.head? = some head then word.tail? else none)) a) a

/-! ## Expressions -/

/-- Add a number of copies of a part. -/
def addCopies (part : AutomatonSize → Option AutomatonSize) :
    Nat → AutomatonSize → Option AutomatonSize
  | 0, a => some a
  | n + 1, a =>
    match part a with
    | some a => addCopies part n a
    | none => none

/-- The automaton with one for a repetition, given how the part is added and whether its matches
hold a character. -/
def addRepetition (part : AutomatonSize → Option AutomatonSize) (holdsChar : Bool) (least : Nat)
    (most : Option Nat) (a : AutomatonSize) : Option AutomatonSize :=
  match least, most with
  | 0, some 1 => (part (a.union 2)).map (·.add 1 0)
  | 0, none =>
    if holdsChar then part (a.union 2)
    else (part a).map fun a => ((a.union 2).union 2).add 1 0
  | least, none => (addCopies part least a).map (·.union 2)
  | least, some most =>
    if least = most then addCopies part least a
    else do
      let a ← if least = 0 then some (a.add 1 0) else addCopies part least a
      addCopies (fun a => part (a.union 2)) (most - least) (a.add 1 0)

namespace RegexTree

/-- The texts that several expressions are, if all are texts. -/
def texts? (rs : List RegexTree) : Option (List (List Char)) :=
  rs.mapM fun
    | text cs => some cs
    | _ => none

mutual

/-- The automaton with one for an expression, forwards or backwards, if it does not take too much
room. -/
def addTo (forwards : Bool) : RegexTree → AutomatonSize → Option AutomatonSize
  | .empty, a | .anchor _, a => (a.add 1 0).fits?
  | .text cs, a => (a.add (Utf8.encodeAll cs).length 0).fits?
  | .chars s, a => (a.set forwards s).fits?
  | .capture r, a =>
    if forwards then (addTo forwards r (a.add 1 0)).bind fun a => (a.add 1 0).fits?
    else addTo forwards r a
  | .times r least most _, a =>
    addRepetition (addTo forwards r) (r.leastLength.any (· != 0)) least most a
      |>.bind AutomatonSize.fits?
  | .seq rs, a => addSeqTo forwards rs a
  | .alt rs, a =>
    match texts? rs with
    | some texts =>
      let words := texts.map fun cs =>
        let bytes := Utf8.encodeAll cs
        if forwards then bytes else bytes.reverse
      let longest := words.foldl (fun n word => max n word.length) 0
      (AutomatonSize.words (longest + 1) (a.add 1 0) words).fits?
    | none => addAltTo forwards rs 0 a

/-- The automaton with one for expressions that follow each other. -/
def addSeqTo (forwards : Bool) : List RegexTree → AutomatonSize → Option AutomatonSize
  | [], a => some a
  | r :: rs, a =>
    if forwards then (addTo forwards r a).bind (addSeqTo forwards rs)
    else (addSeqTo forwards rs a).bind (addTo forwards r)

/-- The automaton with one for alternatives, given how many there were before. The state that
branches into them comes after the second one. -/
def addAltTo (forwards : Bool) : List RegexTree → Nat → AutomatonSize → Option AutomatonSize
  | [], _, a => some a
  | r :: rs, before, a =>
    (addTo forwards r a).bind fun a =>
      let a := if before = 1 then (a.union (rs.length + 2)).add 1 0 else a
      addAltTo forwards rs (before + 1) a

end

/-- The automaton of a whole expression. It begins anywhere in the text unless the expression is
bound to the place where reading starts, and forwards it records where the match lies. -/
def automaton? (forwards : Bool) (r : RegexTree) : Option AutomatonSize :=
  let isBound := if forwards then r.startsAtText else r.endsAtText
  let start : AutomatonSize := {}
  let start := if isBound then start.add 1 0 else ((start.union 2).add 1 0).ranges 1
  let whole := if forwards then r.capture else r
  (whole.addTo forwards start).bind fun a => (a.add 1 0).fits?

/-- Whether neither automaton of the expression takes too much room. -/
def isAffordable (r : RegexTree) : Bool :=
  (r.automaton? true).isSome && (r.automaton? false).isSome

end RegexTree

end TripleQuery
