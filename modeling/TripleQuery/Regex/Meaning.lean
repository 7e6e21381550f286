import TripleQuery.Regex.Syntax
import TripleQuery.Regex.Simplify
import TripleQuery.Text.AsciiClass
import TripleQuery.Text.CaseFolding
import TripleQuery.Text.PropertyName
/-!
# What a written expression means

The flags that hold where a part is written settle what it asks of the text: which characters a
class holds, whether case matters, what the anchors and the dot are. Flags that are switched on
their own hold for everything after them in the same group.

Without the classes of all scripts everything is about bytes. Since a text cannot be cut inside a
character, nothing is allowed there that would match a byte beyond ASCII: no complement, no dot and
no such byte.
-/

namespace TripleQuery

/-- The flags that hold at a place. -/
structure RegexFlags where
  /-- Characters match in any case. -/
  caseless : Bool := false
  /-- Line anchors match at every line. -/
  multiLine : Bool := false
  /-- The dot matches line ends. -/
  dotAll : Bool := false
  /-- Repetitions prefer few times to many, and the other way round with a question mark. -/
  swapGreed : Bool := false
  /-- Classes of characters are those of all scripts. -/
  unicode : Bool := true
  /-- Lines end with a carriage return, a line feed or both. -/
  crlf : Bool := false
deriving DecidableEq, Inhabited

namespace RegexFlags

/-- Switch one flag. The one for verbose expressions means nothing any more. -/
def change (flags : RegexFlags) (c : FlagChange) : RegexFlags :=
  match c.flag with
  | .caseless => { flags with caseless := c.on }
  | .multiLine => { flags with multiLine := c.on }
  | .dotAll => { flags with dotAll := c.on }
  | .swapGreed => { flags with swapGreed := c.on }
  | .unicode => { flags with unicode := c.on }
  | .crlf => { flags with crlf := c.on }
  | .verbose => flags

/-- Switch several flags. -/
def changeAll (flags : RegexFlags) (cs : List FlagChange) : RegexFlags :=
  cs.foldl change flags

/-- A set together with everything that differs from a member by case only, if case does not
matter. -/
def fold (flags : RegexFlags) (s : CharSet) : CharSet :=
  if !flags.caseless then s
  else if flags.unicode then s.anyCase
  else s.anyAsciiCase

/-- A set, or all that is not in it. -/
def negate? (flags : RegexFlags) (negated : Bool) (s : CharSet) : Option CharSet :=
  if !negated then some s
  else if flags.unicode then some s.complement
  else none

/-- The class that a letter names. -/
def letterClass (flags : RegexFlags) : LetterClass → CharSet
  | .digit => if flags.unicode then .digit else .asciiDigits
  | .space => if flags.unicode then .whiteSpace else .asciiSpace
  | .word => if flags.unicode then .word else .asciiWord

/-- The class with a name, or all that is not in it. The classes named by letters hold every
character with its variants in case. -/
def namedClass? (flags : RegexFlags) (negated : Bool) : NamedClass → Option CharSet
  | .letter c => flags.negate? negated (flags.letterClass c)
  | .ascii s => flags.negate? negated (flags.fold s)
  | .property name => do
    guard flags.unicode
    flags.negate? negated (flags.fold (← CharSet.ofName? name))
  | .propertyValue name value => do
    guard flags.unicode
    flags.negate? negated (flags.fold (← CharSet.ofPropertyValue? name value))

/-- The character that is written in a set. -/
def setChar? (flags : RegexFlags) (c : WrittenChar) : Option Nat :=
  if flags.unicode || c.char.toNat < 128 then some c.char.toNat else none

/-- What an operator makes of two sets. -/
def apply (flags : RegexFlags) (op : SetOp) (s t : CharSet) : CharSet :=
  match op with
  | .inter => (flags.fold s).inter (flags.fold t)
  | .diff => (flags.fold s).diff (flags.fold t)
  | .symmDiff => (flags.fold s).symmDiff (flags.fold t)

/-- The anchor that is written. -/
def anchor (flags : RegexFlags) (a : WrittenAnchor) : Anchor :=
  let word := flags.letterClass .word
  match a with
  | .caret => if flags.multiLine then .lineStart flags.crlf else .textStart
  | .dollar => if flags.multiLine then .lineEnd flags.crlf else .textEnd
  | .textStart => .textStart
  | .textEnd => .textEnd
  | .wordBoundary => .wordBoundary word
  | .notWordBoundary => .notWordBoundary word
  | .wordStart => .wordStart word
  | .wordEnd => .wordEnd word
  | .wordStartHalf => .wordStartHalf word
  | .wordEndHalf => .wordEndHalf word

/-- The dot. -/
def dot? (flags : RegexFlags) : Option CharSet :=
  let lineEnds : CharSet :=
    if flags.dotAll then .empty
    else if flags.crlf then .ofList [0x0a, 0x0d]
    else .single 0x0a
  flags.negate? true lineEnds

/-- A character that stands for itself. -/
def char? (flags : RegexFlags) (c : WrittenChar) : Option RegexTree :=
  if flags.unicode then some (.ofSet (flags.fold (.ofChar c.char)))
  else if c.char.toNat < 128 then some (.ofSet (flags.fold (.ofChar c.char)))
  else if c.isByte then none
  else some (.text [c.char])

end RegexFlags

namespace SetSyntax

mutual

/-- The set that is written in brackets. -/
def set? (flags : RegexFlags) : SetSyntax → Option CharSet
  | empty => some .empty
  | char c => (flags.setChar? c).map .single
  | range first last => do return .range (← flags.setChar? first) (← flags.setChar? last)
  | named negated c => flags.namedClass? negated c
  | bracketed negated s => (set? flags s).bind fun t => flags.negate? negated (flags.fold t)
  | union ss => (sets? flags ss).map .unions
  | binary op s t => do return flags.apply op (← set? flags s) (← set? flags t)

/-- The sets that are written in brackets, one after the other. -/
def sets? (flags : RegexFlags) : List SetSyntax → Option (List CharSet)
  | [] => some []
  | s :: ss => do return (← set? flags s) :: (← sets? flags ss)

end

end SetSyntax

namespace RegexSyntax

mutual

/-- What an expression means under some flags, and the flags after it. -/
def tree? (flags : RegexFlags) : RegexSyntax → Option (RegexTree × RegexFlags)
  | empty => some (.empty, flags)
  | char c => (flags.char? c).map (·, flags)
  | dot => flags.dot?.map fun s => (.ofSet s, flags)
  | anchor a => some (.anchor (flags.anchor a), flags)
  | named negated c => (flags.namedClass? negated c).map fun s => (.ofSet s, flags)
  | bracketed negated s => do
    let t ← flags.negate? negated (flags.fold (← s.set? flags))
    return (.ofSet t, flags)
  | .flags changes => some (.empty, flags.changeAll changes)
  | group capturing changes r => do
    let (t, _) ← tree? (flags.changeAll changes) r
    return (if capturing then .capture t else t, flags)
  | times r least most greedy => do
    let (t, flags) ← tree? flags r
    return (t.repeated least most (greedy != flags.swapGreed), flags)
  | seq rs => (trees? flags rs).map fun (ts, flags) => (.sequence ts, flags)
  | alt rs => (trees? flags rs).map fun (ts, flags) => (.choice ts, flags)

/-- What several expressions mean, each under the flags that the one before leaves. -/
def trees? (flags : RegexFlags) : List RegexSyntax → Option (List RegexTree × RegexFlags)
  | [] => some ([], flags)
  | r :: rs => do
    let (t, flags) ← tree? flags r
    let (ts, flags) ← trees? flags rs
    return (t :: ts, flags)

end

end RegexSyntax

end TripleQuery
