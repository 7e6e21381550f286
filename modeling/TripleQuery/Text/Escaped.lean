import TripleQuery.Text.Newest
/-!
# Characters that quoted text does not show

A character is written as an escape when it has no visible form of its own: controls, format
characters, private use and unassigned code points, separators other than the space, the characters
that extend the grapheme before them, and those that are not shown where they are not supported. The
classes follow version 17 of the Unicode character database.
-/

namespace TripleQuery

open GeneralCategory in
/-- The code points that are escaped in quoted text. -/
def escapedChars : CharSet :=
  .unions
    [charsOf [control, format, privateUse, lineSeparator, paragraphSeparator],
      surrogates, unassigned.diff .newCharacters, spaceSeparator.chars.diff (.single 0x20),
      .graphemeExtend, .newNonspacingMarks, .defaultIgnorable]

/-- Whether a character is written as an escape in quoted text. The printable part of ASCII is
settled without the table. -/
def isEscaped (c : Char) : Bool :=
  !(' ' ≤ c && c ≤ '~') && escapedChars.contains c.toNat

end TripleQuery
