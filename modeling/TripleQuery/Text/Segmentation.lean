import TripleQuery.Text.Property
import TripleQuery.Text.Script
/-!
# Where text may be broken

The classes of characters by which the Unicode standard finds the boundaries of graphemes, of words
and of sentences. Most of them follow from categories, properties and scripts.
-/

namespace TripleQuery

namespace CharSet

open GeneralCategory

/-- The characters that belong to one of the scripts with the given codes. -/
def ofScripts (codes : List String) : CharSet :=
  unions ((Script.all.filter fun s => codes.contains s.code).map Script.chars)

/-! ## Graphemes -/

/-- Characters that belong to the grapheme before them. -/
def graphemeBreakExtend : CharSet := graphemeExtend.union emojiModifier

/-- Characters that belong to the grapheme after them. -/
def graphemeBreakPrepend : CharSet :=
  prependedConcatenationMark.union <|
    .ofTable "d4e 111c2-111c3 113d1 1193f 11941 11a3a 11a84-11a89 11d46 11f02"

/-- Characters that are graphemes of their own without being shown. -/
def graphemeBreakControl : CharSet :=
  (unions
    [charsOf [lineSeparator, paragraphSeparator, control, format], surrogates,
      unassigned.inter defaultIgnorable]).diff <|
    unions
      [.ofTable "a d 200c-200d", prependedConcatenationMark, graphemeBreakExtend]

/-- Marks that take room of their own in the grapheme before them. -/
def graphemeBreakSpacingMark : CharSet :=
  ((spacingMark.chars.union (.ofTable "e33 eb3")).diff graphemeBreakExtend).diff <| .ofTable
    "102b-102c 1038 1062-1064 1067-106d 1083 1087-108c 108f 109a-109c 1a61 1a63-1a64 aa7b aa7d
    11720-11721"

/-- The Korean syllables that end in a vowel. -/
def vowelSyllables : CharSet :=
  .ofList ((List.range 399).map fun i => 0xac00 + 28 * i)

/-- The class with a name by which graphemes are told apart. -/
def graphemeBreak? (name : String) : Option CharSet :=
  match name with
  | "cr" => some (single 0x0d)
  | "lf" => some (single 0x0a)
  | "cn" | "control" => some graphemeBreakControl
  | "ex" | "extend" => some graphemeBreakExtend
  | "zwj" => some (single 0x200d)
  | "ri" | "regionalindicator" => some regionalIndicator
  | "pp" | "prepend" => some graphemeBreakPrepend
  | "sm" | "spacingmark" => some graphemeBreakSpacingMark
  | "l" => some (.ofTable "1100-115f a960-a97c")
  | "v" => some (.ofTable "1160-11a7 d7b0-d7c6 16d63 16d67-16d6a")
  | "t" => some (.ofTable "11a8-11ff d7cb-d7fb")
  | "lv" => some vowelSyllables
  | "lvt" => some ((range 0xac00 0xd7a3).diff vowelSyllables)
  | _ => none

/-! ## Words -/

/-- Characters that belong to the word before them. -/
def wordBreakExtend : CharSet :=
  (unions [graphemeExtend, spacingMark.chars, emojiModifier]).diff (single 0x200d)

/-- Characters that shape words without belonging to them. -/
def wordBreakFormat : CharSet :=
  (format.chars.diff prependedConcatenationMark).diff (.ofTable "200b-200d e0020-e007f")

/-- The letters of Hebrew. -/
def hebrewLetter : CharSet := (ofScripts ["Hebr"]).inter otherLetter.chars

/-- Katakana, and what is used between them. -/
def wordBreakKatakana : CharSet :=
  (ofScripts ["Kana"]).union (.ofTable "3031-3035 309b-309c 30a0 30fc ff70")

/-- Letters of scripts that put spaces between words. -/
def wordBreakLetter : CharSet :=
  (alphabetic.diff <| unions
    [ideographic, wordBreakKatakana, hebrewLetter, wordBreakExtend,
      ofScripts ["Hira", "Thai", "Laoo", "Mymr", "Khmr", "Tale", "Talu", "Lana", "Tavt", "Ahom"]])
  |>.union <| .ofTable
    "b8 2c2-2c5 2d2-2d7 2de-2df 2e5-2eb 2ed 2ef-2ff 55a-55c 55e 58a 5f3 70f a708-a716 a720-a721
    a789-a78a ab5b"

/-- Digits, and what stands between them or in front of them. -/
def breakNumeric : CharSet :=
  digit.union (prependedConcatenationMark.diff (single 0x70f))

/-- The class with a name by which words are told apart. -/
def wordBreak? (name : String) : Option CharSet :=
  match name with
  | "cr" => some (single 0x0d)
  | "lf" => some (single 0x0a)
  | "nl" | "newline" => some (.ofTable "b-c 85 2028-2029")
  | "dq" | "doublequote" => some (single 0x22)
  | "sq" | "singlequote" => some (single 0x27)
  | "extend" => some wordBreakExtend
  | "zwj" => some (single 0x200d)
  | "ri" | "regionalindicator" => some regionalIndicator
  | "fo" | "format" => some wordBreakFormat
  | "ka" | "katakana" => some wordBreakKatakana
  | "hl" | "hebrewletter" => some hebrewLetter
  | "le" | "aletter" => some wordBreakLetter
  | "ml" | "midletter" => some (.ofTable "3a b7 387 55f 5f4 2027 fe13 fe55 ff1a")
  | "mn" | "midnum" =>
    some (.ofTable "2c 3b 37e 589 60c-60d 66c 7f8 2044 fe10 fe14 fe50 fe54 ff0c ff1b")
  | "mb" | "midnumlet" => some (.ofTable "2e 2018-2019 2024 fe52 ff07 ff0e")
  | "nu" | "numeric" => some (breakNumeric.union (single 0x66b))
  | "ex" | "extendnumlet" => some (connectorPunctuation.chars.union (single 0x202f))
  | "wsegspace" => some (.ofTable "20 1680 2000-2006 2008-200a 205f 3000")
  | _ => none

/-! ## Sentences -/

/-- Characters that belong to the character before them. -/
def sentenceBreakExtend : CharSet :=
  unions [graphemeExtend, spacingMark.chars, single 0x200d]

/-- Small letters of scripts that begin sentences with a capital one. -/
def sentenceBreakLower : CharSet :=
  (lowercase.diff graphemeExtend).diff (.ofTable "10d0-10fa 10fd-10ff")

/-- Capital letters of scripts that begin sentences with one. -/
def sentenceBreakUpper : CharSet :=
  (uppercase.union titlecaseLetter.chars).diff (.ofTable "1c90-1cba 1cbd-1cbf")

/-- Letters of other scripts. -/
def sentenceBreakLetter : CharSet :=
  (alphabetic.diff (unions [sentenceBreakLower, sentenceBreakUpper, sentenceBreakExtend])).union
    (single 0x5f3)

/-- Full stops, which may end a sentence. -/
def fullStop : CharSet := .ofTable "2e 2024 fe52 ff0e"

/-- The class with a name by which sentences are told apart. -/
def sentenceBreak? (name : String) : Option CharSet :=
  match name with
  | "cr" => some (single 0x0d)
  | "lf" => some (single 0x0a)
  | "se" | "sep" => some (.ofTable "85 2028-2029")
  | "sp" => some (.ofTable "9 b-c 20 a0 1680 2000-200a 202f 205f 3000")
  | "ex" | "extend" => some sentenceBreakExtend
  | "fo" | "format" =>
    some ((format.chars.diff breakNumeric).diff (.ofTable "200c-200d e0020-e007f"))
  | "lo" | "lower" => some sentenceBreakLower
  | "up" | "upper" => some sentenceBreakUpper
  | "le" | "oletter" => some sentenceBreakLetter
  | "nu" | "numeric" => some (breakNumeric.union (.ofTable "66b-66c"))
  | "at" | "aterm" => some fullStop
  | "st" | "sterm" => some (sentenceTerminal.diff fullStop)
  | "sc" | "scontinue" =>
    some <| .ofTable
      "2c-2d 3a-3b 37e 55d 60c-60d 7f8 1802 1808 2013-2014 3001 fe10-fe11 fe13-fe14 fe31-fe32
      fe50-fe51 fe54-fe55 fe58 fe63 ff0c-ff0d ff1a-ff1b ff64"
  | "cl" | "close" =>
    some <| ofCategories [openPunctuation, closePunctuation, initialPunctuation, finalPunctuation]
      "22 27 275b-2760 2e00-2e01 2e06-2e08 2e0b 1f676-1f678"
  | _ => none

end CharSet

end TripleQuery
