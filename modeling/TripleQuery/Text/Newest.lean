import TripleQuery.Text.Property
/-!
# The characters that version 17 adds

The tables of categories and properties follow version 16 of the Unicode character database, which
is what regular expressions know. What is shown in quotes and what a name may hold follow version
17, which assigns some more code points. They are kept apart here, by what matters of them.
-/

namespace TripleQuery

namespace CharSet

/-- The letters of version 17, and its numbers that look like letters. -/
def newLetters : CharSet := .ofTable
  "88f c5c cdc a7ce-a7cf a7d2 a7d4 a7f1 10940-10959 10ec5-10ec7 11db0-11ddb 16ea0-16eb8
  16ebb-16ed3 16ff2-16ff6 187f8-187ff 18d09-18d1e 18d80-18df2 1e6c0-1e6de 1e6e0-1e6e2 1e6e4-1e6e5
  1e6e7-1e6ed 1e6f0-1e6f4 1e6fe-1e6ff 2b73a-2b73f 2cea2-2cead 323b0-33479"

/-- The digits of version 17. -/
def newDigits : CharSet := .ofTable "11de0-11de9"

/-- The marks of version 17 that take no room of their own. -/
def newNonspacingMarks : CharSet := .ofTable
  "1acf-1add 1ae0-1aeb 10efa-10efb 11b60 11b62-11b64 11b66 1e6e3 1e6e6 1e6ee-1e6ef 1e6f5"

/-- The marks of version 17 that are alphabetic, those that take room among them. -/
def newAlphabeticMarks : CharSet := .ofTable
  "10efa-10efb 11b60-11b67 1e6e3 1e6e6 1e6ee-1e6ef 1e6f5"

/-- The symbols and the punctuation of version 17. -/
def newSymbols : CharSet := .ofTable
  "20c1 2b96 fbc3-fbd2 fd90-fd91 fdc8-fdce 10ed0-10ed8 1ccfa-1ccfc 1ceba-1ced0 1cee0-1cef0 1f6d8
  1f777-1f77a 1f8d0-1f8d8 1fa54-1fa57 1fa8a 1fa8e 1fac8 1facd 1faea 1faef 1fbfa"

/-- All characters of version 17 that version 16 has not. -/
def newCharacters : CharSet :=
  unions [newLetters, newDigits, newNonspacingMarks, newAlphabeticMarks, newSymbols]

/-! ## Names -/

/-- The characters that a name may begin with, the low line apart: those that are alphabetic. -/
def nameStart : CharSet :=
  unions [alphabetic, newLetters, newAlphabeticMarks]

/-- The characters that may follow in a name: those that are alphabetic and those that stand for
numbers. -/
def nameContinue : CharSet :=
  unions [nameStart, GeneralCategory.charsOf GeneralCategory.numbers, newDigits]

end CharSet

end TripleQuery
