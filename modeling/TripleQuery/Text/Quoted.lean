import TripleQuery.Text.Escaped
/-!
# Quoted text

A text is quoted by putting double quotes around it and escaping what a reader could not see or
could mistake: NUL, tab, carriage return, line feed, the double quote and the backslash have short
escapes, and every other character without a visible form is written as its code point in braces. A
single quote stands for itself.
-/

namespace TripleQuery

/-- A code point in lower-case hexadecimal digits, without leading zeros. -/
def hexDigits (n : Nat) : List Char :=
  Nat.toDigits 16 n

/-- How one character is written inside quotes. -/
def quotedChar (c : Char) : List Char :=
  if c = '\x00' then ['\\', '0']
  else if c = '\t' then ['\\', 't']
  else if c = '\r' then ['\\', 'r']
  else if c = '\n' then ['\\', 'n']
  else if c = '"' then ['\\', '"']
  else if c = '\\' then ['\\', '\\']
  else if isEscaped c then '\\' :: 'u' :: '{' :: hexDigits c.toNat ++ ['}']
  else [c]

/-- A text in double quotes, with escapes where they are needed. -/
def quoted (s : String) : String :=
  String.ofList ('"' :: s.toList.flatMap quotedChar ++ ['"'])

end TripleQuery
