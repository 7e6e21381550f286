/-!
# JSON strings

A string is written in double quotes, with escapes for the quote, the backslash and the control
characters. Reading it undoes the escapes (`readString_writeString`), and knows those that are never
written as well: the solidus, and any character by its code units in hexadecimal, where a pair of
surrogates makes one character and a lone surrogate makes none.

A text that cannot be read has one fault, the first that is met from left to right: it ends too
early, it is not well formed, or it is well formed and not of the type that is asked for.
-/

namespace TripleQuery

namespace Json

/-- What is wrong with a text. -/
inductive Fault where
  /-- The text ends too early. -/
  | endOfText
  /-- The text is not JSON, goes on after its end, or is nested too deeply. -/
  | malformed
  /-- A value is not of the type that is asked for. -/
  | mismatch
deriving DecidableEq, Inhabited

/-- Reads a value of some type from the front of a text and leaves the rest. -/
abbrev Reader (α : Type) := List Char → Except Fault (α × List Char)

/-! ## Writing -/

/-- A hexadecimal digit in lower case. -/
def hexDigit (n : Nat) : Char :=
  Nat.digitChar n

/-- The letter that stands for a character after a backslash, if the character is written that way.
-/
def escapeLetter? (c : Char) : Option Char :=
  match c with
  | '"' => some '"'
  | '\\' => some '\\'
  | '\x08' => some 'b'
  | '\x0c' => some 'f'
  | '\n' => some 'n'
  | '\r' => some 'r'
  | '\t' => some 't'
  | _ => none

/-- How a character is written inside a string. -/
def writeChar (c : Char) : List Char :=
  match escapeLetter? c with
  | some e => ['\\', e]
  | none =>
    if c.toNat < 32 then
      ['\\', 'u', '0', '0', hexDigit (c.toNat / 16), hexDigit (c.toNat % 16)]
    else [c]

/-- A string in quotes. -/
def writeString (s : String) : List Char :=
  '"' :: s.toList.flatMap writeChar ++ ['"']

/-! ## Reading -/

/-- The value of a hexadecimal digit in either case. -/
def digitValue? (c : Char) : Option Nat :=
  if '0' ≤ c ∧ c ≤ '9' then some (c.toNat - 48)
  else if 'a' ≤ c ∧ c ≤ 'f' then some (c.toNat - 87)
  else if 'A' ≤ c ∧ c ≤ 'F' then some (c.toNat - 55)
  else none

/-- The number of bytes that a text takes. -/
def byteCount (cs : List Char) : Nat :=
  cs.foldr (fun c n => c.utf8Size + n) 0

/-- Four hexadecimal digits. Fewer than four bytes are the end of the text, whatever they are. -/
def codeUnit (cs : List Char) : Except Fault (Nat × List Char) :=
  match cs with
  | a :: b :: c :: d :: rest =>
    match digitValue? a, digitValue? b, digitValue? c, digitValue? d with
    | some a, some b, some c, some d => .ok (4096 * a + 256 * b + 16 * c + d, rest)
    | _, _, _, _ => .error .malformed
  | _ => .error (if byteCount cs < 4 then .endOfText else .malformed)

/-- Whether a code unit is the first of a pair of surrogates. -/
def isHighSurrogate (n : Nat) : Bool :=
  0xd800 ≤ n && n ≤ 0xdbff

/-- Whether a code unit is the second of a pair of surrogates. -/
def isLowSurrogate (n : Nat) : Bool :=
  0xdc00 ≤ n && n ≤ 0xdfff

/-- The character of a first surrogate whose second one is to follow. -/
def surrogatePair (high : Nat) : Reader Char
  | [] => .error .endOfText
  | ['\\'] => .error .endOfText
  | '\\' :: 'u' :: cs =>
    match codeUnit cs with
    | .error e => .error e
    | .ok (low, rest) =>
      if isLowSurrogate low then
        .ok (Char.ofNat (0x10000 + 1024 * (high - 0xd800) + (low - 0xdc00)), rest)
      else .error .malformed
  | _ => .error .malformed

/-- The character of a code unit in hexadecimal, which may be the first of a pair. -/
def unicodeEscape (cs : List Char) : Except Fault (Char × List Char) :=
  match codeUnit cs with
  | .error e => .error e
  | .ok (n, rest) =>
    if isLowSurrogate n then .error .malformed
    else if isHighSurrogate n then surrogatePair n rest
    else .ok (Char.ofNat n, rest)

/-- The character that an escape after a backslash stands for, if the escape is of one character. -/
def shortEscape? : Char → Option Char
  | '"' => some '"'
  | '\\' => some '\\'
  | '/' => some '/'
  | 'b' => some '\x08'
  | 'f' => some '\x0c'
  | 'n' => some '\n'
  | 'r' => some '\r'
  | 't' => some '\t'
  | _ => none

/-- What the characters after a backslash stand for. -/
def readEscape : Reader Char
  | [] => .error .endOfText
  | c :: cs =>
    match shortEscape? c with
    | some e => .ok (e, cs)
    | none => if c = 'u' then unicodeEscape cs else .error .malformed

/-- The characters up to the closing quote, at most as many as given. -/
def readChars : Nat → Reader (List Char)
  | 0, _ | _, [] => .error .endOfText
  | fuel + 1, c :: cs =>
    if c = '"' then .ok ([], cs)
    else if c = '\\' then
      match readEscape cs with
      | .error e => .error e
      | .ok (e, rest) =>
        match readChars fuel rest with
        | .error f => .error f
        | .ok (s, rest) => .ok (e :: s, rest)
    else if c.toNat < 32 then .error .malformed
    else
      match readChars fuel cs with
      | .error f => .error f
      | .ok (s, rest) => .ok (c :: s, rest)

/-- A string whose opening quote has been read. -/
def readString : Reader String := fun cs =>
  match readChars cs.length cs with
  | .error e => .error e
  | .ok (s, rest) => .ok (String.ofList s, rest)

/-! ## Reading undoes writing -/

theorem digitValue?_hexDigit : ∀ n < 16, digitValue? (hexDigit n) = some n := by
  decide

theorem shortEscape?_of_escapeLetter? {c e : Char} (h : escapeLetter? c = some e) :
    shortEscape? e = some c := by
  unfold escapeLetter? at h
  split at h <;> cases h <;> rfl

theorem writeChar_ne_nil (c : Char) : writeChar c ≠ [] := by
  unfold writeChar
  split
  · simp
  · split <;> simp

/-- A control character is read back from its code unit. -/
theorem readEscape_hexDigit {c : Char} (h : c.toNat < 32) (rest : List Char) :
    readEscape ('u' :: '0' :: '0' :: hexDigit (c.toNat / 16) :: hexDigit (c.toNat % 16) :: rest) =
      .ok (c, rest) := by
  have h0 : digitValue? '0' = some 0 := by decide
  have hd := digitValue?_hexDigit (c.toNat / 16) (by omega)
  have hm := digitValue?_hexDigit (c.toNat % 16) (by omega)
  have hn : 16 * (c.toNat / 16) + c.toNat % 16 = c.toNat := Nat.div_add_mod ..
  have hl : isLowSurrogate c.toNat = false := by simp [isLowSurrogate]; omega
  have hh : isHighSurrogate c.toNat = false := by simp [isHighSurrogate]; omega
  simp [readEscape, shortEscape?, unicodeEscape, codeUnit, h0, hd, hm, hn, hl, hh]

/-- What an escape stands for is the next character of the string. -/
theorem readChars_escape {c : Char} {cs rest : List Char} (h : readEscape cs = .ok (c, rest))
    (fuel : Nat) :
    readChars (fuel + 1) ('\\' :: cs) =
      (readChars fuel rest).map fun (s, rest) => (c :: s, rest) := by
  rw [readChars]
  simp only [h, Char.reduceEq, ite_false, ite_true]
  cases readChars fuel rest <;> rfl

/-- A written character is read back, whatever comes after it. -/
theorem readChars_writeChar (c : Char) (rest : List Char) (fuel : Nat) :
    readChars (fuel + 1) (writeChar c ++ rest) =
      (readChars fuel rest).map fun (s, rest) => (c :: s, rest) := by
  unfold writeChar
  split
  · rename_i e he
    exact readChars_escape (by simp [readEscape, shortEscape?_of_escapeLetter? he]) fuel
  · rename_i he
    have hq : c ≠ '"' := by rintro rfl; simp [escapeLetter?] at he
    have hb : c ≠ '\\' := by rintro rfl; simp [escapeLetter?] at he
    split
    · rename_i hc
      exact readChars_escape (readEscape_hexDigit hc rest) fuel
    · rename_i hc
      rw [List.singleton_append, readChars, if_neg hq, if_neg hb, if_neg hc]
      cases readChars fuel rest <;> rfl

/-- Written characters are read back up to the closing quote. -/
theorem readChars_flatMap_writeChar (s rest : List Char) {fuel : Nat} (h : s.length < fuel) :
    readChars fuel (s.flatMap writeChar ++ '"' :: rest) = .ok (s, rest) := by
  induction s generalizing fuel with
  | nil =>
    obtain ⟨fuel, rfl⟩ := Nat.exists_eq_add_one_of_ne_zero (Nat.ne_of_gt h)
    simp [readChars]
  | cons c s ih =>
    obtain ⟨fuel, rfl⟩ := Nat.exists_eq_add_one_of_ne_zero (Nat.ne_of_gt (Nat.zero_lt_of_lt h))
    rw [List.flatMap_cons, List.append_assoc, readChars_writeChar, ih (by simpa using h)]
    rfl

theorem length_le_length_flatMap_writeChar (s : List Char) :
    s.length ≤ (s.flatMap writeChar).length := by
  induction s with
  | nil => simp
  | cons c s ih =>
    have hc := List.length_pos_iff.2 (writeChar_ne_nil c)
    simp only [List.flatMap_cons, List.length_append, List.length_cons]
    omega

/-- **A written string is read back**, and what follows its closing quote is left. -/
theorem readString_writeString (s : String) (rest : List Char) :
    readString ((writeString s).tail ++ rest) = .ok (s, rest) := by
  have hl := length_le_length_flatMap_writeChar s.toList
  have ht : (writeString s).tail ++ rest = s.toList.flatMap writeChar ++ '"' :: rest := by
    simp [writeString]
  have hf : s.toList.length < (s.toList.flatMap writeChar ++ '"' :: rest).length := by
    simp only [List.length_append, List.length_cons]
    omega
  rw [readString, ht, readChars_flatMap_writeChar _ _ hf]
  simp

end Json

end TripleQuery
