import TripleQuery.Text.Segmentation
import TripleQuery.Text.Age
/-!
# Names of properties

Sets of characters by the names that the Unicode standard gives them: a property, a general category
or a script by its name alone, or a property with a value. In names and values only letters and
digits matter: capital and small letters are the same, and spaces, hyphens, low lines and a leading
`is` are left out.
-/

namespace TripleQuery

namespace CharSet

/-- A name with everything left out that does not matter. A name that is left with a single `c`
behind a leading `is` is kept whole, as it names a property. -/
def looseName (name : String) : String :=
  let cs := name.toList
  let startsWithIs := match cs with
    | a :: b :: _ => a.toLower = 'i' && b.toLower = 's'
    | _ => false
  let rest := if startsWithIs then cs.drop 2 else cs
  let kept := (rest.filter fun c => c.toNat < 128 && c ≠ ' ' && c ≠ '_' && c ≠ '-').map Char.toLower
  if startsWithIs && kept = ['c'] then "isc" else String.ofList kept

/-! ## Properties that a character has or has not -/

/-- The properties, each with its names. -/
def properties : List (List String × CharSet) := [
  (["alphabetic", "alpha"], alphabetic), (["lowercase", "lower"], lowercase),
  (["uppercase", "upper"], uppercase), (["cased"], cased),
  (["caseignorable", "ci"], caseIgnorable),
  (["changeswhenlowercased", "cwl"], changesWhenLowercased),
  (["changeswhenuppercased", "cwu"], changesWhenUppercased),
  (["changeswhentitlecased", "cwt"], changesWhenTitlecased),
  (["changeswhencasefolded", "cwcf"], changesWhenCasefolded),
  (["changeswhencasemapped", "cwcm"], changesWhenCasemapped),
  (["softdotted", "sd"], softDotted), (["whitespace", "wspace", "space"], whiteSpace),
  (["joincontrol", "joinc"], joinControl), (["graphemebase", "grbase"], graphemeBase),
  (["graphemeextend", "grext"], graphemeExtend), (["graphemelink", "grlink"], graphemeLink),
  (["defaultignorablecodepoint", "di"], defaultIgnorable),
  (["idstart", "ids"], idStart), (["idcontinue", "idc"], idContinue),
  (["xidstart", "xids"], xidStart), (["xidcontinue", "xidc"], xidContinue),
  (["idcompatmathstart"], idCompatMathStart), (["idcompatmathcontinue"], idCompatMathContinue),
  (["math"], math), (["dash"], dash), (["hyphen"], hyphen),
  (["quotationmark", "qmark"], quotationMark), (["sentenceterminal", "sterm"], sentenceTerminal),
  (["terminalpunctuation", "term"], terminalPunctuation),
  (["bidimirrored", "bidim"], bidiMirrored), (["bidicontrol", "bidic"], bidiControl),
  (["patternsyntax", "patsyn"], patternSyntax),
  (["patternwhitespace", "patws"], patternWhiteSpace),
  (["asciihexdigit", "ahex"], asciiHexDigit), (["hexdigit", "hex"], hexDigit),
  (["diacritic", "dia"], diacritic), (["extender", "ext"], extender),
  (["deprecated", "dep"], deprecated),
  (["logicalorderexception", "loe"], logicalOrderException),
  (["noncharactercodepoint", "nchar"], noncharacter),
  (["prependedconcatenationmark", "pcm"], prependedConcatenationMark),
  (["modifiercombiningmark", "mcm"], modifierCombiningMark),
  (["variationselector", "vs"], variationSelector), (["ideographic", "ideo"], ideographic),
  (["unifiedideograph", "uideo"], unifiedIdeograph), (["radical"], radical),
  (["idsbinaryoperator", "idsb"], idsBinaryOperator),
  (["idstrinaryoperator", "idst"], idsTrinaryOperator),
  (["idsunaryoperator", "idsu"], idsUnaryOperator),
  (["regionalindicator", "ri"], regionalIndicator), (["emoji"], emoji),
  (["emojicomponent", "ecomp"], emojiComponent), (["emojimodifier", "emod"], emojiModifier),
  (["emojimodifierbase", "ebase"], emojiModifierBase),
  (["emojipresentation", "epres"], emojiPresentation),
  (["extendedpictographic", "extpict"], extendedPictographic),
  (["otheralphabetic", "oalpha"], otherAlphabetic),
  (["otherlowercase", "olower"], otherLowercase), (["otheruppercase", "oupper"], otherUppercase),
  (["othermath", "omath"], otherMath),
  (["othergraphemeextend", "ogrext"], otherGraphemeExtend),
  (["otherdefaultignorablecodepoint", "odi"], otherDefaultIgnorable),
  (["otheridstart", "oids"], otherIdStart), (["otheridcontinue", "oidc"], otherIdContinue)]

/-! ## General categories, scripts and ages -/

/-- The general categories and their groups, each with its names. -/
def categories : List (List String × List GeneralCategory) := [
  (["lu", "uppercaseletter"], [.uppercaseLetter]), (["ll", "lowercaseletter"], [.lowercaseLetter]),
  (["lt", "titlecaseletter"], [.titlecaseLetter]), (["lm", "modifierletter"], [.modifierLetter]),
  (["lo", "otherletter"], [.otherLetter]), (["mn", "nonspacingmark"], [.nonspacingMark]),
  (["mc", "spacingmark"], [.spacingMark]), (["me", "enclosingmark"], [.enclosingMark]),
  (["nd", "decimalnumber", "digit"], [.decimalNumber]), (["nl", "letternumber"], [.letterNumber]),
  (["no", "othernumber"], [.otherNumber]),
  (["pc", "connectorpunctuation"], [.connectorPunctuation]),
  (["pd", "dashpunctuation"], [.dashPunctuation]),
  (["ps", "openpunctuation"], [.openPunctuation]),
  (["pe", "closepunctuation"], [.closePunctuation]),
  (["pi", "initialpunctuation"], [.initialPunctuation]),
  (["pf", "finalpunctuation"], [.finalPunctuation]),
  (["po", "otherpunctuation"], [.otherPunctuation]), (["sm", "mathsymbol"], [.mathSymbol]),
  (["sc", "currencysymbol"], [.currencySymbol]), (["sk", "modifiersymbol"], [.modifierSymbol]),
  (["so", "othersymbol"], [.otherSymbol]), (["zs", "spaceseparator"], [.spaceSeparator]),
  (["zl", "lineseparator"], [.lineSeparator]),
  (["zp", "paragraphseparator"], [.paragraphSeparator]), (["cc", "control", "cntrl"], [.control]),
  (["cf", "format"], [.format]), (["co", "privateuse"], [.privateUse]),
  (["lc", "casedletter"], GeneralCategory.casedLetters), (["l", "letter"], GeneralCategory.letters),
  (["m", "mark", "combiningmark"], GeneralCategory.marks),
  (["n", "number"], GeneralCategory.numbers),
  (["p", "punctuation", "punct"], GeneralCategory.punctuation),
  (["s", "symbol"], GeneralCategory.symbols), (["z", "separator"], GeneralCategory.separators)]

/-- The code points of the general category with a name. The names for what is assigned, for all
code points and for ASCII count as categories. -/
def ofCategory? (name : String) : Option CharSet :=
  match name with
  | "any" => some all
  | "assigned" => some unassigned.complement
  | "ascii" => some (range 0 0x7f)
  | "cn" | "unassigned" => some unassigned
  | "c" | "other" =>
    some (unions [GeneralCategory.charsOf [.control, .format, .privateUse], surrogates, unassigned])
  | _ =>
    (categories.find? fun entry => entry.1.contains name).map fun entry =>
      GeneralCategory.charsOf entry.2

/-- The script with a name or code. Two scripts have a second code. -/
def script? (name : String) : Option Script :=
  let name := match name with
    | "qaac" => "copt"
    | "qaai" => "zinh"
    | _ => name
  Script.all.find? fun s => name = looseName s.code || name = looseName s.name

/-- The characters that were there in a version, with dots in its number or without them behind a
`v`. -/
def ofAge? (version : String) : Option CharSet :=
  (charsByAge.find? fun entry =>
    version = entry.1 || version.toList = 'v' :: entry.1.toList.filter (· ≠ '.')).bind
    fun entry => charsSince? entry.1

/-! ## Names -/

/-- The set that a name stands for. -/
def ofName? (name : String) : Option CharSet :=
  let name := looseName name
  match properties.find? fun entry => entry.1.contains name with
  | some entry => some entry.2
  | none =>
    match ofCategory? name with
    | some s => some s
    | none => (script? name).map Script.chars

/-- The set of the characters for which a property has a value. -/
def ofPropertyValue? (name value : String) : Option CharSet :=
  let value := looseName value
  match looseName name with
  | "gc" | "generalcategory" => ofCategory? value
  | "sc" | "script" => (script? value).map Script.chars
  | "scx" | "scriptextensions" => (script? value).map Script.extension
  | "age" => ofAge? value
  | "gcb" | "graphemeclusterbreak" => graphemeBreak? value
  | "wb" | "wordbreak" => wordBreak? value
  | "sb" | "sentencebreak" => sentenceBreak? value
  | _ => none

end CharSet

end TripleQuery
