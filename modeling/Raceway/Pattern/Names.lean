import Raceway.Pattern.Class
/-!
# Names of properties

Properties of characters are named by one letter, by a name, or by a property and its value. Names
are compared without regard to letter case, spacing, hyphens, underscores and a leading `is`.

Names are there for the general categories and for the few other properties of
`Raceway.binaryNames`. Scripts and their extensions, blocks, ages, the properties of text
segmentation and all other properties have no name here: a pattern with one of them is refused, as
one with a property that does not exist.

## Main definitions

* `Raceway.Property.ofName?`: the class of characters with a named property.
* `Raceway.CharClass.ofAsciiName?`: an ASCII class by its name.
-/

namespace Raceway

open Text

/-- The parts of a name that count. -/
def plainName (name : List Char) : List Char :=
  let letters := (name.filter fun c => c.toNat < 128 && !(c == ' ' || c == '_' || c == '-'
    || (0x09 ≤ c.toNat && c.toNat ≤ 0x0D))).map Char.toLower
  match letters with
  | 'i' :: 's' :: rest => if rest = ['c'] ∨ rest = [] then letters else rest
  | _ => letters

/-- The names of sets of general categories. -/
def categoryNames : List (List String × List Category) :=
  [(["lu", "uppercaseletter"], [.uppercaseLetter]),
    (["ll", "lowercaseletter"], [.lowercaseLetter]),
    (["lt", "titlecaseletter"], [.titlecaseLetter]),
    (["lm", "modifierletter"], [.modifierLetter]),
    (["lo", "otherletter"], [.otherLetter]),
    (["lc", "casedletter"], [.uppercaseLetter, .lowercaseLetter, .titlecaseLetter]),
    (["l", "letter"],
      [.uppercaseLetter, .lowercaseLetter, .titlecaseLetter, .modifierLetter, .otherLetter]),
    (["mn", "nonspacingmark"], [.nonspacingMark]),
    (["mc", "spacingmark"], [.spacingMark]),
    (["me", "enclosingmark"], [.enclosingMark]),
    (["m", "mark", "combiningmark"], [.nonspacingMark, .spacingMark, .enclosingMark]),
    (["nd", "decimalnumber", "digit"], [.decimalNumber]),
    (["nl", "letternumber"], [.letterNumber]),
    (["no", "othernumber"], [.otherNumber]),
    (["n", "number"], [.decimalNumber, .letterNumber, .otherNumber]),
    (["pc", "connectorpunctuation"], [.connectorPunctuation]),
    (["pd", "dashpunctuation"], [.dashPunctuation]),
    (["ps", "openpunctuation"], [.openPunctuation]),
    (["pe", "closepunctuation"], [.closePunctuation]),
    (["pi", "initialpunctuation"], [.initialPunctuation]),
    (["pf", "finalpunctuation"], [.finalPunctuation]),
    (["po", "otherpunctuation"], [.otherPunctuation]),
    (["p", "punctuation", "punct"],
      [.connectorPunctuation, .dashPunctuation, .openPunctuation, .closePunctuation,
        .initialPunctuation, .finalPunctuation, .otherPunctuation]),
    (["sm", "mathsymbol"], [.mathSymbol]),
    (["sc", "currencysymbol"], [.currencySymbol]),
    (["sk", "modifiersymbol"], [.modifierSymbol]),
    (["so", "othersymbol"], [.otherSymbol]),
    (["s", "symbol"], [.mathSymbol, .currencySymbol, .modifierSymbol, .otherSymbol]),
    (["zs", "spaceseparator"], [.spaceSeparator]),
    (["zl", "lineseparator"], [.lineSeparator]),
    (["zp", "paragraphseparator"], [.paragraphSeparator]),
    (["z", "separator"], [.spaceSeparator, .lineSeparator, .paragraphSeparator]),
    (["cc", "control", "cntrl"], [.control]),
    (["cf", "format"], [.format]),
    (["cs", "surrogate"], [.surrogate]),
    (["co", "privateuse"], [.privateUse]),
    (["cn", "unassigned"], [.unassigned]),
    (["c", "other"], [.control, .format, .surrogate, .privateUse, .unassigned])]

/-- The class of the characters with a general category, by its plain name. -/
def CharClass.ofCategoryName? (name : List Char) : Option CharClass :=
  let name := String.ofList name
  if name == "any" then some .everything
  else if name == "assigned" then some (.compl (.property (.category [.unassigned])))
  else if name == "ascii" then some (.range (Char.ofNat 0) (Char.ofNat 0x7F))
  else
    (categoryNames.find? fun entry => entry.1.contains name).map fun entry =>
      .property (.category entry.2)

/-- The properties that are not categories, by their plain names. There are more such properties;
those that are not listed are not known. -/
def binaryNames : List (List String × Property) :=
  [(["alphabetic", "alpha"], .alphabetic), (["whitespace", "wspace", "space"], .blank),
    (["lowercase", "lower"], .lowercase), (["uppercase", "upper"], .uppercase),
    (["joincontrol", "joinc"], .joinControl)]

/-- The class of the characters with a named property, if it is a general category or one of the
listed properties. -/
def CharClass.ofPropertyName? (name : List Char) : Option CharClass :=
  let plain := plainName name
  match binaryNames.find? fun entry => entry.1.contains (String.ofList plain) with
  | some entry => some (.property entry.2)
  | none => ofCategoryName? plain

/-- The property is that of the general category. -/
def isCategoryProperty (name : List Char) : Bool :=
  let plain := String.ofList (plainName name)
  plain == "generalcategory" || plain == "gc" || plain == "category"

/-- The ASCII classes by their names. -/
def CharClass.ofAsciiName? (name : List Char) : Option CharClass :=
  let upper := range 'A' 'Z'
  let lower := range 'a' 'z'
  let digit := range '0' '9'
  let code (low high : Nat) := range (Char.ofNat low) (Char.ofNat high)
  match String.ofList name with
  | "alnum" => some (unions [digit, upper, lower])
  | "alpha" => some (union upper lower)
  | "ascii" => some (code 0 0x7F)
  | "blank" => some (ofList ['\t', ' '])
  | "cntrl" => some (union (code 0 0x1F) (single (Char.ofNat 0x7F)))
  | "digit" => some digit
  | "graph" => some (range '!' '~')
  | "lower" => some lower
  | "print" => some (range ' ' '~')
  | "punct" => some (unions [range '!' '/', range ':' '@', code 0x5B 0x60, code 0x7B 0x7E])
  | "space" => some (union (code 0x09 0x0D) (single ' '))
  | "upper" => some upper
  | "word" => some (unions [digit, upper, lower, single '_'])
  | "xdigit" => some (unions [digit, range 'A' 'F', range 'a' 'f'])
  | _ => none

end Raceway
