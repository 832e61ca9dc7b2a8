import Raceway.Pattern.Flags
/-!
# Faults of written patterns

A fault of a written pattern has a kind and a span of the text that it concerns. Its message shows
the pattern with marks under the span.

## Main definitions

* `Raceway.PatternFault`: the kinds.
* `Raceway.PatternError`: a fault with its span.
* `Raceway.PatternError.message`: the message.
-/

namespace Raceway

/-- What is wrong with a written pattern. -/
inductive PatternFault where
  | classEscape
  | classRange
  | classRangeLiteral
  | classUnclosed
  | decimalInvalid
  | hexEmpty
  | hexInvalid
  | hexDigit
  | escapeEnd
  | escapeUnknown
  | flagDangling
  | flagDuplicate
  | flagRepeatedNegation
  | flagEnd
  | flagUnknown
  | nameDuplicate
  | nameEmpty
  | nameInvalid
  | nameEnd
  | groupUnclosed
  | groupUnopened
  | countInvalid
  | countEmpty
  | countUnclosed
  | repetitionMissing
  | edgeUnclosed
  | edgeUnknown
  | edgeEnd
  | propertyInvalid
  | backreference
  | lookAround
  | meaning (f : MeaningFault)
deriving DecidableEq

/-- The wording of a fault. -/
def PatternFault.text : PatternFault → String
  | classEscape => "invalid escape sequence found in character class"
  | classRange => "invalid character class range, the start must be <= the end"
  | classRangeLiteral => "invalid range boundary, must be a literal"
  | classUnclosed => "unclosed character class"
  | decimalInvalid => "decimal literal invalid"
  | hexEmpty => "hexadecimal literal empty"
  | hexInvalid => "hexadecimal literal is not a Unicode scalar value"
  | hexDigit => "invalid hexadecimal digit"
  | escapeEnd => "incomplete escape sequence, reached end of pattern prematurely"
  | escapeUnknown => "unrecognized escape sequence"
  | flagDangling => "dangling flag negation operator"
  | flagDuplicate => "duplicate flag"
  | flagRepeatedNegation => "flag negation operator repeated"
  | flagEnd => "expected flag but got end of regex"
  | flagUnknown => "unrecognized flag"
  | nameDuplicate => "duplicate capture group name"
  | nameEmpty => "empty capture group name"
  | nameInvalid => "invalid capture group character"
  | nameEnd => "unclosed capture group name"
  | groupUnclosed => "unclosed group"
  | groupUnopened => "unopened group"
  | countInvalid => "invalid repetition count range, the start must be <= the end"
  | countEmpty => "repetition quantifier expects a valid decimal"
  | countUnclosed => "unclosed counted repetition"
  | repetitionMissing => "repetition operator missing expression"
  | edgeUnclosed =>
    "special word boundary assertion is either unclosed or contains an invalid character"
  | edgeUnknown =>
    "unrecognized special word boundary assertion, valid choices are: "
      ++ "start, end, start-half or end-half"
  | edgeEnd =>
    "found either the beginning of a special word boundary or a bounded repetition "
      ++ "on a \\b with an opening brace, but no closing brace"
  | propertyInvalid => "invalid Unicode character class"
  | backreference => "backreferences are not supported"
  | lookAround => "look-around, including look-ahead and look-behind, is not supported"
  | meaning f => f.text

/-- A fault and the part of the pattern that it concerns. -/
structure PatternError where
  /-- The fault. -/
  fault : PatternFault
  /-- The number of characters in front of the part. -/
  start : Nat
  /-- The number of characters in front of its end. -/
  stop : Nat
deriving DecidableEq

namespace PatternError

/-- A line of marks under the part of a pattern from one place to another. -/
def marks (start stop : Nat) : String :=
  String.ofList (List.replicate start ' ' ++ List.replicate (max (stop - start) 1) '^')

/-- The message of an error in the given pattern. -/
def message (pattern : String) (e : PatternError) : String :=
  if e.fault = .meaning .tooLarge then MeaningFault.tooLarge.text
  else
    "regex parse error:\n    " ++ pattern ++ "\n    " ++ marks e.start e.stop ++ "\nerror: "
      ++ e.fault.text

end PatternError

end Raceway
