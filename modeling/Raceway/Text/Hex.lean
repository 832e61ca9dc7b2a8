/-!
# Hexadecimal digits

## Main definitions

* `Raceway.Text.hex`: a number in hexadecimal digits of at least a given count.
-/

namespace Raceway.Text

/-- A number in lower-case hexadecimal digits, with zeros in front up to the given count. -/
def hex (count n : Nat) : String :=
  let digits := Nat.toDigits 16 n
  String.ofList (List.replicate (count - digits.length) '0' ++ digits)

end Raceway.Text
