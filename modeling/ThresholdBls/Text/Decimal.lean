/-!
# Decimal numerals

Every number has one accepted spelling: ASCII digits, with no leading zero unless the number is
zero.  `parse?` reads that spelling and nothing else, `render` writes it.
-/

namespace ThresholdBls.Decimal

/-- A nonempty text of ASCII digits; leading zeros are allowed. -/
def isDigits (s : String) : Bool :=
  !s.toList.isEmpty && s.toList.all Char.isDigit

/-- A nonempty text of ASCII digits that starts with zero only if it is `"0"`. -/
def isCanonical (s : String) : Bool :=
  isDigits s && (s.toList.length == 1 || s.toList.head? != some '0')

def value (s : String) : Nat :=
  Nat.ofDigitChars 10 s.toList 0

def render (n : Nat) : String :=
  String.ofList (Nat.toDigits 10 n)

def parse? (s : String) : Option Nat :=
  if isCanonical s then some (value s) else none

end ThresholdBls.Decimal
