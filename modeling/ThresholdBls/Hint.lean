import ThresholdBls.Residue
import ThresholdBls.Text.Segments

/-!
# Hash hints

Hashing a digest to a point searches for the first abscissa at or after the reduced digest that
lies on the curve.  A hint records how far the search went and which ordinate it chose, so that
the point can be rebuilt without a search.  It is written `y:shift`.
-/

namespace ThresholdBls

structure Hint (q : Nat) where
  y : Residue q
  shift : UInt64
deriving DecidableEq, Repr

namespace Hint

variable {q : Nat}

def render (hint : Hint q) : String :=
  Segments.join [hint.y.toDecimal, Decimal.render hint.shift.toNat]

def describe (hint : Hint q) : String :=
  "Hint(\"" ++ hint.render ++ "\")"

/-- Reads the two parts of a hint.  The digits of both are looked at before either value. -/
def ofParts (y shift : String) : Except Error (Hint q) := do
  if !Decimal.isDigits y then throw (.malformedString .hintY)
  if !Decimal.isDigits shift then throw (.malformedString .hintShift)
  if !Decimal.isCanonical shift then throw (.malformedString .hintShiftZeros)
  let ordinate ← (Residue.ofDecimal y).mapError .ofField
  if UInt64.size ≤ Decimal.value shift then throw (.malformedString .hintShift)
  return ⟨ordinate, UInt64.ofNat (Decimal.value shift)⟩

def parse (s : String) : Except Error (Hint q) :=
  if s = "" then .error .emptyInput
  else
    match Segments.splitFirst? s with
    | some (y, shift) => ofParts y shift
    | none => .error (.malformedString .hintSegments)

end Hint

end ThresholdBls
