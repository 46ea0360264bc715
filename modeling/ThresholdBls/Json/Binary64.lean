/-!
# Binary floating point

Finite numbers of the 64-bit format, as exact multiples of powers of two.  Every operation rounds
its exact result to the nearest number, ties to an even significand.  A number is written with the
fewest digits that lie nearer to it than to any other number.
-/

namespace ThresholdBls

/-- The number `± significand * 2 ^ exponent`. -/
structure Binary64 where
  negative : Bool
  significand : Nat
  exponent : Int
deriving DecidableEq, Repr

namespace Binary64

def zero : Binary64 := ⟨false, 0, 0⟩

def minExponent : Int := -1074

def maxExponent : Int := 971

/-- A power of two; it is one for negative exponents. -/
def twoTo (n : Int) : Nat :=
  Nat.pow 2 n.toNat

/-- The quotient nearest to `num / den`, ties to even. -/
def roundQuotient (num den : Nat) : Nat :=
  let quotient := num / den
  let twice := 2 * (num % den)
  if den < twice ∨ (twice = den ∧ quotient % 2 = 1) then quotient + 1 else quotient

/-- Rounds `num * 2 ^ shift / den`, unless the result is too large for the format. -/
def ofRatio? (num den : Nat) (shift : Int) : Option Binary64 :=
  if num = 0 then some zero
  else
    let lead : Int := num.log2 - den.log2
    let reaches := if 0 ≤ lead then den * twoTo lead ≤ num else den ≤ num * twoTo (-lead)
    let lead := if reaches then lead else lead - 1
    let exponent := max (lead + shift - 52) minExponent
    let drop := exponent - shift
    let quotient :=
      if 0 ≤ drop then roundQuotient num (den * twoTo drop)
      else roundQuotient (num * twoTo (-drop)) den
    let rounded : Binary64 :=
      if quotient = twoTo 53 then ⟨false, twoTo 52, exponent + 1⟩ else ⟨false, quotient, exponent⟩
    if maxExponent < rounded.exponent then none else some rounded

def powerOfTen (n : Nat) : Binary64 :=
  (ofRatio? (Nat.pow 10 n) 1 0).getD zero

def mul? (a b : Binary64) : Option Binary64 :=
  ofRatio? (a.significand * b.significand) 1 (a.exponent + b.exponent)

def div? (a b : Binary64) : Option Binary64 :=
  ofRatio? a.significand b.significand (a.exponent - b.exponent)

def shrink : Nat → Binary64 → Option Binary64
  | 0, a => some a
  | times + 1, a =>
      if a.significand = 0 then some a
      else (div? a (powerOfTen 308)).bind (shrink times)

/-- The product of a numeral's digits and a power of ten, in at most one rounding each for the
digits and the power and one for every factor. -/
def ofDecimal? (digits : Nat) (exponent : Int) : Option Binary64 := do
  let a ← ofRatio? digits 1 0
  if a.significand = 0 then return zero
  if 0 ≤ exponent then
    if exponent ≤ 308 then mul? a (powerOfTen exponent.toNat) else none
  else
    let places := (-exponent).toNat
    div? (← shrink (places / 308) a) (powerOfTen (places % 308))

/-- The multiple of `10 ^ grid` nearest to a positive number among its two neighbours, if it lies
nearer to the number than to any other of the format. -/
def nearestOnGrid? (a : Binary64) (grid : Int) : Option Nat :=
  -- Everything is measured in units of `2 ^ (exponent - 2) * 10 ^ min grid 0`.
  let unit := a.exponent - 2
  let scale (n : Nat) : Nat := n * twoTo unit * Nat.pow 10 (-grid).toNat
  let step : Nat := Nat.pow 10 grid.toNat * twoTo (-unit)
  let value := scale (4 * a.significand)
  let narrow := a.significand = twoTo 52 ∧ minExponent < a.exponent
  let low := scale (4 * a.significand - if narrow then 1 else 2)
  let high := scale (4 * a.significand + 2)
  let even := a.significand % 2 = 0
  let holds (n : Nat) : Bool :=
    let point := n * step
    (low < point ∧ point < high) ∨ (even ∧ (point = low ∨ point = high))
  let below := value / step
  let gapBelow := value - below * step
  let gapAbove := (below + 1) * step - value
  let aboveFirst := gapAbove < gapBelow ∨ (gapAbove = gapBelow ∧ below % 2 = 1)
  let candidates := if aboveFirst then [below + 1, below] else [below, below + 1]
  candidates.find? holds

def shortestFrom (a : Binary64) : Nat → Int → Nat × Int
  | 0, grid => (0, grid)
  | steps + 1, grid =>
      match nearestOnGrid? a grid with
      | some digits => (digits, grid)
      | none => shortestFrom a steps (grid - 1)

/-- The shortest digits of a positive number, and the power of ten they count. -/
def shortest (a : Binary64) : Nat × Int :=
  let lead : Int := a.significand.log2 + a.exponent
  -- A power of two is below the next power of ten after a third of its exponent.
  shortestFrom a 400 (if 0 ≤ lead then lead / 3 + 1 else lead * 3 / 10 + 2)

/-- Positional between `10⁻⁵` and `10¹⁶`, and with a signed exponent elsewhere. -/
def render (a : Binary64) : String :=
  let sign := if a.negative then "-" else ""
  if a.significand = 0 then sign ++ "0.0"
  else
    let (digits, power) := a.shortest
    let text := Nat.toDigits 10 digits
    let point : Int := text.length + power
    if 0 ≤ power ∧ point ≤ 16 then
      sign ++ String.ofList (text ++ List.replicate power.toNat '0') ++ ".0"
    else if 0 < point ∧ point ≤ 16 then
      sign ++ String.ofList (text.take point.toNat) ++ "." ++ String.ofList (text.drop point.toNat)
    else if -5 < point ∧ point ≤ 0 then
      sign ++ "0." ++ String.ofList (List.replicate (-point).toNat '0' ++ text)
    else
      let fraction := if text.length = 1 then "" else "." ++ String.ofList (text.drop 1)
      let mark := if 0 < point then "e+" else "e"
      sign ++ String.ofList (text.take 1) ++ fraction ++ mark ++ toString (point - 1)

end Binary64

end ThresholdBls
