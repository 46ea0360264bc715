import ThresholdBls.Json.Binary64

/-!
# Numbers of JSON texts

Integers of up to 64 bits are kept exactly, all other numbers as binary floating point.
-/

namespace ThresholdBls.Json

/-- Why a text cannot be read on: it breaks the grammar, or it ends too early. -/
inductive Fault
  | malformed
  | truncated
deriving DecidableEq, Repr

inductive Number
  | natural (n : Nat)
  /-- The number `-n`, where `n` is positive. -/
  | negative (n : Nat)
  | float (x : Binary64)
deriving DecidableEq, Repr

namespace Number

def render : Number → String
  | .natural n => String.ofList (Nat.toDigits 10 n)
  | .negative n => "-" ++ String.ofList (Nat.toDigits 10 n)
  | .float x => x.render

structure Numeral where
  negative : Bool
  whole : List Char
  fraction : Option (List Char)
  /-- Whether the exponent is negative, and its digits. -/
  exponent : Option (Bool × List Char)
deriving DecidableEq, Repr

def digits (atEnd : Fault) (cs : List Char) : Except Fault (List Char × List Char) :=
  match cs.span Char.isDigit with
  | ([], []) => .error atEnd
  | ([], _ :: _) => .error .malformed
  | (ds, rest) => .ok (ds, rest)

def wholePart (atEnd : Fault) (cs : List Char) : Except Fault (List Char × List Char) :=
  match digits atEnd cs with
  | .ok ('0' :: _ :: _, _) => .error .malformed
  | result => result

def fractionPart (atEnd : Fault) :
    List Char → Except Fault (Option (List Char) × List Char)
  | '.' :: rest => do
      let (ds, rest) ← digits atEnd rest
      return (some ds, rest)
  | rest => .ok (none, rest)

def signedDigits (atEnd : Fault) :
    List Char → Except Fault ((Bool × List Char) × List Char)
  | '-' :: rest => do
      let (ds, rest) ← digits atEnd rest
      return ((true, ds), rest)
  | '+' :: rest => do
      let (ds, rest) ← digits atEnd rest
      return ((false, ds), rest)
  | rest => do
      let (ds, rest) ← digits atEnd rest
      return ((false, ds), rest)

def exponentPart (atEnd : Fault) :
    List Char → Except Fault (Option (Bool × List Char) × List Char)
  | 'e' :: rest | 'E' :: rest => do
      let (e, rest) ← signedDigits atEnd rest
      return (some e, rest)
  | rest => .ok (none, rest)

/-- Splits a number off the front of a text.  The first argument is the fault of a text that ends
where a digit has to stand. -/
def Numeral.read (atEnd : Fault) (cs : List Char) : Except Fault (Numeral × List Char) := do
  let (negative, cs) := match cs with
    | '-' :: rest => (true, rest)
    | _ => (false, cs)
  let (whole, cs) ← wholePart atEnd cs
  let (fraction, cs) ← fractionPart atEnd cs
  let (exponent, cs) ← exponentPart atEnd cs
  return (⟨negative, whole, fraction, exponent⟩, cs)

/-- Takes digits into a 64-bit number as long as it has room for the next.  The result is the
number, how many digits it took, and how many were left. -/
def accumulate : (acc taken : Nat) → List Char → Nat × Nat × Nat
  | acc, taken, [] => (acc, taken, 0)
  | acc, taken, d :: ds =>
      let larger := 10 * acc + (d.toNat - '0'.toNat)
      if larger < UInt64.size then accumulate larger (taken + 1) ds else (acc, taken, ds.length + 1)

def Numeral.float? (numeral : Numeral) : Option Number := do
  let (acc, _, left) := accumulate 0 0 numeral.whole
  let (acc, places, _) := accumulate acc 0 (numeral.fraction.getD [])
  let written : Int := match numeral.exponent with
    | some (true, ds) => -(Nat.ofDigitChars 10 ds 0 : Nat)
    | some (false, ds) => (Nat.ofDigitChars 10 ds 0 : Nat)
    | none => 0
  let x ← Binary64.ofDecimal? acc (written + left - places)
  return .float { x with negative := numeral.negative }

def Numeral.value? (numeral : Numeral) : Option Number :=
  let n := Nat.ofDigitChars 10 numeral.whole 0
  if numeral.fraction.isSome || numeral.exponent.isSome then numeral.float?
  else if numeral.negative then
    if 0 < n ∧ n ≤ UInt64.size / 2 then some (.negative n) else numeral.float?
  else
    if n < UInt64.size then some (.natural n) else numeral.float?

end Number

end ThresholdBls.Json
