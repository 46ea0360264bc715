import ThresholdBls.Residue

/-!
# Secret polynomials

A secret is shared by a polynomial whose constant term it is; participant `i` receives the value
at `i`.  Coefficients stand in order of degree, constant term first.
-/

namespace ThresholdBls

structure Polynomial (r : Nat) where
  coefficients : List (Residue r)
  ne_nil : coefficients ≠ []
deriving DecidableEq

namespace Polynomial

variable {r : Nat}

def create (coefficients : List (Residue r)) : Except Error (Polynomial r) :=
  if h : coefficients = [] then .error .emptyInput else .ok ⟨coefficients, h⟩

def length (f : Polynomial r) : Nat :=
  f.coefficients.length

def constant (f : Polynomial r) : Residue r :=
  f.coefficients.head f.ne_nil

variable [Modulus r]

/-- The value at `x` of a list of coefficients, the last of which has to be nonzero: with a
smaller degree, fewer shares than the threshold asks for would determine the secret. -/
def value (coefficients : List (Residue r)) (x : Residue r) : Except Error (Residue r) :=
  match coefficients.getLast? with
  | none => .error .emptyInput
  | some leading =>
      if leading = 0 then .error .zeroLeadingCoefficient
      else .ok (coefficients.foldr (fun c acc => acc * x + c) 0)

def evaluate (f : Polynomial r) (x : Residue r) : Except Error (Residue r) :=
  value f.coefficients x

def contributions (f : Polynomial r) (n : UInt16) : Except Error (List (Residue r)) :=
  (List.range n.toNat).mapM fun i => f.evaluate (Residue.ofNat r (i + 1))

/-- A polynomial of `t` random coefficients.  The leading one is the first nonzero sample from
position `t` on; the samples have to contain one. -/
def ofSamples (t : UInt16) (samples : List (Residue r)) : Except Error (Polynomial r) := do
  if t = 0 then throw .thresholdOutOfRange
  let lower := samples.take (t.toNat - 1)
  let some leading := (samples.drop (t.toNat - 1)).find? (· ≠ 0) | throw .emptyInput
  create (lower ++ [leading])

def erase (f : Polynomial r) : Polynomial r :=
  ⟨f.coefficients.map fun _ => 0, by simpa using f.ne_nil⟩

omit [Modulus r] in
def describe (f : Polynomial r) : String :=
  "Polynomial \x7b len: " ++ toString f.length ++ ", coefficients: \"<redacted>\" \x7d"

end Polynomial

end ThresholdBls
