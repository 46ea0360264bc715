import ThresholdBls.Suite

/-!
# Interpolation at zero

The value at zero of a polynomial of degree below `t` is a combination of its values at any `t`
distinct nonzero indices.  The coefficients of that combination recover secrets and signatures
from shares.
-/

namespace ThresholdBls

namespace Interpolation

def firstRepeated (seen : List UInt16) : List UInt16 → Option UInt16
  | [] => none
  | index :: rest => if index ∈ seen then some index else firstRepeated (index :: seen) rest

/-- The product of the abscissas over `x * ∏ (other - x)`, where `others` are all abscissas but
`x`. -/
def coefficient {r : Nat} [Modulus r] (product x : Residue r) (others : List (Residue r)) :
    Except Error (Residue r) := do
  let denominator := others.foldl (fun acc other => acc * (other - x)) x
  return product * (← denominator.inverse.mapError .ofField)

def coefficients (r : Nat) [Modulus r] (indices : List UInt16) (t : UInt16) :
    Except Error (List (Residue r)) := do
  let count := t.toNat
  if count = 0 ∨ indices.length < count then throw (.tooFewShares count indices.length)
  let used := indices.take count
  if 0 ∈ used then throw (.indexOutOfRange 0)
  if let some index := firstRepeated [] used then throw (.duplicatedIndex index)
  let xs := used.map fun index => Residue.ofNat r index.toNat
  let product := xs.foldl (· * ·) 1
  xs.zipIdx.mapM fun (x, position) => coefficient product x (xs.eraseIdx position)

def requireLengths (coefficients shares : Nat) (t : UInt16) : Except Error Unit :=
  if t.toNat = 0 ∨ coefficients < t.toNat ∨ shares < t.toNat then
    .error (.tooFewShares t.toNat (min coefficients shares))
  else .ok ()

end Interpolation

namespace Suite

variable (S : Suite)

def recoverSecret (coefficients shares : List S.Scalar) (t : UInt16) :
    Except Error (S.Scalar × S.g2.Element) := do
  Interpolation.requireLengths coefficients.length shares.length t
  let secret ← ((coefficients.zip shares).take t.toNat).foldlM (fun acc (c, share) =>
    if share = 0 then throw .zeroSecret else return acc + c * share) 0
  return (secret, S.g2.generator * secret)

def recoverSignature (coefficients : List S.Scalar) (shares : List S.g1.Element) (t : UInt16) :
    Except Error S.g1.Element := do
  Interpolation.requireLengths coefficients.length shares.length t
  ((coefficients.zip shares).take t.toNat).foldlM (fun acc (c, share) => do
    S.g1.requireUsable share
    return acc + share * c) S.g1.identity

end Suite

end ThresholdBls
