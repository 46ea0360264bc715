import ThresholdBls.Key.Package
import ThresholdBls.Sharing.Polynomial

/-!
# Trusted dealers

A dealer samples one polynomial, hands every participant its value, and publishes the multiples
of the generator.
-/

namespace ThresholdBls

structure Dealing (S : Suite) where
  shares : IndexMap (PrivateKeyShare S)
  package : KeyPackage S

namespace Dealing

variable {S : Suite}

def ofPolynomial (params : Params) (f : Polynomial S.order) : Except Error (Dealing S) := do
  let values ← f.contributions params.n
  let shares ← values.zipIdx.mapM fun (value, position) =>
    PrivateKeyShare.create value (UInt16.ofNat (position + 1)) params
  let publicKey ← PublicKey.create (S.g2.generator * f.constant)
  return {
    shares := .ofList (shares.map fun share => (share.index, share))
    package := {
      params
      publicKeyShares := .ofList (shares.map fun share => (share.index, share.publicKeyShare))
      publicKey } }

def ofSamples (params : Params) (samples : List S.Scalar) : Except Error (Dealing S) := do
  ofPolynomial params (← Polynomial.ofSamples params.t samples)

end Dealing

end ThresholdBls
