import ThresholdBls.IndexMap
import ThresholdBls.Key.Share

/-!
# Public key packages

What key generation publishes: the parameters, every participant's public key share, and the
common public key.
-/

namespace ThresholdBls

structure KeyPackage (S : Suite) where
  params : Params
  publicKeyShares : IndexMap (PublicKeyShare S)
  publicKey : PublicKey S

end ThresholdBls
