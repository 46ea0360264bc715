import ThresholdBls.IndexMap
import ThresholdBls.Key.Share
import ThresholdBls.Interpolation

/-!
# Recovering keys from shares

Any `t` shares of a key, private or public, combine to the key by interpolation at zero.
-/

namespace ThresholdBls

variable {S : Suite}

/-- The private key of a list of shares; the first `t` of them are combined. -/
def PrivateKey.ofShares (shares : List (PrivateKeyShare S)) : Except Error (PrivateKey S) := do
  let first :: _ := shares | throw .emptyInput
  let params := first.params
  shares.forM fun share => params.requireSame share.params
  let coefficients ← Interpolation.coefficients S.order (shares.map (·.index)) params.t
  let (secret, _) ← S.recoverSecret coefficients (shares.map (·.key.scalar)) params.t
  PrivateKey.create secret

def PublicKeyShare.checkFiled (params : Params) (entry : UInt16 × PublicKeyShare S) :
    Except Error Unit := do
  params.requireSame entry.2.params
  if entry.1 ≠ entry.2.index then throw (.indexOutOfRange entry.1)

/-- The public key of a map of shares; those of the `t` lowest indices are combined. -/
def PublicKey.ofShares (shares : IndexMap (PublicKeyShare S)) (params : Params) :
    Except Error (PublicKey S) := do
  let t := params.t.toNat
  if shares.size < t then throw (.tooFewShares t shares.size)
  let used := shares.entries.take t
  used.forM (PublicKeyShare.checkFiled params)
  let coefficients ← Interpolation.coefficients S.order (used.map (·.1)) params.t
  let element := (coefficients.zip used).foldl
    (fun acc (c, entry) => acc + entry.2.key.element * c) S.g2.identity
  PublicKey.create element

end ThresholdBls
