import ThresholdBls.Suite

/-!
# Signing with raw elements

A signature on a digest is the secret multiple of the point of the digest.  It is valid when
`e(signature, generator) = e(point, public key)`.
-/

namespace ThresholdBls.Suite

variable (S : Suite)

def sign (point : S.g1.Element) (secret : S.Scalar) : Except Error S.g1.Element :=
  if secret = 0 then .error .zeroSecret else .ok (point * secret)

def signatureHolds (signature point : S.g1.Element) (publicKey : S.g2.Element) : Bool :=
  S.samePairing signature S.g2.generator point publicKey

def verify (digest : Digest) (signature : S.g1.Element) (publicKey : S.g2.Element) :
    Except Error Bool := do
  S.g1.requireUsable signature
  S.g2.requireUsable publicKey
  return S.signatureHolds signature (S.hashPoint digest).1 publicKey

def verifyHinted (digest : Digest) (signature : S.g1.Element) (hint : Hint S.fieldSize)
    (publicKey : S.g2.Element) : Except Error Bool := do
  S.g1.requireUsable signature
  S.g2.requireUsable publicKey
  let point ← S.pointOfHint digest hint
  return S.signatureHolds signature point publicKey

def aggregate (signatures : List S.g1.Element) : Except Error S.g1.Element := do
  if signatures.isEmpty then throw .emptyInput
  signatures.foldlM (fun acc signature => do
    S.g1.requireUsable signature
    return acc + signature) S.g1.identity

/-- Verifies signatures of one key on the digests at the same positions with one pairing
equality. -/
def verifyAggregated (digests : List Digest) (signatures : List S.g1.Element)
    (publicKey : S.g2.Element) : Except Error Bool := do
  if digests.length ≠ signatures.length then
    throw (.lengthMismatch digests.length signatures.length)
  S.g2.requireUsable publicKey
  let signature ← S.aggregate signatures
  let point := digests.foldl (fun acc digest => acc + (S.hashPoint digest).1) S.g1.identity
  return S.signatureHolds signature point publicKey

def possessionMessage (publicKey : S.g2.Element) : Except GroupError (List UInt8) := do
  return (← S.g2.render publicKey).toUTF8.toList

def possessionDigest (publicKey : S.g2.Element) : Except Error Digest := do
  return S.hash (← (S.possessionMessage publicKey).mapError .ofGroup)

def provePossession (secret : S.Scalar) : Except Error S.g1.Element := do
  if secret = 0 then throw .zeroSecret
  let digest ← S.possessionDigest (S.g2.generator * secret)
  S.sign (S.hashPoint digest).1 secret

def verifyPossession (publicKey : S.g2.Element) (proof : S.g1.Element) : Except Error Bool := do
  S.g2.requireUsable publicKey
  S.verify (← S.possessionDigest publicKey) proof publicKey

end ThresholdBls.Suite
