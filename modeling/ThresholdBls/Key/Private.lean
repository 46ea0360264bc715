import ThresholdBls.Key.Public

/-!
# Private keys

A private key is a nonzero scalar, written as its numeral.  An erased key holds zero; it signs
nothing.
-/

namespace ThresholdBls

structure PrivateKey (S : Suite) where
  scalar : S.Scalar
deriving DecidableEq

namespace PrivateKey

variable {S : Suite}

def create (scalar : S.Scalar) : Except Error (PrivateKey S) :=
  if scalar = 0 then .error .zeroSecret else .ok ⟨scalar⟩

/-- The first `count` keys that random samples give, zeros left out. -/
def ofSamples (samples : List S.Scalar) (count : Nat) : List (PrivateKey S) :=
  ((samples.filter (· ≠ 0)).take count).map PrivateKey.mk

def publicKey (key : PrivateKey S) : PublicKey S :=
  ⟨S.g2.generator * key.scalar⟩

def sign (key : PrivateKey S) (digest : Digest) : Except Error (Signature S) := do
  let (point, hint) := S.hashPoint digest
  Signature.create (← S.sign point key.scalar) hint

def provePossession (key : PrivateKey S) : Except Error (Signature S) := do
  key.sign (← S.possessionDigest key.publicKey.element)

def erase (_ : PrivateKey S) : PrivateKey S := ⟨0⟩

def render (key : PrivateKey S) : String :=
  key.scalar.toDecimal

def describe (_ : PrivateKey S) : String :=
  "PrivateKey(\"<redacted>\")"

def parse (s : String) : Except Error (PrivateKey S) := do
  if s = "" then throw .emptyInput
  if !Decimal.isDigits s then throw (.malformedString .privateKeyDigits)
  create (← (Residue.ofDecimal s).mapError .ofField)

end PrivateKey

end ThresholdBls
