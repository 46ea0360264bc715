import ThresholdBls.Signature

/-!
# Public keys

A public key is a usable element of the second group, written as its numerals with colons between
them.
-/

namespace ThresholdBls

structure PublicKey (S : Suite) where
  element : S.g2.Element
deriving DecidableEq

namespace PublicKey

variable {S : Suite}

def create (element : S.g2.Element) : Except Error (PublicKey S) := do
  S.g2.requireUsable element
  return ⟨element⟩

def ofCoordinates (coordinates : List String) : Except Error (PublicKey S) := do
  if coordinates.length ≠ S.g2.width then
    throw (.lengthMismatch coordinates.length S.g2.width)
  if !coordinates.all Decimal.isDigits then throw (.malformedString .publicKeyDigits)
  create (← (S.g2.ofCoordinates coordinates).mapError .ofGroup)

def toCoordinates (key : PublicKey S) : Except Error (List String) :=
  (S.g2.toCoordinates key.element).mapError .ofGroup

def render (key : PublicKey S) : Except GroupError String :=
  S.g2.render key.element

def describe (key : PublicKey S) : Except GroupError String := do
  return "PublicKey(\"" ++ (← key.render) ++ "\")"

def parse (s : String) : Except Error (PublicKey S) :=
  if s = "" then .error .emptyInput else ofCoordinates (Segments.split s)

def verify (key : PublicKey S) (digest : Digest) (signature : Signature S) : Except Error Bool :=
  S.verify digest signature.element key.element

def verifyHinted (key : PublicKey S) (digest : Digest) (signature : Signature S) :
    Except Error Bool :=
  S.verifyHinted digest signature.element signature.hint key.element

def verifyPossession (key : PublicKey S) (proof : Signature S) : Except Error Bool :=
  S.verifyPossession key.element proof.element

end PublicKey

end ThresholdBls
