import ThresholdBls.Key.Private

/-!
# Key shares

Each participant holds one share of the private key.  The matching share of the public key is
known to all, and checks the participant's signature shares.
-/

namespace ThresholdBls

structure PrivateKeyShare (S : Suite) where
  key : PrivateKey S
  index : UInt16
  params : Params
deriving DecidableEq

structure PublicKeyShare (S : Suite) where
  key : PublicKey S
  index : UInt16
  params : Params
deriving DecidableEq

variable {S : Suite}

namespace PrivateKeyShare

def ofKey (key : PrivateKey S) (index : UInt16) (params : Params) :
    Except Error (PrivateKeyShare S) := do
  params.requireIndex index
  return ⟨key, index, params⟩

/-- The index is checked before the scalar. -/
def create (scalar : S.Scalar) (index : UInt16) (params : Params) :
    Except Error (PrivateKeyShare S) := do
  params.requireIndex index
  return ⟨← PrivateKey.create scalar, index, params⟩

def parse (s : String) (index : UInt16) (params : Params) :
    Except Error (PrivateKeyShare S) := do
  params.requireIndex index
  return ⟨← PrivateKey.parse s, index, params⟩

def sign (share : PrivateKeyShare S) (digest : Digest) : Except Error (SignatureShare S) := do
  SignatureShare.ofSignature (← share.key.sign digest) share.index share.params

def publicKeyShare (share : PrivateKeyShare S) : PublicKeyShare S :=
  ⟨share.key.publicKey, share.index, share.params⟩

def erase (share : PrivateKeyShare S) : PrivateKeyShare S :=
  { share with key := share.key.erase }

def render (share : PrivateKeyShare S) : String :=
  share.key.render

def describe (share : PrivateKeyShare S) : String :=
  "PrivateKeyShare \x7b key: " ++ share.key.describe ++ ", index: "
    ++ toString share.index.toNat ++ ", params: " ++ share.params.describe ++ " \x7d"

end PrivateKeyShare

namespace PublicKeyShare

def ofKey (key : PublicKey S) (index : UInt16) (params : Params) :
    Except Error (PublicKeyShare S) := do
  params.requireIndex index
  return ⟨key, index, params⟩

def create (element : S.g2.Element) (index : UInt16) (params : Params) :
    Except Error (PublicKeyShare S) := do
  params.requireIndex index
  return ⟨← PublicKey.create element, index, params⟩

def ofCoordinates (coordinates : List String) (index : UInt16) (params : Params) :
    Except Error (PublicKeyShare S) := do
  params.requireIndex index
  return ⟨← PublicKey.ofCoordinates coordinates, index, params⟩

def parse (s : String) (index : UInt16) (params : Params) :
    Except Error (PublicKeyShare S) := do
  params.requireIndex index
  return ⟨← PublicKey.parse s, index, params⟩

def verify (share : PublicKeyShare S) (digest : Digest) (signature : SignatureShare S) :
    Except Error Bool := do
  share.params.requireSame signature.params
  if signature.index ≠ share.index then throw (.indexOutOfRange signature.index)
  share.key.verify digest signature.signature

def render (share : PublicKeyShare S) : Except GroupError String :=
  share.key.render

def describe (share : PublicKeyShare S) : Except GroupError String := do
  return "PublicKeyShare \x7b key: " ++ (← share.key.describe) ++ ", index: "
    ++ toString share.index.toNat ++ ", params: " ++ share.params.describe ++ " \x7d"

end PublicKeyShare

end ThresholdBls
