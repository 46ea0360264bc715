import ThresholdBls.Key.Recovery
import ThresholdBls.ShareSet
import ThresholdBls.Sharing.Dealer

/-!
# Signing sessions

The holders of dealt shares sign one digest in turn.  Each signature share is checked under the
signer's public key share and added to a set, which is merged in the end.
-/

namespace ThresholdBls

structure Contribution (S : Suite) where
  share : SignatureShare S
  verified : Except Error Bool
  added : Except Error Unit

structure Session (S : Suite) where
  contributions : List (Contribution S)
  merged : Except Error (Signature S)
  privateKey : Except Error (PrivateKey S)
  publicKey : Except Error (PublicKey S)

namespace Session

variable {S : Suite}

def contribute (digest : Digest) (set : ShareSet S) (holder : PrivateKeyShare S) :
    Except Error (Contribution S × ShareSet S) := do
  let share ← holder.sign digest
  let verified := holder.publicKeyShare.verify digest share
  match set.add share with
  | .ok larger => return (⟨share, verified, .ok ()⟩, larger)
  | .error e => return (⟨share, verified, .error e⟩, set)

def contributeAll (digest : Digest) (set : ShareSet S) :
    List (PrivateKeyShare S) → Except Error (List (Contribution S) × ShareSet S)
  | [] => return ([], set)
  | holder :: rest => do
      let (contribution, larger) ← contribute digest set holder
      let (contributions, final) ← contributeAll digest larger rest
      return (contribution :: contributions, final)

/-- Runs a session with the holders in order; a holder may sign again. -/
def run (params : Params) (digest : Digest) (holders : List (PrivateKeyShare S)) :
    Except Error (Session S) := do
  let (contributions, set) ← contributeAll digest (.empty params) holders
  let publicShares := holders.map fun holder => (holder.index, holder.publicKeyShare)
  return {
    contributions
    merged := set.signature
    privateKey := PrivateKey.ofShares holders
    publicKey := PublicKey.ofShares (.ofList publicShares) params }

end Session

end ThresholdBls
