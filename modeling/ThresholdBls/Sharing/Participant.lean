import ThresholdBls.Sharing.Commitment

/-!
# Participants of a distributed key generation

A participant deals its own polynomial to all others, checks what it receives from them, and adds
up its private key share.
-/

namespace ThresholdBls

structure Participant (S : Suite) where
  params : Params
  polynomial : Polynomial S.order
deriving DecidableEq

namespace Participant

variable {S : Suite}

def ofSamples (params : Params) (samples : List S.Scalar) : Except Error (Participant S) := do
  return ⟨params, ← Polynomial.ofSamples params.t samples⟩

def adopt (participant : Participant S) (f : Polynomial S.order) :
    Except Error (Participant S) :=
  let t := participant.params.t.toNat
  if f.length ≠ t then .error (.lengthMismatch f.length t)
  else .ok { participant with polynomial := f }

/-- The values to send, participant `i` receiving the one at position `i - 1`. -/
def dealtValues (participant : Participant S) : Except Error (List S.Scalar) :=
  participant.polynomial.contributions participant.params.n

def commitment (participant : Participant S) : Commitment S :=
  .ofPolynomial participant.polynomial

def checkValue (participant : Participant S) (index : UInt16) (share : S.Scalar)
    (commitment : Commitment S) : Except Error Bool :=
  let t := participant.params.t.toNat
  if share = 0 then .error .zeroSecret
  else if commitment.elements.length ≠ t then
    .error (.lengthMismatch commitment.elements.length t)
  else .ok (commitment.accepts index share)

def assembleShare (participant : Participant S) (index : UInt16)
    (contributions : List S.Scalar) : Except Error (PrivateKeyShare S) := do
  let n := participant.params.n.toNat
  if contributions.length ≠ n then throw (.lengthMismatch contributions.length n)
  let share ← S.combineContributions contributions
  PrivateKeyShare.create share index participant.params

def describe (participant : Participant S) : String :=
  "DkgParticipant \x7b params: " ++ participant.params.describe ++ ", polynomial: "
    ++ participant.polynomial.describe ++ " \x7d"

end Participant

end ThresholdBls
