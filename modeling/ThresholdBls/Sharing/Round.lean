import ThresholdBls.Key.Recovery
import ThresholdBls.Sharing.Participant

/-!
# Rounds of distributed key generation

Every participant deals its polynomial to all.  Between dealing and receiving, commitments and
single values may be replaced, which is all that a dishonest sender can do.
-/

namespace ThresholdBls

/-- What the participants of a round have sent: per sender a commitment, and the values for the
recipients in order. -/
structure Round (S : Suite) where
  params : Params
  participants : List (Participant S)
  commitments : List (Commitment S)
  values : List (List S.Scalar)

structure Reception (S : Suite) where
  checks : List (Except Error Bool)
  share : Except Error (PrivateKeyShare S)
  publicShare : Except Error (PublicKeyShare S)

namespace Round

variable {S : Suite}

def deal (params : Params) (participants : List (Participant S)) : Except Error (Round S) := do
  let values ← participants.mapM Participant.dealtValues
  return ⟨params, participants, participants.map Participant.commitment, values⟩

def replaceCommitment (round : Round S) (sender : Nat) (commitment : Commitment S) : Round S :=
  { round with commitments := round.commitments.set (sender - 1) commitment }

/-- Replaces the value that a sender sent to a recipient, both counted from one. -/
def replaceValue (round : Round S) (sender recipient : Nat) (value : S.Scalar) : Round S :=
  { round with values := round.values.modify (sender - 1) (·.set (recipient - 1) value) }

/-- The values that the recipient at a position, counted from zero, got from all senders. -/
def valuesFor (round : Round S) (position : Nat) : List S.Scalar :=
  round.values.filterMap (·[position]?)

def receive (round : Round S) (participant : Participant S) (position : Nat) : Reception S :=
  let index := UInt16.ofNat (position + 1)
  let values := round.valuesFor position
  { checks := (values.zip round.commitments).map fun (value, commitment) =>
      participant.checkValue index value commitment
    share := participant.assembleShare index values
    publicShare := PublicKeyShare.ofCommitments index round.commitments round.params }

def receptions (round : Round S) : List (Reception S) :=
  round.participants.zipIdx.map fun (participant, position) => round.receive participant position

def publicKey (round : Round S) : Except Error (PublicKey S) :=
  PublicKey.ofCommitments round.commitments

def recover (receptions : List (Reception S)) : Except Error (PrivateKey S) :=
  PrivateKey.ofShares (receptions.filterMap (·.share.toOption))

end Round

end ThresholdBls
