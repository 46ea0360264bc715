import ThresholdBls.IndexMap
import ThresholdBls.Interpolation
import ThresholdBls.Signature

/-!
# Sets of signature shares

A set collects the shares of one message by signer index.  Once `t` shares are present they can
be merged into a signature, after which the set takes no more shares.
-/

namespace ThresholdBls

structure ShareSet (S : Suite) where
  params : Params
  shares : IndexMap (SignatureShare S)
  merged : Bool

namespace ShareSet

variable {S : Suite}

def empty (params : Params) : ShareSet S :=
  ⟨params, .empty, false⟩

def add (set : ShareSet S) (share : SignatureShare S) : Except Error (ShareSet S) := do
  set.params.requireSame share.params
  if set.merged then throw .alreadyMerged
  if set.shares.contains share.index then throw (.duplicatedIndex share.index)
  return { set with shares := set.shares.insert share.index share }

def count (set : ShareSet S) : Nat :=
  set.shares.size

def isReady (set : ShareSet S) : Bool :=
  set.params.t.toNat ≤ set.count

/-- The share of a signer.  Only indices up to `t` are answered, though larger ones are kept. -/
def get (set : ShareSet S) (index : UInt16) : Except Error (Option (SignatureShare S)) :=
  if index = 0 ∨ set.params.t < index then .error (.indexOutOfRange index)
  else .ok (set.shares.get? index)

/-- The signature that the shares of the `t` lowest indices combine to, with the hint of the
lowest. -/
def signature (set : ShareSet S) : Except Error (Signature S) := do
  let t := set.params.t
  if set.count < t.toNat then throw (.tooFewShares t.toNat set.count)
  let lowest :: others := set.shares.values.take t.toNat
    | throw (.tooFewShares t.toNat set.count)
  let used := lowest :: others
  let coefficients ← Interpolation.coefficients S.order (used.map (·.index)) t
  let element ← S.recoverSignature coefficients (used.map (·.signature.element)) t
  Signature.create element lowest.signature.hint

def merge (set : ShareSet S) : Except Error (Signature S × ShareSet S) := do
  return (← set.signature, { set with merged := true })

def describe (set : ShareSet S) : Except GroupError String := do
  let shares ← set.shares.entries.mapM fun (index, share) => do
    return toString index.toNat ++ ": " ++ (← share.describe)
  return "SigShareSet \x7b params: " ++ set.params.describe
    ++ ", state: Mutex \x7b data: State \x7b shares: \x7b" ++ String.intercalate ", " shares
    ++ "\x7d, merged: " ++ toString set.merged ++ " \x7d \x7d \x7d"

end ShareSet

end ThresholdBls
