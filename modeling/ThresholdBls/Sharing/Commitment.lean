import ThresholdBls.Key.Share
import ThresholdBls.Sharing.Polynomial

/-!
# Commitments to polynomials

A sender publishes the multiples of the generator by its coefficients.  Each recipient checks the
value it received against them, and anyone derives the public keys of a round from them.  The
elements of a received commitment are arbitrary; the check refuses any outside the group.
-/

namespace ThresholdBls

structure Commitment (S : Suite) where
  elements : List S.g2.Element
deriving DecidableEq

namespace Commitment

variable {S : Suite}

def ofPolynomial (f : Polynomial S.order) : Commitment S :=
  ⟨f.coefficients.map fun c => S.g2.generator * c⟩

/-- The committed polynomial at an index, in the group: the sum of the elements times the powers
of the index. -/
def evaluate (commitment : Commitment S) (index : UInt16) : S.g2.Element :=
  let i : S.Scalar := Residue.ofNat S.order index.toNat
  (commitment.elements.foldl
    (fun (power, sum) element => (i * power, sum + element * power))
    ((1 : S.Scalar), S.g2.identity)).2

def accepts (commitment : Commitment S) (index : UInt16) (share : S.Scalar) : Bool :=
  index ≠ 0 && commitment.elements.all S.g2.contains
    && commitment.evaluate index = S.g2.generator * share

def coordinates (commitment : Commitment S) : Except GroupError (List (List String)) :=
  commitment.elements.mapM S.g2.toCoordinates

def describe (commitment : Commitment S) : String :=
  let texts := commitment.elements.map fun element =>
    match S.g2.render element with
    | .ok text => "\"" ++ text ++ "\""
    | .error _ => "\"<identity>\""
  "[" ++ String.intercalate ", " texts ++ "]"

def constant (commitment : Commitment S) : Except Error S.g2.Element :=
  match commitment.elements with
  | element :: _ => .ok element
  | [] => .error .emptyInput

end Commitment

variable {S : Suite}

def PublicKey.ofCommitments (commitments : List (Commitment S)) : Except Error (PublicKey S) := do
  if commitments.isEmpty then throw .emptyInput
  let element ← commitments.foldlM
    (fun acc commitment => return acc + (← commitment.constant)) S.g2.identity
  PublicKey.create element

def PublicKeyShare.ofCommitments (index : UInt16) (commitments : List (Commitment S))
    (params : Params) : Except Error (PublicKeyShare S) := do
  params.requireIndex index
  if commitments.isEmpty then throw .emptyInput
  let element := commitments.foldl
    (fun acc commitment => acc + commitment.evaluate index) S.g2.identity
  PublicKeyShare.create element index params

def Suite.combineContributions (S : Suite) (contributions : List S.Scalar) :
    Except Error S.Scalar :=
  if contributions.isEmpty then .error .emptyInput
  else if Residue.sum contributions = 0 then .error .zeroSecret
  else .ok (Residue.sum contributions)

end ThresholdBls
