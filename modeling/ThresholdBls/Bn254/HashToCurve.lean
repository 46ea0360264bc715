import ThresholdBls.Bn254.Groups

/-!
# Hashing to the first group

A digest is reduced to an abscissa, which is then incremented until it belongs to a point.  The
search ends at the latest where the abscissa has come round to one, since `1³ + 3 = 2²`.
-/

namespace ThresholdBls.Bn254

def rightSide (x : Fq) : Fq :=
  x * x * x + b

/-- Where a search ended: the point, and how many increments it took. -/
structure Landing where
  x : Fq
  y : Fq
  shift : Nat
deriving DecidableEq, Repr

/-- Searches from `x` on, where one lies `distance` increments ahead. -/
def search : (distance : Nat) → (x : Fq) → (shift : Nat) → Landing
  | 0, x, shift => ⟨x, Residue.ofNat fieldSize 2, shift⟩
  | distance + 1, x, shift =>
      match (rightSide x).sqrt? with
      | some root => ⟨x, root.smaller, shift⟩
      | none => search distance (x + 1) (shift + 1)

def startOf (digest : Digest) : Fq :=
  Residue.ofNat fieldSize digest.toNat

def find (digest : Digest) : Landing :=
  let x := startOf digest
  search (1 - x).val x 0

def hashPoint (digest : Digest) : Point Fq × Hint fieldSize :=
  let landing := find digest
  (.affine landing.x landing.y, ⟨landing.y, UInt64.ofNat landing.shift⟩)

/-- Rebuilds the point that a hint describes; any point of the curve is in the group. -/
def pointOfHint (digest : Digest) (hint : Hint fieldSize) : Except Error (Point Fq) :=
  let x := startOf digest + Residue.ofNat fieldSize hint.shift.toNat
  if hint.y * hint.y = rightSide x then .ok (.affine x hint.y) else .error .hintMismatch

end ThresholdBls.Bn254
