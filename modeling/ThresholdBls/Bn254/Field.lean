import ThresholdBls.Residue

/-!
# The fields of BN254

The curve parameter `x` gives the base field, over which the points of the first group are
defined, and the scalar field, whose size is the order of both groups.
-/

namespace ThresholdBls.Bn254

def parameter : Nat := 4965661367192848881

def fieldSize : Nat :=
  21888242871839275222246405745257275088696311157297823662689037894645226208583

def order : Nat :=
  21888242871839275222246405745257275088548364400416034343698204186575808495617

instance : Modulus fieldSize := ⟨by decide⟩

instance : Modulus order := ⟨by decide⟩

-- From here on only evaluation opens the two numbers; unification never has to.
attribute [irreducible] fieldSize order

abbrev Fq : Type := Residue fieldSize

abbrev Fr : Type := Residue order

/-- The coefficient of the curve `y² = x³ + 3`. -/
def b : Fq := Residue.ofNat fieldSize 3

namespace Fq

/-- A square root, if there is one.  Since the field size is three modulo four, the power
`(q + 1) / 4` of a square is a root of it. -/
def sqrt? (a : Fq) : Option Fq :=
  let root := Binary.power a ((fieldSize + 1) / 4)
  if root * root = a then some root else none

def smaller (a : Fq) : Fq :=
  if a.val ≤ (-a).val then a else -a

end Fq

end ThresholdBls.Bn254
