import ThresholdBls.Bn254.HashToCurve
import ThresholdBls.Bn254.Pairing
import ThresholdBls.Sha256

/-!
# The suite BN254 with SHA-256
-/

namespace ThresholdBls.Bn254

def suite : Suite where
  name := "BLS-BN254-SHA256-v1"
  order := order
  order_modulus := inferInstance
  fieldSize := fieldSize
  fieldSize_modulus := inferInstance
  g1 := g1
  g2 := g2
  hash := Sha256.hash
  hashPoint := hashPoint
  pointOfHint := pointOfHint
  samePairing := samePairing

end ThresholdBls.Bn254
