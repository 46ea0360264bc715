import ThresholdBls.Bn254.Tower
import ThresholdBls.Curve.Jacobian
import ThresholdBls.Suite

/-!
# The groups of BN254

The first group holds all points of `y² = x³ + 3` over `Fq`, the second the points of order
dividing `r` on the twist `y² = x³ + 3 / (9 + u)` over `Fq2`.
-/

namespace ThresholdBls.Bn254

def g1Generator : Point Fq :=
  .affine (Residue.ofNat fieldSize 1) (Residue.ofNat fieldSize 2)

def g2Generator : Point Fq2 :=
  .affine
    ⟨.ofNat fieldSize
        10857046999023057135944570762232829481370756359578518086990519993285655852781,
      .ofNat fieldSize
        11559732032986387107991004021392285783925812861821192530917403151452391805634⟩
    ⟨.ofNat fieldSize
        8495653923123431417604973247489272438418190587263600148770280649306958101930,
      .ofNat fieldSize
        4082367875863433681332203403145435568316851327593401208105741076214120093531⟩

@[specialize] def hasOrder {F : Type} [DecidableEq F] [Zero F] [One F] [Add F] [Sub F] [Neg F]
    [Mul F] [Inv F] (p : Point F) : Bool :=
  p.mul order = .infinity

/-- The point of given coordinates, which has to lie on the curve and then in the group. -/
@[specialize] def checked {F : Type} [DecidableEq F] [Zero F] [One F] [Add F] [Sub F] [Neg F]
    [Mul F] [Inv F] (coefficient x y : F) : Except GroupError (Point F) :=
  let p := Point.affine x y
  if !p.isOnCurve coefficient then .error .malformedElement
  else if !hasOrder p then .error .nonPrimeOrderElement
  else .ok p

def readCoordinate (s : String) : Except GroupError Fq :=
  match (Residue.ofDecimal s : Except FieldError Fq) with
  | .ok x => .ok x
  | .error _ => .error .malformedElement

def g1Coordinates : Point Fq → Except GroupError (List String)
  | .infinity => .error .identityElement
  | .affine x y => .ok [x.toDecimal, y.toDecimal]

def g1OfCoordinates : List String → Except GroupError (Point Fq)
  | [x, y] => do checked b (← readCoordinate x) (← readCoordinate y)
  | _ => .error .malformedElement

def g2Coordinates : Point Fq2 → Except GroupError (List String)
  | .infinity => .error .identityElement
  | .affine x y => .ok [x.c0.toDecimal, x.c1.toDecimal, y.c0.toDecimal, y.c1.toDecimal]

def g2OfCoordinates : List String → Except GroupError (Point Fq2)
  | [x0, x1, y0, y1] => do
      let x := Fq2.mk (← readCoordinate x0) (← readCoordinate x1)
      let y := Fq2.mk (← readCoordinate y0) (← readCoordinate y1)
      checked twistB x y
  | _ => .error .malformedElement

def g1 : PairingGroup order where
  Element := Point Fq
  decEq := inferInstance
  identity := .infinity
  generator := g1Generator
  add := Point.add
  sub := Point.sub
  mul p k := p.mul k.val
  contains p := p.isOnCurve b && hasOrder p
  width := 2
  toCoordinates := g1Coordinates
  ofCoordinates := g1OfCoordinates

def g2 : PairingGroup order where
  Element := Point Fq2
  decEq := inferInstance
  identity := .infinity
  generator := g2Generator
  add := Point.add
  sub := Point.sub
  mul p k := p.mul k.val
  contains p := p.isOnCurve twistB && hasOrder p
  width := 4
  toCoordinates := g2Coordinates
  ofCoordinates := g2OfCoordinates

end ThresholdBls.Bn254
