import ThresholdBls.Bn254.Tower
import ThresholdBls.Curve.Point

/-!
# The optimal ate pairing

A Miller loop along the signed digits of `6x + 2` multiplies up the lines through multiples of
the second point, taken at the first; the result is raised to the power `(q¹² - 1) / r`.  The
multiples are kept in homogeneous coordinates, and no step looks at whether the points are on
their curves.
-/

namespace ThresholdBls.Bn254

/-- The homogeneous coordinates `(x : y : z)` of the point `(x / z, y / z)` of the twist. -/
structure Homogeneous where
  x : Fq2
  y : Fq2
  z : Fq2
deriving DecidableEq, Repr

/-- A line, as the coefficients of `y`, `x` and one. -/
structure Line where
  cy : Fq2
  cx : Fq2
  c : Fq2
deriving DecidableEq, Repr

/-- The digits of `6x + 2` in `{-1, 0, 1}`, highest first, without the leading one. -/
def loopDigits : List Int :=
  [1, 0, 1, 0, 0, -1, 0, 1, 1, 0, 0, 0, -1, 0, 0, 1, 1, 0, 0, -1, 0, 0, 0, 0, 0, 1, 0, 0, -1, 0,
   0, 1, 1, 1, 0, 0, 0, 0, -1, 0, 1, 0, 0, -1, 0, 1, 1, 0, 0, 1, 0, 0, -1, 1, 0, 0, -1, 0, 1, 0,
   1, 0, 0, 0]

def half : Fq := (Residue.ofNat fieldSize 2)⁻¹

def doubleStep (p : Homogeneous) : Homogeneous × Line :=
  let a := (p.x * p.y).scale half
  let b := p.y * p.y
  let c := p.z * p.z
  let e := twistB * (c + c + c)
  let f := e + e + e
  let g := (b + f).scale half
  let yz := p.y + p.z
  let h := yz * yz - (b + c)
  let i := e - b
  let j := p.x * p.x
  let ee := e * e
  (⟨a * (b - f), g * g - (ee + ee + ee), b * h⟩, ⟨-h, j + j + j, i⟩)

def addStep (p : Homogeneous) (x y : Fq2) : Homogeneous × Line :=
  let theta := p.y - y * p.z
  let lambda := p.x - x * p.z
  let c := theta * theta
  let d := lambda * lambda
  let e := lambda * d
  let f := p.z * c
  let g := p.x * d
  let h := e + f - (g + g)
  (⟨lambda * h, theta * (g - h) - e * p.y, p.z * e⟩,
   ⟨lambda, -theta, theta * x - lambda * y⟩)

def Line.eval (line : Line) (x y : Fq) (f : Fq12) : Fq12 :=
  f.mulSparse (line.cy.scale y) (line.cx.scale x) line.c

/-- The factors that the `q`-power map of the twist takes on abscissas and ordinates. -/
def twistX : Fq2 := Binary.power Fq2.xi ((fieldSize - 1) / 3)

def twistY : Fq2 := Binary.power Fq2.xi ((fieldSize - 1) / 2)

def loopStep (x y : Fq) (qx qy : Fq2) (state : Fq12 × Homogeneous) (digit : Int) :
    Fq12 × Homogeneous :=
  let (doubled, tangent) := doubleStep state.2
  let f := tangent.eval x y state.1.square
  if digit = 0 then (f, doubled)
  else
    let (sum, secant) := addStep doubled qx (if digit = 1 then qy else -qy)
    (secant.eval x y f, sum)

def millerLoop (x y : Fq) (qx qy : Fq2) : Fq12 :=
  let (f, p) := loopDigits.foldl (loopStep x y qx qy) (1, ⟨qx, qy, 1⟩)
  let q1x := qx.conjugate * twistX
  let q1y := qy.conjugate * twistY
  let q2x := q1x.conjugate * twistX
  let q2y := -(q1y.conjugate * twistY)
  let (p, first) := addStep p q1x q1y
  let (_, second) := addStep p q2x q2y
  second.eval x y (first.eval x y f)

/-- The power `(q⁴ - q² + 1) / r` of an element whose inverse is its conjugate.  With the curve
parameter `x`, this exponent is
`-(2 + 18x + 30x² + 36x³) + (1 - 12x - 18x² - 36x³) q + (1 + 6x²) q² + q³`. -/
def hardPower (g : Fq12) : Fq12 :=
  let gx := g.power parameter
  let gxx := gx.power parameter
  let gxxx := gxx.power parameter
  let a := gx.power 6
  let b := gxx.power 6
  let c := gxxx.power 6
  let ab := a * b
  let common := ab * ab * b * c.power 6
  let low := (g * g * (common * ab * b)).conjugate
  let linear := g * common.conjugate
  let quadratic := g * b
  low * (linear * (quadratic * g.frobenius).frobenius).frobenius

/-- The power `(q¹² - 1) / r`, in the factors `q⁶ - 1`, `q² + 1` and `(q⁴ - q² + 1) / r`. -/
def finalPower (f : Fq12) : Fq12 :=
  let unitary := f.conjugate * f⁻¹
  hardPower (unitary.frobenius.frobenius * unitary)

def pairing : Point Fq → Point Fq2 → Fq12
  | .affine x y, .affine qx qy => finalPower (millerLoop x y qx qy)
  | _, _ => 1

def samePairing (a : Point Fq) (p : Point Fq2) (c : Point Fq) (q : Point Fq2) : Bool :=
  pairing a p = pairing c q

end ThresholdBls.Bn254
