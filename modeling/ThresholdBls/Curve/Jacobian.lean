import ThresholdBls.Curve.Point

/-!
# Jacobian coordinates

A triple `(x, y, z)` with `z ≠ 0` stands for the point `(x / z², y / z³)`, one with `z = 0` for
infinity.  Doubling and adding need no inversion, so a multiple of a point costs a single one.
-/

namespace ThresholdBls

structure Jacobian (F : Type) where
  x : F
  y : F
  z : F
deriving DecidableEq, Repr

namespace Jacobian

variable {F : Type} [DecidableEq F] [Zero F] [One F] [Add F] [Sub F] [Neg F] [Mul F] [Inv F]

@[specialize] def infinity : Jacobian F := ⟨1, 1, 0⟩

@[specialize] def ofPoint : Point F → Jacobian F
  | .infinity => infinity
  | .affine x y => ⟨x, y, 1⟩

@[specialize] def toPoint (p : Jacobian F) : Point F :=
  if p.z = 0 then .infinity
  else
    let inverse := p.z⁻¹
    let square := inverse * inverse
    .affine (p.x * square) (p.y * (square * inverse))

@[specialize] def double (p : Jacobian F) : Jacobian F :=
  let xx := p.x * p.x
  let yy := p.y * p.y
  let yyyy := yy * yy
  let xyy := p.x * yy
  let twice := xyy + xyy
  let four := twice + twice
  let slope := xx + xx + xx
  let x := slope * slope - (four + four)
  let eight := yyyy + yyyy + (yyyy + yyyy)
  let yz := p.y * p.z
  ⟨x, slope * (four - x) - (eight + eight), yz + yz⟩

@[specialize] def addAffine (p : Jacobian F) (x y : F) : Jacobian F :=
  if p.z = 0 then ⟨x, y, 1⟩
  else
    let zz := p.z * p.z
    let u := x * zz
    let s := y * (p.z * zz)
    if u = p.x then
      if s = p.y then double p else infinity
    else
      let h := u - p.x
      let r := s - p.y
      let hh := h * h
      let hhh := h * hh
      let v := p.x * hh
      let sum := r * r - hhh - (v + v)
      ⟨sum, r * (v - sum) - p.y * hhh, p.z * h⟩

end Jacobian

@[specialize] def Point.mul {F : Type} [DecidableEq F] [Zero F] [One F] [Add F] [Sub F] [Neg F]
    [Mul F] [Inv F] (p : Point F) (n : Nat) : Point F :=
  match p with
  | .infinity => .infinity
  | .affine x y =>
      (Binary.walk Jacobian.double (fun acc => acc.addAffine x y) Jacobian.infinity n).toPoint

end ThresholdBls
