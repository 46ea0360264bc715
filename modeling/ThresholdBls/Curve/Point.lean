import ThresholdBls.Binary

/-!
# Points of curves `y² = x³ + b`

Points are given by affine coordinates, and addition is by chords and tangents.  The rules do not
look at `b`, so that they also act on points off the curve: two points with one abscissa and
different ordinates sum to infinity, as does a point of ordinate zero with itself.
-/

namespace ThresholdBls

inductive Point (F : Type)
  | infinity
  | affine (x y : F)
deriving DecidableEq, Repr

namespace Point

variable {F : Type} [DecidableEq F] [Zero F] [One F] [Add F] [Sub F] [Neg F] [Mul F] [Inv F]

def neg : Point F → Point F
  | infinity => infinity
  | affine x y => affine x (-y)

/-- The third point on the line of a slope through two points, with its ordinate negated. -/
@[specialize] def chord (slope x₁ y₁ x₂ : F) : Point F :=
  let x := slope * slope - x₁ - x₂
  affine x (slope * (x₁ - x) - y₁)

@[specialize] def double : Point F → Point F
  | infinity => infinity
  | affine x y =>
      if y = 0 then infinity
      else
        let square := x * x
        chord ((square + square + square) * (y + y)⁻¹) x y x

@[specialize] def add : Point F → Point F → Point F
  | infinity, q => q
  | p, infinity => p
  | affine x₁ y₁, affine x₂ y₂ =>
      if x₁ = x₂ then
        if y₁ = y₂ then double (affine x₁ y₁) else infinity
      else chord ((y₂ - y₁) * (x₂ - x₁)⁻¹) x₁ y₁ x₂

@[specialize] def sub (p q : Point F) : Point F :=
  add p (neg q)

@[specialize] def isOnCurve (b : F) : Point F → Bool
  | infinity => true
  | affine x y => y * y = x * x * x + b

end Point

end ThresholdBls
