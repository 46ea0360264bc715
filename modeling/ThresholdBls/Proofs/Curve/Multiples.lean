import ThresholdBls.Curve.Jacobian
import ThresholdBls.Proofs.Arithmetic.Power
import ThresholdBls.Proofs.Curve.Group

/-!
# Multiples of points

Doubling and adding in Jacobian coordinates stand for the same operations on
affine points, on any points whatsoever.  Along the digits of a number they
reach its multiple of a point of the curve.
-/

namespace ThresholdBls

variable {F : Type} [Field F] [DecidableEq F]

namespace Jacobian

theorem toPoint_of_z_eq_zero {p : Jacobian F} (hz : p.z = 0) : p.toPoint = .infinity :=
  if_pos hz

theorem toPoint_of_z_ne_zero {p : Jacobian F} (hz : p.z ≠ 0) :
    p.toPoint = .affine (p.x / p.z ^ 2) (p.y / p.z ^ 3) := by
  rw [toPoint, if_neg hz, Point.affine.injEq]
  constructor
  · field_simp
  · field_simp

@[simp] theorem toPoint_infinity : (infinity : Jacobian F).toPoint = .infinity :=
  if_pos rfl

@[simp] theorem toPoint_one (x y : F) : (⟨x, y, 1⟩ : Jacobian F).toPoint = .affine x y := by
  rw [toPoint_of_z_ne_zero one_ne_zero]
  simp

omit [DecidableEq F] in
theorem double_z (p : Jacobian F) : p.double.z = 2 * p.y * p.z := by
  simp only [double]
  ring

theorem toPoint_double (htwo : (2 : F) ≠ 0) (p : Jacobian F) :
    p.double.toPoint = p.toPoint.double := by
  by_cases hz : p.z = 0
  · rw [toPoint_of_z_eq_zero hz, toPoint_of_z_eq_zero (by rw [double_z, hz, mul_zero])]
    rfl
  by_cases hy : p.y = 0
  · rw [toPoint_of_z_eq_zero (p := p.double) (by rw [double_z, hy, mul_zero, zero_mul]),
      toPoint_of_z_ne_zero hz, hy, zero_div, Point.double, if_pos rfl]
  · have hdouble : p.double.z ≠ 0 := by
      rw [double_z]
      exact mul_ne_zero (mul_ne_zero htwo hy) hz
    have hy' : p.y / p.z ^ 3 ≠ 0 := div_ne_zero hy (pow_ne_zero 3 hz)
    rw [toPoint_of_z_ne_zero hdouble, toPoint_of_z_ne_zero hz, Point.double, if_neg hy',
      double_z, ← two_mul]
    -- Clearing denominators has to treat `2 y` as a unit, and not two alone.
    have hunit : 2 * p.y ≠ 0 := mul_ne_zero htwo hy
    have hordinate : 2 * (p.y / p.z ^ 3) = 2 * p.y / p.z ^ 3 := (mul_div_assoc _ _ _).symm
    rw [hordinate]
    simp only [double, Point.chord, Point.affine.injEq]
    generalize hw : 2 * p.y = w at hunit ⊢
    constructor
    · field_simp
      rw [← hw]
      ring
    · field_simp
      rw [← hw]
      ring

theorem toPoint_addAffine (htwo : (2 : F) ≠ 0) (p : Jacobian F) (x y : F) :
    (p.addAffine x y).toPoint = p.toPoint.add (.affine x y) := by
  by_cases hz : p.z = 0
  · rw [toPoint_of_z_eq_zero hz, addAffine, if_pos hz, toPoint_one, Point.add]
  have habscissa : x * (p.z * p.z) = p.x ↔ p.x / p.z ^ 2 = x := by
    rw [div_eq_iff (pow_ne_zero 2 hz), pow_two, eq_comm]
  have hordinate : y * (p.z * (p.z * p.z)) = p.y ↔ p.y / p.z ^ 3 = y := by
    rw [div_eq_iff (pow_ne_zero 3 hz), pow_succ', pow_two, eq_comm]
  rw [toPoint_of_z_ne_zero hz, addAffine, if_neg hz, Point.add]
  by_cases hx : x * (p.z * p.z) = p.x
  · rw [if_pos (habscissa.mp hx)]
    simp only [if_pos hx]
    by_cases hy : y * (p.z * (p.z * p.z)) = p.y
    · rw [if_pos hy, if_pos (hordinate.mp hy), toPoint_double htwo, toPoint_of_z_ne_zero hz]
    · rw [if_neg hy, if_neg (mt hordinate.mpr hy), toPoint_infinity]
  · have hdifference : x * (p.z * p.z) - p.x ≠ 0 := sub_ne_zero.mpr hx
    have hslope : x - p.x / p.z ^ 2 ≠ 0 := sub_ne_zero.mpr (Ne.symm (mt habscissa.mpr hx))
    rw [if_neg (mt habscissa.mpr hx)]
    simp only [if_neg hx]
    rw [toPoint_of_z_ne_zero (mul_ne_zero hz hdifference)]
    simp only [Point.chord, Point.affine.injEq]
    have hslope' : p.z ^ 2 * x - p.x ≠ 0 := by
      rw [pow_two, mul_comm]
      exact hdifference
    constructor
    · field_simp
      ring
    · field_simp
      ring

end Jacobian

namespace Point

open WeierstrassCurve

variable {b : F}

theorem mul_ofCurve (hΔ : (curve b).Δ ≠ 0) (P : (curve b).Point) (n : Nat) :
    mul (ofCurve P) n = ofCurve (n • P) := by
  have htwo := two_ne_zero_of_discriminant hΔ
  cases P with
  | zero =>
      rw [← Affine.Point.zero_def, nsmul_zero]
      rfl
  | some x y h =>
      let P : (curve b).Point := .some x y h
      refine Binary.walk_induction
        (fun k (p : Jacobian F) => p.toPoint = ofCurve (k • P)) ?_ ?_ ?_ n
      · rw [zero_nsmul]
        exact Jacobian.toPoint_infinity
      · intro k p hp
        rw [Jacobian.toPoint_double htwo, hp, double_ofCurve hΔ, two_mul, add_nsmul]
      · intro k p hp
        rw [Jacobian.toPoint_addAffine htwo, hp, succ_nsmul]
        exact add_ofCurve hΔ (k • P) P

end Point

end ThresholdBls
