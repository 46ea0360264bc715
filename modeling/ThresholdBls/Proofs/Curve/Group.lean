import Mathlib
import ThresholdBls.Curve.Point

/-!
# The group of a curve

Chords and tangents add the points of a curve `y² = x³ + b` of nonzero
discriminant as the group of its nonsingular points does.  The group has at
most two points of each abscissa.
-/

namespace ThresholdBls.Point

open WeierstrassCurve

variable {F : Type} [Field F]

def curve (b : F) : Affine F := ⟨0, 0, 0, 0, b⟩

theorem discriminant_curve (b : F) : (curve b).Δ = -432 * b ^ 2 := by
  simp only [curve, WeierstrassCurve.Δ, b₂, b₄, b₆, b₈]
  ring

theorem two_ne_zero_of_discriminant {b : F} (hΔ : (curve b).Δ ≠ 0) : (2 : F) ≠ 0 := by
  intro h
  apply hΔ
  rw [discriminant_curve]
  linear_combination -216 * b ^ 2 * h

theorem negY_curve (b x y : F) : (curve b).negY x y = -y := by
  simp [Affine.negY, curve]

theorem equation_curve (b x y : F) :
    (curve b).Equation x y ↔ y * y = x * x * x + b := by
  rw [Affine.equation_iff]
  simp only [curve]
  constructor
  · intro h
    linear_combination h
  · intro h
    linear_combination h

def ofCurve {b : F} : (curve b).Point → Point F
  | .zero => .infinity
  | .some x y _ => .affine x y

@[simp] theorem ofCurve_zero {b : F} :
    ofCurve (0 : (curve b).Point) = .infinity := rfl

@[simp] theorem ofCurve_some {b x y : F} (h : (curve b).Nonsingular x y) :
    ofCurve (.some x y h) = .affine x y := rfl

theorem ofCurve_injective {b : F} :
    Function.Injective (ofCurve : (curve b).Point → Point F) := by
  intro P Q h
  cases P with
  | zero =>
      cases Q with
      | zero => rfl
      | some x y hQ => simp [ofCurve] at h
  | some x y hP =>
      cases Q with
      | zero => simp [ofCurve] at h
      | some x' y' hQ =>
          simp only [ofCurve, affine.injEq] at h
          obtain ⟨rfl, rfl⟩ := h
          rfl

theorem ofCurve_eq_infinity_iff {b : F} (P : (curve b).Point) :
    ofCurve P = .infinity ↔ P = 0 := by
  rw [← ofCurve_zero (b := b), ofCurve_injective.eq_iff]

section Addition

variable [DecidableEq F] {b : F}

theorem isOnCurve_ofCurve (P : (curve b).Point) : (ofCurve P).isOnCurve b = true := by
  cases P with
  | zero => rfl
  | some x y h => simpa [ofCurve, isOnCurve] using (equation_curve b x y).mp h.1

theorem exists_ofCurve (hΔ : (curve b).Δ ≠ 0) {p : Point F} (h : p.isOnCurve b = true) :
    ∃ P : (curve b).Point, ofCurve P = p := by
  cases p with
  | infinity => exact ⟨0, rfl⟩
  | affine x y =>
      have hequation : (curve b).Equation x y := by
        rw [equation_curve]
        simpa [isOnCurve] using h
      exact ⟨.some x y ((Affine.equation_iff_nonsingular_of_Δ_ne_zero hΔ).mp hequation), rfl⟩

omit [DecidableEq F] in
theorem chord_eq (b slope x₁ y₁ x₂ : F) :
    chord slope x₁ y₁ x₂ =
      .affine ((curve b).addX x₁ x₂ slope) ((curve b).addY x₁ x₂ y₁ slope) := by
  simp only [chord, Affine.addY, Affine.negAddY, Affine.addX, Affine.negY, curve,
    affine.injEq]
  constructor
  · ring
  · ring

theorem slope_tangent {x y : F} (hy : y ≠ (curve b).negY x y) :
    (curve b).slope x x y y = (x * x + x * x + x * x) * (y + y)⁻¹ := by
  rw [Affine.slope_of_Y_ne rfl hy, negY_curve, sub_neg_eq_add, div_eq_mul_inv]
  simp only [curve]
  ring

theorem slope_chord {x₁ x₂ : F} (y₁ y₂ : F) (hx : x₁ ≠ x₂) :
    (curve b).slope x₁ x₂ y₁ y₂ = (y₂ - y₁) * (x₂ - x₁)⁻¹ := by
  rw [Affine.slope_of_X_ne hx, ← neg_sub y₂, ← neg_sub x₂, neg_div_neg_eq, div_eq_mul_inv]

theorem double_ofCurve (hΔ : (curve b).Δ ≠ 0) (P : (curve b).Point) :
    double (ofCurve P) = ofCurve (P + P) := by
  cases P with
  | zero => rfl
  | some x y h =>
      have hneg : y = (curve b).negY x y ↔ y = 0 := by
        rw [negY_curve, eq_neg_iff_add_eq_zero, ← two_mul, mul_eq_zero]
        simp [two_ne_zero_of_discriminant hΔ]
      by_cases hy : y = 0
      · rw [Affine.Point.add_self_of_Y_eq (hneg.mpr hy)]
        simp [double, hy]
      · have hne : y ≠ (curve b).negY x y := mt hneg.mp hy
        rw [Affine.Point.add_self_of_Y_ne hne, ofCurve_some, ofCurve_some, double,
          if_neg hy, slope_tangent hne]
        exact chord_eq b _ x y x

theorem add_ofCurve (hΔ : (curve b).Δ ≠ 0) (P Q : (curve b).Point) :
    add (ofCurve P) (ofCurve Q) = ofCurve (P + Q) := by
  cases P with
  | zero => exact congrArg ofCurve (zero_add Q).symm
  | some x₁ y₁ h₁ =>
      cases Q with
      | zero => rfl
      | some x₂ y₂ h₂ =>
          rw [ofCurve_some, ofCurve_some, add]
          by_cases hx : x₁ = x₂
          · subst hx
            rw [if_pos rfl]
            by_cases hy : y₁ = y₂
            · subst hy
              rw [if_pos rfl, ← ofCurve_some h₁]
              exact double_ofCurve hΔ _
            · -- Points of one abscissa that differ are each other's negatives.
              have hneg := (Affine.Y_eq_of_X_eq h₁.1 h₂.1 rfl).resolve_left hy
              rw [if_neg hy, Affine.Point.add_of_Y_eq rfl hneg]
              rfl
          · rw [if_neg hx, Affine.Point.add_of_X_ne hx, ofCurve_some, slope_chord y₁ y₂ hx]
            exact chord_eq b _ x₁ y₁ x₂

end Addition

/-! ## Counting points -/

theorem finite_curve [Finite F] (b : F) : Finite (curve b).Point := by
  have : Finite (WithZero {xy : F × F // (curve b).Nonsingular xy.fst xy.snd}) :=
    inferInstanceAs (Finite (Option _))
  exact Finite.of_equiv _ (Affine.nonsingularPointEquiv (curve b)).symm

def abscissa {b : F} : (curve b).Point → Option F
  | .zero => none
  | .some x _ _ => some x

theorem eq_or_eq_neg_of_abscissa_eq [DecidableEq F] {b : F} {P Q : (curve b).Point}
    (h : abscissa P = abscissa Q) : Q = P ∨ Q = -P := by
  cases P with
  | zero =>
      cases Q with
      | zero => exact .inl rfl
      | some x y hQ => simp [abscissa] at h
  | some x y hP =>
      cases Q with
      | zero => simp [abscissa] at h
      | some x' y' hQ =>
          simp only [abscissa, Option.some.injEq] at h
          exact Affine.Point.X_eq_iff.mp h.symm

/-- A curve has at most two points of each abscissa and two at infinity. -/
theorem card_curve_le [Fintype F] [DecidableEq F] (b : F) :
    Nat.card (curve b).Point ≤ 2 * (Fintype.card F + 1) := by
  classical
  have : Finite (curve b).Point := finite_curve b
  have : Fintype (curve b).Point := Fintype.ofFinite _
  have hfiber : ∀ a ∈ Finset.univ.image (abscissa (b := b)),
      (Finset.univ.filter fun P => abscissa (b := b) P = a).card ≤ 2 := by
    intro a ha
    obtain ⟨P, -, rfl⟩ := Finset.mem_image.mp ha
    have hsubset : (Finset.univ.filter fun Q => abscissa Q = abscissa P) ⊆ {P, -P} := by
      intro Q hQ
      rw [Finset.mem_filter] at hQ
      simpa using eq_or_eq_neg_of_abscissa_eq hQ.2.symm
    exact (Finset.card_le_card hsubset).trans Finset.card_le_two
  calc Nat.card (curve b).Point
      = (Finset.univ : Finset (curve b).Point).card := by
        rw [Nat.card_eq_fintype_card, Finset.card_univ]
    _ ≤ 2 * (Finset.univ.image (abscissa (b := b))).card :=
        Finset.card_le_mul_card_image _ 2 hfiber
    _ ≤ 2 * (Fintype.card F + 1) := by
        rw [← Fintype.card_option]
        exact Nat.mul_le_mul_left 2 (Finset.card_le_univ _)

end ThresholdBls.Point
