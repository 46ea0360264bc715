import ThresholdBls.Bn254.Suite
import ThresholdBls.Proofs.Bn254.Extension
import ThresholdBls.Proofs.Curve.Multiples
import ThresholdBls.Proofs.Curve.Torsion
import ThresholdBls.Proofs.Suite.Lawful

/-!
# The groups are cyclic

Both groups of BN254 consist of the multiples of their generators.  The first
curve has too few points, and none of order two, to have any outside the
group.  On the twist a single point shows that the points annihilated by the
order are not all there is.
-/

namespace ThresholdBls.Bn254

open WeierstrassCurve Point

section CurveGroup

variable {F : Type} [Field F] [DecidableEq F]

def curveGroup (b : F) (generator : Point F) (width : Nat)
    (toCoordinates : Point F → Except GroupError (List String))
    (ofCoordinates : List String → Except GroupError (Point F)) : PairingGroup order where
  Element := Point F
  decEq := inferInstance
  identity := .infinity
  generator := generator
  add := Point.add
  sub := Point.sub
  mul p k := p.mul k.val
  contains p := p.isOnCurve b && hasOrder p
  width := width
  toCoordinates := toCoordinates
  ofCoordinates := ofCoordinates

variable {b : F}

theorem hasOrder_ofCurve (hΔ : (curve b).Δ ≠ 0) (P : (curve b).Point) :
    hasOrder (ofCurve P) = true ↔ order • P = 0 := by
  rw [hasOrder, decide_eq_true_iff, mul_ofCurve hΔ, ofCurve_eq_infinity_iff]

theorem contains_iff_exists_mul (hΔ : (curve b).Δ ≠ 0) {g : (curve b).Point}
    (hrg : order • g = 0)
    (hspan : ∀ P : (curve b).Point, order • P = 0 → ∃ k < order, k • g = P) (a : Point F) :
    (a.isOnCurve b && hasOrder a) = true ↔ ∃ k : Fr, (ofCurve g).mul k.val = a := by
  rw [Bool.and_eq_true]
  constructor
  · rintro ⟨hcurve, horder⟩
    obtain ⟨P, rfl⟩ := exists_ofCurve hΔ hcurve
    obtain ⟨k, hk, rfl⟩ := hspan P ((hasOrder_ofCurve hΔ P).mp horder)
    exact ⟨⟨k, hk⟩, mul_ofCurve hΔ g k⟩
  · rintro ⟨k, rfl⟩
    rw [mul_ofCurve hΔ]
    refine ⟨isOnCurve_ofCurve _, (hasOrder_ofCurve hΔ _).mpr ?_⟩
    rw [smul_comm, hrg, nsmul_zero]

theorem mul_val_injective (hΔ : (curve b).Δ ≠ 0) {g : (curve b).Point} (hg : g ≠ 0)
    (hrg : order • g = 0) : Function.Injective fun k : Fr => (ofCurve g).mul k.val := by
  intro j k h
  have : Fact order.Prime := ⟨order_prime⟩
  have hpoints : j.val • g = k.val • g := by
    apply ofCurve_injective
    rw [← mul_ofCurve hΔ, ← mul_ofCurve hΔ]
    exact h
  have haddOrder := addOrderOf_eq_prime hrg hg
  apply Residue.ext
  refine nsmul_injOn_Iio_addOrderOf (x := g) ?_ ?_ hpoints
  · rw [haddOrder]
    exact j.val_lt
  · rw [haddOrder]
    exact k.val_lt

theorem isCyclic_curveGroup (hΔ : (curve b).Δ ≠ 0) {g : (curve b).Point} (hg : g ≠ 0)
    (hrg : order • g = 0)
    (hspan : ∀ P : (curve b).Point, order • P = 0 → ∃ k < order, k • g = P)
    (width : Nat) (toCoordinates : Point F → Except GroupError (List String))
    (ofCoordinates : List String → Except GroupError (Point F)) :
    (curveGroup b (ofCurve g) width toCoordinates ofCoordinates).IsCyclic where
  contains_iff := contains_iff_exists_mul hΔ hrg hspan
  multiple_injective := mul_val_injective hΔ hg hrg
  multiple_zero := by
    change (ofCurve g).mul (0 : Fr).val = .infinity
    rw [Residue.val_zero, mul_ofCurve hΔ, zero_nsmul, ofCurve_zero]
  multiple_one := by
    change (ofCurve g).mul (1 : Fr).val = ofCurve g
    rw [mul_ofCurve hΔ]
    exact congrArg ofCurve ((nsmul_eq_mod_nsmul 1 hrg).symm.trans (one_nsmul g))
  multiple_add j k := by
    change ((ofCurve g).mul j.val).add ((ofCurve g).mul k.val) = (ofCurve g).mul (j + k).val
    rw [mul_ofCurve hΔ, mul_ofCurve hΔ, mul_ofCurve hΔ, add_ofCurve hΔ, ← add_nsmul]
    exact congrArg ofCurve (nsmul_eq_mod_nsmul (j.val + k.val) hrg)
  multiple_mul j k := by
    change ((ofCurve g).mul j.val).mul k.val = (ofCurve g).mul (j * k).val
    rw [mul_ofCurve hΔ, mul_ofCurve hΔ, mul_ofCurve hΔ, ← mul_nsmul]
    exact congrArg ofCurve (nsmul_eq_mod_nsmul (j.val * k.val) hrg)

end CurveGroup

/-! ## The first group -/

theorem b_discriminant_ne_zero : (curve b).Δ ≠ 0 := by
  rw [discriminant_curve]
  decide +kernel

theorem rightSide_ne_zero (x : Fq) : rightSide x ≠ 0 := by
  intro h
  have hcube : x ^ 3 = -b := by
    rw [eq_neg_iff_add_eq_zero, ← h, rightSide]
    ring
  have hb : b ≠ 0 := by decide +kernel
  have hx : x ≠ 0 := by
    rintro rfl
    rw [zero_pow (by decide), eq_comm, neg_eq_zero] at hcube
    exact hb hcube
  have hexponent : 3 * ((fieldSize - 1) / 3) = fieldSize - 1 := by decide +kernel
  have hpower : Binary.power (-b) ((fieldSize - 1) / 3) = 1 := by
    rw [Binary.power_eq_pow, ← hcube, ← pow_mul, hexponent]
    have hfermat := FiniteField.pow_card_sub_one_eq_one x hx
    rwa [Residue.card_eq] at hfermat
  revert hpower
  decide +kernel

theorem eq_zero_of_two_nsmul_eq_zero {P : (curve b).Point} (h : 2 • P = 0) : P = 0 := by
  rw [two_nsmul] at h
  have hdouble := double_ofCurve b_discriminant_ne_zero P
  rw [h] at hdouble
  cases P with
  | zero => rfl
  | some x y hP =>
      exfalso
      have hy : y = 0 := by
        by_contra hy
        simp [double, hy, chord] at hdouble
      have hequation := (equation_curve b x y).mp hP.1
      rw [hy, mul_zero] at hequation
      exact rightSide_ne_zero x hequation.symm

theorem card_b_lt : Nat.card (curve b).Point < 3 * order := by
  calc Nat.card (curve b).Point ≤ 2 * (fieldSize + 1) := by
        have hle := card_curve_le b
        rwa [Residue.card_eq] at hle
    _ < 3 * order := by decide +kernel

theorem exists_g1Generator :
    ∃ g : (curve b).Point, ofCurve g = g1Generator ∧ g ≠ 0 ∧ order • g = 0 := by
  obtain ⟨g, hg⟩ := exists_ofCurve b_discriminant_ne_zero (p := g1Generator) (by decide +kernel)
  refine ⟨g, hg, ?_, ?_⟩
  · intro hzero
    rw [← ofCurve_eq_infinity_iff, hg] at hzero
    cases hzero
  · rw [← hasOrder_ofCurve b_discriminant_ne_zero, hg]
    decide +kernel

theorem order_nsmul_eq_zero (P : (curve b).Point) : order • P = 0 := by
  have : Finite (curve b).Point := finite_curve b
  obtain ⟨g, -, hg, hrg⟩ := exists_g1Generator
  exact Torsion.nsmul_eq_zero_of_card_lt order_prime hg hrg card_b_lt
    (fun _ => eq_zero_of_two_nsmul_eq_zero) P

theorem g1_isCyclic : g1.IsCyclic := by
  have : Finite (curve b).Point := finite_curve b
  obtain ⟨g, hgenerator, hg, hrg⟩ := exists_g1Generator
  have hcard : Nat.card (Torsion.annihilated (curve b).Point order) < order ^ 2 := by
    calc Nat.card (Torsion.annihilated (curve b).Point order)
        ≤ Nat.card (curve b).Point := AddSubgroup.card_le_card_addGroup _
      _ < 3 * order := card_b_lt
      _ ≤ order ^ 2 := by decide +kernel
  have hcyclic := isCyclic_curveGroup b_discriminant_ne_zero hg hrg
    (fun P => Torsion.exists_nsmul_eq order_prime hg hrg hcard) 2 g1Coordinates g1OfCoordinates
  rw [hgenerator] at hcyclic
  exact hcyclic

theorem g1_contains_of_isOnCurve {p : Point Fq} (h : p.isOnCurve b = true) :
    g1.contains p = true := by
  obtain ⟨P, rfl⟩ := exists_ofCurve b_discriminant_ne_zero h
  have horder := (hasOrder_ofCurve b_discriminant_ne_zero P).mpr (order_nsmul_eq_zero P)
  exact Bool.and_eq_true_iff.mpr ⟨h, horder⟩

/-! ## The second group -/

def strayPoint : Point Fq2 :=
  .affine ⟨1, 0⟩
    ⟨.ofNat fieldSize
        18278151005453108793778860132295291098363647455926340152056652516292830556603,
      .ofNat fieldSize
        5912654199736721486680175016176231956195085055698687135131307249486702594212⟩

theorem twistB_discriminant_ne_zero : (curve twistB).Δ ≠ 0 := by
  rw [discriminant_curve]
  decide +kernel

theorem exists_g2Generator :
    ∃ g : (curve twistB).Point, ofCurve g = g2Generator ∧ g ≠ 0 ∧ order • g = 0 := by
  obtain ⟨g, hg⟩ := exists_ofCurve twistB_discriminant_ne_zero (p := g2Generator)
    (by decide +kernel)
  refine ⟨g, hg, ?_, ?_⟩
  · intro hzero
    rw [← ofCurve_eq_infinity_iff, hg] at hzero
    cases hzero
  · rw [← hasOrder_ofCurve twistB_discriminant_ne_zero, hg]
    decide +kernel

theorem exists_stray : ∃ P : (curve twistB).Point, 2 • order • P ≠ 0 := by
  obtain ⟨P, hP⟩ := exists_ofCurve twistB_discriminant_ne_zero (p := strayPoint)
    (by decide +kernel)
  refine ⟨P, fun hzero => ?_⟩
  rw [two_nsmul, ← ofCurve_eq_infinity_iff, ← double_ofCurve twistB_discriminant_ne_zero,
    ← mul_ofCurve twistB_discriminant_ne_zero, hP] at hzero
  revert hzero
  decide +kernel

theorem card_twistB_lt : Nat.card (curve twistB).Point < 3 * order ^ 2 := by
  calc Nat.card (curve twistB).Point ≤ 2 * (fieldSize * fieldSize + 1) := by
        have hle := card_curve_le twistB
        rwa [Fq2.card_eq] at hle
    _ < 3 * order ^ 2 := by decide +kernel

theorem g2_isCyclic : g2.IsCyclic := by
  have : Finite (curve twistB).Point := finite_curve twistB
  obtain ⟨g, hgenerator, hg, hrg⟩ := exists_g2Generator
  obtain ⟨P, hP⟩ := exists_stray
  have hcard := Torsion.card_annihilated_lt order_prime PrimeModulus.two_lt card_twistB_lt hP
  have hcyclic := isCyclic_curveGroup twistB_discriminant_ne_zero hg hrg
    (fun P => Torsion.exists_nsmul_eq order_prime hg hrg hcard) 4 g2Coordinates g2OfCoordinates
  rw [hgenerator] at hcyclic
  exact hcyclic

instance : Suite.Lawful suite where
  prime := order_prime
  index_lt := by decide +kernel
  g1_cyclic := g1_isCyclic
  g2_cyclic := g2_isCyclic

end ThresholdBls.Bn254
