import ThresholdBls.Bn254.Tower
import ThresholdBls.Proofs.Bn254.Primes

/-!
# The quadratic extension

`Fq2` is a field of `q²` elements.  Its norm `c0² + c1²` vanishes at zero only,
since minus one is no square in a field whose size is three modulo four.
-/

namespace ThresholdBls.Bn254

namespace Fq2

@[ext] theorem ext {a b : Fq2} (h0 : a.c0 = b.c0) (h1 : a.c1 = b.c1) : a = b := by
  cases a
  cases b
  simp_all

@[simp] theorem zero_c0 : (0 : Fq2).c0 = 0 := rfl

@[simp] theorem zero_c1 : (0 : Fq2).c1 = 0 := rfl

@[simp] theorem one_c0 : (1 : Fq2).c0 = 1 := rfl

@[simp] theorem one_c1 : (1 : Fq2).c1 = 0 := rfl

@[simp] theorem add_c0 (a b : Fq2) : (a + b).c0 = a.c0 + b.c0 := rfl

@[simp] theorem add_c1 (a b : Fq2) : (a + b).c1 = a.c1 + b.c1 := rfl

@[simp] theorem sub_c0 (a b : Fq2) : (a - b).c0 = a.c0 - b.c0 := rfl

@[simp] theorem sub_c1 (a b : Fq2) : (a - b).c1 = a.c1 - b.c1 := rfl

@[simp] theorem neg_c0 (a : Fq2) : (-a).c0 = -a.c0 := rfl

@[simp] theorem neg_c1 (a : Fq2) : (-a).c1 = -a.c1 := rfl

@[simp] theorem mul_c0 (a b : Fq2) : (a * b).c0 = a.c0 * b.c0 - a.c1 * b.c1 := rfl

@[simp] theorem mul_c1 (a b : Fq2) : (a * b).c1 = a.c0 * b.c1 + a.c1 * b.c0 := rfl

instance : CommRing Fq2 where
  add_assoc a b c := by ext <;> simp [add_assoc]
  zero_add a := by ext <;> simp
  add_zero a := by ext <;> simp
  add_comm a b := by ext <;> simp [add_comm]
  mul_assoc a b c := by ext <;> simp <;> ring
  one_mul a := by ext <;> simp
  mul_one a := by ext <;> simp
  mul_comm a b := by ext <;> simp <;> ring
  zero_mul a := by ext <;> simp
  mul_zero a := by ext <;> simp
  left_distrib a b c := by ext <;> simp <;> ring
  right_distrib a b c := by ext <;> simp <;> ring
  neg_add_cancel a := by ext <;> simp
  sub_eq_add_neg a b := by ext <;> simp [sub_eq_add_neg]
  nsmul := nsmulRec
  zsmul := zsmulRec

def norm (a : Fq2) : Fq := a.c0 * a.c0 + a.c1 * a.c1

theorem not_isSquare_neg_one : ¬ IsSquare (-1 : Fq) := by
  have hmod : Fintype.card Fq % 4 = 3 := by
    rw [Residue.card_eq]
    decide +kernel
  intro hsquare
  exact (FiniteField.isSquare_neg_one_iff (F := Fq)).mp hsquare hmod

theorem norm_ne_zero {a : Fq2} (ha : a ≠ 0) : a.norm ≠ 0 := by
  intro hnorm
  have hsum : a.c0 * a.c0 + a.c1 * a.c1 = 0 := hnorm
  by_cases h1 : a.c1 = 0
  · have h0 : a.c0 = 0 := by
      rw [h1, mul_zero, add_zero] at hsum
      exact mul_self_eq_zero.mp hsum
    exact ha (Fq2.ext h0 h1)
  · apply not_isSquare_neg_one
    refine ⟨a.c0 / a.c1, ?_⟩
    field_simp
    linear_combination -hsum

theorem inv_c0 (a : Fq2) : a⁻¹.c0 = a.c0 * a.norm⁻¹ := rfl

theorem inv_c1 (a : Fq2) : a⁻¹.c1 = -a.c1 * a.norm⁻¹ := rfl

theorem mul_inv_of_ne_zero {a : Fq2} (ha : a ≠ 0) : a * a⁻¹ = 1 := by
  have hnorm : a.norm * a.norm⁻¹ = 1 := mul_inv_cancel₀ (norm_ne_zero ha)
  unfold norm at hnorm
  ext
  · rw [mul_c0, inv_c0, inv_c1, one_c0, norm]
    linear_combination hnorm
  · rw [mul_c1, inv_c0, inv_c1, one_c1]
    ring

instance : Field Fq2 where
  exists_pair_ne := ⟨0, 1, fun h => zero_ne_one (congrArg c0 h)⟩
  mul_inv_cancel _ := mul_inv_of_ne_zero
  inv_zero := by
    ext
    · rw [inv_c0, zero_c0, zero_mul]
    · rw [inv_c1, zero_c1, neg_zero, zero_mul]
  nnqsmul := _
  qsmul := _

def equivProd : Fq2 ≃ Fq × Fq where
  toFun a := (a.c0, a.c1)
  invFun p := ⟨p.1, p.2⟩
  left_inv _ := rfl
  right_inv _ := rfl

instance : Fintype Fq2 := Fintype.ofEquiv (Fq × Fq) equivProd.symm

theorem card_eq : Fintype.card Fq2 = fieldSize * fieldSize := by
  rw [Fintype.card_congr equivProd, Fintype.card_prod, Residue.card_eq]

end Fq2

end ThresholdBls.Bn254
