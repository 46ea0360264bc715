import ThresholdBls.Interpolation
import ThresholdBls.Proofs.Arithmetic.Field
import ThresholdBls.Proofs.Except

/-!
# Lagrange coefficients at zero

For distinct nonzero indices the coefficients exist, and combine the values of
any polynomial of small enough degree to its value at zero.
-/

open scoped Polynomial

namespace ThresholdBls.Interpolation

/-! ## Repeated indices -/

theorem firstRepeated_eq_none_iff {seen indices : List UInt16} :
    firstRepeated seen indices = none ↔ indices.Nodup ∧ ∀ i ∈ indices, i ∉ seen := by
  induction indices generalizing seen with
  | nil => simp [firstRepeated]
  | cons index rest ih =>
      unfold firstRepeated
      split
      · rename_i hseen
        simp [hseen]
      · rename_i hseen
        rw [ih, List.nodup_cons]
        constructor
        · rintro ⟨hnodup, hfresh⟩
          refine ⟨⟨fun hmem => hfresh index hmem List.mem_cons_self, hnodup⟩, ?_⟩
          intro i hi
          rcases List.mem_cons.mp hi with rfl | hi
          · exact hseen
          · exact fun hi' => hfresh i hi (List.mem_cons_of_mem _ hi')
        · rintro ⟨⟨hhead, hnodup⟩, hfresh⟩
          refine ⟨hnodup, fun i hi hi' => ?_⟩
          rcases List.mem_cons.mp hi' with rfl | hi'
          · exact hhead hi
          · exact hfresh i (List.mem_cons_of_mem _ hi) hi'

/-! ## Weights -/

section Weight

variable {p : Nat} [PrimeModulus p] {xs : List (Residue p)} {x : Residue p}

/-- The weight of the value at `x` in the value at zero of a polynomial through points of the
abscissas `xs`. -/
def weight (xs : List (Residue p)) (x : Residue p) : Residue p :=
  xs.prod * (x * ((xs.erase x).map (· - x)).prod)⁻¹

theorem foldl_denominator (others : List (Residue p)) (x start : Residue p) :
    others.foldl (fun acc other => acc * (other - x)) start =
      start * (others.map (· - x)).prod := by
  induction others generalizing start with
  | nil => simp
  | cons other rest ih => rw [List.foldl_cons, ih, List.map_cons, List.prod_cons, mul_assoc]

theorem denominator_ne_zero (hnodup : xs.Nodup) (hx : x ≠ 0) :
    x * ((xs.erase x).map (· - x)).prod ≠ 0 := by
  refine mul_ne_zero hx (List.prod_ne_zero ?_)
  rw [List.mem_map]
  rintro ⟨y, hy, hzero⟩
  exact (hnodup.mem_erase_iff.mp hy).1 (sub_eq_zero.mp hzero)

theorem coefficient_eq_ok (hnodup : xs.Nodup) (hx : x ≠ 0) :
    coefficient xs.prod x (xs.erase x) = .ok (weight xs x) := by
  have hinverse := Residue.inverse_of_ne_zero (denominator_ne_zero hnodup hx)
  simp only [coefficient, foldl_denominator, hinverse]
  rfl

theorem mapM_coefficient (hnodup : xs.Nodup) (hzero : 0 ∉ xs) :
    (xs.zipIdx.mapM fun (x, position) => coefficient xs.prod x (xs.eraseIdx position)) =
      .ok (xs.map (weight xs)) := by
  have hok : ∀ entry ∈ xs.zipIdx,
      coefficient xs.prod entry.1 (xs.eraseIdx entry.2) = .ok (weight xs entry.1) := by
    rintro ⟨x, position⟩ hentry
    obtain ⟨hposition, rfl⟩ := List.getElem?_eq_some_iff.mp
      (List.mk_mem_zipIdx_iff_getElem?.mp hentry)
    rw [← hnodup.erase_getElem position hposition]
    exact coefficient_eq_ok hnodup fun h => hzero (h ▸ List.getElem_mem hposition)
  rw [mapM_eq_ok hok]
  refine congrArg Except.ok ?_
  calc xs.zipIdx.map (fun entry => weight xs entry.1)
      = (xs.zipIdx.map Prod.fst).map (weight xs) := by
        rw [List.map_map]
        rfl
    _ = xs.map (weight xs) := by rw [List.zipIdx_map_fst]

theorem coefficients_eq_ok {indices : List UInt16} {t : UInt16} (ht : 1 ≤ t.toNat)
    (hlength : t.toNat ≤ indices.length) (hnonzero : 0 ∉ indices.take t.toNat)
    (hnodup : (indices.take t.toNat).Nodup)
    (hresidues : ((indices.take t.toNat).map fun i => Residue.ofNat p i.toNat).Nodup)
    (hzero : 0 ∉ (indices.take t.toNat).map fun i => Residue.ofNat p i.toNat) :
    coefficients p indices t =
      .ok (((indices.take t.toNat).map fun i => Residue.ofNat p i.toNat).map
        (weight ((indices.take t.toNat).map fun i => Residue.ofNat p i.toNat))) := by
  have hcount : ¬ (t.toNat = 0 ∨ indices.length < t.toNat) := by omega
  have hrepeated : firstRepeated [] (indices.take t.toNat) = none :=
    firstRepeated_eq_none_iff.mpr ⟨hnodup, fun _ _ => List.not_mem_nil⟩
  have hmapM := mapM_coefficient hresidues hzero
  simp only [coefficients, if_neg hcount, if_neg hnonzero, hrepeated]
  rw [← List.prod_eq_foldl]
  exact hmapM

theorem eval_basis_eq_weight (hnodup : xs.Nodup) (hzero : 0 ∉ xs) (hx : x ∈ xs) :
    (Lagrange.basis xs.toFinset id x).eval 0 = weight xs x := by
  have herase : xs.toFinset.erase x = (xs.erase x).toFinset := by
    ext y
    simp [hnodup.mem_erase_iff]
  have hx0 : x ≠ 0 := fun h => hzero (h ▸ hx)
  have hprod : xs.prod = x * (xs.erase x).prod := (List.prod_erase hx).symm
  have hfactor : ∀ y ∈ xs.erase x,
      (Lagrange.basisDivisor x y).eval 0 = (y - x)⁻¹ * y := by
    intro y hy
    rw [Lagrange.basisDivisor, Polynomial.eval_mul, Polynomial.eval_C, Polynomial.eval_sub,
      Polynomial.eval_X, Polynomial.eval_C, zero_sub, ← neg_sub y x, inv_neg, neg_mul_neg]
  rw [Lagrange.basis, Polynomial.eval_prod, herase, List.prod_toFinset _ (hnodup.erase x), weight,
    hprod]
  simp only [id]
  rw [List.map_congr_left hfactor, List.prod_map_mul, List.map_id', mul_inv, List.prod_inv,
    List.map_map]
  change _ = x * (xs.erase x).prod * (x⁻¹ * ((xs.erase x).map fun y => (y - x)⁻¹).prod)
  field_simp

theorem sum_weight_mul_eval (hnodup : xs.Nodup) (hzero : 0 ∉ xs) {F : (Residue p)[X]}
    (hdegree : F.degree < xs.length) :
    (xs.map fun x => weight xs x * F.eval x).sum = F.eval 0 := by
  have hcard : xs.toFinset.card = xs.length := List.toFinset_card_of_nodup hnodup
  have hinterpolate := Lagrange.eq_interpolate (s := xs.toFinset) (v := id)
    Function.injective_id.injOn (hcard ▸ hdegree)
  calc (xs.map fun x => weight xs x * F.eval x).sum
      = ∑ x ∈ xs.toFinset, weight xs x * F.eval x := (List.sum_toFinset _ hnodup).symm
    _ = ∑ x ∈ xs.toFinset, F.eval x * (Lagrange.basis xs.toFinset id x).eval 0 := by
        refine Finset.sum_congr rfl fun x hx => ?_
        rw [eval_basis_eq_weight hnodup hzero (List.mem_toFinset.mp hx), mul_comm]
    _ = F.eval 0 := by
        conv_rhs => rw [hinterpolate, Lagrange.interpolate_apply, Polynomial.eval_finsetSum]
        simp

end Weight

end ThresholdBls.Interpolation
