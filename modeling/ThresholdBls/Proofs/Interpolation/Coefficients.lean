import ThresholdBls.Proofs.Bn254.Groups
import ThresholdBls.Proofs.Interpolation.Recovery

/-!
# Which indices have coefficients

Too few indices, an index zero and a repeated index are each refused with an
error of their own, in this order.  All other lists have coefficients, none of
them zero, that combine the values of polynomials to their values at zero.
The coefficient of an index depends on the other indices, not on their order.
-/

open scoped Polynomial

namespace ThresholdBls

namespace Interpolation

/-! ## The first repeated index -/

def RepeatsAt (indices : List UInt16) (position : Nat) : Prop :=
  ∃ index, indices[position]? = some index ∧ index ∈ indices.take position

/-- The entry at the earliest position that repeats another. -/
def IsFirstRepeated (indices : List UInt16) (index : UInt16) : Prop :=
  ∃ position, indices[position]? = some index ∧ IsLeast {k | RepeatsAt indices k} position

/-- The entry found is an earlier one or one of those seen before, and no position ahead of it
holds such an entry. -/
theorem position_of_firstRepeated {seen indices : List UInt16} {index : UInt16}
    (h : firstRepeated seen indices = some index) :
    ∃ position, indices[position]? = some index ∧
      (index ∈ seen ∨ index ∈ indices.take position) ∧
      ∀ k < position, ∀ other, indices[k]? = some other →
        other ∉ seen ∧ other ∉ indices.take k := by
  induction indices generalizing seen with
  | nil => cases h
  | cons first rest ih =>
      rw [firstRepeated] at h
      split at h
      · rename_i hseen
        cases h
        exact ⟨0, rfl, .inl hseen, fun k hk => absurd hk k.not_lt_zero⟩
      · rename_i hseen
        obtain ⟨position, hindex, hrepeats, hearlier⟩ := ih h
        refine ⟨position + 1, hindex, ?_, ?_⟩
        · rw [List.take_succ_cons]
          grind
        · intro k hk other hother
          cases k with
          | zero =>
              cases hother
              exact ⟨hseen, List.not_mem_nil⟩
          | succ k =>
              have hfresh := hearlier k (Nat.lt_of_succ_lt_succ hk) other hother
              rw [List.take_succ_cons]
              grind

theorem isFirstRepeated_of_firstRepeated {indices : List UInt16} {index : UInt16}
    (h : firstRepeated [] indices = some index) : IsFirstRepeated indices index := by
  obtain ⟨position, hindex, hrepeats, hearlier⟩ := position_of_firstRepeated h
  have hbefore : index ∈ indices.take position := hrepeats.resolve_left List.not_mem_nil
  refine ⟨position, hindex, ⟨index, hindex, hbefore⟩, ?_⟩
  rintro k ⟨other, hother, hmem⟩
  by_contra hlt
  exact (hearlier k (not_le.mp hlt) other hother).2 hmem

example : firstRepeated [] [7, 2, 2, 7] = some 2 := rfl

/-! ## Lists with the same first entries -/

theorem coefficients_congr {r : Nat} [Modulus r] {indices other : List UInt16} {t : UInt16}
    (ht : t ≠ 0) (h : other.take t.toNat = indices.take t.toNat) :
    coefficients r other t = coefficients r indices t := by
  have hpositive : t.toNat ≠ 0 := fun hzero => ht (UInt16.toNat_inj.mp hzero)
  have hlengths : min t.toNat other.length = min t.toNat indices.length := by
    rw [← List.length_take, h, List.length_take]
  by_cases hshort : indices.length < t.toNat
  · -- Neither list has entries past the first ones.
    have hother : other.length < t.toNat := by omega
    rw [List.take_of_length_le hshort.le, List.take_of_length_le hother.le] at h
    rw [h]
  · have hindices : ¬ (t.toNat = 0 ∨ indices.length < t.toNat) := by omega
    have hother : ¬ (t.toNat = 0 ∨ other.length < t.toNat) := by omega
    simp only [coefficients, if_neg hindices, if_neg hother, h]

/-! ## The order of the indices -/

section Order

variable {p : Nat} [PrimeModulus p] {xs ys : List (Residue p)}

theorem weight_ne_zero (hnodup : xs.Nodup) (hzero : 0 ∉ xs) {x : Residue p} (hx : x ∈ xs) :
    weight xs x ≠ 0 := by
  have hx0 : x ≠ 0 := ne_of_mem_of_not_mem hx hzero
  exact mul_ne_zero (List.prod_ne_zero hzero) (inv_ne_zero (denominator_ne_zero hnodup hx0))

theorem weight_of_perm (h : xs.Perm ys) (x : Residue p) : weight xs x = weight ys x := by
  rw [weight, weight, h.prod_eq, ((h.erase x).map (· - x)).prod_eq]

end Order

theorem take_perm {indices other : List UInt16} {count : Nat} (hcount : count ≤ indices.length)
    {σ : Equiv.Perm (Fin count)}
    (h : ∀ k : Fin count, other[(k : Nat)]? = indices[(σ k : Nat)]?) :
    (other.take count).Perm (indices.take count) := by
  let entry : Fin count → UInt16 := fun k => indices[(k : Nat)]
  have hother : ∀ k : Fin count, other[(k : Nat)]? = some (entry (σ k)) :=
    fun k => (h k).trans (List.getElem?_eq_getElem _)
  have htake : indices.take count = List.ofFn entry := by
    refine List.ext_getElem? fun k => ?_
    rw [List.getElem?_take, List.getElem?_ofFn]
    split
    · exact List.getElem?_eq_getElem _
    · rfl
  have htake_other : other.take count = List.ofFn (entry ∘ σ) := by
    refine List.ext_getElem? fun k => ?_
    rw [List.getElem?_take, List.getElem?_ofFn]
    split
    · rename_i hk
      exact hother ⟨k, hk⟩
    · rfl
  rw [htake, htake_other]
  exact Equiv.Perm.ofFn_comp_perm σ entry

end Interpolation

namespace Suite

open Interpolation

variable {S : Suite} [S.Lawful]

def weights (S : Suite) [S.Lawful] (indices : List UInt16) : List S.Scalar :=
  (indices.map S.abscissa).map (weight (indices.map S.abscissa))

section Weights

variable {indices other : List UInt16}

theorem length_weights : (S.weights indices).length = indices.length := by
  rw [weights, List.length_map, List.length_map]

theorem weights_ne_zero (hzero : 0 ∉ indices) (hnodup : indices.Nodup) {l : S.Scalar}
    (hl : l ∈ S.weights indices) : l ≠ 0 := by
  obtain ⟨x, hx, rfl⟩ := List.mem_map.mp hl
  exact weight_ne_zero (nodup_abscissas hnodup) (zero_notMem_abscissas hzero) hx

theorem sum_weights_mul_eval (hzero : 0 ∉ indices) (hnodup : indices.Nodup) {F : S.Scalar[X]}
    (hdegree : F.degree < indices.length) :
    (List.zipWith (fun l i => l * F.eval (S.abscissa i)) (S.weights indices) indices).sum =
      F.eval 0 := by
  have hsum := sum_weight_mul_eval (nodup_abscissas hnodup) (zero_notMem_abscissas hzero) (F := F)
    (by rwa [List.length_map])
  rw [List.map_map] at hsum
  rw [weights, List.map_map, List.zipWith_map_left, List.zipWith_self]
  exact hsum

theorem getElem?_weights_of_perm (hperm : other.Perm indices) {j k : Nat}
    (h : other[j]? = indices[k]?) : (S.weights other)[j]? = (S.weights indices)[k]? := by
  have hweight := funext (weight_of_perm (hperm.map S.abscissa))
  simp only [weights, hweight, List.getElem?_map, h]

end Weights

theorem coefficients_eq (S : Suite) [S.Lawful] (indices : List UInt16) (t : UInt16) :
    coefficients S.order indices t =
      if t.toNat = 0 ∨ indices.length < t.toNat then
        .error (.tooFewShares t.toNat indices.length)
      else if 0 ∈ indices.take t.toNat then .error (.indexOutOfRange 0)
      else
        match firstRepeated [] (indices.take t.toNat) with
        | some index => .error (.duplicatedIndex index)
        | none => .ok (S.weights (indices.take t.toNat)) := by
  by_cases hcount : t.toNat = 0 ∨ indices.length < t.toNat
  · simp only [coefficients, if_pos hcount]
    rfl
  by_cases hzero : 0 ∈ indices.take t.toNat
  · simp only [coefficients, if_neg hcount, if_pos hzero]
    rfl
  rw [if_neg hcount, if_neg hzero]
  cases hrepeated : firstRepeated [] (indices.take t.toNat) with
  | some index =>
      simp only [coefficients, if_neg hcount, if_neg hzero, hrepeated]
      rfl
  | none =>
      have hnodup := (firstRepeated_eq_none_iff.mp hrepeated).1
      exact coefficients_eq_ok (by omega) (by omega) hzero hnodup

theorem coefficients_permuted {indices other : List UInt16} {t : UInt16} (ht : 1 ≤ t.toNat)
    (hlength : t.toNat ≤ indices.length) (hzero : 0 ∉ indices.take t.toNat)
    (hnodup : (indices.take t.toNat).Nodup) {σ : Equiv.Perm (Fin t.toNat)}
    (h : ∀ k : Fin t.toNat, other[(k : Nat)]? = indices[(σ k : Nat)]?) :
    ∃ ls : List S.Scalar, coefficients S.order other t = .ok ls ∧ ls.length = t.toNat ∧
      ∀ k : Fin t.toNat, ls[(k : Nat)]? = (S.weights (indices.take t.toNat))[(σ k : Nat)]? := by
  have hperm := take_perm hlength h
  have hlength_take : (other.take t.toNat).length = t.toNat := by
    rw [hperm.length_eq, List.length_take_of_le hlength]
  have hlength_other : t.toNat ≤ other.length := by
    rw [List.length_take] at hlength_take
    omega
  have hok := coefficients_eq_ok (S := S) ht hlength_other (mt hperm.mem_iff.mp hzero)
    (hperm.nodup_iff.mpr hnodup)
  refine ⟨S.weights (other.take t.toNat), hok, length_weights.trans hlength_take, fun k => ?_⟩
  refine getElem?_weights_of_perm hperm ?_
  rw [List.getElem?_take_of_lt k.isLt, List.getElem?_take_of_lt (σ k).isLt, h k]

end Suite

/-! ## The suite BN254 -/

namespace Bn254

open Interpolation

/-- The outcome for every list of indices and every threshold.  The coefficients that there are
combine the values of any polynomial of degree below the threshold to its value at zero.  Entries
past the first ones count in the error for threshold zero, and nowhere else. -/
theorem coefficients_outcome (indices : List UInt16) (t : UInt16) :
    (if t.toNat = 0 ∨ indices.length < t.toNat then
      coefficients order indices t = .error (.tooFewShares t.toNat indices.length)
    else if 0 ∈ indices.take t.toNat then
      coefficients order indices t = .error (.indexOutOfRange 0)
    else if ¬ (indices.take t.toNat).Nodup then
      ∃ index, coefficients order indices t = .error (.duplicatedIndex index) ∧
        IsFirstRepeated (indices.take t.toNat) index
    else
      ∃ ls : List Fr, coefficients order indices t = .ok ls ∧
        ls.length = t.toNat ∧ (∀ l ∈ ls, l ≠ 0) ∧
        (∀ F : Fr[X], F.degree < t.toNat →
          (List.zipWith (fun l i => l * F.eval (i.toNat : Fr)) ls (indices.take t.toNat)).sum =
            F.eval 0) ∧
        ∀ (other : List UInt16) (σ : Equiv.Perm (Fin t.toNat)),
          (∀ k : Fin t.toNat, other[(k : Nat)]? = indices[(σ k : Nat)]?) →
          ∃ ls' : List Fr, coefficients order other t = .ok ls' ∧ ls'.length = t.toNat ∧
            ∀ k : Fin t.toNat, ls'[(k : Nat)]? = ls[(σ k : Nat)]?) ∧
    ∀ other : List UInt16, t ≠ 0 → other.take t.toNat = indices.take t.toNat →
      coefficients order other t = coefficients order indices t := by
  refine ⟨?_, fun other ht h => coefficients_congr ht h⟩
  have houtcome := Suite.coefficients_eq suite indices t
  by_cases hcount : t.toNat = 0 ∨ indices.length < t.toNat
  · rw [if_pos hcount] at houtcome ⊢
    exact houtcome
  by_cases hzero : 0 ∈ indices.take t.toNat
  · rw [if_neg hcount, if_pos hzero] at houtcome ⊢
    exact houtcome
  rw [if_neg hcount, if_neg hzero] at houtcome ⊢
  cases hrepeated : firstRepeated [] (indices.take t.toNat) with
  | some index =>
      have hnodup : ¬ (indices.take t.toNat).Nodup := by
        intro hnodup
        rw [firstRepeated_eq_none_iff.mpr ⟨hnodup, fun _ _ => List.not_mem_nil⟩] at hrepeated
        cases hrepeated
      rw [hrepeated] at houtcome
      rw [if_pos hnodup]
      exact ⟨index, houtcome, isFirstRepeated_of_firstRepeated hrepeated⟩
  | none =>
      have hnodup := (firstRepeated_eq_none_iff.mp hrepeated).1
      have hlength : t.toNat ≤ indices.length := by omega
      have hlength_take : (indices.take t.toNat).length = t.toNat :=
        List.length_take_of_le hlength
      rw [hrepeated] at houtcome
      rw [if_neg (not_not.mpr hnodup)]
      refine ⟨suite.weights (indices.take t.toNat), houtcome,
        Suite.length_weights.trans hlength_take, ?_, ?_, ?_⟩
      · exact fun l hl => Suite.weights_ne_zero hzero hnodup hl
      · intro F hdegree
        rw [← hlength_take] at hdegree
        exact Suite.sum_weights_mul_eval (S := suite) hzero hnodup hdegree
      · exact fun other σ h =>
          Suite.coefficients_permuted (S := suite) (by omega) hlength hzero hnodup h

end Bn254

end ThresholdBls
