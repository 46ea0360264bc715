import Mathlib

/-!
# Elements of prime order

In a finite commutative group, an element `g` of prime order `r` generates all
elements that `r` annihilates, as soon as these are fewer than `r²`.  Counting
bounds them: by the size of the group, or by an element that `2 r` does not
annihilate.
-/

namespace ThresholdBls.Torsion

variable {A : Type} [AddCommGroup A] {r : Nat}

def annihilated (A : Type) [AddCommGroup A] (r : Nat) : AddSubgroup A :=
  (nsmulAddMonoidHom r : A →+ A).ker

theorem mem_annihilated {a : A} : a ∈ annihilated A r ↔ r • a = 0 :=
  AddMonoidHom.mem_ker

variable [Finite A]

/-- The annihilated elements form a vector space over the field of `r` elements. -/
theorem exists_card_annihilated_eq_pow (hr : r.Prime) :
    ∃ k, Nat.card (annihilated A r) = r ^ k := by
  have : Fact r.Prime := ⟨hr⟩
  have hzero : ∀ a : annihilated A r, r • a = 0 := by
    intro a
    exact Subtype.ext (mem_annihilated.mp a.2)
  let _ : Module (ZMod r) (annihilated A r) := AddCommGroup.zmodModule hzero
  exact ⟨Module.finrank (ZMod r) (annihilated A r),
    (FiniteField.pow_finrank_eq_natCard r (annihilated A r)).symm⟩

theorem card_annihilated_eq (hr : r.Prime) {g : A} (hg : g ≠ 0) (hrg : r • g = 0)
    (hcard : Nat.card (annihilated A r) < r ^ 2) : Nat.card (annihilated A r) = r := by
  obtain ⟨k, hk⟩ := exists_card_annihilated_eq_pow (A := A) hr
  have hlt : k < 2 := (Nat.pow_lt_pow_iff_right hr.one_lt).mp (hk ▸ hcard)
  have hnontrivial : Nontrivial (annihilated A r) :=
    ⟨⟨g, mem_annihilated.mpr hrg⟩, 0, fun h => hg (congrArg Subtype.val h)⟩
  have hone : 1 < Nat.card (annihilated A r) := Finite.one_lt_card
  interval_cases k
  · rw [hk, pow_zero] at hone
    omega
  · rw [hk, pow_one]

theorem zmultiples_eq_annihilated (hr : r.Prime) {g : A} (hg : g ≠ 0) (hrg : r • g = 0)
    (hcard : Nat.card (annihilated A r) < r ^ 2) :
    AddSubgroup.zmultiples g = annihilated A r := by
  have : Fact r.Prime := ⟨hr⟩
  apply AddSubgroup.eq_of_le_of_card_ge
  · rw [AddSubgroup.zmultiples_le]
    exact mem_annihilated.mpr hrg
  · rw [card_annihilated_eq hr hg hrg hcard, Nat.card_zmultiples,
      addOrderOf_eq_prime hrg hg]

theorem exists_nsmul_eq (hr : r.Prime) {g : A} (hg : g ≠ 0) (hrg : r • g = 0)
    (hcard : Nat.card (annihilated A r) < r ^ 2) {a : A} (ha : r • a = 0) :
    ∃ k < r, k • g = a := by
  classical
  have : Fact r.Prime := ⟨hr⟩
  have hmem : a ∈ AddSubgroup.zmultiples g := by
    rw [zmultiples_eq_annihilated hr hg hrg hcard]
    exact mem_annihilated.mpr ha
  rw [mem_zmultiples_iff_mem_range_addOrderOf, addOrderOf_eq_prime hrg hg] at hmem
  obtain ⟨k, hk, hka⟩ := Finset.mem_image.mp hmem
  exact ⟨k, Finset.mem_range.mp hk, hka⟩

/-- Where the annihilated elements were `r²`, twice any element would be one. -/
theorem card_annihilated_lt (hr : r.Prime) (hr3 : 3 ≤ r) (hcard : Nat.card A < 3 * r ^ 2)
    {a : A} (ha : 2 • r • a ≠ 0) : Nat.card (annihilated A r) < r ^ 2 := by
  obtain ⟨k, hk⟩ := exists_card_annihilated_eq_pow (A := A) hr
  have hindex := (annihilated A r).card_mul_index
  have hpos : 0 < (annihilated A r).index := Nat.pos_of_ne_zero AddSubgroup.index_ne_zero_of_finite
  have hle : r ^ k < r ^ 3 := by
    calc r ^ k ≤ Nat.card A := by
          rw [← hindex, hk]
          exact Nat.le_mul_of_pos_right _ hpos
      _ < 3 * r ^ 2 := hcard
      _ ≤ r ^ 3 := by
          rw [pow_succ' r 2]
          exact Nat.mul_le_mul_right _ hr3
  have hk3 : k < 3 := (Nat.pow_lt_pow_iff_right hr.one_lt).mp hle
  rcases Nat.lt_or_ge k 2 with hk2 | hk2
  · rw [hk]
    exact Nat.pow_lt_pow_right hr.one_lt hk2
  · exfalso
    obtain rfl : k = 2 := by omega
    rw [hk] at hindex
    have hindex3 : (annihilated A r).index < 3 := by
      have hsq : 0 < r ^ 2 := pow_pos hr.pos 2
      by_contra hge
      have := Nat.mul_le_mul_left (r ^ 2) (not_lt.mp hge)
      omega
    have hmem := mem_annihilated.mp ((annihilated A r).nsmul_index_mem a)
    apply ha
    rw [smul_comm] at hmem
    generalize (annihilated A r).index = m at *
    interval_cases m
    · rw [one_nsmul] at hmem
      rw [hmem, nsmul_zero]
    · exact hmem

/-- A group of fewer than `3 r` elements, none of order two, has `r`. -/
theorem nsmul_eq_zero_of_card_lt (hr : r.Prime) {g : A} (hg : g ≠ 0) (hrg : r • g = 0)
    (hcard : Nat.card A < 3 * r) (htwo : ∀ a : A, 2 • a = 0 → a = 0) (a : A) :
    r • a = 0 := by
  have : Fact r.Prime := ⟨hr⟩
  obtain ⟨m, hm⟩ : r ∣ Nat.card A := by
    rw [← addOrderOf_eq_prime hrg hg]
    exact addOrderOf_dvd_natCard g
  have hm3 : m < 3 := by
    rw [hm, mul_comm] at hcard
    exact lt_of_mul_lt_mul_right hcard (Nat.zero_le r)
  have hpos : 0 < Nat.card A := Nat.card_pos
  interval_cases m
  · omega
  · rw [mul_one] at hm
    rw [← hm]
    exact card_nsmul_eq_zero'
  · obtain ⟨b, hb⟩ := exists_prime_addOrderOf_dvd_card' (G := A) 2 (hm ▸ dvd_mul_left 2 r)
    have hb0 : b = 0 := htwo b (hb ▸ addOrderOf_nsmul_eq_zero b)
    rw [hb0, addOrderOf_zero] at hb
    omega

end ThresholdBls.Torsion
