import ThresholdBls.Bn254.HashToCurve
import ThresholdBls.Proofs.Bn254.Groups

/-!
# The point of a digest

The search ends at the first point, as many increments after the start as it
counts.  The hint of a digest leads back to its point as long as that count fits
the hint, and no other hint does.
-/

namespace ThresholdBls.Bn254

namespace Fq

theorem mul_self_of_sqrt?_eq_some {a root : Fq} (h : a.sqrt? = some root) :
    root * root = a := by
  simp only [sqrt?] at h
  split at h
  · rename_i hroot
    rw [← Option.some.inj h]
    exact hroot
  · cases h

theorem mul_self_power_of_isSquare {a : Fq} (h : IsSquare a) :
    Binary.power a ((fieldSize + 1) / 4) * Binary.power a ((fieldSize + 1) / 4) = a := by
  obtain ⟨r, rfl⟩ := h
  have hexponent : 2 * ((fieldSize + 1) / 4 + (fieldSize + 1) / 4) = fieldSize + 1 := by
    decide +kernel
  have hfermat : r ^ fieldSize = r := by
    have hcard := FiniteField.pow_card r
    rwa [Residue.card_eq] at hcard
  rw [Binary.power_eq_pow, ← pow_add, ← pow_two, ← pow_mul, hexponent, pow_succ, hfermat]
  exact (pow_two r).symm

theorem not_isSquare_of_sqrt?_eq_none {a : Fq} (h : a.sqrt? = none) : ¬ IsSquare a := by
  intro hsquare
  simp only [sqrt?, if_pos (mul_self_power_of_isSquare hsquare)] at h
  cases h

theorem smaller_mul_self (a : Fq) : smaller a * smaller a = a * a := by
  unfold smaller
  split
  · rfl
  · exact neg_mul_neg a a

theorem val_smaller_le (a : Fq) : (smaller a).val ≤ (-smaller a).val := by
  unfold smaller
  split
  · rename_i hle
    exact hle
  · rename_i hle
    rw [neg_neg]
    exact (not_le.mp hle).le

end Fq

/-- The point that many increments after an abscissa, with no other on the way, and with the
smaller of its ordinates. -/
structure Landing.IsFirst (landing : Landing) (x : Fq) (count : Nat) : Prop where
  x_eq : landing.x = x + (count : Fq)
  equation : landing.y * landing.y = rightSide landing.x
  skipped : ∀ j < count, ¬ IsSquare (rightSide (x + (j : Fq)))
  val_le : landing.y.val ≤ (-landing.y).val

theorem Landing.IsFirst.step {landing : Landing} {x : Fq} {count : Nat}
    (hx : ¬ IsSquare (rightSide x)) (h : landing.IsFirst (x + 1) count) :
    landing.IsFirst x (count + 1) where
  x_eq := by
    rw [h.x_eq, Nat.cast_succ]
    ring
  equation := h.equation
  skipped j hj := by
    cases j with
    | zero => rwa [Nat.cast_zero, add_zero]
    | succ j =>
        have hnext := h.skipped j (Nat.lt_of_succ_lt_succ hj)
        rwa [add_assoc, add_comm 1, ← Nat.cast_succ] at hnext
  val_le := h.val_le

/-- Where one is as far ahead as the search may go, it ends at the first point. -/
theorem search_spec {distance : Nat} {x : Fq} (hend : x + (distance : Fq) = 1) (shift : Nat) :
    ∃ k ≤ distance, (search distance x shift).shift = shift + k ∧
      (search distance x shift).IsFirst x k := by
  induction distance generalizing x shift with
  | zero =>
      rw [Nat.cast_zero, add_zero] at hend
      subst hend
      refine ⟨0, le_rfl, rfl, ?_, ?_, nofun, ?_⟩
      · rw [Nat.cast_zero, add_zero]
        rfl
      · simp only [search]
        decide +kernel
      · simp only [search]
        decide +kernel
  | succ distance ih =>
      unfold search
      cases hroot : (rightSide x).sqrt? with
      | some root =>
          refine ⟨0, Nat.zero_le _, rfl, ?_, ?_, nofun, Fq.val_smaller_le root⟩
          · rw [Nat.cast_zero, add_zero]
          · rw [Fq.smaller_mul_self]
            exact Fq.mul_self_of_sqrt?_eq_some hroot
      | none =>
          have hnext : x + 1 + (distance : Fq) = 1 := by
            rw [Nat.cast_succ] at hend
            linear_combination hend
          obtain ⟨k, hk, hshift, hfirst⟩ := ih hnext (shift + 1)
          refine ⟨k + 1, Nat.succ_le_succ hk, ?_, ?_⟩
          · rw [hshift]
            omega
          · exact hfirst.step (Fq.not_isSquare_of_sqrt?_eq_none hroot)

theorem find_isFirst (digest : Digest) :
    (find digest).IsFirst (startOf digest) (find digest).shift := by
  have hend : startOf digest + ((1 - startOf digest).val : Fq) = 1 := by
    rw [Residue.natCast_val, add_sub_cancel]
  obtain ⟨k, -, hshift, hfirst⟩ := search_spec hend 0
  rw [Nat.zero_add] at hshift
  rw [find, hshift]
  exact hfirst

theorem find_spec (digest : Digest) :
    (find digest).x = startOf digest + ((find digest).shift : Fq) ∧
      (find digest).y * (find digest).y = rightSide (find digest).x :=
  ⟨(find_isFirst digest).x_eq, (find_isFirst digest).equation⟩

theorem requireUsable_affine {x y : Fq} (h : y * y = rightSide x) :
    g1.requireUsable (.affine x y) = .ok () := by
  have hcontains : g1.contains (.affine x y) = true :=
    g1_contains_of_isOnCurve (decide_eq_true h)
  have hidentity : Point.affine x y ≠ .infinity := nofun
  exact (if_neg hidentity).trans (if_pos hcontains)

theorem requireUsable_hashPoint (digest : Digest) :
    g1.requireUsable (hashPoint digest).1 = .ok () :=
  requireUsable_affine (find_spec digest).2

theorem exists_hashPoint_eq (digest : Digest) :
    ∃ h : Fr, h ≠ 0 ∧ (hashPoint digest).1 = g1.generator * h := by
  obtain ⟨h, hh, hmul⟩ :=
    (g1_isCyclic.requireUsable_eq_ok_iff _).mp (requireUsable_hashPoint digest)
  exact ⟨h, hh, hmul.symm⟩

theorem requireUsable_of_pointOfHint {digest : Digest} {hint : Hint fieldSize}
    {point : Point Fq} (h : pointOfHint digest hint = .ok point) :
    g1.requireUsable point = .ok () := by
  simp only [pointOfHint] at h
  split at h
  · rename_i hcurve
    cases h
    exact requireUsable_affine hcurve
  · cases h

theorem pointOfHint_hashPoint {digest : Digest} (h : (find digest).shift < UInt64.size) :
    pointOfHint digest (hashPoint digest).2 = .ok (hashPoint digest).1 := by
  obtain ⟨hx, hy⟩ := find_spec digest
  have hshift : (UInt64.ofNat (find digest).shift).toNat = (find digest).shift :=
    UInt64.toNat_ofNat_of_lt h
  simp only [pointOfHint, hashPoint, hshift, ← Residue.natCast_eq, ← hx]
  exact if_pos hy

theorem natCast_injOn {j k : Nat} (hj : j < UInt64.size) (hk : k < UInt64.size)
    (h : (j : Fq) = (k : Fq)) : j = k := by
  have hsize : UInt64.size ≤ fieldSize := by decide +kernel
  rw [Residue.natCast_eq_natCast_iff, Nat.mod_eq_of_lt (hj.trans_le hsize),
    Nat.mod_eq_of_lt (hk.trans_le hsize)] at h
  exact h

theorem eq_of_pointOfHint_eq_hashPoint {digest : Digest} {hint : Hint fieldSize}
    (hshift : (find digest).shift < UInt64.size)
    (h : pointOfHint digest hint = .ok (hashPoint digest).1) : hint = (hashPoint digest).2 := by
  simp only [pointOfHint, hashPoint] at h
  split at h
  · injection h with hpoint
    injection hpoint with hx hy
    rw [(find_spec digest).1] at hx
    have hcount : hint.shift.toNat = (find digest).shift :=
      natCast_injOn hint.shift.toNat_lt hshift (add_left_cancel hx)
    obtain ⟨y, shift⟩ := hint
    simp only [hashPoint, Hint.mk.injEq]
    refine ⟨hy, ?_⟩
    rw [← hcount, UInt64.ofNat_toNat]
  · cases h

theorem pointOfHint_eq_hashPoint_iff {digest : Digest} {hint : Hint fieldSize}
    (hshift : (find digest).shift < UInt64.size) :
    pointOfHint digest hint = .ok (hashPoint digest).1 ↔ hint = (hashPoint digest).2 := by
  refine ⟨eq_of_pointOfHint_eq_hashPoint hshift, ?_⟩
  rintro rfl
  exact pointOfHint_hashPoint hshift

/-- The digest of value one, whose point is the generator. -/
def digestOne : Digest := ⟨List.replicate 31 0 ++ [1], by decide⟩

end ThresholdBls.Bn254
