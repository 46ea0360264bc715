import ThresholdBls.Proofs.Bn254.HashToCurve

/-!
# The first point after a digest

The point of a digest is the first one that increments of the reduced digest
lead to, with the smaller of its two ordinates.  A hint is accepted where it
describes a point of the curve, and none describes a point before the first.
-/

namespace ThresholdBls.Bn254

def HasPointAfter (digest : Digest) (count : Nat) : Prop :=
  IsSquare (((digest.toNat : Fq) + (count : Fq)) ^ 3 + 3)

/-- The search takes no more increments than a hint can record. -/
def EndsInTime (digest : Digest) : Prop :=
  ∃ count < UInt64.size, HasPointAfter digest count

theorem rightSide_eq (x : Fq) : rightSide x = x ^ 3 + 3 := by
  have hb : b = 3 := Nat.cast_ofNat
  rw [rightSide, hb]
  ring

theorem find_least (digest : Digest) :
    IsLeast {count | HasPointAfter digest count} (find digest).shift := by
  have hfirst := find_isFirst digest
  constructor
  · refine ⟨(find digest).y, ?_⟩
    rw [hfirst.equation, hfirst.x_eq, rightSide_eq]
    rfl
  · intro count hcount
    by_contra hlt
    have hskipped := hfirst.skipped count (not_le.mp hlt)
    rw [rightSide_eq] at hskipped
    exact hskipped hcount

theorem shift_lt_of_endsInTime {digest : Digest} (h : EndsInTime digest) :
    (find digest).shift < UInt64.size := by
  obtain ⟨count, hcount, hpoint⟩ := h
  exact lt_of_le_of_lt ((find_least digest).2 hpoint) hcount

theorem pointOfHint_eq (digest : Digest) (hint : Hint fieldSize) :
    pointOfHint digest hint =
      if hint.y ^ 2 = ((digest.toNat : Fq) + (hint.shift.toNat : Fq)) ^ 3 + 3 then
        .ok (.affine ((digest.toNat : Fq) + (hint.shift.toNat : Fq)) hint.y)
      else .error .hintMismatch := by
  rw [← rightSide_eq, pow_two]
  rfl

theorem pointOfHint_of_lt {digest : Digest} {hint : Hint fieldSize}
    (h : hint.shift.toNat < (find digest).shift) :
    pointOfHint digest hint = .error .hintMismatch := by
  rw [pointOfHint_eq, if_neg]
  intro hy
  have hpoint : HasPointAfter digest hint.shift.toNat := ⟨hint.y, by rw [← hy, pow_two]⟩
  exact absurd ((find_least digest).2 hpoint) (not_le.mpr h)

/-- The point of a digest is the first one, its hint leads back to it, and every hint is judged by
the curve equation alone. -/
theorem hashPoint_first (digest : Digest) (h : EndsInTime digest) :
    (∃ (s : UInt64) (y : Fq),
      hashPoint digest = (.affine ((digest.toNat : Fq) + (s.toNat : Fq)) y, ⟨y, s⟩) ∧
      IsLeast {count | HasPointAfter digest count} s.toNat ∧
      y ^ 2 = ((digest.toNat : Fq) + (s.toNat : Fq)) ^ 3 + 3 ∧ y.val ≤ fieldSize - y.val ∧
      (hashPoint digest).1.isOnCurve b = true ∧ (hashPoint digest).1 ≠ .infinity ∧
      pointOfHint digest (hashPoint digest).2 = .ok (hashPoint digest).1 ∧
      ∀ hint : Hint fieldSize, hint.shift < s →
        pointOfHint digest hint = .error .hintMismatch) ∧
    ∀ hint : Hint fieldSize,
      pointOfHint digest hint =
        if hint.y ^ 2 = ((digest.toNat : Fq) + (hint.shift.toNat : Fq)) ^ 3 + 3 then
          .ok (.affine ((digest.toNat : Fq) + (hint.shift.toNat : Fq)) hint.y)
        else .error .hintMismatch := by
  refine ⟨?_, pointOfHint_eq digest⟩
  have hshift := shift_lt_of_endsInTime h
  have hs : (UInt64.ofNat (find digest).shift).toNat = (find digest).shift :=
    UInt64.toNat_ofNat_of_lt hshift
  have hfirst := find_isFirst digest
  refine ⟨UInt64.ofNat (find digest).shift, (find digest).y, ?_, ?_, ?_, ?_, ?_, nofun,
    pointOfHint_hashPoint hshift, ?_⟩
  · rw [hs, hashPoint, hfirst.x_eq]
    rfl
  · rw [hs]
    exact find_least digest
  · rw [hs, pow_two, hfirst.equation, hfirst.x_eq, rightSide_eq]
    rfl
  · exact hfirst.val_le.trans (Nat.mod_le _ _)
  · exact decide_eq_true hfirst.equation
  · intro hint hlt
    refine pointOfHint_of_lt ?_
    rw [← hs]
    exact UInt64.lt_iff_toNat_lt.mp hlt

/-- A digest of more than five times the field size, three increments ahead of a point. -/
def digestAboveField : Digest := ⟨List.replicate 31 255 ++ [250], by decide⟩

theorem endsInTime_digestAboveField : EndsInTime digestAboveField :=
  ⟨3, by decide, (find digestAboveField).y, by decide +kernel⟩

theorem hashPoint_first_digestAboveField :
    ∃ y : Fq, hashPoint digestAboveField =
        (.affine ((digestAboveField.toNat : Fq) + 3) y, ⟨y, 3⟩) ∧
      IsLeast {count | HasPointAfter digestAboveField count} 3 ∧
      pointOfHint digestAboveField ⟨y, 2⟩ = .error .hintMismatch := by
  obtain ⟨⟨s, y, heq, hleast, -, -, -, -, -, hrefused⟩, -⟩ :=
    hashPoint_first digestAboveField endsInTime_digestAboveField
  have hs : s = 3 := by
    have hshift : (hashPoint digestAboveField).2.shift = 3 := by decide +kernel
    rwa [heq] at hshift
  subst hs
  have hlt : (2 : UInt64) < 3 := by decide
  exact ⟨y, heq, hleast, hrefused ⟨y, 2⟩ hlt⟩

end ThresholdBls.Bn254
