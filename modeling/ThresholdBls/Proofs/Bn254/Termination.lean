import ThresholdBls.Proofs.Bn254.FirstPoint

/-!
# The search for a point ends

The loop that looks for the point of a digest has no bound of its own.  From
every abscissa the increments lead to one, modulo the field size, and one
belongs to a point.  The way that is left to one gets shorter in every round.
-/

namespace ThresholdBls

namespace Residue

variable {m : Nat} [Modulus m]

theorem val_sub_one_add_one {a : Residue m} (ha : a ≠ 0) : (a - 1).val + 1 = a.val := by
  have hval : a.val ≠ 0 := fun hzero => ha (ext (hzero.trans val_zero.symm))
  obtain ⟨k, hk⟩ := Nat.exists_eq_succ_of_ne_zero hval
  have hsub : a - 1 = (k : Residue m) := by
    rw [← natCast_val a, hk, Nat.succ_eq_add_one, Nat.cast_succ, add_sub_cancel_right]
  have hlt : k < m := by
    have := a.val_lt
    omega
  rw [hsub, natCast_eq, val_ofNat, Nat.mod_eq_of_lt hlt, hk]

theorem val_sub (a b : Residue m) : ((a - b).val : ℤ) = (a.val - b.val : ℤ) % m := by
  change ((a.val + (m - b.val)) % m : Nat) = (a.val - b.val : ℤ) % m
  rw [Int.natCast_mod, Nat.cast_add, Nat.cast_sub b.val_lt.le, ← add_sub_assoc, add_sub_right_comm,
    Int.add_emod_right]

end Residue

namespace Bn254

structure Attempt where
  x : Fq
  shift : Nat

namespace Attempt

/-- One round of the loop, which ends at an abscissa with a point and increments any other. -/
def round (attempt : Attempt) : Landing ⊕ Attempt :=
  match (rightSide attempt.x).sqrt? with
  | some root => .inl ⟨attempt.x, root.smaller, attempt.shift⟩
  | none => .inr ⟨attempt.x + 1, attempt.shift + 1⟩

def remaining (attempt : Attempt) : Nat :=
  (1 - attempt.x).val

theorem round_of_sqrt?_eq_some {x root : Fq} (h : (rightSide x).sqrt? = some root)
    (shift : Nat) : round ⟨x, shift⟩ = .inl ⟨x, root.smaller, shift⟩ := by
  simp only [round, h]

theorem round_one (shift : Nat) :
    round ⟨1, shift⟩ = .inl ⟨1, Residue.ofNat fieldSize 2, shift⟩ := by
  have hroot : ((rightSide 1).sqrt?).map Fq.smaller = some (Residue.ofNat fieldSize 2) := by
    decide +kernel
  obtain ⟨root, hsqrt, hsmaller⟩ := Option.map_eq_some_iff.mp hroot
  rw [round_of_sqrt?_eq_some hsqrt, hsmaller]

theorem eq_one_of_remaining_eq_zero {attempt : Attempt} (h : attempt.remaining = 0) :
    attempt.x = 1 := by
  have hsub : 1 - attempt.x = 0 := Residue.ext (h.trans Residue.val_zero.symm)
  exact (sub_eq_zero.mp hsub).symm

theorem remaining_of_round {attempt next : Attempt} (h : attempt.round = .inr next) :
    next.remaining + 1 = attempt.remaining := by
  obtain ⟨x, shift⟩ := attempt
  have hx : 1 - x ≠ 0 := by
    intro hsub
    rw [← sub_eq_zero.mp hsub, round_one] at h
    cases h
  simp only [round] at h
  split at h
  · cases h
  · cases h
    have hnext : 1 - (x + 1) = 1 - x - 1 := by ring
    simp only [remaining, hnext]
    exact Residue.val_sub_one_add_one hx

end Attempt

/-- The loop itself, which has no value where its rounds never end. -/
noncomputable def loop : Attempt → Part Landing :=
  PFun.fix fun attempt => Part.some attempt.round

theorem mem_loop_of_round {attempt : Attempt} {landing : Landing}
    (h : attempt.round = .inl landing) : landing ∈ loop attempt := by
  apply PFun.fix_stop
  simp [h]

theorem loop_eq_of_round {attempt next : Attempt} (h : attempt.round = .inr next) :
    loop attempt = loop next := by
  apply PFun.fix_fwd_eq
  simp [h]

theorem search_succ (distance : Nat) (attempt : Attempt) :
    search (distance + 1) attempt.x attempt.shift =
      match attempt.round with
      | .inl landing => landing
      | .inr next => search distance next.x next.shift := by
  simp only [search, Attempt.round]
  cases (rightSide attempt.x).sqrt? with
  | some root => rfl
  | none => rfl

/-- From every attempt the loop ends, and where the search for the way that remains does. -/
theorem search_mem_loop {distance : Nat} {attempt : Attempt} (h : attempt.remaining = distance) :
    search distance attempt.x attempt.shift ∈ loop attempt := by
  induction distance generalizing attempt with
  | zero =>
      obtain ⟨x, shift⟩ := attempt
      have hx : x = 1 := Attempt.eq_one_of_remaining_eq_zero h
      subst hx
      exact mem_loop_of_round (Attempt.round_one shift)
  | succ distance ih =>
      rw [search_succ]
      cases hround : attempt.round with
      | inl landing => exact mem_loop_of_round hround
      | inr next =>
          rw [loop_eq_of_round hround]
          apply ih
          have hremaining := Attempt.remaining_of_round hround
          omega

theorem add_remaining (attempt : Attempt) : attempt.x + (attempt.remaining : Fq) = 1 := by
  rw [Attempt.remaining, Residue.natCast_val, add_sub_cancel]

theorem remaining_natCast (n : Nat) :
    (Attempt.remaining ⟨(n : Fq), 0⟩ : ℤ) = (1 - (n % fieldSize : Nat)) % fieldSize := by
  have hone : ((1 : Fq).val : ℤ) = 1 := by decide +kernel
  rw [Attempt.remaining, Residue.val_sub, hone]
  rfl

theorem isSquare_at_one : IsSquare ((1 : Fq) ^ 3 + 3) := by
  refine ⟨2, ?_⟩
  norm_num

/-- From the reduced digest, the increments lead to the abscissa one, which belongs to a point.  So
the loop ends after no more of them, and ends at the point of the digest. -/
theorem search_loop_terminates (digest : Digest) :
    ∃ bound : Nat, (bound : ℤ) = (1 - (digest.toNat % fieldSize : Nat)) % fieldSize ∧
      (digest.toNat : Fq) + (bound : Fq) = 1 ∧ IsSquare ((1 : Fq) ^ 3 + 3) ∧
      ∃ landing ∈ loop ⟨(digest.toNat : Fq), 0⟩,
        landing.shift ≤ bound ∧ landing.x = (digest.toNat : Fq) + (landing.shift : Fq) ∧
        landing.y ^ 2 = landing.x ^ 3 + 3 ∧
        hashPoint digest = (.affine landing.x landing.y, ⟨landing.y, .ofNat landing.shift⟩) := by
  have hone := add_remaining ⟨(digest.toNat : Fq), 0⟩
  obtain ⟨hx, hy⟩ := find_spec digest
  rw [← pow_two, rightSide_eq] at hy
  refine ⟨_, remaining_natCast digest.toNat, hone, isSquare_at_one, find digest,
    search_mem_loop rfl, ?_, hx, hy, rfl⟩
  apply (find_least digest).2
  change HasPointAfter digest _
  rw [HasPointAfter, hone]
  exact isSquare_at_one

end Bn254

end ThresholdBls
