import ThresholdBls.Proofs.Bn254.HashToCurve

/-!
# Bilinear pairings

The suite is taken with any test for the equality of pairings.  Where the test
compares the values of a bilinear map that is not trivial, it compares the
products of the scalars of its arguments.
-/

namespace ThresholdBls.Bn254

/-- The suite with its test for equal pairings exchanged. -/
def suiteWith (same : Point Fq → Point Fq2 → Point Fq → Point Fq2 → Bool) : Suite :=
  { suite with samePairing := same }

theorem suiteWith_samePairing : suiteWith samePairing = suite := rfl

variable {same : Point Fq → Point Fq2 → Point Fq → Point Fq2 → Bool}

instance : Suite.Lawful (suiteWith same) where
  prime := order_prime
  index_lt := Suite.Lawful.index_lt (S := suite)
  g1_cyclic := g1_isCyclic
  g2_cyclic := g2_isCyclic

variable (same) in
theorem exists_hashPoint_suiteWith (digest : Digest) :
    ∃ h : (suiteWith same).Scalar, h ≠ 0 ∧
      ((suiteWith same).hashPoint digest).1 = (suiteWith same).g1.generator * h :=
  exists_hashPoint_eq digest

variable {T : Type} [CommGroup T] {e : Point Fq → Point Fq2 → T}

/-- A map that is bilinear on the two groups and not trivial. -/
structure IsPairing (e : Point Fq → Point Fq2 → T) : Prop where
  add_left {p p' : Point Fq} {q : Point Fq2} (hp : g1.contains p = true)
    (hp' : g1.contains p' = true) (hq : g2.contains q = true) :
    e (p.add p') q = e p q * e p' q
  add_right {p : Point Fq} {q q' : Point Fq2} (hp : g1.contains p = true)
    (hq : g2.contains q = true) (hq' : g2.contains q' = true) :
    e p (q.add q') = e p q * e p q'
  nondegenerate : e g1Generator g2Generator ≠ 1

def Compares (same : Point Fq → Point Fq2 → Point Fq → Point Fq2 → Bool)
    (e : Point Fq → Point Fq2 → T) : Prop :=
  ∀ {p p' : Point Fq} {q q' : Point Fq2}, g1.contains p = true → g1.contains p' = true →
    g2.contains q = true → g2.contains q' = true → (same p q p' q' = true ↔ e p q = e p' q')

namespace IsPairing

theorem multiple_right (he : IsPairing e) {p : Point Fq} (hp : g1.contains p = true) (n : Nat) :
    e p (g2.generator * (n : Fr)) = e p g2Generator ^ n :=
  g2_isCyclic.map_multiple (fun _ _ hq hq' => he.add_right hp hq hq') n

theorem multiple_left (he : IsPairing e) {q : Point Fq2} (hq : g2.contains q = true) (n : Nat) :
    e (g1.generator * (n : Fr)) q = e g1Generator q ^ n :=
  g1_isCyclic.map_multiple (f := fun p => e p q) (fun _ _ hp hp' => he.add_left hp hp' hq) n

theorem contains_g1Generator : g1.contains g1Generator = true :=
  (g1_isCyclic.contains_iff g1Generator).mpr ⟨1, g1_isCyclic.multiple_one⟩

theorem multiples (he : IsPairing e) (j k : Fr) :
    e (g1.generator * j) (g2.generator * k) = e g1Generator g2Generator ^ (k.val * j.val) := by
  have hleft := he.multiple_left (g2_isCyclic.contains_multiple k) j.val
  have hright := he.multiple_right contains_g1Generator k.val
  rw [Residue.natCast_val] at hleft hright
  rw [hleft, hright, pow_mul]

theorem orderOf_generators (he : IsPairing e) :
    orderOf (e g1Generator g2Generator) = order := by
  have : Fact order.Prime := ⟨order_prime⟩
  refine orderOf_eq_prime ?_ he.nondegenerate
  have hzero : ((order : Nat) : Fr) = ((0 : Nat) : Fr) := by
    rw [Residue.natCast_eq_natCast_iff, Nat.mod_self, Nat.zero_mod]
  have hpower := he.multiple_right contains_g1Generator order
  rw [hzero, he.multiple_right contains_g1Generator, pow_zero] at hpower
  exact hpower.symm

theorem multiples_eq_iff (he : IsPairing e) (j k j' k' : Fr) :
    e (g1.generator * j) (g2.generator * k) = e (g1.generator * j') (g2.generator * k') ↔
      j * k = j' * k' := by
  have hproducts : j * k = j' * k' ↔ k.val * j.val % order = k'.val * j'.val % order := by
    rw [← Residue.natCast_eq_natCast_iff, Nat.cast_mul, Nat.cast_mul, Residue.natCast_val,
      Residue.natCast_val, Residue.natCast_val, Residue.natCast_val, mul_comm j, mul_comm j']
  have hpowers := pow_inj_mod (x := e g1Generator g2Generator) (n := k.val * j.val)
    (m := k'.val * j'.val)
  rw [he.orderOf_generators] at hpowers
  rw [he.multiples, he.multiples, hproducts]
  exact hpowers

theorem testsProducts (he : IsPairing e) (hsame : Compares same e) :
    (suiteWith same).TestsProducts := by
  intro j k j' k'
  have htest := hsame (g1_isCyclic.contains_multiple j) (g1_isCyclic.contains_multiple j')
    (g2_isCyclic.contains_multiple k) (g2_isCyclic.contains_multiple k')
  exact htest.trans (he.multiples_eq_iff j k j' k')

end IsPairing

/-! ## The pairing by discrete logarithms -/

noncomputable def g1Scalar : Point Fq → Fr :=
  Function.invFun fun k : Fr => (g1.generator * k : Point Fq)

noncomputable def g2Scalar : Point Fq2 → Fr :=
  Function.invFun fun k : Fr => (g2.generator * k : Point Fq2)

/-- The product of the scalars of two points.  Up to the name of its values, it is the only
pairing there is. -/
noncomputable def scalarPairing (p : Point Fq) (q : Point Fq2) : Multiplicative Fr :=
  Multiplicative.ofAdd (g1Scalar p * g2Scalar q)

noncomputable def sameScalarPairing (p : Point Fq) (q : Point Fq2) (p' : Point Fq)
    (q' : Point Fq2) : Bool :=
  g1Scalar p * g2Scalar q = g1Scalar p' * g2Scalar q'

theorem g1Scalar_multiple (k : Fr) : g1Scalar (g1.generator * k) = k :=
  Function.leftInverse_invFun g1_isCyclic.multiple_injective k

theorem g2Scalar_multiple (k : Fr) : g2Scalar (g2.generator * k) = k :=
  Function.leftInverse_invFun g2_isCyclic.multiple_injective k

theorem g1Scalar_add {p p' : Point Fq} (hp : g1.contains p = true)
    (hp' : g1.contains p' = true) : g1Scalar (p.add p') = g1Scalar p + g1Scalar p' := by
  obtain ⟨k, rfl⟩ := (g1_isCyclic.contains_iff p).mp hp
  obtain ⟨k', rfl⟩ := (g1_isCyclic.contains_iff p').mp hp'
  rw [g1Scalar_multiple, g1Scalar_multiple, ← g1Scalar_multiple (k + k'),
    ← g1_isCyclic.multiple_add]
  rfl

theorem g2Scalar_add {q q' : Point Fq2} (hq : g2.contains q = true)
    (hq' : g2.contains q' = true) : g2Scalar (q.add q') = g2Scalar q + g2Scalar q' := by
  obtain ⟨k, rfl⟩ := (g2_isCyclic.contains_iff q).mp hq
  obtain ⟨k', rfl⟩ := (g2_isCyclic.contains_iff q').mp hq'
  rw [g2Scalar_multiple, g2Scalar_multiple, ← g2Scalar_multiple (k + k'),
    ← g2_isCyclic.multiple_add]
  rfl

theorem isPairing_scalarPairing : IsPairing scalarPairing where
  add_left hp hp' _ := by
    rw [scalarPairing, g1Scalar_add hp hp', add_mul]
    rfl
  add_right _ hq hq' := by
    rw [scalarPairing, g2Scalar_add hq hq', mul_add]
    rfl
  nondegenerate h := by
    have h1 := g1Scalar_multiple 1
    have h2 := g2Scalar_multiple 1
    rw [g1_isCyclic.multiple_one] at h1
    rw [g2_isCyclic.multiple_one] at h2
    have hone : g1Scalar g1Generator * g2Scalar g2Generator = 0 := h
    change g1Scalar g1Generator = 1 at h1
    change g2Scalar g2Generator = 1 at h2
    rw [h1, h2, mul_one] at hone
    exact one_ne_zero hone

theorem compares_sameScalarPairing : Compares sameScalarPairing scalarPairing := by
  intro p p' q q' _ _ _ _
  rw [sameScalarPairing, decide_eq_true_iff]
  exact Multiplicative.ofAdd.injective.eq_iff.symm

end ThresholdBls.Bn254
