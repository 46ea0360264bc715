import ThresholdBls.Proofs.Bn254.Pairing
import ThresholdBls.Proofs.Signing

/-!
# Verification by hints

A hint is trusted as soon as it describes a point of the curve.  Signatures are
then verified on that point, whether or not it is the point of the digest.
-/

namespace ThresholdBls.Bn254

variable {T : Type} [CommGroup T] {e : Point Fq → Point Fq2 → T}
  {same : Point Fq → Point Fq2 → Point Fq → Point Fq2 → Bool}

/-- Verification by a hint is sound exactly where the hint describes no other point of the curve
than that of the digest. -/
theorem hinted_verification_sound_iff (he : IsPairing e) (hsame : Compares same e)
    (digest : Digest) (hint : Hint fieldSize) :
    (∀ (signature : Point Fq) (publicKey : Point Fq2),
      (suiteWith same).verifyHinted digest signature hint publicKey = .ok true →
        (suiteWith same).verify digest signature publicKey = .ok true) ↔
      ∀ point, pointOfHint digest hint = .ok point → point = (hashPoint digest).1 :=
  Suite.hinted_sound_iff (he.testsProducts hsame) (requireUsable_hashPoint digest)
    fun _ => requireUsable_of_pointOfHint

theorem hinted_verification_sound_iff_digestOne :
    (∀ (signature : Point Fq) (publicKey : Point Fq2),
      (suiteWith sameScalarPairing).verifyHinted digestOne signature
          ⟨Residue.ofNat fieldSize 2, 0⟩ publicKey = .ok true →
        (suiteWith sameScalarPairing).verify digestOne signature publicKey = .ok true) ∧
      ¬ ∀ (signature : Point Fq) (publicKey : Point Fq2),
        (suiteWith sameScalarPairing).verifyHinted digestOne signature
            ⟨-Residue.ofNat fieldSize 2, 0⟩ publicKey = .ok true →
          (suiteWith sameScalarPairing).verify digestOne signature publicKey = .ok true := by
  constructor
  · refine (hinted_verification_sound_iff isPairing_scalarPairing compares_sameScalarPairing
      digestOne ⟨Residue.ofNat fieldSize 2, 0⟩).mpr fun point hpoint => ?_
    have hhash : pointOfHint digestOne ⟨Residue.ofNat fieldSize 2, 0⟩ =
        .ok (hashPoint digestOne).1 := by
      decide +kernel
    exact Except.ok.inj (hpoint.symm.trans hhash)
  · intro hsound
    have hpoints := (hinted_verification_sound_iff isPairing_scalarPairing
      compares_sameScalarPairing digestOne ⟨-Residue.ofNat fieldSize 2, 0⟩).mp hsound
    have hsame := hpoints (g1Generator.neg) (by decide +kernel)
    revert hsame
    decide +kernel

/-- With the pairing itself, the negative of the generator passes for a signature on the digest
one by the key of the generator, although the search refuses it. -/
theorem hinted_verification_unsound :
    suite.verifyHinted digestOne g1Generator.neg ⟨-Residue.ofNat fieldSize 2, 0⟩ g2Generator =
        .ok true ∧
      suite.verify digestOne g1Generator.neg g2Generator = .ok false := by
  constructor
  · decide +kernel
  · decide +kernel

end ThresholdBls.Bn254
