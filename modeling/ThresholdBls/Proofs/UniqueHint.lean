import ThresholdBls.Proofs.AcceptedShares
import ThresholdBls.Proofs.Bn254.FirstPoint

/-!
# One hint is accepted

Many hints describe points of the curve, but a valid signature passes only on
the point of the digest, to which one hint leads.  What is no signature or no
public key at all is refused alike with every hint and without one.
-/

namespace ThresholdBls

theorem PairingGroup.error_of_requireUsable {order : Nat} {G : PairingGroup order}
    {element : G.Element} {error : Error} (h : G.requireUsable element = .error error) :
    error = .identityElement ∨ error = .nonPrimeOrderElement := by
  unfold requireUsable at h
  split at h
  · cases h
    exact .inl rfl
  · split at h
    · cases h
    · cases h
      exact .inr rfl

namespace Suite

variable {S : Suite} {digest : Digest} {signature : S.g1.Element} {publicKey : S.g2.Element}

theorem refused_alike
    (h : (signature = S.g1.identity ∨ S.g1.contains signature = false) ∨
      publicKey = S.g2.identity ∨ S.g2.contains publicKey = false) :
    ∃ error, (error = .identityElement ∨ error = .nonPrimeOrderElement) ∧
      S.verify digest signature publicKey = .error error ∧
      ∀ hint, S.verifyHinted digest signature hint publicKey = .error error := by
  cases hsignature : S.g1.requireUsable signature with
  | error error =>
      refine ⟨error, PairingGroup.error_of_requireUsable hsignature, ?_, fun hint => ?_⟩
      · rw [verify, hsignature]
        rfl
      · rw [verifyHinted, hsignature]
        rfl
  | ok _ =>
      cases hkey : S.g2.requireUsable publicKey with
      | error error =>
          refine ⟨error, PairingGroup.error_of_requireUsable hkey, ?_, fun hint => ?_⟩
          · rw [verify, hsignature, hkey]
            rfl
          · rw [verifyHinted, hsignature, hkey]
            rfl
      | ok _ =>
          obtain ⟨hsignature_ne, hsignature_mem⟩ :=
            PairingGroup.usable_of_requireUsable hsignature
          obtain ⟨hkey_ne, hkey_mem⟩ := PairingGroup.usable_of_requireUsable hkey
          simp [hsignature_ne, hsignature_mem, hkey_ne, hkey_mem] at h

variable [S.Lawful]

theorem verify_hashPoint (hS : S.TestsProducts)
    (hhash : S.g1.requireUsable (S.hashPoint digest).1 = .ok ()) :
    S.verify digest (S.hashPoint digest).1 S.g2.generator = .ok true := by
  obtain ⟨h, hh, hpoint⟩ := (Lawful.g1_cyclic.requireUsable_eq_ok_iff _).mp hhash
  have hvalid := verify_product hS hpoint.symm hh one_ne_zero
  rwa [mul_one, hpoint, Lawful.g2_cyclic.multiple_one] at hvalid

theorem verifyHinted_of_verify (hS : S.TestsProducts)
    (hhash : S.g1.requireUsable (S.hashPoint digest).1 = .ok ()) {hint : Hint S.fieldSize}
    (hhint : ∀ point, S.pointOfHint digest hint = .ok point → S.g1.requireUsable point = .ok ())
    (h : S.verify digest signature publicKey = .ok true) :
    S.verifyHinted digest signature hint publicKey =
      (S.pointOfHint digest hint).map fun point => decide (point = (S.hashPoint digest).1) := by
  obtain ⟨l, hl, hpoint⟩ := (Lawful.g1_cyclic.requireUsable_eq_ok_iff _).mp hhash
  obtain ⟨⟨⟩, -, hrest⟩ := bind_eq_ok_iff.mp h
  obtain ⟨⟨⟩, hkey, -⟩ := bind_eq_ok_iff.mp hrest
  obtain ⟨k, hk, rfl⟩ := (Lawful.g2_cyclic.requireUsable_eq_ok_iff publicKey).mp hkey
  rw [(verify_eq_true_iff hS hpoint.symm hl hk).mp h]
  exact verifyHinted_eq_map hS hpoint.symm hl hk hint hhint

end Suite

/-! ## The suite BN254 -/

namespace Bn254

variable {T : Type} [CommGroup T] {e : Point Fq → Point Fq2 → T}
  {same : Point Fq → Point Fq2 → Point Fq → Point Fq2 → Bool}

theorem pointOfHint_eq_error {digest : Digest} {hint : Hint fieldSize} {error : Error}
    (h : pointOfHint digest hint = .error error) : error = .hintMismatch := by
  rw [pointOfHint_eq] at h
  split at h
  · cases h
  · cases h
    rfl

/-- A valid signature is accepted with the hint of its digest and with no other hint.  Identities
and elements outside the groups are refused with one error, whatever the hint. -/
theorem one_hint_accepted (he : IsPairing e) (hsame : Compares same e) (digest : Digest) :
    (EndsInTime digest → ∀ (signature : Point Fq) (publicKey : Point Fq2),
      (suiteWith same).verify digest signature publicKey = .ok true →
      ∀ hint : Hint fieldSize,
        ((suiteWith same).verifyHinted digest signature hint publicKey = .ok true ↔
          hint = (hashPoint digest).2) ∧
        (hint ≠ (hashPoint digest).2 →
          (suiteWith same).verifyHinted digest signature hint publicKey = .ok false ∨
          (suiteWith same).verifyHinted digest signature hint publicKey =
            .error .hintMismatch)) ∧
    ∀ (signature : Point Fq) (publicKey : Point Fq2),
      (signature = .infinity ∨ g1.contains signature = false) ∨
        publicKey = .infinity ∨ g2.contains publicKey = false →
      ∃ error, (error = .identityElement ∨ error = .nonPrimeOrderElement) ∧
        (suiteWith same).verify digest signature publicKey = .error error ∧
        ∀ hint : Hint fieldSize,
          (suiteWith same).verifyHinted digest signature hint publicKey = .error error := by
  refine ⟨?_, fun signature publicKey h => Suite.refused_alike (S := suiteWith same) h⟩
  intro hends signature publicKey hverify hint
  have hunique : pointOfHint digest hint = .ok (hashPoint digest).1 ↔
      hint = (hashPoint digest).2 :=
    pointOfHint_eq_hashPoint_iff (shift_lt_of_endsInTime hends)
  have houtcome : (suiteWith same).verifyHinted digest signature hint publicKey =
      (pointOfHint digest hint).map fun point => decide (point = (hashPoint digest).1) :=
    Suite.verifyHinted_of_verify (he.testsProducts hsame) (requireUsable_hashPoint digest)
      (fun _ => requireUsable_of_pointOfHint) hverify
  refine ⟨?_, fun hne => ?_⟩
  · rw [houtcome, map_decide_eq_ok_iff]
    exact hunique
  · cases hpoint : pointOfHint digest hint with
    | error error =>
        right
        rw [houtcome, hpoint, pointOfHint_eq_error hpoint]
        rfl
    | ok point =>
        left
        have hother : point ≠ (hashPoint digest).1 := by
          rintro rfl
          exact hne (hunique.mp hpoint)
        rw [houtcome, hpoint]
        exact congrArg Except.ok (decide_eq_false hother)

/-- The negated ordinate in the hint of a digest describes a point of the curve, too. -/
theorem one_hint_accepted_digestAboveField :
    (suiteWith sameScalarPairing).verifyHinted digestAboveField (hashPoint digestAboveField).1
        (hashPoint digestAboveField).2 g2Generator = .ok true ∧
      (suiteWith sameScalarPairing).verifyHinted digestAboveField (hashPoint digestAboveField).1
        ⟨-(hashPoint digestAboveField).2.y, 3⟩ g2Generator ≠ .ok true ∧
      ∃ error, (suiteWith sameScalarPairing).verify digestAboveField .infinity g2Generator =
          .error error ∧
        (suiteWith sameScalarPairing).verifyHinted digestAboveField .infinity ⟨0, 0⟩
          g2Generator = .error error := by
  have hS := isPairing_scalarPairing.testsProducts compares_sameScalarPairing
  have hverify : (suiteWith sameScalarPairing).verify digestAboveField
      (hashPoint digestAboveField).1 g2Generator = .ok true :=
    Suite.verify_hashPoint hS (requireUsable_hashPoint digestAboveField)
  obtain ⟨haccepted, hrefused⟩ :=
    one_hint_accepted isPairing_scalarPairing compares_sameScalarPairing digestAboveField
  obtain ⟨error, -, herror, hhinted⟩ := hrefused .infinity g2Generator (.inl (.inl rfl))
  have hne : (⟨-(hashPoint digestAboveField).2.y, 3⟩ : Hint fieldSize) ≠
      (hashPoint digestAboveField).2 := by
    decide +kernel
  have hone := haccepted endsInTime_digestAboveField _ _ hverify
  exact ⟨(hone _).1.mpr rfl, mt (hone _).1.mp hne, error, herror, hhinted ⟨0, 0⟩⟩

end Bn254

end ThresholdBls
