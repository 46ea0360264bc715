import ThresholdBls.Key.Share
import ThresholdBls.Proofs.ShareSet.Checked

/-!
# Signing and verifying on scalars

Where the point of a digest is a multiple of the generator, so is every
signature on it, and a signature verifies if its scalar is the product of those
of the point and of the public key.
-/

namespace ThresholdBls

variable {S : Suite} [S.Lawful]

section Verify

variable {digest : Digest} {h s k : S.Scalar}

theorem Suite.verify_multiples (hS : S.TestsProducts)
    (hpoint : (S.hashPoint digest).1 = S.g1.generator * h) (hs : s ≠ 0) (hk : k ≠ 0) :
    S.verify digest (S.g1.generator * s) (S.g2.generator * k) = .ok (decide (s = h * k)) := by
  have hsignature := Lawful.g1_cyclic.requireUsable_multiple hs
  have hkey := Lawful.g2_cyclic.requireUsable_multiple hk
  simp only [verify, hsignature, hkey, hpoint]
  exact congrArg Except.ok (signatureHolds_multiples hS s h k)

theorem Suite.verifyHinted_multiples (hS : S.TestsProducts) {hint : Hint S.fieldSize}
    (hpoint : S.pointOfHint digest hint = .ok (S.g1.generator * h)) (hs : s ≠ 0) (hk : k ≠ 0) :
    S.verifyHinted digest (S.g1.generator * s) hint (S.g2.generator * k) =
      .ok (decide (s = h * k)) := by
  have hsignature := Lawful.g1_cyclic.requireUsable_multiple hs
  have hkey := Lawful.g2_cyclic.requireUsable_multiple hk
  simp only [verifyHinted, hsignature, hkey, hpoint]
  exact congrArg Except.ok (signatureHolds_multiples hS s h k)

/-- Which of three answers a signature gets: only that of the key itself is valid. -/
theorem Suite.verify_eq (hS : S.TestsProducts)
    (hpoint : (S.hashPoint digest).1 = S.g1.generator * h) (hk : k ≠ 0) (element : S.g1.Element) :
    S.verify digest element (S.g2.generator * k) =
      if element = S.g1.identity then .error .identityElement
      else if S.g1.contains element then .ok (decide (element = S.g1.generator * (h * k)))
      else .error .nonPrimeOrderElement := by
  by_cases hidentity : element = S.g1.identity
  · rw [if_pos hidentity, hidentity, verify, PairingGroup.requireUsable_identity]
    rfl
  · rw [if_neg hidentity]
    cases hcontains : S.g1.contains element with
    | false =>
        have hrefused : S.g1.requireUsable element = .error .nonPrimeOrderElement := by
          simp [PairingGroup.requireUsable, hidentity, hcontains]
        rw [verify, hrefused]
        rfl
    | true =>
        obtain ⟨s, rfl⟩ := (Lawful.g1_cyclic.contains_iff element).mp hcontains
        have hs : s ≠ 0 := mt (Lawful.g1_cyclic.multiple_eq_identity_iff s).mpr hidentity
        rw [verify_multiples hS hpoint hs hk, if_pos rfl,
          decide_eq_decide.mpr Lawful.g1_cyclic.multiple_inj]

theorem Suite.verify_product (hS : S.TestsProducts)
    (hpoint : (S.hashPoint digest).1 = S.g1.generator * h) (hh : h ≠ 0) (hk : k ≠ 0) :
    S.verify digest (S.g1.generator * (h * k)) (S.g2.generator * k) = .ok true := by
  rw [verify_multiples hS hpoint (mul_ne_zero hh hk) hk, decide_eq_true rfl]

theorem Suite.verifyHinted_product (hS : S.TestsProducts) {hint : Hint S.fieldSize}
    (hpoint : S.pointOfHint digest hint = .ok (S.g1.generator * h)) (hh : h ≠ 0) (hk : k ≠ 0) :
    S.verifyHinted digest (S.g1.generator * (h * k)) hint (S.g2.generator * k) = .ok true := by
  rw [verifyHinted_multiples hS hpoint (mul_ne_zero hh hk) hk, decide_eq_true rfl]

theorem Suite.verifyHinted_generator (hS : S.TestsProducts) {hint : Hint S.fieldSize}
    (hpoint : S.pointOfHint digest hint = .ok (S.g1.generator * h)) (hh : h ≠ 0) :
    S.verifyHinted digest (S.g1.generator * h) hint S.g2.generator = .ok true := by
  have hvalid := verifyHinted_product hS hpoint hh one_ne_zero
  rw [mul_one, Lawful.g2_cyclic.multiple_one] at hvalid
  exact hvalid

theorem Suite.exists_of_verifyHinted_eq_ok {hint : Hint S.fieldSize} {signature : S.g1.Element}
    {publicKey : S.g2.Element} {holds : Bool}
    (hok : S.verifyHinted digest signature hint publicKey = .ok holds) :
    ∃ s k : S.Scalar, ∃ point, s ≠ 0 ∧ k ≠ 0 ∧ S.g1.generator * s = signature ∧
      S.g2.generator * k = publicKey ∧ S.pointOfHint digest hint = .ok point := by
  obtain ⟨⟨⟩, hsignature, hok⟩ := bind_eq_ok_iff.mp hok
  obtain ⟨⟨⟩, hkey, hok⟩ := bind_eq_ok_iff.mp hok
  obtain ⟨point, hpoint, -⟩ := bind_eq_ok_iff.mp hok
  obtain ⟨s, hs, hsmul⟩ := (Lawful.g1_cyclic.requireUsable_eq_ok_iff signature).mp hsignature
  obtain ⟨k, hk, hkmul⟩ := (Lawful.g2_cyclic.requireUsable_eq_ok_iff publicKey).mp hkey
  exact ⟨s, k, point, hs, hk, hsmul, hkmul, hpoint⟩

theorem Suite.verify_of_verifyHinted (hS : S.TestsProducts) {hint : Hint S.fieldSize}
    {signature point : S.g1.Element} {publicKey : S.g2.Element}
    (hhash : S.g1.requireUsable (S.hashPoint digest).1 = .ok ())
    (hpoint : S.pointOfHint digest hint = .ok point) (husable : S.g1.requireUsable point = .ok ())
    (hok : S.verifyHinted digest signature hint publicKey = .ok true) :
    S.verify digest signature publicKey = .ok (decide (point = (S.hashPoint digest).1)) := by
  obtain ⟨h, -, hmul⟩ := (Lawful.g1_cyclic.requireUsable_eq_ok_iff _).mp hhash
  obtain ⟨p, -, rfl⟩ := (Lawful.g1_cyclic.requireUsable_eq_ok_iff _).mp husable
  obtain ⟨s, k, -, hs, hk, rfl, rfl, -⟩ := exists_of_verifyHinted_eq_ok hok
  have hproduct : s = p * k := by
    rw [verifyHinted_multiples hS hpoint hs hk, Except.ok.injEq] at hok
    exact of_decide_eq_true hok
  have hsame : s = h * k ↔ S.g1.generator * p = (S.hashPoint digest).1 := by
    rw [hproduct, mul_left_inj' hk, ← hmul, Lawful.g1_cyclic.multiple_inj]
  rw [verify_multiples hS hmul.symm hs hk, decide_eq_decide.mpr hsame]

/-- Verification by a hint is sound exactly where the hint describes no usable point but that of
the digest. -/
theorem Suite.hinted_sound_iff (hS : S.TestsProducts) {hint : Hint S.fieldSize}
    (hhash : S.g1.requireUsable (S.hashPoint digest).1 = .ok ())
    (hhint : ∀ point, S.pointOfHint digest hint = .ok point →
      S.g1.requireUsable point = .ok ()) :
    (∀ signature publicKey, S.verifyHinted digest signature hint publicKey = .ok true →
        S.verify digest signature publicKey = .ok true) ↔
      ∀ point, S.pointOfHint digest hint = .ok point → point = (S.hashPoint digest).1 := by
  constructor
  · intro hsound point hpoint
    have husable := hhint point hpoint
    have hhinted : S.verifyHinted digest point hint S.g2.generator = .ok true := by
      obtain ⟨p, hp, rfl⟩ := (Lawful.g1_cyclic.requireUsable_eq_ok_iff _).mp husable
      exact verifyHinted_generator hS hpoint hp
    have hverify := hsound point S.g2.generator hhinted
    rw [verify_of_verifyHinted hS hhash hpoint husable hhinted, Except.ok.injEq] at hverify
    exact of_decide_eq_true hverify
  · intro hpoints signature publicKey hok
    obtain ⟨-, -, point, -, -, -, -, hpoint⟩ := exists_of_verifyHinted_eq_ok hok
    rw [verify_of_verifyHinted hS hhash hpoint (hhint point hpoint) hok,
      decide_eq_true (hpoints point hpoint)]

end Verify

section Sign

variable {digest : Digest} {h k : S.Scalar} (hh : h ≠ 0) (hk : k ≠ 0)
  (hpoint : (S.hashPoint digest).1 = S.g1.generator * h)

include hh hk hpoint

omit hh in
theorem Suite.sign_eq_ok : S.sign (S.hashPoint digest).1 k = .ok (S.g1.generator * (h * k)) := by
  rw [sign, if_neg hk, hpoint, Lawful.g1_cyclic.multiple_mul]

theorem PrivateKey.sign_eq_ok :
    (⟨k⟩ : PrivateKey S).sign digest =
      .ok ⟨S.g1.generator * (h * k), (S.hashPoint digest).2⟩ := by
  have hsign := Suite.sign_eq_ok hk hpoint
  have hcreate := Signature.create_multiple (h * k) (S.hashPoint digest).2
  rw [if_neg (mul_ne_zero hh hk)] at hcreate
  simp only [sign, hsign]
  exact hcreate

theorem PrivateKeyShare.sign_eq_ok {index : UInt16} {params : Params}
    (hindex : params.requireIndex index = .ok ()) :
    (⟨⟨k⟩, index, params⟩ : PrivateKeyShare S).sign digest =
      .ok ⟨⟨S.g1.generator * (h * k), (S.hashPoint digest).2⟩, index, params⟩ := by
  simp only [sign, PrivateKey.sign_eq_ok hh hk hpoint]
  exact SignatureShare.ofSignature_eq_ok_iff.mpr ⟨hindex, rfl⟩

end Sign

omit [S.Lawful] in
theorem PrivateKeyShare.create_eq_ok {k : S.Scalar} (hk : k ≠ 0) {index : UInt16}
    {params : Params} (hindex : params.requireIndex index = .ok ()) :
    PrivateKeyShare.create k index params = .ok ⟨⟨k⟩, index, params⟩ := by
  have hcreate : PrivateKey.create k = .ok ⟨k⟩ := if_neg hk
  simp only [create, hindex, hcreate]
  rfl

theorem PublicKey.create_multiple {k : S.Scalar} (hk : k ≠ 0) :
    PublicKey.create (S.g2.generator * k) = .ok ⟨S.g2.generator * k⟩ := by
  simp only [create, Suite.Lawful.g2_cyclic.requireUsable_multiple hk]
  rfl

theorem PublicKey.create_multiple_zero :
    PublicKey.create (S.g2.generator * (0 : S.Scalar)) = .error .identityElement := by
  rw [Suite.Lawful.g2_cyclic.multiple_zero, create, PairingGroup.requireUsable_identity]
  rfl

omit [S.Lawful] in
theorem PublicKeyShare.create_eq_ok_iff {element : S.g2.Element} {index : UInt16}
    {params : Params} {checker : PublicKeyShare S} :
    create element index params = .ok checker ↔
      params.requireIndex index = .ok () ∧ S.g2.requireUsable element = .ok () ∧
        checker = ⟨⟨element⟩, index, params⟩ := by
  rw [create, bind_eq_ok_iff]
  constructor
  · rintro ⟨⟨⟩, hindex, hchecker⟩
    obtain ⟨key, hkey, hchecker⟩ := bind_eq_ok_iff.mp hchecker
    obtain ⟨⟨⟩, husable, hkey⟩ := bind_eq_ok_iff.mp hkey
    cases hkey
    exact ⟨hindex, husable, (pure_eq_ok_iff.mp hchecker).symm⟩
  · rintro ⟨hindex, husable, rfl⟩
    exact ⟨(), hindex, bind_eq_ok_iff.mpr ⟨⟨element⟩, bind_eq_ok_iff.mpr ⟨(), husable, rfl⟩, rfl⟩⟩

end ThresholdBls
