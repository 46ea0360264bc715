import ThresholdBls.Proofs.Text.Canonical
import ThresholdBls.Proofs.UniqueHint

/-!
# Proofs of possession

A proof of possession signs the text of the signer's own public key.  The
prover and the verifier make this text each from the key, and no two keys have
the same.  So under a key one proof is valid, which is the one that its secret
makes.
-/

namespace ThresholdBls

/-! ## The bytes of a text -/

/-- The loop collects in reverse, and what it has still to read stands in the array from the
index on. -/
theorem toList_loop_eq (bytes : ByteArray) (i : Nat) (collected : List UInt8) :
    ByteArray.toList.loop bytes i collected =
      collected.reverse ++ bytes.data.toList.drop i := by
  fun_induction ByteArray.toList.loop bytes i collected with
  | case1 i collected hi ih =>
      have hlength : i < bytes.data.toList.length := by simpa using hi
      have hget : bytes.get! i = bytes.data.toList[i] := getElem!_pos bytes.data i hi
      rw [ih, List.reverse_cons, List.append_assoc, List.singleton_append, hget,
        ← List.drop_eq_getElem_cons hlength]
  | case2 i collected hi =>
      have hlength : bytes.data.toList.length ≤ i := by simpa using hi
      rw [List.drop_eq_nil_of_le hlength, List.append_nil]

theorem toList_toUTF8_injective : Function.Injective fun s : String => s.toUTF8.toList := by
  intro s s' h
  have htoList (bytes : ByteArray) : bytes.toList = bytes.data.toList := by
    rw [ByteArray.toList, toList_loop_eq, List.reverse_nil, List.nil_append, List.drop_zero]
  simp only [htoList, Array.toList_inj, String.toUTF8_eq_toByteArray] at h
  exact String.toByteArray_inj.mp (ByteArray.ext h)

/-! ## Proving and verifying -/

namespace Suite

variable {S : Suite}

section Message

variable (hS : S.g2.CanonicalCoordinates)

include hS

theorem exists_possessionMessage {publicKey : S.g2.Element} (h : publicKey ≠ S.g2.identity) :
    ∃ message, S.possessionMessage publicKey = .ok message ∧
      S.possessionDigest publicKey = .ok (S.hash message) := by
  obtain ⟨s, hs⟩ := hS.exists_render h
  have hmessage : S.possessionMessage publicKey = .ok s.toUTF8.toList := by
    rw [possessionMessage, hs]
    rfl
  refine ⟨_, hmessage, ?_⟩
  rw [possessionDigest, hmessage]
  rfl

theorem possessionMessage_ne {publicKey publicKey' : S.g2.Element}
    {message message' : List UInt8} (h : S.g2.contains publicKey = true)
    (h' : S.g2.contains publicKey' = true) (hne : publicKey ≠ publicKey')
    (hmessage : S.possessionMessage publicKey = .ok message)
    (hmessage' : S.possessionMessage publicKey' = .ok message') : message ≠ message' := by
  rintro rfl
  obtain ⟨s, hs, hbytes⟩ := bind_eq_ok_iff.mp hmessage
  obtain ⟨s', hs', hbytes'⟩ := bind_eq_ok_iff.mp hmessage'
  have hsame : s = s' :=
    toList_toUTF8_injective ((pure_eq_ok_iff.mp hbytes).trans (pure_eq_ok_iff.mp hbytes').symm)
  rw [← hsame] at hs'
  exact hne (hS.eq_of_render_eq_ok h h' hs hs')

end Message

theorem verifyPossession_refused {publicKey : S.g2.Element}
    (h : publicKey = S.g2.identity ∨ S.g2.contains publicKey = false) :
    ∃ error, (error = .identityElement ∨ error = .nonPrimeOrderElement) ∧
      ∀ proof, S.verifyPossession publicKey proof = .error error := by
  cases hkey : S.g2.requireUsable publicKey with
  | error error =>
      refine ⟨error, PairingGroup.error_of_requireUsable hkey, fun proof => ?_⟩
      rw [verifyPossession, hkey]
      rfl
  | ok _ =>
      obtain ⟨hne, hmem⟩ := PairingGroup.usable_of_requireUsable hkey
      simp [hne, hmem] at h

end Suite

section Prove

variable {S : Suite} [S.Lawful] {digest : Digest} {h k : S.Scalar} (hk : k ≠ 0)
  (hdigest : S.possessionDigest (S.g2.generator * k) = .ok digest)

include hk hdigest

theorem Suite.verifyPossession_multiple (proof : S.g1.Element) :
    S.verifyPossession (S.g2.generator * k) proof =
      S.verify digest proof (S.g2.generator * k) := by
  rw [verifyPossession, Lawful.g2_cyclic.requireUsable_multiple hk, hdigest]
  rfl

variable (hpoint : (S.hashPoint digest).1 = S.g1.generator * h)

include hpoint

theorem Suite.provePossession_eq_ok :
    S.provePossession k = .ok (S.g1.generator * (h * k)) := by
  rw [provePossession, if_neg hk, hdigest]
  exact sign_eq_ok hk hpoint

variable (hh : h ≠ 0)

include hh

theorem PrivateKey.provePossession_eq_ok :
    (⟨k⟩ : PrivateKey S).provePossession =
      .ok ⟨S.g1.generator * (h * k), (S.hashPoint digest).2⟩ := by
  rw [provePossession, publicKey, hdigest]
  exact sign_eq_ok hh hk hpoint

theorem Suite.verifyPossession_eq_true_iff (hS : S.TestsProducts) (proof : S.g1.Element) :
    S.verifyPossession (S.g2.generator * k) proof = .ok true ↔
      proof = S.g1.generator * (h * k) := by
  rw [verifyPossession_multiple hk hdigest]
  exact verify_eq_true_iff hS hpoint hh hk

end Prove

/-! ## The suite BN254 -/

namespace Bn254

variable {T : Type} [CommGroup T] {e : Point Fq → Point Fq2 → T}
  {same : Point Fq → Point Fq2 → Point Fq → Point Fq2 → Bool}

theorem exists_possessionDigest (same : Point Fq → Point Fq2 → Point Fq → Point Fq2 → Bool)
    {sk : Fr} (hsk : sk ≠ 0) :
    ∃ (digest : Digest) (h : Fr), h ≠ 0 ∧
      (suiteWith same).possessionDigest (g2.generator * sk) = .ok digest ∧
      ((suiteWith same).hashPoint digest).1 = g1.generator * h := by
  have hcanonical : (suiteWith same).g2.CanonicalCoordinates := g2_canonicalCoordinates
  have hkey := mt (g2_isCyclic.multiple_eq_identity_iff sk).mp hsk
  obtain ⟨message, -, hdigest⟩ := Suite.exists_possessionMessage hcanonical hkey
  obtain ⟨h, hh, hpoint⟩ := exists_hashPoint_suiteWith same (Sha256.hash message)
  exact ⟨_, h, hh, hdigest, hpoint⟩

theorem exists_provePossession (he : IsPairing e) (hsame : Compares same e)
    {key : PrivateKey (suiteWith same)} (hkey : key.scalar ≠ 0) :
    ∃ proof, key.provePossession = .ok proof ∧
      ∀ other : Signature (suiteWith same),
        key.publicKey.verifyPossession other = .ok true ↔ other.element = proof.element := by
  obtain ⟨digest, h, hh, hdigest, hpoint⟩ := exists_possessionDigest same hkey
  refine ⟨_, PrivateKey.provePossession_eq_ok hkey hdigest hpoint hh, fun other => ?_⟩
  exact Suite.verifyPossession_eq_true_iff hkey hdigest hpoint hh (he.testsProducts hsame) _

/-- Under a public key one proof of possession is valid, which is the one that its secret makes.
Elements that are no public keys have none, and different public keys have different bytes
signed. -/
theorem one_possession_proof (he : IsPairing e) (hsame : Compares same e) :
    (∀ sk : Fr, sk ≠ 0 → ∃ (digest : Digest) (proof : Point Fq),
      (suiteWith same).possessionDigest (g2.generator * sk) = .ok digest ∧
      (suiteWith same).provePossession sk = .ok proof ∧
      PrivateKey.provePossession (S := suiteWith same) ⟨sk⟩ =
        .ok ⟨proof, (hashPoint digest).2⟩ ∧
      ∀ p : Point Fq,
        (suiteWith same).verifyPossession (g2.generator * sk) p = .ok true ↔ p = proof) ∧
    (∀ pk : Point Fq2, pk = .infinity ∨ g2.contains pk = false →
      ∃ error, (error = .identityElement ∨ error = .nonPrimeOrderElement) ∧
        ∀ p : Point Fq, (suiteWith same).verifyPossession pk p = .error error) ∧
    ∀ pk pk' : Point Fq2, g2.Usable pk → g2.Usable pk' → pk ≠ pk' →
      ∃ message message',
        (suiteWith same).possessionMessage pk = .ok message ∧
        (suiteWith same).possessionDigest pk = .ok (Sha256.hash message) ∧
        (suiteWith same).possessionMessage pk' = .ok message' ∧
        (suiteWith same).possessionDigest pk' = .ok (Sha256.hash message') ∧
        message ≠ message' := by
  have hcanonical : (suiteWith same).g2.CanonicalCoordinates := g2_canonicalCoordinates
  refine ⟨fun sk hsk => ?_, fun pk => Suite.verifyPossession_refused (S := suiteWith same), ?_⟩
  · obtain ⟨digest, h, hh, hdigest, hpoint⟩ := exists_possessionDigest same hsk
    exact ⟨digest, _, hdigest, Suite.provePossession_eq_ok hsk hdigest hpoint,
      PrivateKey.provePossession_eq_ok hsk hdigest hpoint hh,
      Suite.verifyPossession_eq_true_iff hsk hdigest hpoint hh (he.testsProducts hsame)⟩
  · rintro pk pk' ⟨hne, hmem⟩ ⟨hne', hmem'⟩ hdiffer
    obtain ⟨message, hmessage, hdigest⟩ := Suite.exists_possessionMessage hcanonical hne
    obtain ⟨message', hmessage', hdigest'⟩ := Suite.exists_possessionMessage hcanonical hne'
    exact ⟨message, message', hmessage, hdigest, hmessage', hdigest',
      Suite.possessionMessage_ne hcanonical hmem hmem' hdiffer hmessage hmessage'⟩

theorem one_possession_proof_ofTwo :
    ∃ (digest : Digest) (proof : Point Fq) (message message' : List UInt8),
      (suiteWith sameScalarPairing).provePossession (Residue.ofNat order 2) = .ok proof ∧
      PrivateKey.provePossession (S := suiteWith sameScalarPairing) ⟨Residue.ofNat order 2⟩ =
        .ok ⟨proof, (hashPoint digest).2⟩ ∧
      (∀ p : Point Fq, (suiteWith sameScalarPairing).verifyPossession
        (g2.generator * Residue.ofNat order 2) p = .ok true ↔ p = proof) ∧
      (∃ error, (suiteWith sameScalarPairing).verifyPossession .infinity proof =
        .error error) ∧
      (suiteWith sameScalarPairing).possessionMessage (g2.generator * Residue.ofNat order 2) =
        .ok message ∧
      (suiteWith sameScalarPairing).possessionMessage g2Generator = .ok message' ∧
      message ≠ message' := by
  have hone_ne : (1 : Fr) ≠ 0 := one_ne_zero
  have htwo_ne : Residue.ofNat order 2 ≠ 0 := by decide +kernel
  have hdiffer : Residue.ofNat order 2 ≠ 1 := by decide +kernel
  have htwo : g2.Usable (g2.generator * Residue.ofNat order 2) :=
    PairingGroup.usable_of_requireUsable (g2_isCyclic.requireUsable_multiple htwo_ne)
  have hone : g2.Usable (g2.generator * (1 : Fr)) :=
    PairingGroup.usable_of_requireUsable (g2_isCyclic.requireUsable_multiple hone_ne)
  obtain ⟨hproofs, hrefused, hbytes⟩ :=
    one_possession_proof isPairing_scalarPairing compares_sameScalarPairing
  obtain ⟨digest, proof, -, hproof, hsignature, hverify⟩ := hproofs _ htwo_ne
  obtain ⟨error, -, herror⟩ := hrefused .infinity (.inl rfl)
  obtain ⟨message, message', hmessage, -, hmessage', -, hne⟩ :=
    hbytes _ _ htwo hone (mt g2_isCyclic.multiple_inj.mp hdiffer)
  rw [g2_isCyclic.multiple_one] at hmessage'
  exact ⟨digest, proof, message, message', hproof, hsignature, hverify, ⟨error, herror proof⟩,
    hmessage, hmessage', hne⟩

end Bn254

end ThresholdBls
