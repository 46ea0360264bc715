import ThresholdBls.Proofs.Bn254.Pairing
import ThresholdBls.Proofs.Signing
import ThresholdBls.Proofs.WrittenForm

/-!
# One signature is valid

Under a public key, each digest has one valid signature, which is the one that
the secret makes.  Its coordinates have one spelling, so that every text that
names other coordinates is refused.
-/

namespace ThresholdBls

namespace Signature

open Bn254

variable {same : Point Fq → Point Fq2 → Point Fq → Point Fq2 → Bool}

theorem take_split_of_parse {text : String} {signature : Signature (suiteWith same)}
    (h : parse text = .ok signature) :
    ∃ a c : Fq, signature.element = .affine a c ∧
      (Segments.split text).take 2 = [a.toDecimal, c.toDecimal] := by
  obtain ⟨x, y, hintY, hintShift, hsplit, helement, -⟩ := exists_segments_of_parse h
  obtain ⟨a, c, haffine, rfl, rfl⟩ := exists_affine_of_ofCoordinates helement
  exact ⟨a, c, haffine, by rw [hsplit]; rfl⟩

theorem take_split_of_render {text : String} {a c : Fq} {hint : Hint fieldSize}
    (h : (⟨.affine a c, hint⟩ : Signature (suiteWith same)).render = .ok text) :
    (Segments.split text).take 2 = [a.toDecimal, c.toDecimal] := by
  have hrender : Except.ok text = Except.ok (Segments.join (numerals a c hint)) :=
    h.symm.trans (render_affine a c hint)
  cases hrender
  rw [split_numerals]
  rfl

theorem exists_render {element : Point Fq} (hint : Hint fieldSize)
    (h : g1.requireUsable element = .ok ()) :
    ∃ text, (⟨element, hint⟩ : Signature (suiteWith same)).render = .ok text := by
  cases element with
  | infinity => cases h
  | affine x y => exact ⟨_, render_affine x y hint⟩

theorem element_ne_of_take_split_ne {own other : String}
    {signature signature' : Signature (suiteWith same)} (hown : signature.render = .ok own)
    (hother : parse other = .ok signature')
    (hne : (Segments.split other).take 2 ≠ (Segments.split own).take 2) :
    signature'.element ≠ signature.element := by
  intro hsame
  obtain ⟨a, c, haffine, htake⟩ := take_split_of_parse hother
  obtain ⟨element, hint⟩ := signature
  rw [haffine] at hsame
  cases hsame
  exact hne (htake.trans (take_split_of_render hown).symm)

end Signature

namespace Bn254

variable {T : Type} [CommGroup T] {e : Point Fq → Point Fq2 → T}
  {same : Point Fq → Point Fq2 → Point Fq → Point Fq2 → Bool}

/-- A signature is valid if and only if its element is the one that the secret makes; the identity
and elements outside the group are refused.  So is every text that does not start with the
coordinates of the secret's own signature. -/
theorem one_valid_signature (he : IsPairing e) (hsame : Compares same e) (digest : Digest) {sk : Fr}
    (hsk : sk ≠ 0) :
    ∃ point : Point Fq, (suiteWith same).sign (hashPoint digest).1 sk = .ok point ∧
      (∀ element : Point Fq,
        (suiteWith same).verify digest element (g2.generator * sk) =
          if element = .infinity then .error .identityElement
          else if g1.contains element then .ok (decide (element = point))
          else .error .nonPrimeOrderElement) ∧
      ∃ own text, PrivateKey.sign (S := suiteWith same) ⟨sk⟩ digest = .ok own ∧
        own.render = .ok text ∧
        ∀ other signature, Signature.parse other = .ok signature →
          (Segments.split other).take 2 ≠ (Segments.split text).take 2 →
          (PrivateKey.publicKey (S := suiteWith same) ⟨sk⟩).verify digest signature =
            .ok false := by
  have hS := he.testsProducts hsame
  obtain ⟨h, hh, hpoint⟩ : ∃ h : (suiteWith same).Scalar, h ≠ 0 ∧
      ((suiteWith same).hashPoint digest).1 = (suiteWith same).g1.generator * h :=
    exists_hashPoint_eq digest
  have hverify := Suite.verify_eq hS hpoint hsk
  have hown := Suite.Lawful.g1_cyclic.requireUsable_multiple (mul_ne_zero hh hsk)
  have hsign := PrivateKey.sign_eq_ok hh hsk hpoint
  obtain ⟨text, htext⟩ := Signature.exists_render (hashPoint digest).2 hown
  refine ⟨_, Suite.sign_eq_ok hsk hpoint, hverify, _, text, hsign, htext, ?_⟩
  intro other signature hparse hne
  have hdiffers := Signature.element_ne_of_take_split_ne htext hparse hne
  obtain ⟨hidentity, hcontains⟩ :=
    PairingGroup.usable_of_requireUsable (Signature.usable_of_parse hparse)
  refine (hverify signature.element).trans ?_
  rw [if_neg hidentity, if_pos hcontains, decide_eq_false hdiffers]

/-- The text `1:2:12345:0` names the generator, which the key two does not make of the digest
one. -/
theorem one_valid_signature_ofTwo :
    ∃ own text signature, PrivateKey.sign (S := suiteWith sameScalarPairing)
        ⟨Residue.ofNat order 2⟩ digestOne = .ok own ∧ own.render = .ok text ∧
      Signature.parse "1:2:12345:0" = .ok signature ∧
      (PrivateKey.publicKey (S := suiteWith sameScalarPairing) ⟨Residue.ofNat order 2⟩).verify
        digestOne signature = .ok false := by
  have hne : Residue.ofNat order 2 ≠ 0 := by decide +kernel
  obtain ⟨-, -, -, own, text, hsign, hrender, hrefused⟩ :=
    one_valid_signature isPairing_scalarPairing compares_sameScalarPairing digestOne hne
  have hparse : Signature.parse (S := suiteWith sameScalarPairing) "1:2:12345:0" =
      .ok ⟨g1Generator, ⟨.ofNat fieldSize 12345, 0⟩⟩ := by
    decide +kernel
  have hown : PrivateKey.sign (S := suiteWith sameScalarPairing) ⟨Residue.ofNat order 2⟩
      digestOne = .ok ⟨Signature.ofTwo.element, Signature.ofTwo.hint⟩ := by
    decide +kernel
  refine ⟨own, text, _, hsign, hrender, hparse, hrefused _ _ hparse ?_⟩
  rw [hsign, Except.ok.injEq] at hown
  rw [hown] at hrender
  rw [Signature.take_split_of_render hrender]
  decide +kernel

end Bn254

end ThresholdBls
