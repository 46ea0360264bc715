import ThresholdBls.Proofs.Bn254.HashToCurve
import ThresholdBls.Proofs.ShareSet.Checked
import ThresholdBls.Proofs.Text.Coordinates

/-!
# The written form of signatures

A signature is written as four numerals with colons between them.  Reading
looks at the length first, and inverts writing exactly where the length is one
that it accepts.
-/

namespace ThresholdBls

theorem Hint.ofParts_render {q : Nat} (hint : Hint q) :
    ofParts hint.y.toDecimal (Decimal.render hint.shift.toNat) = .ok hint := by
  have hfits : ¬ UInt64.size ≤ hint.shift.toNat := not_le.mpr hint.shift.toNat_lt
  have hy : Decimal.isDigits hint.y.toDecimal = true := Decimal.isDigits_render _
  simp only [ofParts, hy, Decimal.isDigits_render, Decimal.isCanonical_render,
    Residue.ofDecimal_toDecimal, Decimal.value_render, if_neg hfits, UInt64.ofNat_toNat]
  rfl

namespace Bn254

theorem exists_affine_of_ofCoordinates {x y : String} {p : Point Fq}
    (h : g1.ofCoordinates [x, y] = .ok p) :
    ∃ a c : Fq, p = .affine a c ∧ a.toDecimal = x ∧ c.toDecimal = y := by
  obtain ⟨a, c, hspells, -, rfl⟩ := g1_numeralCoordinates.exists_of_ofCoordinates h
  have hnumerals : [a.toDecimal, c.toDecimal] = [x, y] :=
    Residue.map_toDecimal_eq_iff.mpr hspells
  cases hnumerals
  exact ⟨a, c, rfl, rfl, rfl⟩

theorem ofCoordinates_affine {x y : Fq} (h : g1.requireUsable (.affine x y) = .ok ()) :
    g1.ofCoordinates [x.toDecimal, y.toDecimal] = .ok (.affine x y) :=
  g1_numeralCoordinates.ofCoordinates_eq_ok_iff.mpr
    ⟨(PairingGroup.usable_of_requireUsable h).2, rfl⟩

end Bn254

namespace Signature

open Bn254

def digits (signature : Signature suite) : Nat :=
  match signature.element with
  | .infinity => 0
  | .affine x y =>
      Decimal.length x.val + Decimal.length y.val + Decimal.length signature.hint.y.val +
        Decimal.length signature.hint.shift.toNat

def numerals (x y : Fq) (hint : Hint fieldSize) : List String :=
  [x.toDecimal, y.toDecimal, hint.y.toDecimal, Decimal.render hint.shift.toNat]

theorem render_affine (x y : Fq) (hint : Hint fieldSize) :
    (⟨.affine x y, hint⟩ : Signature suite).render =
      .ok (Segments.join (numerals x y hint)) := by
  rw [numerals, ← Segments.join_join]
  rfl

section Affine

variable (x y : Fq) (hint : Hint fieldSize)

theorem utf8ByteSize_numerals :
    (Segments.join (numerals x y hint)).utf8ByteSize = digits ⟨.affine x y, hint⟩ + 3 := by
  have hne : numerals x y hint ≠ [] := List.cons_ne_nil _ _
  have hsize := Segments.utf8ByteSize_join hne
  simp only [numerals, Residue.toDecimal, List.map_cons, List.map_nil, List.sum_cons,
    List.sum_nil, Decimal.utf8ByteSize_render] at hsize
  simp only [digits, numerals, Residue.toDecimal]
  omega

theorem split_numerals : Segments.split (Segments.join (numerals x y hint)) =
    numerals x y hint :=
  Segments.split_four_numerals x.val y.val hint.y.val hint.shift.toNat

theorem parse_numerals (husable : g1.requireUsable (.affine x y) = .ok ()) :
    parse (S := suite) (Segments.join (numerals x y hint)) =
      if 7 ≤ digits ⟨.affine x y, hint⟩ ∧ digits ⟨.affine x y, hint⟩ ≤ 237 then
        .ok ⟨.affine x y, hint⟩
      else .error (.malformedString .signatureLength) := by
  have hsize := utf8ByteSize_numerals x y hint
  have hne : Segments.join (numerals x y hint) ≠ "" := by
    rintro hempty
    rw [hempty] at hsize
    exact absurd hsize (by simp)
  rw [parse, if_neg hne, hsize]
  split
  · rename_i hlength
    rw [if_neg]
    simp only [minLength, maxLength] at hlength
    omega
  · rename_i hlength
    rw [if_pos, split_numerals]
    · have hx : Decimal.isDigits x.toDecimal = true := Decimal.isDigits_render _
      have hy : Decimal.isDigits y.toDecimal = true := Decimal.isDigits_render _
      have hcreate : create (S := suite) (.affine x y) hint = .ok ⟨.affine x y, hint⟩ :=
        create_eq_ok_iff.mpr ⟨husable, rfl⟩
      have helement : suite.g1.ofCoordinates [x.toDecimal, y.toDecimal] = .ok (.affine x y) :=
        ofCoordinates_affine husable
      simp only [numerals, hx, hy, helement]
      refine bind_eq_ok_iff.mpr ⟨.affine x y, rfl, ?_⟩
      exact bind_eq_ok_iff.mpr ⟨hint, Hint.ofParts_render hint, hcreate⟩
    · simp only [minLength, maxLength] at hlength
      omega

end Affine

/-- The signatures that come out of signing and merging. -/
inductive Produced : Signature suite → Prop
  | signed {key digest signature} :
      PrivateKey.sign key digest = .ok signature → Produced signature
  | signedShare {holder digest share} :
      PrivateKeyShare.sign holder digest = .ok share → Produced share.signature
  | merged {set signature closed} :
      ShareSet.merge set = .ok (signature, closed) → Produced signature

theorem Produced.usable {signature : Signature suite} (h : signature.Produced) :
    g1.requireUsable signature.element = .ok () := by
  cases h with
  | signed h => exact usable_of_sign h
  | signedShare h =>
      obtain ⟨signature, hsign, hshare⟩ := bind_eq_ok_iff.mp h
      obtain ⟨-, rfl⟩ := SignatureShare.ofSignature_eq_ok_iff.mp hshare
      exact usable_of_sign hsign
  | merged h =>
      obtain ⟨signature, hsignature, hclosed⟩ := bind_eq_ok_iff.mp h
      cases hclosed
      exact usable_of_merge hsignature

/-- Coordinates have at most 77 digits, so that a form is too long only by its shift. -/
theorem digits_le {signature : Signature suite} (h : signature.hint.shift.toNat < 10 ^ 6) :
    signature.digits ≤ 237 := by
  have hsize : fieldSize ≤ 10 ^ 77 := by decide +kernel
  have hcoordinate : ∀ a : Fq, Decimal.length a.val ≤ 77 := fun a =>
    (Decimal.length_le_iff (by decide)).mpr (a.val_lt.trans_le hsize)
  have hshift := (Decimal.length_le_iff (by decide)).mpr h
  unfold digits
  split
  · omega
  · rename_i x y _
    have hx := hcoordinate x
    have hy := hcoordinate y
    have hordinate := hcoordinate signature.hint.y
    omega

/-- The written form of a signature is read back as the signature if its numerals have at least
7 and at most 237 digits, and is refused for its length otherwise.  Too many digits need a hint
whose shift has more than six. -/
theorem read_written_form {signature : Signature suite} (h : signature.Produced) :
    ∃ text, signature.render = .ok text ∧ text.utf8ByteSize = signature.digits + 3 ∧
      Signature.parse text =
        (if 7 ≤ signature.digits ∧ signature.digits ≤ 237 then .ok signature
        else .error (.malformedString .signatureLength)) ∧
      (237 < signature.digits → 10 ^ 6 ≤ signature.hint.shift.toNat) := by
  have husable := h.usable
  obtain ⟨element, hint⟩ := signature
  cases element with
  | infinity => cases husable
  | affine x y =>
      refine ⟨_, render_affine x y hint, utf8ByteSize_numerals x y hint,
        parse_numerals x y hint husable, fun hlong => ?_⟩
      by_contra hshift
      exact absurd (digits_le (not_le.mp hshift)) (not_le.mpr hlong)

def ofTwo : Signature suite :=
  ⟨.affine
      (.ofNat fieldSize
        1368015179489954701390400359078579693043519447331113978918064868415326638035)
      (.ofNat fieldSize
        9918110051302171585080402603319702774565515993150576347155970296011118125764),
    ⟨.ofNat fieldSize 2, 0⟩⟩

theorem read_written_form_ofTwo :
    PrivateKey.sign (S := suite) ⟨Residue.ofNat order 2⟩ digestOne = .ok ofTwo ∧
      ∃ text, ofTwo.render = .ok text ∧ Signature.parse text = .ok ofTwo := by
  have hsign : PrivateKey.sign (S := suite) ⟨Residue.ofNat order 2⟩ digestOne = .ok ofTwo := by
    decide +kernel
  have hdigits : 7 ≤ ofTwo.digits ∧ ofTwo.digits ≤ 237 := by
    decide +kernel
  obtain ⟨text, hrender, -, hparse, -⟩ := read_written_form (.signed hsign)
  rw [if_pos hdigits] at hparse
  exact ⟨hsign, text, hrender, hparse⟩

/-- The key one signs the digest one by the generator, whose written form is too short. -/
theorem short_written_form_refused :
    ∃ signature : Signature suite,
      PrivateKey.sign (S := suite) ⟨Residue.ofNat order 1⟩ digestOne = .ok signature ∧
      signature.render = .ok "1:2:2:0" ∧
      parse (S := suite) "1:2:2:0" = .error (.malformedString .signatureLength) := by
  refine ⟨⟨g1Generator, ⟨.ofNat fieldSize 2, 0⟩⟩, ?_, ?_, ?_⟩
  · decide +kernel
  · decide +kernel
  · decide +kernel

end Signature

end ThresholdBls
