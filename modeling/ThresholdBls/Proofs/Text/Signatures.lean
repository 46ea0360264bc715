import ThresholdBls.Proofs.Text.Canonical

/-!
# Texts of signatures

The text of a signature is accepted if its length is, and is then the only
accepted text of its value.  A share is read from the same texts, at the index
of a participant.
-/

namespace ThresholdBls

variable {S : Suite}

namespace Signature

def Readable (signature : Signature S) : Prop :=
  signature.Valid ∧ ∃ text, signature.render = .ok text ∧
    minLength ≤ text.utf8ByteSize ∧ text.utf8ByteSize ≤ maxLength

theorem readable_iff {signature : Signature S} {s : String} (hs : signature.render = .ok s) :
    signature.Readable ↔
      signature.Valid ∧ minLength ≤ s.utf8ByteSize ∧ s.utf8ByteSize ≤ maxLength := by
  constructor
  · rintro ⟨hvalid, text, htext, hlength⟩
    cases hs.symm.trans htext
    exact ⟨hvalid, hlength⟩
  · rintro ⟨hvalid, hlength⟩
    exact ⟨hvalid, s, hs, hlength⟩

/-! ## What is accepted -/

section Accepted

variable (hS : S.g1.CanonicalCoordinates) (hwidth : S.g1.width = 2)

include hS hwidth

theorem render_eq_ok_iff {signature : Signature S} {s : String} :
    signature.render = .ok s ↔
      ∃ x y, S.g1.toCoordinates signature.element = .ok [x, y] ∧
        Segments.split s = [x, y, signature.hint.y.toDecimal,
          Decimal.render signature.hint.shift.toNat] := by
  rw [render, bind_eq_ok_iff]
  constructor
  · rintro ⟨text, htext, hs⟩
    obtain ⟨coordinates, hcoordinates, hjoin⟩ := bind_eq_ok_iff.mp htext
    obtain ⟨-, ns, hlength, rfl⟩ := hS.numerals_of_toCoordinates hcoordinates
    rw [hwidth] at hlength
    obtain ⟨x, y, rfl⟩ := List.length_eq_two.mp hlength
    refine ⟨_, _, hcoordinates, ?_⟩
    rw [← pure_eq_ok_iff.mp hs, ← pure_eq_ok_iff.mp hjoin, List.map_cons, List.map_cons,
      List.map_nil, Hint.render, Segments.join_join]
    exact Segments.split_four_numerals x y signature.hint.y.val signature.hint.shift.toNat
  · rintro ⟨x, y, hcoordinates, hsplit⟩
    refine ⟨_, bind_eq_ok_iff.mpr ⟨_, hcoordinates, rfl⟩, ?_⟩
    rw [Hint.render, Segments.join_join, ← hsplit, Segments.join_split]
    rfl

theorem parse_eq_ok_iff {s : String} {signature : Signature S} :
    parse s = .ok signature ↔ signature.Readable ∧ signature.render = .ok s := by
  constructor
  · intro h
    unfold parse at h
    split at h
    · cases h
    split at h
    · cases h
    rename_i hlength
    split at h
    · rename_i x y hintY hintShift hsplit
      obtain ⟨-, h⟩ := guard_eq_ok_iff.mp h
      obtain ⟨-, h⟩ := guard_eq_ok_iff.mp h
      obtain ⟨element, helement, h⟩ := bind_eq_ok_iff.mp h
      obtain ⟨hint, hhint, hcreate⟩ := bind_eq_ok_iff.mp h
      obtain ⟨husable, rfl⟩ := create_eq_ok_iff.mp hcreate
      obtain ⟨-, hcoordinates⟩ := hS.ofCoordinates_eq_ok_iff.mp (mapError_eq_ok_iff.mp helement)
      obtain ⟨rfl, rfl⟩ := Hint.ofParts_eq_ok_iff.mp hhint
      have hs : (⟨element, hint⟩ : Signature S).render = .ok s :=
        (render_eq_ok_iff hS hwidth).mpr ⟨x, y, hcoordinates, hsplit⟩
      rw [not_or, not_lt, not_lt] at hlength
      exact ⟨(readable_iff hs).mpr ⟨PairingGroup.usable_of_requireUsable husable, hlength⟩, hs⟩
    · cases h
  · rintro ⟨hreadable, hs⟩
    obtain ⟨hvalid, hlength⟩ := (readable_iff hs).mp hreadable
    obtain ⟨x, y, hcoordinates, hsplit⟩ := (render_eq_ok_iff hS hwidth).mp hs
    have hne : s ≠ "" := by
      rintro rfl
      exact absurd hlength.1 (by decide)
    have haccepted : ¬ (s.utf8ByteSize < minLength ∨ maxLength < s.utf8ByteSize) := by
      omega
    obtain ⟨-, ns, -, hns⟩ := hS.numerals_of_toCoordinates hcoordinates
    have hdigits : ∀ part ∈ [x, y], Decimal.isDigits part = true := by
      intro part hpart
      obtain ⟨n, -, rfl⟩ := List.mem_map.mp (hns ▸ hpart)
      exact Decimal.isDigits_render n
    rw [parse, if_neg hne, if_neg haccepted, hsplit]
    refine guard_eq_ok_iff.mpr ⟨by simp [hdigits], guard_eq_ok_iff.mpr ⟨by simp [hdigits], ?_⟩⟩
    refine bind_eq_ok_iff.mpr ⟨signature.element, mapError_eq_ok_iff.mpr ?_, ?_⟩
    · exact hS.ofCoordinates_eq_ok_iff.mpr ⟨hvalid.2, hcoordinates⟩
    · refine bind_eq_ok_iff.mpr ⟨signature.hint, Hint.ofParts_render _, ?_⟩
      exact create_eq_ok_iff.mpr ⟨PairingGroup.requireUsable_eq_ok_iff_usable.mpr hvalid, rfl⟩

end Accepted

/-! ## What is refused -/

theorem requireUsable_ne_indexOutOfRange {order : Nat} {G : PairingGroup order} (a : G.Element)
    (index : UInt16) : G.requireUsable a ≠ .error (.indexOutOfRange index) := by
  unfold PairingGroup.requireUsable
  split
  · simp
  · split
    · simp
    · simp

theorem ofParts_ne_indexOutOfRange {q : Nat} (y shift : String) (index : UInt16) :
    (Hint.ofParts y shift : Except Error (Hint q)) ≠ .error (.indexOutOfRange index) := by
  unfold Hint.ofParts
  intro h
  rcases guard_eq_error_iff.mp h with ⟨-, ⟨⟩⟩ | ⟨-, h⟩
  rcases guard_eq_error_iff.mp h with ⟨-, ⟨⟩⟩ | ⟨-, h⟩
  rcases guard_eq_error_iff.mp h with ⟨-, ⟨⟩⟩ | ⟨-, h⟩
  rcases bind_eq_error_iff.mp h with h | ⟨ordinate, -, h⟩
  · obtain ⟨error, -, herror⟩ := mapError_eq_error_iff.mp h
    cases error <;> cases herror
  · rcases guard_eq_error_iff.mp h with ⟨-, ⟨⟩⟩ | ⟨-, ⟨⟩⟩

theorem parse_ne_indexOutOfRange (s : String) (index : UInt16) :
    (parse s : Except Error (Signature S)) ≠ .error (.indexOutOfRange index) := by
  intro h
  unfold parse at h
  split at h
  · cases h
  split at h
  · cases h
  split at h
  · rcases guard_eq_error_iff.mp h with ⟨-, ⟨⟩⟩ | ⟨-, h⟩
    rcases guard_eq_error_iff.mp h with ⟨-, ⟨⟩⟩ | ⟨-, h⟩
    rcases bind_eq_error_iff.mp h with h | ⟨element, -, h⟩
    · obtain ⟨error, -, herror⟩ := mapError_eq_error_iff.mp h
      cases error <;> cases herror
    rcases bind_eq_error_iff.mp h with h | ⟨hint, -, h⟩
    · exact ofParts_ne_indexOutOfRange _ _ _ h
    rcases bind_eq_error_iff.mp h with h | ⟨-, -, ⟨⟩⟩
    exact requireUsable_ne_indexOutOfRange _ _ h
  · cases h

end Signature

/-! ## Shares -/

theorem Params.requireIndex_eq_error {params : Params} {index : UInt16}
    (h : ¬ params.InRange index) :
    params.requireIndex index = .error (.indexOutOfRange index) := by
  cases hindex : params.requireIndex index with
  | ok _ => exact absurd (inRange_of_requireIndex hindex) h
  | error error =>
      unfold requireIndex at hindex
      split at hindex
      · exact hindex.symm
      · cases hindex

namespace SignatureShare

variable {s : String} {index : UInt16} {params : Params}

theorem parse_eq_ok_iff {share : SignatureShare S} :
    parse s index params = .ok share ↔
      params.InRange index ∧ share.index = index ∧ share.params = params ∧
        Signature.parse s = .ok share.signature := by
  rw [parse, bind_eq_ok_iff]
  constructor
  · rintro ⟨signature, hsignature, hshare⟩
    obtain ⟨hindex, rfl⟩ := ofSignature_eq_ok_iff.mp hshare
    exact ⟨Params.inRange_of_requireIndex hindex, rfl, rfl, hsignature⟩
  · rintro ⟨hindex, rfl, rfl, hsignature⟩
    exact ⟨share.signature, hsignature,
      ofSignature_eq_ok_iff.mpr ⟨Params.requireIndex_of_range hindex, rfl⟩⟩

/-- Where no participant has the index, the texts of signatures are refused for it, and all others
for faults of their own. -/
theorem parse_eq_indexOutOfRange_iff (h : ¬ params.InRange index) :
    (parse s index params : Except Error (SignatureShare S)) = .error (.indexOutOfRange index) ↔
      ∃ signature : Signature S, Signature.parse s = .ok signature := by
  rw [parse, bind_eq_error_iff]
  constructor
  · rintro (hparse | ⟨signature, hsignature, -⟩)
    · exact absurd hparse (Signature.parse_ne_indexOutOfRange s index)
    · exact ⟨signature, hsignature⟩
  · rintro ⟨signature, hsignature⟩
    refine .inr ⟨signature, hsignature, ?_⟩
    rw [ofSignature, Params.requireIndex_eq_error h]
    rfl

end SignatureShare

/-! ## The suite BN254 -/

namespace Bn254

/-- Four numerals within the accepted length: the coordinates of a point of the first curve, an
ordinate, and a number of 64 bits. -/
def IsSignatureText (s : String) : Prop :=
  (10 ≤ s.utf8ByteSize ∧ s.utf8ByteSize ≤ 240) ∧
    ∃ x y hintY shift : Nat, x < fieldSize ∧ y < fieldSize ∧ hintY < fieldSize ∧ shift < 2 ^ 64 ∧
      y ^ 2 % fieldSize = (x ^ 3 + 3) % fieldSize ∧
      s = Segments.join ([x, y, hintY, shift].map Decimal.render)

theorem contains_affine_iff (x y : Fq) :
    g1.contains (.affine x y) = true ↔
      y.val ^ 2 % fieldSize = (x.val ^ 3 + 3) % fieldSize := by
  have hb : ((3 : Nat) : Fq) = b := rfl
  have hequation : y * y = x * x * x + b ↔
      y.val ^ 2 % fieldSize = (x.val ^ 3 + 3) % fieldSize := by
    rw [← Residue.natCast_eq_natCast_iff, Nat.cast_add, Nat.cast_pow, Nat.cast_pow,
      Residue.natCast_val, Residue.natCast_val, hb, pow_two, pow_succ, pow_two]
  rw [← hequation]
  constructor
  · intro hcontains
    exact of_decide_eq_true (Bool.and_eq_true_iff.mp hcontains).1
  · intro hcurve
    exact g1_contains_of_isOnCurve (decide_eq_true hcurve)

theorem exists_signature_iff (s : String) :
    (∃ signature : Signature suite, Signature.parse s = .ok signature) ↔ IsSignatureText s := by
  simp only [Signature.parse_eq_ok_iff (S := suite) g1_canonicalCoordinates rfl]
  constructor
  · rintro ⟨⟨element, hint⟩, hreadable, hrender⟩
    obtain ⟨hvalid, hlength⟩ := (Signature.readable_iff hrender).mp hreadable
    cases element with
    | infinity => exact absurd rfl hvalid.1
    | affine x y =>
        have hs := Except.ok.inj (hrender.symm.trans (Signature.render_affine x y hint))
        exact ⟨hlength, x.val, y.val, hint.y.val, hint.shift.toNat, x.val_lt, y.val_lt,
          hint.y.val_lt, hint.shift.toNat_lt, (contains_affine_iff x y).mp hvalid.2, hs⟩
  · rintro ⟨hlength, x, y, hintY, shift, hx, hy, hhint, hshift, hcurve, rfl⟩
    obtain ⟨word, rfl⟩ : ∃ word : UInt64, word.toNat = shift :=
      ⟨UInt64.ofNat shift, UInt64.toNat_ofNat_of_lt hshift⟩
    have hs := Signature.render_affine ⟨x, hx⟩ ⟨y, hy⟩ ⟨⟨hintY, hhint⟩, word⟩
    have hvalid : g1.Usable (.affine ⟨x, hx⟩ ⟨y, hy⟩) :=
      ⟨nofun, (contains_affine_iff _ _).mpr hcurve⟩
    exact ⟨_, (Signature.readable_iff hs).mpr ⟨hvalid, hlength⟩, hs⟩

theorem signature_text : CanonicalText (α := Signature suite) Signature.parse Signature.render
    Signature.Readable IsSignatureText where
  accepts_iff := exists_signature_iff
  render_eq hparse :=
    ((Signature.parse_eq_ok_iff (S := suite) g1_canonicalCoordinates rfl).mp hparse).2
  parse_eq {signature} hreadable := by
    obtain ⟨s, hs, -⟩ := hreadable.2
    exact ⟨s, hs, (Signature.parse_eq_ok_iff (S := suite) g1_canonicalCoordinates rfl).mpr
      ⟨hreadable, hs⟩⟩

/-- The text of a signature is accepted if its length is, and then has one spelling.  So is the
text of a share at an index of a participant; at any other index the same texts are refused for
the index, and only they. -/
theorem signature_texts_canonical :
    CanonicalText (α := Signature suite) Signature.parse Signature.render Signature.Readable
      IsSignatureText ∧
    (∀ (s s' : String) (signature : Signature suite),
      Signature.parse s = .ok signature → Signature.parse s' = .ok signature → s = s') ∧
    (∀ (params : Params) (index : UInt16), params.InRange index →
      CanonicalText (α := SignatureShare suite) (fun s => SignatureShare.parse s index params)
        SignatureShare.render
        (fun share => share.index = index ∧ share.params = params ∧ share.signature.Readable)
        IsSignatureText) ∧
    ∀ (params : Params) (index : UInt16), ¬ params.InRange index → ∀ s,
      (SignatureShare.parse s index params : Except Error (SignatureShare suite)) =
        .error (.indexOutOfRange index) ↔ IsSignatureText s := by
  refine ⟨signature_text, ?_, ?_, ?_⟩
  · intro s s' signature hs hs'
    exact Except.ok.inj ((signature_text.render_eq hs).symm.trans (signature_text.render_eq hs'))
  · intro params index hindex
    refine ⟨fun s => ?_, fun hparse => ?_, ?_⟩
    · rw [← exists_signature_iff]
      constructor
      · rintro ⟨share, hshare⟩
        exact ⟨share.signature, (SignatureShare.parse_eq_ok_iff.mp hshare).2.2.2⟩
      · rintro ⟨signature, hsignature⟩
        exact ⟨⟨signature, index, params⟩,
          SignatureShare.parse_eq_ok_iff.mpr ⟨hindex, rfl, rfl, hsignature⟩⟩
    · exact signature_text.render_eq (SignatureShare.parse_eq_ok_iff.mp hparse).2.2.2
    · rintro share ⟨rfl, rfl, hreadable⟩
      obtain ⟨s, hs, hparse⟩ := signature_text.parse_eq hreadable
      exact ⟨s, hs, SignatureShare.parse_eq_ok_iff.mpr ⟨hindex, rfl, rfl, hparse⟩⟩
  · intro params index hindex s
    rw [SignatureShare.parse_eq_indexOutOfRange_iff hindex, exists_signature_iff]

theorem signature_texts_canonical_generator :
    (∃ share : SignatureShare suite,
      SignatureShare.parse "1:2:12345:0" 1 .twoOfThree = .ok share ∧
        share.render = .ok "1:2:12345:0") ∧
    (SignatureShare.parse "1:2:12345:0" 4 .twoOfThree : Except Error (SignatureShare suite)) =
      .error (.indexOutOfRange 4) := by
  obtain ⟨-, -, hinside, houtside⟩ := signature_texts_canonical
  have htext : IsSignatureText "1:2:12345:0" :=
    ⟨by decide, 1, 2, 12345, 0, by decide +kernel⟩
  have hcanonical := hinside .twoOfThree 1 (by decide)
  obtain ⟨share, hshare⟩ := (hcanonical.accepts_iff _).mpr htext
  exact ⟨⟨share, hshare, hcanonical.render_eq hshare⟩,
    (houtside .twoOfThree 4 (by decide) _).mpr htext⟩

end Bn254

end ThresholdBls
