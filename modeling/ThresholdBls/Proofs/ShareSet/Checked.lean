import ThresholdBls.Key.Share
import ThresholdBls.Proofs.Except
import ThresholdBls.Proofs.Suite.Lawful
import ThresholdBls.ShareSet

/-!
# Signature shares made with checks

However a signature or a signature share is made, its element is usable and its
index is that of a participant.
-/

namespace ThresholdBls

variable {S : Suite}

theorem Params.requireIndex_eq_ok_iff {params : Params} {index : UInt16} :
    params.requireIndex index = .ok () ↔ index ≠ 0 ∧ index ≤ params.n := by
  unfold Params.requireIndex
  split
  · rename_i h
    simp only [reduceCtorEq, false_iff]
    intro hvalid
    rcases h with h | h
    · exact hvalid.1 h
    · exact absurd hvalid.2 (UInt16.not_le.mpr h)
  · rename_i h
    simp only [true_iff]
    rw [not_or, UInt16.not_lt] at h
    exact h

theorem Params.requireIndex_of_range {params : Params} {index : UInt16}
    (h : 1 ≤ index.toNat ∧ index.toNat ≤ params.n.toNat) :
    params.requireIndex index = .ok () := by
  rw [requireIndex_eq_ok_iff]
  refine ⟨?_, UInt16.le_iff_toNat_le.mpr h.2⟩
  rintro rfl
  exact absurd h.1 (by decide)

theorem Params.requireSame_eq_ok_iff {params other : Params} :
    params.requireSame other = .ok () ↔ params = other := by
  unfold Params.requireSame
  split
  · rename_i h
    simp [h]
  · rename_i h
    simp [h]

def Params.twoOfThree : Params := ⟨2, 3, by decide, by decide⟩

namespace Signature

theorem create_eq_ok_iff {element : S.g1.Element} {hint : Hint S.fieldSize}
    {signature : Signature S} :
    create element hint = .ok signature ↔
      S.g1.requireUsable element = .ok () ∧ signature = ⟨element, hint⟩ := by
  rw [create, bind_eq_ok_iff]
  constructor
  · rintro ⟨⟨⟩, husable, hsignature⟩
    exact ⟨husable, (pure_eq_ok_iff.mp hsignature).symm⟩
  · rintro ⟨husable, rfl⟩
    exact ⟨(), husable, rfl⟩

theorem create_multiple [S.Lawful] (k : S.Scalar) (hint : Hint S.fieldSize) :
    create (S.g1.generator * k) hint =
      if k = 0 then .error .identityElement else .ok ⟨S.g1.generator * k, hint⟩ := by
  split
  · rename_i hk
    rw [hk, Suite.Lawful.g1_cyclic.multiple_zero, create, PairingGroup.requireUsable_identity]
    rfl
  · rename_i hk
    rw [create_eq_ok_iff]
    exact ⟨Suite.Lawful.g1_cyclic.requireUsable_multiple hk, rfl⟩

/-- The functions that give signatures. -/
inductive Checked : Signature S → Prop
  | created {element hint signature} :
      create element hint = .ok signature → Checked signature
  | parsed {text signature} : parse text = .ok signature → Checked signature
  | signed {key digest signature} :
      PrivateKey.sign key digest = .ok signature → Checked signature
  | possession {key signature} :
      PrivateKey.provePossession key = .ok signature → Checked signature
  | merged {set signature} : ShareSet.signature set = .ok signature → Checked signature

theorem usable_of_create {element : S.g1.Element} {hint : Hint S.fieldSize}
    {signature : Signature S} (h : create element hint = .ok signature) :
    S.g1.requireUsable signature.element = .ok () := by
  obtain ⟨husable, rfl⟩ := create_eq_ok_iff.mp h
  exact husable

theorem usable_of_sign {key : PrivateKey S} {digest : Digest} {signature : Signature S}
    (h : key.sign digest = .ok signature) : S.g1.requireUsable signature.element = .ok () := by
  obtain ⟨element, -, hcreate⟩ := bind_eq_ok_iff.mp h
  exact usable_of_create hcreate

theorem exists_segments_of_parse {text : String} {signature : Signature S}
    (h : parse text = .ok signature) :
    ∃ x y hintY hintShift, Segments.split text = [x, y, hintY, hintShift] ∧
      S.g1.ofCoordinates [x, y] = .ok signature.element ∧
      S.g1.requireUsable signature.element = .ok () := by
  unfold parse at h
  split at h
  · cases h
  split at h
  · cases h
  split at h
  · rename_i x y hintY hintShift hsplit
    obtain ⟨-, h⟩ := guard_eq_ok_iff.mp h
    obtain ⟨-, h⟩ := guard_eq_ok_iff.mp h
    obtain ⟨element, helement, h⟩ := bind_eq_ok_iff.mp h
    obtain ⟨hint, -, hcreate⟩ := bind_eq_ok_iff.mp h
    obtain ⟨husable, rfl⟩ := create_eq_ok_iff.mp hcreate
    exact ⟨x, y, hintY, hintShift, hsplit, mapError_eq_ok_iff.mp helement, husable⟩
  · cases h

theorem usable_of_parse {text : String} {signature : Signature S}
    (h : parse text = .ok signature) : S.g1.requireUsable signature.element = .ok () := by
  obtain ⟨-, -, -, -, -, -, husable⟩ := exists_segments_of_parse h
  exact husable

theorem usable_of_merge {set : ShareSet S} {signature : Signature S}
    (h : set.signature = .ok signature) : S.g1.requireUsable signature.element = .ok () := by
  unfold ShareSet.signature at h
  dsimp only at h
  split at h
  · cases h
  split at h
  · obtain ⟨coefficients, -, h⟩ := bind_eq_ok_iff.mp h
    obtain ⟨element, -, hcreate⟩ := bind_eq_ok_iff.mp h
    exact usable_of_create hcreate
  · cases h

theorem Checked.usable {signature : Signature S} (h : signature.Checked) :
    S.g1.requireUsable signature.element = .ok () := by
  cases h with
  | created h => exact usable_of_create h
  | parsed h => exact usable_of_parse h
  | signed h => exact usable_of_sign h
  | possession h =>
      obtain ⟨digest, -, hsign⟩ := bind_eq_ok_iff.mp h
      exact usable_of_sign hsign
  | merged h => exact usable_of_merge h

end Signature

namespace SignatureShare

structure WellFormed (share : SignatureShare S) : Prop where
  usable : S.g1.requireUsable share.signature.element = .ok ()
  index_ne_zero : share.index ≠ 0
  index_le : share.index ≤ share.params.n

theorem ofSignature_eq_ok_iff {signature : Signature S} {index : UInt16} {params : Params}
    {share : SignatureShare S} :
    ofSignature signature index params = .ok share ↔
      params.requireIndex index = .ok () ∧ share = ⟨signature, index, params⟩ := by
  rw [ofSignature, bind_eq_ok_iff]
  constructor
  · rintro ⟨⟨⟩, hindex, hshare⟩
    exact ⟨hindex, (pure_eq_ok_iff.mp hshare).symm⟩
  · rintro ⟨hindex, rfl⟩
    exact ⟨(), hindex, rfl⟩

inductive Checked : SignatureShare S → Prop
  | created {element hint index params share} :
      create element hint index params = .ok share → Checked share
  | marked {signature index params share} : Signature.Checked signature →
      ofSignature signature index params = .ok share → Checked share
  | parsed {text index params share} : parse text index params = .ok share → Checked share
  | signed {holder digest share} :
      PrivateKeyShare.sign holder digest = .ok share → Checked share

theorem wellFormed_of_ofSignature {signature : Signature S} {index : UInt16} {params : Params}
    {share : SignatureShare S} (husable : S.g1.requireUsable signature.element = .ok ())
    (h : ofSignature signature index params = .ok share) : share.WellFormed := by
  obtain ⟨hindex, rfl⟩ := ofSignature_eq_ok_iff.mp h
  obtain ⟨hzero, hle⟩ := Params.requireIndex_eq_ok_iff.mp hindex
  exact ⟨husable, hzero, hle⟩

theorem Checked.wellFormed {share : SignatureShare S} (h : share.Checked) :
    share.WellFormed := by
  cases h with
  | created h =>
      obtain ⟨signature, hsignature, hshare⟩ := bind_eq_ok_iff.mp h
      exact wellFormed_of_ofSignature (Signature.usable_of_create hsignature) hshare
  | marked hsignature h => exact wellFormed_of_ofSignature hsignature.usable h
  | parsed h =>
      obtain ⟨signature, hsignature, hshare⟩ := bind_eq_ok_iff.mp h
      exact wellFormed_of_ofSignature (Signature.usable_of_parse hsignature) hshare
  | signed h =>
      obtain ⟨signature, hsignature, hshare⟩ := bind_eq_ok_iff.mp h
      exact wellFormed_of_ofSignature (Signature.usable_of_sign hsignature) hshare

end SignatureShare

end ThresholdBls
