import ThresholdBls.Proofs.Interpolation.PublicRecovery
import ThresholdBls.Proofs.Sharing.Consistency

/-!
# Public derivation

The commitments of a round give the common key by their constant elements, and
the public key share of a participant by their values at its index.  Whichever
shares are combined, they lead back to the common key, and to none where the
constant elements cancel.
-/

namespace ThresholdBls

variable {S : Suite}

/-- At least one sender has published, and each a commitment of one to `t` elements of the
group. -/
structure Commitment.Published (params : Params) (commitments : List (Commitment S)) : Prop where
  ne_nil : commitments ≠ []
  length : ∀ commitment ∈ commitments,
    1 ≤ commitment.elements.length ∧ commitment.elements.length ≤ params.t.toNat
  contains : ∀ commitment ∈ commitments, ∀ element ∈ commitment.elements,
    S.g2.contains element = true

variable [S.Lawful] {params : Params}

theorem Commitment.Published.exists_scalars {commitments : List (Commitment S)}
    (h : Published params commitments) :
    ∃ kss : List (List S.Scalar), commitments = kss.map (.ofScalars S) ∧ kss ≠ [] ∧
      ∀ ks ∈ kss, ks ≠ [] ∧ ks.length ≤ params.t.toNat := by
  have hrange : commitments ∈ Set.range (List.map (Commitment.ofScalars S)) := by
    rw [Set.range_list_map]
    intro commitment hcommitment
    obtain ⟨ks, rfl⟩ := exists_ofScalars (h.contains commitment hcommitment)
    exact ⟨ks, rfl⟩
  obtain ⟨kss, rfl⟩ := hrange
  refine ⟨kss, rfl, by simpa using h.ne_nil, ?_⟩
  intro ks hks
  have hlength := h.length (.ofScalars S ks) (List.mem_map_of_mem hks)
  simp only [ofScalars, List.length_map] at hlength
  exact ⟨List.ne_nil_of_length_pos hlength.1, hlength.2⟩

section Shares

variable {kss : List (List S.Scalar)} {indices : List UInt16} {share : UInt16 → PublicKeyShare S}

theorem PublicKey.ofShares_derived (hkss : kss ≠ [])
    (hlength : ∀ ks ∈ kss, ks.length ≤ params.t.toNat) (hnodup : indices.Nodup)
    (hcount : params.t.toNat ≤ indices.length)
    (hshares : ∀ i ∈ indices,
      PublicKeyShare.ofCommitments i (kss.map (.ofScalars S)) params = .ok (share i)) :
    ofShares (.ofList (indices.map fun i => (i, share i))) params =
      create (S.g2.generator * (roundPolynomial kss).eval 0) := by
  have hderived : ∀ i ∈ indices, params.requireIndex i = .ok () ∧
      share i = .ofValue (roundPolynomial kss) params i := by
    intro i hi
    obtain ⟨hindex, -, hshare⟩ :=
      (PublicKeyShare.ofCommitments_eq_ok_iff hkss).mp (hshares i hi)
    exact ⟨hindex, hshare⟩
  have hkeys : (indices.map fun i => (i, share i)).map Prod.fst = indices := by
    simp [Function.comp_def]
  have hperm : (IndexMap.ofList (indices.map fun i => (i, share i))).entries.Perm
      (indices.map fun i => (i, share i)) := by
    apply IndexMap.perm_ofList
    rwa [hkeys]
  apply ofShares_ofValue (degree_roundPolynomial_lt hlength)
  · rw [(hperm.map Prod.fst).mem_iff, hkeys]
    intro hzero
    exact (Params.requireIndex_eq_ok_iff.mp (hderived 0 hzero).1).1 rfl
  · rwa [IndexMap.size, hperm.length_eq, List.length_map]
  · intro entry hentry
    rw [hperm.mem_iff] at hentry
    obtain ⟨i, hi, rfl⟩ := List.mem_map.mp hentry
    exact (hderived i hi).2

end Shares

theorem PublicKey.ofCommitments_eq_sum {kss : List (List S.Scalar)} (hkss : kss ≠ [])
    (hne : ∀ ks ∈ kss, ks ≠ []) :
    ∃ constants, (kss.map (Commitment.ofScalars S)).mapM Commitment.constant = .ok constants ∧
      ofCommitments (kss.map (.ofScalars S)) =
        if constants.foldl (· + ·) S.g2.identity = S.g2.identity then .error .identityElement
        else .ok ⟨constants.foldl (· + ·) S.g2.identity⟩ := by
  refine ⟨_, mapM_constant hne, ?_⟩
  rw [ofCommitments_ofScalars hkss hne, foldl_constants]
  split
  case isTrue hidentity =>
    rw [hidentity, create, PairingGroup.requireUsable_identity]
    rfl
  case isFalse hidentity =>
    exact create_multiple (mt (Suite.Lawful.g2_cyclic.multiple_eq_identity_iff _).mpr hidentity)

/-! ## The suite BN254 -/

namespace Bn254

/-- The public key shares of any `t` participants combine to the common key, with the same failure
where the constant elements sum to the identity. -/
theorem public_derivation_commutes (params : Params) (commitments : List (Commitment suite))
    (h : Commitment.Published params commitments) :
    (∃ constants, commitments.mapM Commitment.constant = .ok constants ∧
      PublicKey.ofCommitments commitments =
        if constants.foldl (· + ·) suite.g2.identity = suite.g2.identity then
          .error .identityElement
        else .ok ⟨constants.foldl (· + ·) suite.g2.identity⟩) ∧
    ∀ (indices : List UInt16) (share : UInt16 → PublicKeyShare suite), indices.Nodup →
      params.t.toNat ≤ indices.length →
      (∀ i ∈ indices, PublicKeyShare.ofCommitments i commitments params = .ok (share i)) →
      PublicKey.ofShares (.ofList (indices.map fun i => (i, share i))) params =
        PublicKey.ofCommitments commitments := by
  obtain ⟨kss, rfl, hkss, hlength⟩ := h.exists_scalars
  have hne : ∀ ks ∈ kss, ks ≠ [] := fun ks hks => (hlength ks hks).1
  refine ⟨PublicKey.ofCommitments_eq_sum hkss hne, ?_⟩
  intro indices share hnodup hcount hshares
  rw [PublicKey.ofShares_derived hkss (fun ks hks => (hlength ks hks).2) hnodup hcount hshares,
    PublicKey.ofCommitments_ofScalars hkss hne]

def cancellingCommitments : List (Commitment suite) :=
  [[1, 1], [-1]].map (.ofScalars suite)

theorem published_cancellingCommitments :
    Commitment.Published .twoOfThree cancellingCommitments := by
  refine ⟨by simp [cancellingCommitments], ?_, ?_⟩
  · simp [cancellingCommitments, Commitment.ofScalars, Params.twoOfThree]
  · intro commitment hcommitment
    obtain ⟨ks, -, rfl⟩ := List.mem_map.mp hcommitment
    exact Commitment.contains_ofScalars ks

theorem eval_cancelling (x : suite.Scalar) :
    (roundPolynomial (S := suite) [[1, 1], [-1]]).eval x = x := by
  simp [eval_roundPolynomial, committed]

theorem public_derivation_commutes_cancelling :
    ∃ share : UInt16 → PublicKeyShare suite,
      (∀ i ∈ ([3, 1] : List UInt16),
        PublicKeyShare.ofCommitments i cancellingCommitments .twoOfThree = .ok (share i)) ∧
      PublicKey.ofCommitments cancellingCommitments = .error .identityElement ∧
      PublicKey.ofShares (.ofList ([3, 1].map fun i => (i, share i))) .twoOfThree =
        .error .identityElement := by
  have hkss : ([[1, 1], [-1]] : List (List suite.Scalar)) ≠ [] := by simp
  let share (i : UInt16) := (PrivateKeyShare.ofValue (S := suite)
    (roundPolynomial [[1, 1], [-1]]) .twoOfThree i).publicKeyShare
  have hshares : ∀ i ∈ ([3, 1] : List UInt16),
      PublicKeyShare.ofCommitments i cancellingCommitments .twoOfThree = .ok (share i) := by
    have hderived : ∀ i : UInt16, 1 ≤ i.toNat ∧ i.toNat ≤ 3 →
        PublicKeyShare.ofCommitments i cancellingCommitments .twoOfThree = .ok (share i) := by
      intro i hrange
      have hindex : Params.twoOfThree.requireIndex i = .ok () :=
        Params.requireIndex_of_range hrange
      refine (PublicKeyShare.ofCommitments_eq_ok_iff hkss).mpr ⟨hindex, ?_, rfl⟩
      rw [eval_cancelling]
      exact Suite.abscissa_ne_zero (Params.requireIndex_eq_ok_iff.mp hindex).1
    simp [hderived]
  have hcommon : PublicKey.ofCommitments cancellingCommitments = .error .identityElement := by
    rw [cancellingCommitments, PublicKey.ofCommitments_ofScalars hkss (by simp), eval_cancelling]
    exact PublicKey.create_multiple_zero
  have hcombined := (public_derivation_commutes .twoOfThree cancellingCommitments
    published_cancellingCommitments).2 [3, 1] share (by decide) le_rfl hshares
  exact ⟨share, hshares, hcommon, hcombined.trans hcommon⟩

end Bn254

end ThresholdBls
