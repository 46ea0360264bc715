import ThresholdBls.Proofs.Bn254.Pairing
import ThresholdBls.Proofs.ShareSet.Values
import ThresholdBls.Proofs.Signing

/-!
# Threshold signing is signing with the shared key

The values of a polynomial are shares of its value at zero.  Whichever holders
of shares sign, and in whatever order, their shares merge to the signature of
the shared key.
-/

open scoped Polynomial

namespace ThresholdBls

variable {S : Suite}

/-- Hands a participant the value of a polynomial at its index, and lets it sign. -/
def Suite.signShare (S : Suite) [S.Lawful] (F : S.Scalar[X]) (params : Params)
    (digest : Digest) (index : UInt16) : Except Error (SignatureShare S) := do
  let holder ← PrivateKeyShare.create (F.eval (S.abscissa index)) index params
  holder.sign digest

variable [S.Lawful] {F : S.Scalar[X]} {params : Params} {digest : Digest} {h : S.Scalar}
  {indices : List UInt16}

def honestShare (F : S.Scalar[X]) (params : Params) (digest : Digest) (h : S.Scalar)
    (index : UInt16) : SignatureShare S :=
  ⟨⟨S.g1.generator * (h * F.eval (S.abscissa index)), (S.hashPoint digest).2⟩, index, params⟩

theorem map_index_honestShare :
    (indices.map (honestShare F params digest h)).map (·.index) = indices := by
  rw [List.map_map]
  exact List.map_id _

/-- Participants who can sign: pairwise distinct, numbered as the parameters say, and none with
a value of zero. -/
structure CanSign (F : S.Scalar[X]) (params : Params) (indices : List UInt16) : Prop where
  nodup : indices.Nodup
  range : ∀ i ∈ indices, 1 ≤ i.toNat ∧ i.toNat ≤ params.n.toNat
  value_ne_zero : ∀ i ∈ indices, F.eval (S.abscissa i) ≠ 0

section Shares

variable (hh : h ≠ 0) (hpoint : (S.hashPoint digest).1 = S.g1.generator * h)
  (hindices : CanSign F params indices)

include hh hpoint hindices

theorem mapM_signShare :
    indices.mapM (S.signShare F params digest) =
      .ok (indices.map (honestShare F params digest h)) := by
  refine mapM_eq_ok fun i hi => ?_
  have hvalue := hindices.value_ne_zero i hi
  have hindex := Params.requireIndex_of_range (hindices.range i hi)
  simp only [Suite.signShare, PrivateKeyShare.create_eq_ok hvalue hindex]
  exact PrivateKeyShare.sign_eq_ok hh hvalue hpoint hindex

omit hh hpoint in
theorem ofValue_honestShare {share : SignatureShare S}
    (hshare : share ∈ indices.map (honestShare F params digest h)) :
    share.OfValue F params h := by
  obtain ⟨i, hi, rfl⟩ := List.mem_map.mp hshare
  exact ⟨rfl, Params.requireIndex_of_range (hindices.range i hi), hindices.value_ne_zero i hi, rfl⟩

omit hpoint in
theorem foldlM_honestShares (hdegree : F.degree < params.t.toNat) (hsecret : F.eval 0 ≠ 0)
    (hcount : params.t.toNat ≤ indices.length) :
    ∃ set : ShareSet S,
      (indices.map (honestShare F params digest h)).foldlM ShareSet.add (.empty params) =
        .ok set ∧
      set.signature = .ok ⟨S.g1.generator * (h * F.eval 0), (S.hashPoint digest).2⟩ := by
  have hsigners : ((indices.map (honestShare F params digest h)).map (·.index)).Nodup := by
    rw [map_index_honestShare]
    exact hindices.nodup
  obtain ⟨set, lowest, hlowest, -, hfold, hsignature⟩ := ShareSet.foldlM_add_of_values hh hdegree
    hsecret hsigners (by rwa [List.length_map])
    fun share hshare => ofValue_honestShare hindices hshare
  obtain ⟨i, -, rfl⟩ := List.mem_map.mp hlowest
  exact ⟨set, hfold, hsignature⟩

end Shares

/-! ## The suite BN254 -/

namespace Bn254

variable {T : Type} [CommGroup T] {e : Point Fq → Point Fq2 → T}
  {same : Point Fq → Point Fq2 → Point Fq → Point Fq2 → Bool}

/-- Whichever participants sign, in whatever order, they make the signature of the shared key,
and it verifies in both ways. -/
theorem threshold_signing (he : IsPairing e) (hsame : Compares same e) (params : Params)
    (F : Fr[X]) (hdegree : F.degree < params.t.toNat) (hsecret : F.eval 0 ≠ 0)
    (digest : Digest) (hshift : (find digest).shift < UInt64.size) :
    ∃ (key : PrivateKey (suiteWith same)) (publicKey : PublicKey (suiteWith same))
        (signature : Signature (suiteWith same)),
      PrivateKey.create (F.eval 0) = .ok key ∧ key.sign digest = .ok signature ∧
      PublicKey.create (g2.generator * F.eval 0) = .ok publicKey ∧
      publicKey.verify digest signature = .ok true ∧
      publicKey.verifyHinted digest signature = .ok true ∧
      ∀ indices : List UInt16, CanSign (S := suiteWith same) F params indices →
        params.t.toNat ≤ indices.length →
        ∃ (shares : List (SignatureShare (suiteWith same))) (set closed : ShareSet _),
          indices.mapM ((suiteWith same).signShare F params digest) = .ok shares ∧
          shares.foldlM ShareSet.add (.empty params) = .ok set ∧
          set.merge = .ok (signature, closed) := by
  have hS := he.testsProducts hsame
  obtain ⟨h, hh, hpoint⟩ :=
    (g1_isCyclic.requireUsable_eq_ok_iff _).mp (requireUsable_hashPoint digest)
  have hhint : pointOfHint digest (hashPoint digest).2 = .ok (g1.generator * h) := by
    rw [hpoint]
    exact pointOfHint_hashPoint hshift
  refine ⟨⟨F.eval 0⟩, ⟨g2.generator * F.eval 0⟩,
    ⟨g1.generator * (h * F.eval 0), (hashPoint digest).2⟩, if_neg hsecret,
    PrivateKey.sign_eq_ok hh hsecret hpoint.symm, PublicKey.create_multiple hsecret,
    Suite.verify_product hS hpoint.symm hh hsecret,
    Suite.verifyHinted_product hS hhint hh hsecret, ?_⟩
  intro indices hindices hcount
  obtain ⟨set, hfold, hsignature⟩ := foldlM_honestShares hh hindices hdegree hsecret hcount
  refine ⟨_, set, { set with merged := true }, mapM_signShare hh hpoint.symm hindices, hfold, ?_⟩
  rw [ShareSet.merge, hsignature]
  rfl

noncomputable def line : Fr[X] := Polynomial.X + Polynomial.C 1

theorem threshold_signing_line :
    ∃ (key : PrivateKey (suiteWith sameScalarPairing)) (publicKey : PublicKey _)
        (signature : Signature _) (shares : List (SignatureShare _)) (set closed : ShareSet _),
      PrivateKey.create (line.eval 0) = .ok key ∧ key.sign digestOne = .ok signature ∧
      PublicKey.create (g2.generator * line.eval 0) = .ok publicKey ∧
      publicKey.verify digestOne signature = .ok true ∧
      publicKey.verifyHinted digestOne signature = .ok true ∧
      [3, 1].mapM ((suiteWith sameScalarPairing).signShare line Params.twoOfThree digestOne) =
        .ok shares ∧
      shares.foldlM ShareSet.add (.empty Params.twoOfThree) = .ok set ∧
      set.merge = .ok (signature, closed) := by
  have hdegree : line.degree < Params.twoOfThree.t.toNat := by
    rw [line, Polynomial.degree_X_add_C]
    decide
  have hsecret : line.eval 0 ≠ 0 := by
    simp [line]
  have hsigners : CanSign (S := suiteWith sameScalarPairing) line Params.twoOfThree [3, 1] := by
    have hvalue : ∀ i : UInt16, Residue.ofNat order i.toNat + 1 ≠ 0 →
        line.eval (Residue.ofNat order i.toNat) ≠ 0 := by
      intro i hi
      rwa [line, Polynomial.eval_add, Polynomial.eval_X, Polynomial.eval_C]
    refine ⟨by decide, ?_, ?_⟩
    · rw [List.forall_mem_cons, List.forall_mem_singleton]
      decide
    · rw [List.forall_mem_cons, List.forall_mem_singleton]
      exact ⟨hvalue 3 (by decide +kernel), hvalue 1 (by decide +kernel)⟩
  obtain ⟨key, publicKey, signature, hkey, hsign, hpublicKey, hverify, hverifyHinted, hmerge⟩ :=
    threshold_signing isPairing_scalarPairing compares_sameScalarPairing Params.twoOfThree line
      hdegree hsecret digestOne (by decide +kernel)
  obtain ⟨shares, set, closed, hshares, hadd, hmerged⟩ := hmerge [3, 1] hsigners (by decide)
  exact ⟨key, publicKey, signature, shares, set, closed, hkey, hsign, hpublicKey, hverify,
    hverifyHinted, hshares, hadd, hmerged⟩

end Bn254

end ThresholdBls
