import ThresholdBls.Proofs.Bn254.HashToCurve
import ThresholdBls.Proofs.Interpolation.PublicRecovery
import ThresholdBls.Proofs.ShareSet.Runs
import ThresholdBls.Proofs.Signing
import ThresholdBls.Proofs.Validity.Values

/-!
# Recombinations agree

Private keys, public keys and signatures are combined from shares by three
loops of their own.  All of them take the shares of the lowest indices and
interpolate at zero.  So they agree on any shares, whether or not these are
values of one polynomial, and all fail where the interpolated value is zero.
-/

namespace ThresholdBls

variable {S : Suite}

/-- Valid shares in the order of their indices, at least as many as the threshold. -/
structure PrivateKeyShare.Ascending (params : Params) (shares : List (PrivateKeyShare S)) :
    Prop where
  valid : ∀ share ∈ shares, share.Valid
  params_eq : ∀ share ∈ shares, share.params = params
  ascending : shares.Pairwise fun a b => a.index.toNat < b.index.toNat
  threshold : params.t.toNat ≤ shares.length

def PublicKeyShare.mapOf (shares : List (PrivateKeyShare S)) : IndexMap (PublicKeyShare S) :=
  .ofList (shares.map fun share => (share.index, share.publicKeyShare))

/-- What a holder makes of a digest whose point is the multiple of the generator by `h`. -/
def PrivateKeyShare.signed (h : S.Scalar) (hint : Hint S.fieldSize) (share : PrivateKeyShare S) :
    SignatureShare S :=
  ⟨⟨S.g1.generator * (h * share.key.scalar), hint⟩, share.index, share.params⟩

theorem PrivateKeyShare.zero_notMem_indices {shares : List (PrivateKeyShare S)}
    (hvalid : ∀ share ∈ shares, share.Valid) : 0 ∉ shares.map (·.index) := by
  intro hzero
  obtain ⟨share, hshare, hindex⟩ := List.mem_map.mp hzero
  exact (hvalid share hshare).index.ne_zero hindex

namespace PrivateKeyShare.Ascending

variable {params : Params} {shares : List (PrivateKeyShare S)} (hshares : Ascending params shares)

include hshares

theorem requireIndex {share : PrivateKeyShare S} (hshare : share ∈ shares) :
    share.params.requireIndex share.index = .ok () :=
  Params.requireIndex_of_range (hshares.valid share hshare).index

theorem nodup : (shares.map (·.index)).Nodup := by
  refine List.pairwise_map.mpr (hshares.ascending.imp fun hlt heq => ?_)
  rw [heq] at hlt
  exact absurd hlt (lt_irrefl _)

theorem zero_notMem_take (count : Nat) : 0 ∉ (shares.take count).map (·.index) :=
  zero_notMem_indices fun share hshare => hshares.valid share (List.mem_of_mem_take hshare)

theorem scalar_ne_zero_of_mem_take {count : Nat} {k : S.Scalar}
    (hk : k ∈ (shares.take count).map (·.key.scalar)) : k ≠ 0 := by
  obtain ⟨share, hshare, rfl⟩ := List.mem_map.mp hk
  exact (hshares.valid share (List.mem_of_mem_take hshare)).key

theorem entries_mapOf : (PublicKeyShare.mapOf shares).entries =
    shares.map fun share => (share.index, share.publicKeyShare) :=
  IndexMap.entries_ofList (List.pairwise_map.mpr hshares.ascending)

end PrivateKeyShare.Ascending

section Recombination

variable [S.Lawful] {params : Params} {shares : List (PrivateKeyShare S)}

/-- The value at zero that the first shares, as many as the threshold, lead to. -/
def Suite.secretOf (params : Params) (shares : List (PrivateKeyShare S)) : S.Scalar :=
  interpolate (((shares.take params.t.toNat).map (·.index)).map S.abscissa)
    ((shares.take params.t.toNat).map (·.key.scalar))

variable (hshares : PrivateKeyShare.Ascending params shares)

include hshares

theorem PrivateKey.ofShares_ascending :
    ofShares shares = create (Suite.secretOf params shares) :=
  ofShares_eq_create hshares.params_eq (hshares.zero_notMem_take _)
    (hshares.nodup.sublist ((List.take_sublist _ _).map _)) hshares.threshold
    fun share hshare => (hshares.valid share hshare).key

theorem PublicKey.ofShares_ascending :
    ofShares (PublicKeyShare.mapOf shares) params =
      create (S.g2.generator * Suite.secretOf params shares) := by
  have hindices : ((PublicKeyShare.mapOf shares).entries.take params.t.toNat).map Prod.fst =
      (shares.take params.t.toNat).map (·.index) := by
    rw [hshares.entries_mapOf, ← List.map_take, List.map_map]
    rfl
  have helements :
      ((PublicKeyShare.mapOf shares).entries.take params.t.toNat).map (·.2.key.element) =
        ((shares.take params.t.toNat).map (·.key.scalar)).map fun k => S.g2.generator * k := by
    rw [hshares.entries_mapOf, ← List.map_take, List.map_map, List.map_map]
    rfl
  rw [ofShares_eq_create ?_ ?_ ?_ helements, hindices, Suite.secretOf]
  · intro entry hentry
    rw [hshares.entries_mapOf] at hentry
    obtain ⟨share, hshare, rfl⟩ := List.mem_map.mp hentry
    exact ⟨hshares.params_eq share hshare, rfl⟩
  · rw [hindices]
    exact hshares.zero_notMem_take _
  · rw [IndexMap.size, hshares.entries_mapOf, List.length_map]
    exact hshares.threshold

/-! ## Signed shares -/

section Signed

variable {digest : Digest} {h : S.Scalar} {hint : Hint S.fieldSize} (hh : h ≠ 0)

include hh

omit hshares in
theorem PrivateKeyShare.Valid.sign_eq_ok {share : PrivateKeyShare S} (hshare : share.Valid)
    (hpoint : (S.hashPoint digest).1 = S.g1.generator * h) :
    share.sign digest = .ok (share.signed h (S.hashPoint digest).2) :=
  PrivateKeyShare.sign_eq_ok hh hshare.key hpoint (Params.requireIndex_of_range hshare.index)

theorem PrivateKeyShare.mapM_sign
    (hpoint : (S.hashPoint digest).1 = S.g1.generator * h) :
    (shares.mapM fun share => share.sign digest) =
      .ok (shares.map (signed h (S.hashPoint digest).2)) :=
  mapM_eq_ok fun share hshare => (hshares.valid share hshare).sign_eq_ok hh hpoint

/-- Added in any order, the signed shares stand in the set in the order of their indices. -/
theorem ShareSet.foldlM_add_signed {added : List (SignatureShare S)}
    (hadded : added.Perm (shares.map (PrivateKeyShare.signed h hint))) :
    ∃ set : ShareSet S, added.foldlM add (.empty params) = .ok set ∧ set.Valid ∧
      set.params = params ∧ set.merged = false ∧
      set.shares.values = shares.map (PrivateKeyShare.signed h hint) := by
  have hmem : ∀ share ∈ added, share.WellFormed ∧ params = share.params := by
    intro share hshare
    rw [hadded.mem_iff] at hshare
    obtain ⟨holder, hholder, rfl⟩ := List.mem_map.mp hshare
    have hscalar := mul_ne_zero hh (hshares.valid holder hholder).key
    obtain ⟨hzero, hle⟩ := Params.requireIndex_eq_ok_iff.mp (hshares.requireIndex hholder)
    exact ⟨⟨Suite.Lawful.g1_cyclic.requireUsable_multiple hscalar, hzero, hle⟩,
      (hshares.params_eq holder hholder).symm⟩
  have hnodup : (added.map (·.index)).Nodup := by
    rw [(hadded.map _).nodup_iff, List.map_map]
    exact hshares.nodup
  obtain ⟨set, hfold, hset, hparams, hopen, hperm⟩ := foldlM_add_empty
    (fun share hshare => (hmem share hshare).1) (fun share hshare => (hmem share hshare).2) hnodup
  -- The values are a permutation of the signed shares, and both lists ascend.
  refine ⟨set, hfold, hset, hparams, hopen, (hperm.trans hadded).eq_of_pairwise ?_
    hset.ascending_values (List.pairwise_map.mpr hshares.ascending)⟩
  exact fun _ _ _ _ hlt hgt => absurd hlt hgt.not_gt

theorem ShareSet.signature_signed {set : ShareSet S} (hset : set.Valid)
    (hparams : set.params = params)
    (hvalues : set.shares.values = shares.map (PrivateKeyShare.signed h hint)) :
    set.signature =
      Signature.create (S.g1.generator * (h * Suite.secretOf params shares)) hint := by
  have hready : set.isReady = true := by
    refine isReady_of_perm (.of_eq hvalues) ?_
    rw [List.length_map, hparams]
    exact hshares.threshold
  have hused : set.used =
      (shares.take params.t.toNat).map (PrivateKeyShare.signed h hint) := by
    rw [used, hvalues, hparams, List.map_take]
  have helements : set.used.map (·.signature.element) =
      (((shares.take params.t.toNat).map (·.key.scalar)).map fun k => h * k).map
        fun k => S.g1.generator * k := by
    rw [hused, List.map_map, List.map_map, List.map_map]
    rfl
  have hnonzero : ∀ k ∈ ((shares.take params.t.toNat).map (·.key.scalar)).map fun k => h * k,
      k ≠ 0 := by
    intro k hk
    obtain ⟨scalar, hscalar, rfl⟩ := List.mem_map.mp hk
    exact mul_ne_zero hh (hshares.scalar_ne_zero_of_mem_take hscalar)
  obtain ⟨lowest, hlowest, hsignature⟩ := hset.signature_eq_create hready hnonzero helements
  have hhint : lowest.signature.hint = hint := by
    have hmem := List.mem_of_head? hlowest
    rw [hvalues] at hmem
    obtain ⟨holder, -, rfl⟩ := List.mem_map.mp hmem
    rfl
  have hindices : set.used.map (·.index) = (shares.take params.t.toNat).map (·.index) := by
    rw [hused, List.map_map]
    rfl
  rw [hsignature, hhint, hindices, Suite.interpolate_mul_left, Suite.secretOf]

theorem ShareSet.merge_signed {added : List (SignatureShare S)}
    (hadded : added.Perm (shares.map (PrivateKeyShare.signed h hint))) :
    ∃ set : ShareSet S, added.foldlM add (.empty params) = .ok set ∧ set.merged = false ∧
      set.signature =
        if Suite.secretOf params shares = 0 then .error .identityElement
        else .ok ⟨S.g1.generator * (h * Suite.secretOf params shares), hint⟩ := by
  obtain ⟨set, hfold, hset, hparams, hopen, hvalues⟩ := foldlM_add_signed hshares hh hadded
  refine ⟨set, hfold, hopen, ?_⟩
  rw [signature_signed hshares hh hset hparams hvalues, Signature.create_multiple]
  simp [hh]

end Signed

section Outcomes

variable {digest : Digest} {h : S.Scalar} (hh : h ≠ 0)
  (hpoint : (S.hashPoint digest).1 = S.g1.generator * h)

include hh hpoint

theorem recombine_of_ne_zero (hsecret : Suite.secretOf params shares ≠ 0) :
    ∃ key signature, PrivateKey.ofShares shares = .ok key ∧
      PublicKey.ofShares (PublicKeyShare.mapOf shares) params = .ok key.publicKey ∧
      key.sign digest = .ok signature ∧
      ∀ added : List (SignatureShare S),
        added.Perm (shares.map (PrivateKeyShare.signed h (S.hashPoint digest).2)) →
        ∃ set closed, added.foldlM ShareSet.add (.empty params) = .ok set ∧
          set.call .merge = (.merged signature, closed) := by
  rw [PrivateKey.ofShares_ascending hshares, PublicKey.ofShares_ascending hshares]
  refine ⟨⟨Suite.secretOf params shares⟩, _, if_neg hsecret, PublicKey.create_multiple hsecret,
    PrivateKey.sign_eq_ok hh hsecret hpoint, fun added hadded => ?_⟩
  obtain ⟨set, hfold, -, hsignature⟩ := ShareSet.merge_signed hshares hh hadded
  rw [if_neg hsecret] at hsignature
  exact ⟨set, _, hfold, ShareSet.call_merge_of_ok hsignature⟩

omit hpoint in
theorem recombine_of_eq_zero (hsecret : Suite.secretOf params shares = 0) :
    PrivateKey.ofShares shares = .error .zeroSecret ∧
      PublicKey.ofShares (PublicKeyShare.mapOf shares) params = .error .identityElement ∧
      ∀ added : List (SignatureShare S),
        added.Perm (shares.map (PrivateKeyShare.signed h (S.hashPoint digest).2)) →
        ∃ set, added.foldlM ShareSet.add (.empty params) = .ok set ∧ set.merged = false ∧
          set.call .merge = (.failed .identityElement, set) := by
  rw [PrivateKey.ofShares_ascending hshares, PublicKey.ofShares_ascending hshares, hsecret]
  refine ⟨if_pos rfl, PublicKey.create_multiple_zero, fun added hadded => ?_⟩
  obtain ⟨set, hfold, hopen, hsignature⟩ := ShareSet.merge_signed hshares hh hadded
  rw [if_pos hsecret] at hsignature
  exact ⟨set, hfold, hopen, ShareSet.call_merge_of_error hsignature⟩

end Outcomes

end Recombination

/-! ## The suite BN254 -/

namespace Bn254

/-- Shares with any values combine to a private key, to its public key and to its signature, or
fail to combine to any of them. -/
theorem recombinations_agree (params : Params) (shares : List (PrivateKeyShare suite))
    (hshares : PrivateKeyShare.Ascending params shares) (digest : Digest) :
    ∃ signed : List (SignatureShare suite),
      (shares.mapM fun share => share.sign digest) = .ok signed ∧
      ((∃ key signature, PrivateKey.ofShares shares = .ok key ∧
          PublicKey.ofShares (PublicKeyShare.mapOf shares) params = .ok key.publicKey ∧
          key.sign digest = .ok signature ∧
          ∀ added : List (SignatureShare suite), added.Perm signed →
            ∃ set closed, added.foldlM ShareSet.add (.empty params) = .ok set ∧
              set.call .merge = (.merged signature, closed)) ∨
        PrivateKey.ofShares shares = .error .zeroSecret ∧
          PublicKey.ofShares (PublicKeyShare.mapOf shares) params = .error .identityElement ∧
          ∀ added : List (SignatureShare suite), added.Perm signed →
            ∃ set, added.foldlM ShareSet.add (.empty params) = .ok set ∧ set.merged = false ∧
              set.call .merge = (.failed .identityElement, set)) := by
  obtain ⟨h, hh, hpoint⟩ := exists_hashPoint_eq digest
  refine ⟨_, PrivateKeyShare.mapM_sign hshares hh hpoint, ?_⟩
  by_cases hsecret : Suite.secretOf params shares = 0
  · exact .inr (recombine_of_eq_zero hshares hh hsecret)
  · exact .inl (recombine_of_ne_zero hshares hh hpoint hsecret)

/-- The shares one, two and five of three participants, of which the first two cancel. -/
def cancellingShares : List (PrivateKeyShare suite) :=
  [⟨⟨1⟩, 1, .twoOfThree⟩, ⟨⟨.ofNat order 2⟩, 2, .twoOfThree⟩, ⟨⟨.ofNat order 5⟩, 3, .twoOfThree⟩]

theorem ascending_cancellingShares :
    PrivateKeyShare.Ascending .twoOfThree cancellingShares := by
  have hvalid (k : Fr) (index : UInt16) (hk : k ≠ 0) (hindex : Params.twoOfThree.InRange index) :
      PrivateKeyShare.Valid (S := suite) ⟨⟨k⟩, index, .twoOfThree⟩ := ⟨hk, hindex⟩
  refine ⟨?_, by simp [cancellingShares], by simp [cancellingShares], by decide⟩
  simp only [cancellingShares, List.forall_mem_cons]
  exact ⟨hvalid 1 1 one_ne_zero (by decide), hvalid _ _ (by decide +kernel) (by decide),
    hvalid _ _ (by decide +kernel) (by decide), nofun⟩

theorem recombinations_agree_cancellingShares :
    ∃ signed : List (SignatureShare suite),
      (cancellingShares.mapM fun share => share.sign digestOne) = .ok signed ∧
      PrivateKey.ofShares cancellingShares = .error .zeroSecret ∧
      PublicKey.ofShares (PublicKeyShare.mapOf cancellingShares) .twoOfThree =
        .error .identityElement ∧
      ∀ added : List (SignatureShare suite), added.Perm signed → ∃ set,
        added.foldlM ShareSet.add (.empty .twoOfThree) = .ok set ∧ set.merged = false ∧
        set.call .merge = (.failed .identityElement, set) := by
  obtain ⟨signed, hsigned, hcases⟩ :=
    recombinations_agree .twoOfThree cancellingShares ascending_cancellingShares digestOne
  refine ⟨signed, hsigned, ?_⟩
  have hzero : PrivateKey.ofShares cancellingShares = .error .zeroSecret := by
    decide +kernel
  rcases hcases with ⟨key, -, hkey, -⟩ | hcases
  · rw [hzero] at hkey
    cases hkey
  · exact hcases

end Bn254

end ThresholdBls
