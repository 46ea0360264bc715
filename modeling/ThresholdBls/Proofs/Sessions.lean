import ThresholdBls.Proofs.AcceptedShares
import ThresholdBls.Proofs.Recombination
import ThresholdBls.Session

/-!
# Sessions of honest holders

A session makes the calls of a run that starts with an empty share set.  When
the holders have the values of one polynomial, every share is found valid and
added, and enough of them lead to the signature and to the keys of the value at
zero.
-/

open scoped Polynomial

namespace ThresholdBls

variable {S : Suite}

def ShareSet.Answer.outcome : Answer S → Except Error Unit
  | .failed error => .error error
  | _ => .ok ()

theorem ShareSet.run_add_of_foldlM {set final : ShareSet S} {shares : List (SignatureShare S)}
    (h : shares.foldlM add set = .ok final) :
    set.run (shares.map .add) = (shares.map fun share => (.add share, .added), final) := by
  induction shares generalizing set with
  | nil =>
      cases h
      rfl
  | cons share rest ih =>
      rw [List.foldlM_cons] at h
      obtain ⟨larger, hadd, hrest⟩ := bind_eq_ok_iff.mp h
      rw [List.map_cons, run, call_add_of_ok hadd, ih hrest]
      rfl

namespace Session

variable {params : Params} {digest : Digest} {holders : List (PrivateKeyShare S)}

/-! ## Sessions are runs -/

section Run

variable {signed : PrivateKeyShare S → SignatureShare S}

theorem contribute_eq {holder : PrivateKeyShare S}
    (hsign : holder.sign digest = .ok (signed holder)) (set : ShareSet S) :
    contribute digest set holder =
      .ok (⟨signed holder, holder.publicKeyShare.verify digest (signed holder),
        (set.call (.add (signed holder))).1.outcome⟩, (set.call (.add (signed holder))).2) := by
  simp only [contribute, hsign]
  cases hadd : set.add (signed holder) with
  | ok larger =>
      rw [ShareSet.call_add_of_ok hadd]
      simp only [Bind.bind, Except.bind, hadd]
      rfl
  | error error =>
      rw [ShareSet.call_add_of_error hadd]
      simp only [Bind.bind, Except.bind, hadd]
      rfl

/-- The contributions are answered as the calls of a run that adds them. -/
theorem contributeAll_eq (hsign : ∀ holder ∈ holders, holder.sign digest = .ok (signed holder))
    (set : ShareSet S) :
    contributeAll digest set holders =
      .ok (holders.zipWith (fun holder entry =>
          ⟨signed holder, holder.publicKeyShare.verify digest (signed holder), entry.2.outcome⟩)
        (set.run (holders.map fun holder => .add (signed holder))).1,
        (set.run (holders.map fun holder => .add (signed holder))).2) := by
  induction holders generalizing set with
  | nil => rfl
  | cons holder rest ih =>
      rw [contributeAll, contribute_eq (hsign holder List.mem_cons_self)]
      simp only [Bind.bind, Except.bind]
      rw [ih fun other hother => hsign other (List.mem_cons_of_mem _ hother)]
      rfl

end Run

theorem run_eq {signed : PrivateKeyShare S → SignatureShare S} {set : ShareSet S}
    (hsign : ∀ holder ∈ holders, holder.sign digest = .ok (signed holder))
    (hadd : (holders.map signed).foldlM ShareSet.add (.empty params) = .ok set) :
    run params digest holders = .ok {
      contributions := holders.map fun holder =>
        ⟨signed holder, holder.publicKeyShare.verify digest (signed holder), .ok ()⟩
      merged := set.signature
      privateKey := PrivateKey.ofShares holders
      publicKey := PublicKey.ofShares (PublicKeyShare.mapOf holders) params } := by
  have hrun : ShareSet.run (.empty params) (holders.map fun holder => .add (signed holder)) =
      (holders.map fun holder => (.add (signed holder), .added), set) := by
    have hshares := ShareSet.run_add_of_foldlM hadd
    rw [List.map_map, List.map_map] at hshares
    exact hshares
  rw [run, contributeAll_eq hsign, hrun, List.zipWith_map_right, List.zipWith_self]
  rfl

end Session

/-! ## Honest holders -/

variable [S.Lawful] {F : S.Scalar[X]} {params : Params} {digest : Digest} {h : S.Scalar}
  {indices : List UInt16}

theorem PrivateKeyShare.Valid.verify_signed (hS : S.TestsProducts) (hh : h ≠ 0)
    (hpoint : (S.hashPoint digest).1 = S.g1.generator * h) {holder : PrivateKeyShare S}
    (hholder : holder.Valid) (hint : Hint S.fieldSize) :
    holder.publicKeyShare.verify digest (holder.signed h hint) = .ok true :=
  PublicKeyShare.verify_eq_ok_iff.mpr
    ⟨rfl, rfl, Suite.verify_product hS hpoint hh hholder.key⟩

namespace CanSign

variable (hindices : CanSign F params indices)

include hindices

theorem valid_ofValue : ∀ holder ∈ indices.map (PrivateKeyShare.ofValue F params),
    holder.Valid := by
  rw [List.forall_mem_map]
  exact fun i hi => ⟨hindices.value_ne_zero i hi, hindices.range i hi⟩

theorem zero_notMem : 0 ∉ indices :=
  fun hzero => absurd (hindices.range 0 hzero).1 (by decide)

theorem perm_mapOf :
    (PublicKeyShare.mapOf (indices.map (PrivateKeyShare.ofValue F params))).entries.Perm
      (indices.map fun i => (i, PublicKeyShare.ofValue F params i)) := by
  have hentries : (indices.map (PrivateKeyShare.ofValue F params)).map
      (fun share => (share.index, share.publicKeyShare)) =
        indices.map fun i => (i, PublicKeyShare.ofValue F params i) := by
    rw [List.map_map]
    rfl
  rw [PublicKeyShare.mapOf, hentries]
  refine IndexMap.perm_ofList ?_
  rw [List.map_map]
  exact (List.map_id _).symm ▸ hindices.nodup

theorem size_mapOf :
    (PublicKeyShare.mapOf (indices.map (PrivateKeyShare.ofValue F params))).size =
      indices.length :=
  hindices.perm_mapOf.length_eq.trans (List.length_map _)

theorem exists_set (digest : Digest) (hh : h ≠ 0) :
    ∃ set : ShareSet S, (indices.map (honestShare F params digest h)).foldlM ShareSet.add
        (.empty params) = .ok set ∧ set.params = params ∧ set.count = indices.length := by
  have hvalues : ∀ share ∈ indices.map (honestShare F params digest h),
      share.OfValue F params h := fun share hshare => ofValue_honestShare hindices hshare
  have hsigners : ((indices.map (honestShare F params digest h)).map (·.index)).Nodup := by
    rw [map_index_honestShare]
    exact hindices.nodup
  obtain ⟨set, hfold, -, hparams, -, hperm⟩ := ShareSet.foldlM_add_empty
    (fun share hshare => (hvalues share hshare).wellFormed hh)
    (fun share hshare => (hvalues share hshare).params_eq) hsigners
  exact ⟨set, hfold, hparams, (ShareSet.count_of_perm hperm).trans (List.length_map _)⟩

end CanSign

namespace Session

variable (hS : S.TestsProducts) (hh : h ≠ 0) (hpoint : (S.hashPoint digest).1 = S.g1.generator * h)
  (hindices : CanSign F params indices)

include hS hh hpoint hindices

theorem run_of_added {set : ShareSet S}
    (hadd : (indices.map (honestShare F params digest h)).foldlM ShareSet.add (.empty params) =
      .ok set) :
    run params digest (indices.map (.ofValue F params)) = .ok {
      contributions := indices.map fun i =>
        ⟨honestShare F params digest h i, .ok true, .ok ()⟩
      merged := set.signature
      privateKey := PrivateKey.ofShares (indices.map (.ofValue F params))
      publicKey :=
        PublicKey.ofShares (PublicKeyShare.mapOf (indices.map (.ofValue F params))) params } := by
  have hvalid := hindices.valid_ofValue
  have hadd' : ((indices.map (PrivateKeyShare.ofValue F params)).map
      (PrivateKeyShare.signed h (S.hashPoint digest).2)).foldlM ShareSet.add (.empty params) =
        .ok set := by
    rw [List.map_map]
    exact hadd
  rw [run_eq (fun holder hholder => (hvalid holder hholder).sign_eq_ok hh hpoint) hadd']
  congr 2
  rw [List.map_map]
  refine List.map_congr_left fun i hi => ?_
  rw [Function.comp_apply, (hvalid _ (List.mem_map_of_mem hi)).verify_signed hS hh hpoint]
  rfl

/-- Enough honest holders make the signature of the shared key, and lead to the key itself. -/
theorem run_of_enough (hdegree : F.degree < params.t.toNat) (hsecret : F.eval 0 ≠ 0)
    (hcount : params.t.toNat ≤ indices.length) :
    run params digest (indices.map (.ofValue F params)) = .ok {
      contributions := indices.map fun i =>
        ⟨honestShare F params digest h i, .ok true, .ok ()⟩
      merged := .ok ⟨S.g1.generator * (h * F.eval 0), (S.hashPoint digest).2⟩
      privateKey := .ok ⟨F.eval 0⟩
      publicKey := .ok (PrivateKey.publicKey ⟨F.eval 0⟩) } := by
  obtain ⟨set, hadd, hsignature⟩ := foldlM_honestShares hh hindices hdegree hsecret hcount
  have hprivate : PrivateKey.ofShares (indices.map (PrivateKeyShare.ofValue F params)) =
      .ok ⟨F.eval 0⟩ :=
    (PrivateKey.ofShares_ofValue hdegree hindices.nodup hindices.zero_notMem hcount
      hindices.value_ne_zero).trans (if_neg hsecret)
  have hkeys : 0 ∉ (PublicKeyShare.mapOf
      (indices.map (PrivateKeyShare.ofValue F params))).entries.map Prod.fst := by
    rw [(hindices.perm_mapOf.map Prod.fst).mem_iff, List.map_map]
    exact (List.map_id _).symm ▸ hindices.zero_notMem
  have hpublic : PublicKey.ofShares
      (PublicKeyShare.mapOf (indices.map (PrivateKeyShare.ofValue F params))) params =
        .ok (PrivateKey.publicKey ⟨F.eval 0⟩) := by
    refine (PublicKey.ofShares_ofValue hdegree hkeys (hindices.size_mapOf.symm ▸ hcount)
      fun entry hentry => ?_).trans (PublicKey.create_multiple hsecret)
    rw [hindices.perm_mapOf.mem_iff] at hentry
    obtain ⟨i, -, rfl⟩ := List.mem_map.mp hentry
    rfl
  rw [run_of_added hS hh hpoint hindices hadd, hsignature, hprivate, hpublic]

theorem run_of_too_few (hne : indices ≠ []) (hfew : indices.length < params.t.toNat) :
    run params digest (indices.map (.ofValue F params)) = .ok {
      contributions := indices.map fun i =>
        ⟨honestShare F params digest h i, .ok true, .ok ()⟩
      merged := .error (.tooFewShares params.t.toNat indices.length)
      privateKey := .error (.tooFewShares params.t.toNat indices.length)
      publicKey := .error (.tooFewShares params.t.toNat indices.length) } := by
  obtain ⟨set, hadd, hparams, hcount⟩ := hindices.exists_set digest hh
  have hready : set.isReady = false := by
    rw [Bool.eq_false_iff, Ne, ShareSet.isReady_iff, hparams, hcount, not_le]
    exact hfew
  have hmerged := ShareSet.signature_of_not_ready hready
  rw [hparams, hcount] at hmerged
  have hprivate : PrivateKey.ofShares (indices.map (PrivateKeyShare.ofValue F params)) =
      .error (.tooFewShares params.t.toNat indices.length) := by
    have hfew' : (indices.map (PrivateKeyShare.ofValue F params)).length < params.t.toNat := by
      rwa [List.length_map]
    rw [PrivateKey.ofShares_of_few ?_ (by simpa using hne) hfew', List.length_map]
    rw [List.forall_mem_map]
    exact fun _ _ => rfl
  have hpublic : PublicKey.ofShares
      (PublicKeyShare.mapOf (indices.map (PrivateKeyShare.ofValue F params))) params =
        .error (.tooFewShares params.t.toNat indices.length) := by
    simp only [PublicKey.ofShares, hindices.size_mapOf, if_pos hfew]
    rfl
  rw [run_of_added hS hh hpoint hindices hadd, hmerged, hprivate, hpublic]

end Session

/-! ## The suite BN254 -/

namespace Bn254

variable {T : Type} [CommGroup T] {e : Point Fq → Point Fq2 → T}
  {same : Point Fq → Point Fq2 → Point Fq → Point Fq2 → Bool}

theorem session_of_honest_holders (he : IsPairing e) (hsame : Compares same e) (params : Params)
    (F : Fr[X]) (hdegree : F.degree < params.t.toNat) (hsecret : F.eval 0 ≠ 0) (digest : Digest) :
    ∃ signature : Signature (suiteWith same), PrivateKey.sign ⟨F.eval 0⟩ digest = .ok signature ∧
      ∀ indices : List UInt16, CanSign (S := suiteWith same) F params indices →
        params.t.toNat ≤ indices.length →
        ∃ shares : List (SignatureShare (suiteWith same)),
          indices.mapM ((suiteWith same).signShare F params digest) = .ok shares ∧
          Session.run params digest (indices.map (.ofValue (S := suiteWith same) F params)) = .ok {
            contributions := shares.map fun share => ⟨share, .ok true, .ok ()⟩
            merged := .ok signature
            privateKey := .ok ⟨F.eval 0⟩
            publicKey := .ok (PrivateKey.publicKey ⟨F.eval 0⟩) } := by
  have hS := he.testsProducts hsame
  obtain ⟨h, hh, hpoint⟩ := exists_hashPoint_suiteWith same digest
  refine ⟨_, PrivateKey.sign_eq_ok hh hsecret hpoint, fun indices hindices hcount =>
    ⟨_, mapM_signShare hh hpoint hindices, ?_⟩⟩
  rw [List.map_map]
  exact Session.run_of_enough hS hh hpoint hindices hdegree hsecret hcount

end Bn254

end ThresholdBls
