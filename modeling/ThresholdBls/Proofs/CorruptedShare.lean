import ThresholdBls.Proofs.AcceptedShares
import ThresholdBls.Proofs.Interpolation.Coefficients
import ThresholdBls.Proofs.Recombination

/-!
# A corrupted share is noticed

No interpolation weight is zero, so that a share with a wrong value moves the
combined value whatever the other shares are.  What the shares combine to is
then not the secret, and what they sign together is not valid.
-/

open scoped Polynomial

namespace ThresholdBls

variable {S : Suite} [S.Lawful]

noncomputable def PrivateKeyShare.surplus (F : S.Scalar[X]) (share : PrivateKeyShare S) :
    S.Scalar :=
  share.key.scalar - F.eval (S.abscissa share.index)

/-- As many shares as the threshold, all of which but one hold the values of a polynomial. -/
structure OneCorrupted (F : S.Scalar[X]) (params : Params) (shares : List (PrivateKeyShare S))
    (corrupted : PrivateKeyShare S) : Prop where
  valid : ∀ share ∈ shares, share.Valid
  params_eq : ∀ share ∈ shares, share.params = params
  nodup : (shares.map (·.index)).Nodup
  threshold : shares.length = params.t.toNat
  value_ne_zero : ∀ share ∈ shares, F.eval (S.abscissa share.index) ≠ 0
  mem : corrupted ∈ shares
  differs : corrupted.key.scalar ≠ F.eval (S.abscissa corrupted.index)
  honest : ∀ share ∈ shares, share ≠ corrupted →
    share.key.scalar = F.eval (S.abscissa share.index)

/-! ## The combined value -/

/-- The combined value exceeds the secret by the weighted surpluses of the shares. -/
theorem Suite.interpolate_eq_add_surplus {F : S.Scalar[X]} {shares : List (PrivateKeyShare S)}
    (hnodup : (shares.map (·.index)).Nodup) (hzero : 0 ∉ shares.map (·.index))
    (hdegree : F.degree < shares.length) :
    interpolate ((shares.map (·.index)).map S.abscissa) (shares.map (·.key.scalar)) =
      F.eval 0 + (shares.map fun share =>
        Interpolation.weight ((shares.map (·.index)).map S.abscissa) (S.abscissa share.index) *
          share.surplus F).sum := by
  have hvalues := Interpolation.sum_weight_mul_eval (nodup_abscissas hnodup)
    (zero_notMem_abscissas hzero) (F := F) (by simpa using hdegree)
  rw [List.map_map, List.map_map] at hvalues
  rw [interpolate, List.map_map, List.map_map, combine_map, ← hvalues, ← List.sum_map_add]
  refine congrArg List.sum (List.map_congr_left fun share _ => ?_)
  simp only [Function.comp_apply, PrivateKeyShare.surplus]
  ring

namespace OneCorrupted

variable {F : S.Scalar[X]} {params : Params} {shares : List (PrivateKeyShare S)}
  {corrupted : PrivateKeyShare S} (h : OneCorrupted F params shares corrupted)

include h

theorem perm {others : List (PrivateKeyShare S)} (hperm : shares.Perm others) :
    OneCorrupted F params others corrupted := by
  have hmem : ∀ share, share ∈ others ↔ share ∈ shares := fun _ => hperm.symm.mem_iff
  constructor
  case valid => simpa only [hmem] using h.valid
  case params_eq => simpa only [hmem] using h.params_eq
  case nodup => exact (hperm.map _).nodup_iff.mp h.nodup
  case threshold => rw [← hperm.length_eq, h.threshold]
  case value_ne_zero => simpa only [hmem] using h.value_ne_zero
  case mem => simpa only [hmem] using h.mem
  case differs => exact h.differs
  case honest => simpa only [hmem] using h.honest

theorem zero_notMem : 0 ∉ shares.map (·.index) :=
  PrivateKeyShare.zero_notMem_indices h.valid

theorem take_threshold : shares.take params.t.toNat = shares :=
  List.take_of_length_le h.threshold.le

theorem surplus_ne_zero : corrupted.surplus F ≠ 0 :=
  sub_ne_zero.mpr h.differs

theorem surplus_eq_zero {share : PrivateKeyShare S} (hshare : share ∈ shares)
    (hne : share ≠ corrupted) : share.surplus F = 0 :=
  sub_eq_zero.mpr (h.honest share hshare hne)

theorem sum_mul_surplus (weight : PrivateKeyShare S → S.Scalar) :
    (shares.map fun share => weight share * share.surplus F).sum =
      weight corrupted * corrupted.surplus F := by
  have hnodup : shares.Nodup := List.Nodup.of_map _ h.nodup
  have hrest : ((shares.erase corrupted).map fun share => weight share * share.surplus F).sum =
      0 := by
    apply List.sum_eq_zero
    intro term hterm
    obtain ⟨share, hshare, rfl⟩ := List.mem_map.mp hterm
    rw [hnodup.mem_erase_iff] at hshare
    rw [h.surplus_eq_zero hshare.2 hshare.1, mul_zero]
  rw [((List.perm_cons_erase h.mem).map _).sum_eq, List.map_cons, List.sum_cons, hrest, add_zero]

theorem secretOf_ne (hdegree : F.degree < params.t.toNat) :
    Suite.secretOf params shares ≠ F.eval 0 := by
  have hweight := Interpolation.weight_ne_zero (Suite.nodup_abscissas (S := S) h.nodup)
    (Suite.zero_notMem_abscissas h.zero_notMem)
    (List.mem_map_of_mem (List.mem_map_of_mem h.mem))
  rw [Suite.secretOf, h.take_threshold, Suite.interpolate_eq_add_surplus h.nodup h.zero_notMem
    (by rwa [h.threshold]), h.sum_mul_surplus, Ne, add_eq_left]
  exact mul_ne_zero hweight h.surplus_ne_zero

theorem ofShares_eq_create :
    PrivateKey.ofShares shares = PrivateKey.create (Suite.secretOf params shares) := by
  refine PrivateKey.ofShares_eq_create h.params_eq ?_ ?_ h.threshold.ge
    fun share hshare => (h.valid share hshare).key
  · rw [h.take_threshold]
    exact h.zero_notMem
  · rw [h.take_threshold]
    exact h.nodup

theorem ofShares_cases (hdegree : F.degree < params.t.toNat) :
    PrivateKey.ofShares shares = .error .zeroSecret ∨
      ∃ key, PrivateKey.ofShares shares = .ok key ∧ key.scalar ≠ F.eval 0 := by
  rw [h.ofShares_eq_create, PrivateKey.create]
  split
  case isTrue => exact .inl rfl
  case isFalse => exact .inr ⟨_, rfl, h.secretOf_ne hdegree⟩

theorem exists_ascending :
    ∃ sorted : List (PrivateKeyShare S), shares.Perm sorted ∧
      PrivateKeyShare.Ascending params sorted := by
  let sorted := shares.mergeSort fun a b => decide (a.index.toNat ≤ b.index.toNat)
  have hperm : shares.Perm sorted := (List.mergeSort_perm _ _).symm
  have hsorted := h.perm hperm
  have hle : sorted.Pairwise fun a b => a.index.toNat ≤ b.index.toNat := by
    have hpairwise : sorted.Pairwise fun a b => decide (a.index.toNat ≤ b.index.toNat) = true :=
      List.pairwise_mergeSort (by simpa using fun a b c => Nat.le_trans)
        (by simpa using fun a b => Nat.le_total _ _) shares
    simpa using hpairwise
  have hne : sorted.Pairwise fun a b => a.index ≠ b.index := List.pairwise_map.mp hsorted.nodup
  refine ⟨sorted, hperm, hsorted.valid, hsorted.params_eq, ?_, hsorted.threshold.ge⟩
  refine (hle.and hne).imp fun hpair => ?_
  exact lt_of_le_of_ne hpair.1 fun hindex => hpair.2 (UInt16.toNat_inj.mp hindex)

end OneCorrupted

/-! ## Signatures on a digest -/

section Signed

variable {F : S.Scalar[X]} {params : Params} {digest : Digest} {h : S.Scalar}

theorem Suite.verifyShare_signed (hS : S.TestsProducts) (hh : h ≠ 0)
    (hpoint : (S.hashPoint digest).1 = S.g1.generator * h) {holder : PrivateKeyShare S}
    (hvalid : holder.Valid) (hparams : holder.params = params)
    (hvalue : F.eval (S.abscissa holder.index) ≠ 0) (hint : Hint S.fieldSize) :
    S.verifyShare F params digest (holder.signed h hint) =
      .ok (decide (holder.surplus F = 0)) := by
  subst hparams
  have hindex := Params.requireIndex_of_range hvalid.index
  have husable := Lawful.g2_cyclic.requireUsable_multiple hvalue
  have hverify := verify_multiples hS hpoint (mul_ne_zero hh hvalid.key) hvalue
  have hsame : h * holder.key.scalar = h * F.eval (S.abscissa holder.index) ↔
      holder.surplus F = 0 := by
    rw [mul_right_inj' hh, PrivateKeyShare.surplus, sub_eq_zero]
  rw [decide_eq_decide.mpr hsame] at hverify
  refine bind_eq_ok_iff.mpr ⟨_, PublicKeyShare.create_eq_ok_iff.mpr ⟨hindex, husable, rfl⟩, ?_⟩
  exact PublicKeyShare.verify_eq_ok_iff.mpr ⟨rfl, rfl, hverify⟩

variable {shares : List (PrivateKeyShare S)} {corrupted : PrivateKeyShare S}
  (hcorrupted : OneCorrupted F params shares corrupted)

include hcorrupted

theorem OneCorrupted.verifyShare (hS : S.TestsProducts) (hh : h ≠ 0)
    (hpoint : (S.hashPoint digest).1 = S.g1.generator * h) {hint : Hint S.fieldSize}
    {share : SignatureShare S} (hshare : share ∈ shares.map (PrivateKeyShare.signed h hint)) :
    S.verifyShare F params digest share = .ok (decide (share.index ≠ corrupted.index)) := by
  obtain ⟨holder, hholder, rfl⟩ := List.mem_map.mp hshare
  rw [Suite.verifyShare_signed hS hh hpoint (hcorrupted.valid holder hholder)
    (hcorrupted.params_eq holder hholder) (hcorrupted.value_ne_zero holder hholder),
    Except.ok.injEq, decide_eq_decide]
  constructor
  · rintro hsurplus hindex
    have hsame := List.inj_on_of_nodup_map hcorrupted.nodup hholder hcorrupted.mem hindex
    rw [hsame] at hsurplus
    exact hcorrupted.surplus_ne_zero hsurplus
  · intro hindex
    apply hcorrupted.surplus_eq_zero hholder
    rintro rfl
    exact hindex rfl

theorem OneCorrupted.merge_cases (hS : S.TestsProducts) (hdegree : F.degree < params.t.toNat)
    (hsecret : F.eval 0 ≠ 0) (hh : h ≠ 0)
    (hpoint : (S.hashPoint digest).1 = S.g1.generator * h) {hint : Hint S.fieldSize}
    {added : List (SignatureShare S)}
    (hadded : added.Perm (shares.map (PrivateKeyShare.signed h hint))) :
    ∃ set : ShareSet S, added.foldlM ShareSet.add (.empty params) = .ok set ∧
      (set.merge = .error .identityElement ∨
        ∃ merged closed, set.merge = .ok (merged, closed) ∧
          S.verify digest merged.element (S.g2.generator * F.eval 0) = .ok false) := by
  obtain ⟨sorted, hperm, hsorted⟩ := hcorrupted.exists_ascending
  have hne := (hcorrupted.perm hperm).secretOf_ne hdegree
  obtain ⟨set, hfold, -, hsignature⟩ :=
    ShareSet.merge_signed hsorted hh (hadded.trans (hperm.map _))
  refine ⟨set, hfold, ?_⟩
  by_cases hzero : Suite.secretOf params sorted = 0
  · left
    rw [if_pos hzero] at hsignature
    rw [ShareSet.merge, hsignature]
    rfl
  · right
    rw [if_neg hzero] at hsignature
    refine ⟨_, _, ShareSet.merge_eq_ok hsignature, ?_⟩
    have hmissed : h * Suite.secretOf params sorted ≠ h * F.eval 0 :=
      mt (mul_left_cancel₀ hh) hne
    rw [Suite.verify_multiples hS hpoint (mul_ne_zero hh hzero) hsecret, decide_eq_false hmissed]

end Signed

/-! ## The suite BN254 -/

namespace Bn254

variable {T : Type} [CommGroup T] {e : Point Fq → Point Fq2 → T}
  {same : Point Fq → Point Fq2 → Point Fq → Point Fq2 → Bool}

/-- Where one of `t` shares holds another value than that of the polynomial, the shares do not
combine to the secret, nor their signatures to a valid one, and the check of each signature share
tells whose it is. -/
theorem corruption_noticed (he : IsPairing e) (hsame : Compares same e) (params : Params)
    (F : Fr[X]) (hdegree : F.degree < params.t.toNat) (hsecret : F.eval 0 ≠ 0) (digest : Digest)
    (shares : List (PrivateKeyShare (suiteWith same)))
    (corrupted : PrivateKeyShare (suiteWith same))
    (hcorrupted : OneCorrupted (S := suiteWith same) F params shares corrupted) :
    (PrivateKey.ofShares shares = .error .zeroSecret ∨
      ∃ key, PrivateKey.ofShares shares = .ok key ∧ key.scalar ≠ F.eval 0) ∧
    ∃ (publicKey : PublicKey (suiteWith same)) (signed : List (SignatureShare (suiteWith same))),
      PublicKey.create (g2.generator * F.eval 0) = .ok publicKey ∧
      (shares.mapM fun share => share.sign digest) = .ok signed ∧
      (∀ added : List (SignatureShare (suiteWith same)), added.Perm signed →
        ∃ set, added.foldlM ShareSet.add (.empty params) = .ok set ∧
          (set.merge = .error .identityElement ∨
            ∃ merged closed, set.merge = .ok (merged, closed) ∧
              publicKey.verify digest merged = .ok false)) ∧
      ∀ share ∈ signed, (suiteWith same).verifyShare F params digest share =
        .ok (decide (share.index ≠ corrupted.index)) := by
  have hS := he.testsProducts hsame
  obtain ⟨h, hh, hpoint⟩ := exists_hashPoint_suiteWith same digest
  refine ⟨hcorrupted.ofShares_cases hdegree, ⟨g2.generator * F.eval 0⟩, _,
    PublicKey.create_multiple hsecret,
    mapM_eq_ok fun share hshare => (hcorrupted.valid share hshare).sign_eq_ok hh hpoint, ?_, ?_⟩
  · intro added hadded
    exact hcorrupted.merge_cases hS hdegree hsecret hh hpoint hadded
  · intro share hshare
    exact hcorrupted.verifyShare hS hh hpoint hshare

/-- Of the line, the third participant holds five in place of four. -/
noncomputable def corruptedThird : PrivateKeyShare (suiteWith sameScalarPairing) :=
  ⟨⟨Residue.ofNat order 5⟩, 3, .twoOfThree⟩

noncomputable def honestFirst : PrivateKeyShare (suiteWith sameScalarPairing) :=
  ⟨⟨Residue.ofNat order 2⟩, 1, .twoOfThree⟩

theorem oneCorrupted_line : OneCorrupted (S := suiteWith sameScalarPairing) line .twoOfThree
    [corruptedThird, honestFirst] corruptedThird := by
  have hfive : Residue.ofNat order 5 ≠ 0 := by decide +kernel
  have hfour : Residue.ofNat order 4 ≠ 0 := by decide +kernel
  have htwo : Residue.ofNat order 2 ≠ 0 := by decide +kernel
  have hfive_ne_four : Residue.ofNat order 5 ≠ Residue.ofNat order 4 := by decide +kernel
  have hthird : line.eval (Residue.ofNat order 3) = Residue.ofNat order 4 := by
    rw [eval_line]
    decide +kernel
  have hfirst : line.eval (Residue.ofNat order 1) = Residue.ofNat order 2 := by
    rw [eval_line]
    decide +kernel
  constructor
  case valid =>
    rw [List.forall_mem_cons, List.forall_mem_singleton]
    exact ⟨⟨hfive, by decide⟩, ⟨htwo, by decide⟩⟩
  case params_eq =>
    rw [List.forall_mem_cons, List.forall_mem_singleton]
    exact ⟨rfl, rfl⟩
  case nodup =>
    change [(3 : UInt16), 1].Nodup
    decide
  case threshold => rfl
  case value_ne_zero =>
    rw [List.forall_mem_cons, List.forall_mem_singleton]
    refine ⟨fun hzero => ?_, fun hzero => ?_⟩
    · exact hfour (hthird.symm.trans hzero)
    · exact htwo (hfirst.symm.trans hzero)
  case mem => exact List.mem_cons_self
  case differs =>
    exact fun hsame => hfive_ne_four (hsame.trans hthird)
  case honest =>
    rw [List.forall_mem_cons, List.forall_mem_singleton]
    exact ⟨fun hne => absurd rfl hne, fun _ => hfirst.symm⟩

theorem corruption_noticed_line :
    (∃ key, PrivateKey.ofShares [corruptedThird, honestFirst] = .ok key ∧ key.scalar ≠ 1) ∧
    ∃ (publicKey : PublicKey (suiteWith sameScalarPairing)) (signed : List (SignatureShare _))
        (set : ShareSet _),
      PublicKey.create g2.generator = .ok publicKey ∧
      ([corruptedThird, honestFirst].mapM fun share => share.sign digestOne) = .ok signed ∧
      signed.reverse.foldlM ShareSet.add (.empty .twoOfThree) = .ok set ∧
      (set.merge = .error .identityElement ∨
        ∃ merged closed, set.merge = .ok (merged, closed) ∧
          publicKey.verify digestOne merged = .ok false) ∧
      ∀ share ∈ signed,
        (suiteWith sameScalarPairing).verifyShare line .twoOfThree digestOne share =
          .ok (decide (share.index ≠ 3)) := by
  have hone : line.eval 0 = 1 := by
    rw [eval_line, zero_add]
  have hkey : PrivateKey.ofShares [corruptedThird, honestFirst] ≠ .error .zeroSecret := by
    decide +kernel
  obtain ⟨hmissed, publicKey, signed, hpublicKey, hsigned, hmerge, hshares⟩ :=
    corruption_noticed isPairing_scalarPairing compares_sameScalarPairing .twoOfThree line
      degree_line eval_line_zero_ne_zero digestOne _ _ oneCorrupted_line
  obtain ⟨set, hfold, hmerged⟩ := hmerge signed.reverse (List.reverse_perm signed)
  rw [hone] at hmissed hpublicKey
  rw [g2_isCyclic.multiple_one] at hpublicKey
  exact ⟨hmissed.resolve_left hkey, publicKey, signed, set, hpublicKey, hsigned, hfold, hmerged,
    hshares⟩

end Bn254

end ThresholdBls
