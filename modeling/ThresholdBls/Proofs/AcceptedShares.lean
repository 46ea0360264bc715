import ThresholdBls.Proofs.ThresholdSigning

/-!
# Shares that pass their check

Whoever made a share, it passes the check by the public key share of its signer
only if its element is the one that the signer would have made.  So shares that
pass combine to a valid signature.  Of their hints the check says nothing.
-/

open scoped Polynomial

namespace ThresholdBls

variable {S : Suite}

theorem PublicKeyShare.verify_eq_ok_iff {checker : PublicKeyShare S} {digest : Digest}
    {share : SignatureShare S} {holds : Bool} :
    checker.verify digest share = .ok holds ↔
      checker.params = share.params ∧ share.index = checker.index ∧
        checker.key.verify digest share.signature = .ok holds := by
  unfold verify Params.requireSame
  by_cases hparams : checker.params = share.params
  · rw [if_pos hparams]
    by_cases hindex : share.index = checker.index
    · rw [if_neg (not_not.mpr hindex)]
      exact ⟨fun hverify => ⟨hparams, hindex, hverify⟩, fun hall => hall.2.2⟩
    · rw [if_pos hindex]
      exact ⟨nofun, fun hall => absurd hall.2.1 hindex⟩
  · rw [if_neg hparams]
    exact ⟨nofun, fun hall => absurd hall.1 hparams⟩

/-- Checks a signature share by the multiple of the generator that a polynomial gives its
signer. -/
def Suite.verifyShare (S : Suite) [S.Lawful] (F : S.Scalar[X]) (params : Params)
    (digest : Digest) (share : SignatureShare S) : Except Error Bool := do
  let checker ← PublicKeyShare.create (S.g2.generator * F.eval (S.abscissa share.index))
    share.index params
  checker.verify digest share

variable [S.Lawful] {F : S.Scalar[X]} {params : Params} {digest : Digest} {h k : S.Scalar}

theorem Suite.verify_eq_true_iff (hS : S.TestsProducts)
    (hpoint : (S.hashPoint digest).1 = S.g1.generator * h) (hh : h ≠ 0) (hk : k ≠ 0)
    {element : S.g1.Element} :
    S.verify digest element (S.g2.generator * k) = .ok true ↔
      element = S.g1.generator * (h * k) := by
  constructor
  · intro hok
    obtain ⟨⟨⟩, husable, -⟩ := bind_eq_ok_iff.mp hok
    obtain ⟨s, hs, rfl⟩ := (Lawful.g1_cyclic.requireUsable_eq_ok_iff element).mp husable
    rw [verify_multiples hS hpoint hs hk, Except.ok.injEq] at hok
    rw [of_decide_eq_true hok]
  · rintro rfl
    exact verify_product hS hpoint hh hk

theorem Suite.verifyShare_eq_true_iff (hS : S.TestsProducts)
    (hpoint : (S.hashPoint digest).1 = S.g1.generator * h) (hh : h ≠ 0)
    {share : SignatureShare S} :
    S.verifyShare F params digest share = .ok true ↔ share.OfValue F params h := by
  constructor
  · intro hok
    obtain ⟨checker, hchecker, hverify⟩ := bind_eq_ok_iff.mp hok
    obtain ⟨hindex, husable, rfl⟩ := PublicKeyShare.create_eq_ok_iff.mp hchecker
    obtain ⟨hparams, -, hverify⟩ := PublicKeyShare.verify_eq_ok_iff.mp hverify
    have hvalue := Lawful.g2_cyclic.requireUsable_multiple_iff.mp husable
    exact ⟨hparams, hindex, hvalue, (verify_eq_true_iff hS hpoint hh hvalue).mp hverify⟩
  · rintro ⟨hparams, hindex, hvalue, helement⟩
    have husable := Lawful.g2_cyclic.requireUsable_multiple hvalue
    refine bind_eq_ok_iff.mpr
      ⟨_, PublicKeyShare.create_eq_ok_iff.mpr ⟨hindex, husable, rfl⟩, ?_⟩
    refine PublicKeyShare.verify_eq_ok_iff.mpr ⟨hparams, rfl, ?_⟩
    exact (verify_eq_true_iff hS hpoint hh hvalue).mpr helement

def SignatureShare.withHint (share : SignatureShare S) (hint : Hint S.fieldSize) :
    SignatureShare S :=
  { share with signature := { share.signature with hint } }

theorem Suite.verifyShare_withHint (share : SignatureShare S) (hint : Hint S.fieldSize) :
    S.verifyShare F params digest (share.withHint hint) = S.verifyShare F params digest share :=
  rfl

theorem Suite.verifyHinted_eq_map (hS : S.TestsProducts)
    (hpoint : (S.hashPoint digest).1 = S.g1.generator * h) (hh : h ≠ 0) (hk : k ≠ 0)
    (hint : Hint S.fieldSize)
    (husable : ∀ point, S.pointOfHint digest hint = .ok point →
      S.g1.requireUsable point = .ok ()) :
    S.verifyHinted digest (S.g1.generator * (h * k)) hint (S.g2.generator * k) =
      (S.pointOfHint digest hint).map fun point => decide (point = (S.hashPoint digest).1) := by
  cases hhint : S.pointOfHint digest hint with
  | error error =>
      have hsignature := Lawful.g1_cyclic.requireUsable_multiple (mul_ne_zero hh hk)
      have hkey := Lawful.g2_cyclic.requireUsable_multiple hk
      simp only [verifyHinted, hsignature, hkey, hhint]
      rfl
  | ok point =>
      obtain ⟨p, -, rfl⟩ :=
        (Lawful.g1_cyclic.requireUsable_eq_ok_iff point).mp (husable point hhint)
      have hsame : h * k = p * k ↔ S.g1.generator * p = (S.hashPoint digest).1 := by
        rw [hpoint, Lawful.g1_cyclic.multiple_inj, mul_left_inj' hk, eq_comm]
      rw [verifyHinted_multiples hS hhint (mul_ne_zero hh hk) hk, decide_eq_decide.mpr hsame]
      rfl

/-! ## The suite BN254 -/

namespace Bn254

/-! ### Shares of a line -/

/-- The shares of the third and the first of three participants on the digest one, by values of
`X + 1`.  That of the third has another hint than the digest. -/
noncomputable def lineShares : List (SignatureShare (suiteWith sameScalarPairing)) :=
  [(honestShare line .twoOfThree digestOne 1 3).withHint ⟨0, 0⟩,
    honestShare line .twoOfThree digestOne 1 1]

theorem nodup_lineShares : (lineShares.map (·.index)).Nodup := by
  change [(3 : UInt16), 1].Nodup
  decide

theorem degree_line : line.degree < Params.twoOfThree.t.toNat := by
  rw [line, Polynomial.degree_X_add_C]
  decide

theorem eval_line (x : Fr) : line.eval x = x + 1 := by
  rw [line, Polynomial.eval_add, Polynomial.eval_X, Polynomial.eval_C]

theorem verifyShare_lineShares {share : SignatureShare (suiteWith sameScalarPairing)}
    (hshare : share ∈ lineShares) :
    (suiteWith sameScalarPairing).verifyShare line .twoOfThree digestOne share = .ok true := by
  have hS := isPairing_scalarPairing.testsProducts compares_sameScalarPairing
  have hone : (1 : Fr) ≠ 0 := one_ne_zero
  have hgenerator : (hashPoint digestOne).1 = g1Generator := by
    decide +kernel
  have hpoint : (hashPoint digestOne).1 = g1.generator * (1 : Fr) :=
    hgenerator.trans g1_isCyclic.multiple_one.symm
  have haccepted : ∀ index : UInt16, index ≠ 0 → index ≤ 3 →
      line.eval (Residue.ofNat order index.toNat) ≠ 0 →
      (suiteWith sameScalarPairing).verifyShare line .twoOfThree digestOne
        (honestShare line .twoOfThree digestOne 1 index) = .ok true := by
    intro index hzero hle hvalue
    exact (Suite.verifyShare_eq_true_iff hS hpoint hone).mpr
      ⟨rfl, Params.requireIndex_eq_ok_iff.mpr ⟨hzero, hle⟩, hvalue, rfl⟩
  rw [lineShares, List.mem_cons, List.mem_singleton] at hshare
  rcases hshare with rfl | rfl
  · have hvalue : line.eval (Residue.ofNat order 3) ≠ 0 := by
      rw [eval_line]
      decide +kernel
    exact (Suite.verifyShare_withHint _ _).trans (haccepted 3 (by decide) (by decide) hvalue)
  · have hvalue : line.eval (Residue.ofNat order 1) ≠ 0 := by
      rw [eval_line]
      decide +kernel
    exact haccepted 1 (by decide) (by decide) hvalue

theorem eval_line_zero_ne_zero : line.eval 0 ≠ 0 := by
  rw [eval_line]
  decide +kernel

/-! ### Merging accepted shares -/

variable {T : Type} [CommGroup T] {e : Point Fq → Point Fq2 → T}
  {same : Point Fq → Point Fq2 → Point Fq → Point Fq2 → Bool}

theorem foldlM_accepted (he : IsPairing e) (hsame : Compares same e) {params : Params}
    {F : Fr[X]} (hdegree : F.degree < params.t.toNat) (hsecret : F.eval 0 ≠ 0) {digest : Digest}
    {shares : List (SignatureShare (suiteWith same))} (hnodup : (shares.map (·.index)).Nodup)
    (hcount : params.t.toNat ≤ shares.length)
    (haccepted : ∀ share ∈ shares,
      (suiteWith same).verifyShare F params digest share = .ok true) :
    ∃ h : Fr, h ≠ 0 ∧ (hashPoint digest).1 = g1.generator * h ∧
      ∃ set : ShareSet (suiteWith same), ∃ lowest ∈ shares,
        (∀ share ∈ shares, lowest.index.toNat ≤ share.index.toNat) ∧
        shares.foldlM ShareSet.add (.empty params) = .ok set ∧
        set.signature = .ok ⟨g1.generator * (h * F.eval 0), lowest.signature.hint⟩ := by
  obtain ⟨h, hh, hpoint⟩ := exists_hashPoint_eq digest
  refine ⟨h, hh, hpoint, ?_⟩
  refine ShareSet.foldlM_add_of_values hh hdegree hsecret hnodup hcount fun share hshare => ?_
  exact (Suite.verifyShare_eq_true_iff (he.testsProducts hsame) hpoint hh).mp
    (haccepted share hshare)

/-- Shares that pass their check, whoever made them and in whatever order they are added,
combine to a signature that verifies. -/
theorem accepted_shares_combine (he : IsPairing e) (hsame : Compares same e) (params : Params)
    (F : Fr[X]) (hdegree : F.degree < params.t.toNat) (hsecret : F.eval 0 ≠ 0) (digest : Digest)
    (shares : List (SignatureShare (suiteWith same))) (hnodup : (shares.map (·.index)).Nodup)
    (hcount : params.t.toNat ≤ shares.length)
    (haccepted : ∀ share ∈ shares,
      (suiteWith same).verifyShare F params digest share = .ok true) :
    ∃ (set closed : ShareSet (suiteWith same)) (merged : Signature (suiteWith same))
        (publicKey : PublicKey (suiteWith same)),
      shares.foldlM ShareSet.add (.empty params) = .ok set ∧
      set.merge = .ok (merged, closed) ∧
      PublicKey.create (g2.generator * F.eval 0) = .ok publicKey ∧
      publicKey.verify digest merged = .ok true := by
  obtain ⟨h, hh, hpoint, set, lowest, -, -, hfold, hsignature⟩ :=
    foldlM_accepted he hsame hdegree hsecret hnodup hcount haccepted
  exact ⟨set, _, _, ⟨g2.generator * F.eval 0⟩, hfold, ShareSet.merge_eq_ok hsignature,
    PublicKey.create_multiple hsecret,
    Suite.verify_product (he.testsProducts hsame) hpoint hh hsecret⟩

theorem accepted_shares_combine_line :
    ∃ (set closed : ShareSet (suiteWith sameScalarPairing)) (merged : Signature _)
        (publicKey : PublicKey _),
      lineShares.foldlM ShareSet.add (.empty .twoOfThree) = .ok set ∧
      set.merge = .ok (merged, closed) ∧
      PublicKey.create (g2.generator * line.eval 0) = .ok publicKey ∧
      publicKey.verify digestOne merged = .ok true :=
  accepted_shares_combine isPairing_scalarPairing compares_sameScalarPairing .twoOfThree line
    degree_line eval_line_zero_ne_zero digestOne lineShares nodup_lineShares le_rfl
    fun _ => verifyShare_lineShares

/-- The merged signature of shares that pass their check has the hint of the lowest index.  With
it the signature verifies if and only if the hint is that of the digest. -/
theorem accepted_shares_hinted (he : IsPairing e) (hsame : Compares same e) (params : Params)
    (F : Fr[X]) (hdegree : F.degree < params.t.toNat) (hsecret : F.eval 0 ≠ 0) (digest : Digest)
    (shares : List (SignatureShare (suiteWith same))) (hnodup : (shares.map (·.index)).Nodup)
    (hcount : params.t.toNat ≤ shares.length)
    (haccepted : ∀ share ∈ shares,
      (suiteWith same).verifyShare F params digest share = .ok true) :
    ∃ (set closed : ShareSet (suiteWith same)) (merged : Signature (suiteWith same))
        (publicKey : PublicKey (suiteWith same)), ∃ lowest ∈ shares,
      (∀ share ∈ shares, lowest.index.toNat ≤ share.index.toNat) ∧
      shares.foldlM ShareSet.add (.empty params) = .ok set ∧
      set.merge = .ok (merged, closed) ∧ merged.hint = lowest.signature.hint ∧
      PublicKey.create (g2.generator * F.eval 0) = .ok publicKey ∧
      publicKey.verifyHinted digest merged =
        ((pointOfHint digest merged.hint).map fun point =>
          decide (point = (hashPoint digest).1)) ∧
      ((find digest).shift < UInt64.size →
        (publicKey.verifyHinted digest merged = .ok true ↔
          merged.hint = (hashPoint digest).2)) := by
  obtain ⟨h, hh, hpoint, set, lowest, hlowest, hmin, hfold, hsignature⟩ :=
    foldlM_accepted he hsame hdegree hsecret hnodup hcount haccepted
  have houtcome := Suite.verifyHinted_eq_map (he.testsProducts hsame) hpoint hh hsecret
    lowest.signature.hint fun _ => requireUsable_of_pointOfHint
  refine ⟨set, _, _, ⟨g2.generator * F.eval 0⟩, lowest, hlowest, hmin, hfold,
    ShareSet.merge_eq_ok hsignature, rfl, PublicKey.create_multiple hsecret, houtcome,
    fun hshift => ?_⟩
  refine Iff.trans ?_ (pointOfHint_eq_hashPoint_iff hshift)
  exact (Eq.congr_left houtcome).trans map_decide_eq_ok_iff

theorem accepted_shares_hinted_line :
    ∃ (set closed : ShareSet (suiteWith sameScalarPairing)) (merged : Signature _)
        (publicKey : PublicKey _),
      lineShares.foldlM ShareSet.add (.empty .twoOfThree) = .ok set ∧
      set.merge = .ok (merged, closed) ∧
      PublicKey.create (g2.generator * line.eval 0) = .ok publicKey ∧
      publicKey.verifyHinted digestOne merged = .ok true := by
  obtain ⟨set, closed, merged, publicKey, lowest, hlowest, hmin, hfold, hmerge, hhint,
    hpublicKey, -, hholds⟩ :=
    accepted_shares_hinted isPairing_scalarPairing compares_sameScalarPairing .twoOfThree line
      degree_line eval_line_zero_ne_zero digestOne lineShares nodup_lineShares le_rfl
      fun _ => verifyShare_lineShares
  refine ⟨set, closed, merged, publicKey, hfold, hmerge, hpublicKey, ?_⟩
  refine (hholds (by decide +kernel)).mpr (hhint.trans ?_)
  rw [lineShares, List.mem_cons, List.mem_singleton] at hlowest
  rcases hlowest with rfl | rfl
  · have hthree := hmin (honestShare line .twoOfThree digestOne 1 1)
      (List.mem_cons_of_mem _ List.mem_cons_self)
    exact absurd hthree (by decide)
  · rfl

theorem verifyShare_line (params : Params) (digest : Digest) (share : SignatureShare suite) :
    suite.verifyShare line params digest share =
      (PublicKeyShare.create (g2.generator * (Residue.ofNat order share.index.toNat + 1))
        share.index params >>= fun checker => checker.verify digest share) := by
  rw [← eval_line]
  rfl

/-- The first signer's share of the line, with a hint that describes no point. -/
def spoiledShare : SignatureShare suite :=
  ⟨⟨g1.generator * Residue.ofNat order 2, ⟨0, 0⟩⟩, 1, .twoOfThree⟩

def secondShare : SignatureShare suite :=
  ⟨⟨g1.generator * Residue.ofNat order 3, ⟨Residue.ofNat fieldSize 2, 0⟩⟩, 2, .twoOfThree⟩

/-- With the pairing itself, both shares pass their check and are merged to a signature that the
hint path refuses. -/
theorem accepted_share_spoils_hint :
    ∃ (set closed : ShareSet suite) (merged : Signature suite) (publicKey : PublicKey suite),
      suite.verifyShare line .twoOfThree digestOne spoiledShare = .ok true ∧
      suite.verifyShare line .twoOfThree digestOne secondShare = .ok true ∧
      [spoiledShare, secondShare].foldlM ShareSet.add (.empty .twoOfThree) = .ok set ∧
      set.merge = .ok (merged, closed) ∧
      PublicKey.create (g2.generator * line.eval 0) = .ok publicKey ∧
      publicKey.verifyHinted digestOne merged = .error .hintMismatch := by
  have hsignature : ShareSet.signature ⟨.twoOfThree,
      ⟨[(1, spoiledShare), (2, secondShare)], by decide⟩, false⟩ =
        .ok ⟨g1Generator, ⟨0, 0⟩⟩ := by
    decide +kernel
  refine ⟨_, _, ⟨g1Generator, ⟨0, 0⟩⟩, ⟨g2Generator⟩, ?_, ?_, rfl,
    ShareSet.merge_eq_ok hsignature, ?_, ?_⟩
  · rw [verifyShare_line]
    decide +kernel
  · rw [verifyShare_line]
    decide +kernel
  · rw [eval_line]
    decide +kernel
  · decide +kernel

end Bn254

end ThresholdBls
