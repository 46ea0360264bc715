import ThresholdBls.Proofs.Bn254.Groups
import ThresholdBls.Proofs.Interpolation.Recovery
import ThresholdBls.Proofs.Sharing.Feldman
import ThresholdBls.Proofs.Signing

/-!
# Consistency of distributed key generation

The senders of a round may publish arbitrary commitments.  Where enough
recipients accept the value of every sender, the commitments are multiples of
the generator by coefficients of polynomials, and the sum of these polynomials
shares the key of the round.
-/

open scoped Polynomial

namespace ThresholdBls

variable {S : Suite}

/-- The recipients, pairwise distinct and as many as the threshold asks for, accept the value of
each sender, and make their shares from all values. -/
structure Completed (params : Params) (commitments : List (Commitment S))
    (participant : UInt16 → Participant S) (values : UInt16 → List S.Scalar)
    (share : UInt16 → PrivateKeyShare S) (recipients : List UInt16) : Prop where
  nodup : recipients.Nodup
  threshold : params.t.toNat ≤ recipients.length
  params_eq : ∀ i ∈ recipients, (participant i).params = params
  accepted : ∀ i ∈ recipients, List.Forall₂ (fun commitment value =>
    (participant i).checkValue i value commitment = .ok true) commitments (values i)
  assembled : ∀ i ∈ recipients, (participant i).assembleShare i (values i) = .ok (share i)

/-- Shares combine to the private key of the key that commitments sum up to, unless these sum up
to the identity. -/
def SameKey (secret : S.Scalar) (commitments : List (Commitment S))
    (shares : List (PrivateKeyShare S)) : Prop :=
  (secret ≠ 0 ∧ PrivateKey.ofShares shares = .ok ⟨secret⟩ ∧
    PublicKey.ofCommitments commitments = .ok (PrivateKey.publicKey ⟨secret⟩)) ∨
  (secret = 0 ∧ (∃ constants, commitments.mapM Commitment.constant = .ok constants ∧
      constants.foldl (· + ·) S.g2.identity = S.g2.identity) ∧
    PrivateKey.ofShares shares = .error .zeroSecret ∧
    PublicKey.ofCommitments commitments = .error .identityElement)

/-! ## Assembled shares -/

theorem Suite.combineContributions_eq_ok_iff {values : List S.Scalar} {sum : S.Scalar} :
    S.combineContributions values = .ok sum ↔
      Residue.sum values ≠ 0 ∧ Residue.sum values = sum := by
  cases values with
  | nil => simp [combineContributions, Residue.sum]
  | cons value rest =>
      by_cases hzero : Residue.sum (value :: rest) = 0
      · simp [combineContributions, hzero]
      · simp [combineContributions, hzero]

theorem PrivateKeyShare.create_eq_ok_iff {scalar : S.Scalar} {index : UInt16} {params : Params}
    {share : PrivateKeyShare S} :
    create scalar index params = .ok share ↔
      params.requireIndex index = .ok () ∧ scalar ≠ 0 ∧ share = ⟨⟨scalar⟩, index, params⟩ := by
  constructor
  · intro h
    obtain ⟨⟨⟩, hindex, h⟩ := bind_eq_ok_iff.mp h
    obtain ⟨key, hkey, h⟩ := bind_eq_ok_iff.mp h
    rw [PrivateKey.create] at hkey
    split at hkey
    · cases hkey
    · rename_i hscalar
      cases hkey
      exact ⟨hindex, hscalar, (pure_eq_ok_iff.mp h).symm⟩
  · rintro ⟨hindex, hscalar, rfl⟩
    exact create_eq_ok hscalar hindex

theorem Participant.assembleShare_of_length {participant : Participant S} (index : UInt16)
    {values : List S.Scalar} (hlength : values.length = participant.params.n.toNat) :
    participant.assembleShare index values =
      S.combineContributions values >>= fun sum =>
        PrivateKeyShare.create sum index participant.params := by
  simp only [assembleShare]
  exact if_neg (not_not.mpr hlength)

theorem Participant.assembleShare_eq_ok_iff {participant : Participant S} {index : UInt16}
    {values : List S.Scalar} {share : PrivateKeyShare S} :
    participant.assembleShare index values = .ok share ↔
      values.length = participant.params.n.toNat ∧ Residue.sum values ≠ 0 ∧
        participant.params.requireIndex index = .ok () ∧
        share = ⟨⟨Residue.sum values⟩, index, participant.params⟩ := by
  by_cases hlength : values.length = participant.params.n.toNat
  · rw [assembleShare_of_length index hlength, bind_eq_ok_iff]
    constructor
    · rintro ⟨sum, hsum, hcreate⟩
      obtain ⟨hzero, rfl⟩ := Suite.combineContributions_eq_ok_iff.mp hsum
      obtain ⟨hindex, -, hshare⟩ := PrivateKeyShare.create_eq_ok_iff.mp hcreate
      exact ⟨hlength, hzero, hindex, hshare⟩
    · rintro ⟨-, hzero, hindex, hshare⟩
      exact ⟨_, Suite.combineContributions_eq_ok_iff.mpr ⟨hzero, rfl⟩,
        PrivateKeyShare.create_eq_ok_iff.mpr ⟨hindex, hzero, hshare⟩⟩
  · have hassemble : participant.assembleShare index values =
        .error (.lengthMismatch values.length participant.params.n.toNat) := by
      simp only [assembleShare]
      exact if_pos hlength
    simp [hassemble, hlength]

/-! ## The polynomial of a round -/

variable [S.Lawful]

noncomputable def roundPolynomial (kss : List (List S.Scalar)) : S.Scalar[X] :=
  (kss.map committed).sum

theorem eval_roundPolynomial (kss : List (List S.Scalar)) (x : S.Scalar) :
    (roundPolynomial kss).eval x = (kss.map fun ks => (committed ks).eval x).sum := by
  rw [roundPolynomial, Polynomial.eval_listSum, List.map_map]
  rfl

theorem degree_roundPolynomial_lt {kss : List (List S.Scalar)} {t : Nat}
    (h : ∀ ks ∈ kss, ks.length ≤ t) : (roundPolynomial kss).degree < t := by
  rw [← Polynomial.mem_degreeLT]
  refine list_sum_mem fun f hf => ?_
  obtain ⟨ks, hks, rfl⟩ := List.mem_map.mp hf
  rw [Polynomial.mem_degreeLT]
  exact (degree_committed_lt ks).trans_le (WithBot.coe_le_coe.mpr (h ks hks))

theorem exists_scalars {participant : Participant S} {index : UInt16}
    {commitments : List (Commitment S)} {values : List S.Scalar}
    (h : List.Forall₂ (fun commitment value =>
      participant.checkValue index value commitment = .ok true) commitments values) :
    ∃ kss : List (List S.Scalar), commitments = kss.map (.ofScalars S) := by
  induction h with
  | nil => exact ⟨[], rfl⟩
  | cons hcheck _ ih =>
      obtain ⟨-, -, haccepts⟩ := Participant.checkValue_eq_ok_true_iff.mp hcheck
      obtain ⟨-, hcontains, -⟩ := Commitment.accepts_eq_true_iff.mp haccepts
      obtain ⟨ks, rfl⟩ := Commitment.exists_ofScalars hcontains
      obtain ⟨kss, rfl⟩ := ih
      exact ⟨ks :: kss, rfl⟩

theorem values_eq {participant : Participant S} {index : UInt16} {kss : List (List S.Scalar)}
    {values : List S.Scalar}
    (h : List.Forall₂ (fun commitment value =>
      participant.checkValue index value commitment = .ok true)
      (kss.map (.ofScalars S)) values) :
    (∀ ks ∈ kss, ks.length = participant.params.t.toNat) ∧
      values = kss.map fun ks => (committed ks).eval (S.abscissa index) := by
  induction kss generalizing values with
  | nil =>
      cases h
      exact ⟨nofun, rfl⟩
  | cons ks kss ih =>
      cases h with
      | cons hcheck hrest =>
          obtain ⟨-, hlength, -, heval⟩ := Participant.checkValue_ofScalars_iff.mp hcheck
          obtain ⟨hlengths, rfl⟩ := ih hrest
          refine ⟨?_, by rw [List.map_cons, heval]⟩
          rw [List.forall_mem_cons]
          exact ⟨hlength, hlengths⟩

/-! ## Public keys of a round -/

omit [S.Lawful] in
theorem foldlM_constant {commitments : List (Commitment S)} {constants : List S.g2.Element}
    (h : commitments.mapM Commitment.constant = .ok constants) (start : S.g2.Element) :
    commitments.foldlM (fun acc commitment => return acc + (← commitment.constant)) start =
      (.ok (constants.foldl (· + ·) start) : Except Error S.g2.Element) := by
  induction commitments generalizing constants start with
  | nil =>
      cases h
      rfl
  | cons commitment rest ih =>
      rw [List.mapM_cons] at h
      obtain ⟨constant, hconstant, h⟩ := bind_eq_ok_iff.mp h
      obtain ⟨others, hothers, h⟩ := bind_eq_ok_iff.mp h
      cases h
      rw [List.foldlM_cons, hconstant]
      exact ih hothers (start + constant)

section PublicKeys

variable {kss : List (List S.Scalar)}

theorem mapM_constant (hne : ∀ ks ∈ kss, ks ≠ []) :
    (kss.map (Commitment.ofScalars S)).mapM Commitment.constant =
      .ok ((kss.map fun ks => (committed ks).eval 0).map fun k => S.g2.generator * k) := by
  rw [List.mapM_map, List.map_map]
  exact mapM_eq_ok fun ks hks => Commitment.constant_ofScalars (hne ks hks)

theorem foldl_constants :
    ((kss.map fun ks => (committed ks).eval 0).map fun k => S.g2.generator * k).foldl (· + ·)
      S.g2.identity = S.g2.generator * (roundPolynomial kss).eval 0 := by
  have hfold := Suite.Lawful.g2_cyclic.foldl_add_multiples (G := S.g2)
    (kss.map fun ks => (committed ks).eval 0) 0
  rwa [Suite.Lawful.g2_cyclic.multiple_zero, zero_add, ← eval_roundPolynomial] at hfold

theorem PublicKey.ofCommitments_ofScalars (hkss : kss ≠ []) (hne : ∀ ks ∈ kss, ks ≠ []) :
    PublicKey.ofCommitments (kss.map (.ofScalars S)) =
      PublicKey.create (S.g2.generator * (roundPolynomial kss).eval 0) := by
  have hempty : (kss.map (Commitment.ofScalars S)).isEmpty = false := by
    simpa using hkss
  have hfold := foldlM_constant (mapM_constant hne) S.g2.identity
  rw [foldl_constants] at hfold
  simp only [ofCommitments, hempty]
  exact congrArg (· >>= PublicKey.create) hfold

theorem foldl_evaluate_ofScalars (index : UInt16) :
    (kss.map (Commitment.ofScalars S)).foldl
        (fun acc commitment => acc + commitment.evaluate index) S.g2.identity =
      S.g2.generator * (roundPolynomial kss).eval (S.abscissa index) := by
  have hfold := Suite.Lawful.g2_cyclic.foldl_add_multiples (G := S.g2)
    (kss.map fun ks => (committed ks).eval (S.abscissa index)) 0
  rw [Suite.Lawful.g2_cyclic.multiple_zero, zero_add, ← eval_roundPolynomial, List.map_map,
    List.foldl_map] at hfold
  rw [List.foldl_map, ← hfold]
  simp only [Commitment.evaluate_ofScalars]
  rfl

theorem PublicKeyShare.ofCommitments_ofScalars (index : UInt16) (params : Params)
    (hkss : kss ≠ []) :
    PublicKeyShare.ofCommitments index (kss.map (.ofScalars S)) params =
      params.requireIndex index >>= fun _ =>
        create (S.g2.generator * (roundPolynomial kss).eval (S.abscissa index)) index params := by
  have hempty : (kss.map (Commitment.ofScalars S)).isEmpty = false := by
    simpa using hkss
  simp only [ofCommitments, hempty, foldl_evaluate_ofScalars]
  rfl

theorem PublicKeyShare.ofCommitments_eq_ok_iff {index : UInt16} {params : Params}
    {share : PublicKeyShare S} (hkss : kss ≠ []) :
    PublicKeyShare.ofCommitments index (kss.map (.ofScalars S)) params = .ok share ↔
      params.requireIndex index = .ok () ∧ (roundPolynomial kss).eval (S.abscissa index) ≠ 0 ∧
        share = (PrivateKeyShare.ofValue (roundPolynomial kss) params index).publicKeyShare := by
  rw [ofCommitments_ofScalars index params hkss, bind_eq_ok_iff]
  constructor
  · rintro ⟨⟨⟩, -, hshare⟩
    obtain ⟨hindex, husable, rfl⟩ := create_eq_ok_iff.mp hshare
    exact ⟨hindex, Suite.Lawful.g2_cyclic.requireUsable_multiple_iff.mp husable, rfl⟩
  · rintro ⟨hindex, hvalue, rfl⟩
    have husable := Suite.Lawful.g2_cyclic.requireUsable_multiple hvalue
    exact ⟨(), hindex, create_eq_ok_iff.mpr ⟨hindex, husable, rfl⟩⟩

end PublicKeys

/-! ## Completed rounds -/

omit [S.Lawful] in
theorem Completed.exists_recipient {params : Params} {commitments : List (Commitment S)}
    {participant : UInt16 → Participant S} {values : UInt16 → List S.Scalar}
    {share : UInt16 → PrivateKeyShare S} {recipients : List UInt16}
    (h : Completed params commitments participant values share recipients) :
    ∃ i, i ∈ recipients :=
  List.exists_mem_of_length_pos (params.one_le_t.trans h.threshold)

section Completed

variable {kss : List (List S.Scalar)} {params : Params} {participant : UInt16 → Participant S}
  {values : UInt16 → List S.Scalar} {share : UInt16 → PrivateKeyShare S}
  {recipients : List UInt16}
  (h : Completed params (kss.map (.ofScalars S)) participant values share recipients)

include h

theorem Completed.length_eq : ∀ ks ∈ kss, ks.length = params.t.toNat := by
  obtain ⟨i, hi⟩ := h.exists_recipient
  have hlengths := (values_eq (h.accepted i hi)).1
  rwa [h.params_eq i hi] at hlengths

theorem Completed.ne_nil : kss ≠ [] ∧ ∀ ks ∈ kss, ks ≠ [] := by
  obtain ⟨i, hi⟩ := h.exists_recipient
  obtain ⟨hcount, -⟩ := Participant.assembleShare_eq_ok_iff.mp (h.assembled i hi)
  rw [(values_eq (h.accepted i hi)).2, List.length_map, h.params_eq i hi] at hcount
  have ht := params.one_le_t
  have hn := params.t_le_n
  constructor
  · rintro rfl
    rw [List.length_nil] at hcount
    omega
  · rintro ks hks rfl
    have hlength := h.length_eq [] hks
    rw [List.length_nil] at hlength
    omega

theorem Completed.share_eq {i : UInt16} (hi : i ∈ recipients) :
    share i = PrivateKeyShare.ofValue (roundPolynomial kss) params i ∧
      params.requireIndex i = .ok () ∧ (roundPolynomial kss).eval (S.abscissa i) ≠ 0 := by
  obtain ⟨-, hsum, hindex, hshare⟩ :=
    Participant.assembleShare_eq_ok_iff.mp (h.assembled i hi)
  rw [(values_eq (h.accepted i hi)).2, Residue.sum_eq, ← eval_roundPolynomial] at hsum hshare
  rw [h.params_eq i hi] at hindex hshare
  exact ⟨hshare, hindex, hsum⟩

theorem Completed.publicKeyShare_eq {i : UInt16} (hi : i ∈ recipients) :
    PublicKeyShare.ofCommitments i (kss.map (.ofScalars S)) params =
      .ok (share i).publicKeyShare := by
  obtain ⟨hshare, hindex, hvalue⟩ := h.share_eq hi
  rw [hshare]
  exact (PublicKeyShare.ofCommitments_eq_ok_iff h.ne_nil.1).mpr ⟨hindex, hvalue, rfl⟩

theorem Completed.sameKey :
    SameKey ((roundPolynomial kss).eval 0) (kss.map (.ofScalars S)) (recipients.map share) := by
  have hdegree := degree_roundPolynomial_lt fun ks hks => (h.length_eq ks hks).le
  have hzero : 0 ∉ recipients := by
    intro hmem
    obtain ⟨-, hindex, -⟩ := h.share_eq hmem
    exact (Params.requireIndex_eq_ok_iff.mp hindex).1 rfl
  have hshares : recipients.map share =
      recipients.map (PrivateKeyShare.ofValue (roundPolynomial kss) params) :=
    List.map_congr_left fun i hi => (h.share_eq hi).1
  have hprivate := PrivateKey.ofShares_ofValue hdegree h.nodup hzero h.threshold
    fun i hi => (h.share_eq hi).2.2
  rw [← hshares, PrivateKey.create] at hprivate
  have hpublic := PublicKey.ofCommitments_ofScalars h.ne_nil.1 h.ne_nil.2
  by_cases hsecret : (roundPolynomial kss).eval 0 = 0
  · right
    rw [if_pos hsecret] at hprivate
    rw [hsecret, PublicKey.create_multiple_zero] at hpublic
    refine ⟨hsecret, ⟨_, mapM_constant h.ne_nil.2, ?_⟩, hprivate, hpublic⟩
    rw [foldl_constants, hsecret, Suite.Lawful.g2_cyclic.multiple_zero]
  · left
    rw [if_neg hsecret] at hprivate
    rw [PublicKey.create_multiple hsecret] at hpublic
    exact ⟨hsecret, hprivate, hpublic⟩

end Completed

theorem exists_sameKey_of_completed (params : Params) (commitments : List (Commitment S)) :
    ∃ secret : S.Scalar, ∀ (participant : UInt16 → Participant S)
      (values : UInt16 → List S.Scalar) (share : UInt16 → PrivateKeyShare S)
      (recipients : List UInt16), Completed params commitments participant values share recipients →
      (∀ i ∈ recipients, PublicKeyShare.ofCommitments i commitments params =
        .ok (share i).publicKeyShare) ∧
      SameKey secret commitments (recipients.map share) := by
  by_cases hscalars : ∃ kss : List (List S.Scalar), commitments = kss.map (.ofScalars S)
  · obtain ⟨kss, rfl⟩ := hscalars
    refine ⟨(roundPolynomial kss).eval 0, ?_⟩
    intro participant values share recipients h
    exact ⟨fun i hi => h.publicKeyShare_eq hi, h.sameKey⟩
  · -- No recipient accepts such commitments, and a round has at least one recipient.
    refine ⟨0, ?_⟩
    intro participant values share recipients h
    obtain ⟨i, hi⟩ := h.exists_recipient
    exact absurd (exists_scalars (h.accepted i hi)) hscalars

/-- A round completes if all senders are honest and no value is zero. -/
theorem completed_ofScalars (participant : Participant S) {kss : List (List S.Scalar)}
    {recipients : List UInt16} (hnodup : recipients.Nodup)
    (hthreshold : participant.params.t.toNat ≤ recipients.length)
    (hcount : kss.length = participant.params.n.toNat)
    (hlength : ∀ ks ∈ kss, ks.length = participant.params.t.toNat)
    (hindex : ∀ i ∈ recipients, participant.params.requireIndex i = .ok ())
    (hvalues : ∀ i ∈ recipients, ∀ ks ∈ kss, (committed ks).eval (S.abscissa i) ≠ 0)
    (hsums : ∀ i ∈ recipients, (roundPolynomial kss).eval (S.abscissa i) ≠ 0) :
    Completed participant.params (kss.map (.ofScalars S)) (fun _ => participant)
      (fun i => kss.map fun ks => (committed ks).eval (S.abscissa i))
      (PrivateKeyShare.ofValue (roundPolynomial kss) participant.params) recipients := by
  refine ⟨hnodup, hthreshold, fun _ _ => rfl, ?_, ?_⟩
  · intro i hi
    rw [List.forall₂_map_left_iff, List.forall₂_map_right_iff, List.forall₂_same]
    intro ks hks
    have hne := (Params.requireIndex_eq_ok_iff.mp (hindex i hi)).1
    exact Participant.checkValue_ofScalars_iff.mpr ⟨hvalues i hi ks hks, hlength ks hks, hne, rfl⟩
  · intro i hi
    have hsum := hsums i hi
    rw [Participant.assembleShare_eq_ok_iff, List.length_map, Residue.sum_eq,
      ← eval_roundPolynomial]
    exact ⟨hcount, hsum, hindex i hi, rfl⟩

/-! ## The suite BN254 -/

namespace Bn254

/-- Whatever the senders publish, one key belongs to it: where enough recipients complete the
round, their shares combine to that key, and the commitments give its public key and its public
key shares. -/
theorem round_consistent (params : Params) (commitments : List (Commitment suite)) :
    ∃ secret : Fr, ∀ (participant : UInt16 → Participant suite) (values : UInt16 → List Fr)
      (share : UInt16 → PrivateKeyShare suite) (recipients : List UInt16),
      Completed params commitments participant values share recipients →
      (∀ i ∈ recipients, PublicKeyShare.ofCommitments i commitments params =
        .ok (share i).publicKeyShare) ∧
      SameKey secret commitments (recipients.map share) :=
  exists_sameKey_of_completed params commitments

theorem round_consistent_lines :
    ∃ (commitments : List (Commitment suite)) (participant : UInt16 → Participant suite)
      (values : UInt16 → List Fr) (share : UInt16 → PrivateKeyShare suite) (secret : Fr),
      Completed Params.twoOfThree commitments participant values share [3, 1] ∧
      (∀ i ∈ ([3, 1] : List UInt16), PublicKeyShare.ofCommitments i commitments Params.twoOfThree =
        .ok (share i).publicKeyShare) ∧
      SameKey secret commitments ([3, 1].map share) := by
  let kss : List (List suite.Scalar) := [[1, 1], [2, 3], [1, 2]]
  have heval : ∀ x a b : suite.Scalar, (committed [a, b]).eval x = a + x * b := by
    intro x a b
    rw [eval_committed_cons, eval_committed_cons, committed, Polynomial.eval_zero, mul_zero,
      add_zero]
  have hvalues : ∀ i ∈ ([3, 1] : List UInt16), ∀ ks ∈ kss,
      (committed ks).eval (suite.abscissa i) ≠ 0 := by
    simp only [kss, List.forall_mem_cons, heval, List.not_mem_nil, false_imp_iff,
      implies_true, and_true]
    decide +kernel
  have hsums : ∀ i ∈ ([3, 1] : List UInt16),
      (roundPolynomial kss).eval (suite.abscissa i) ≠ 0 := by
    simp only [kss, eval_roundPolynomial, List.map_cons, List.map_nil, List.forall_mem_cons,
      heval, List.not_mem_nil, false_imp_iff, implies_true, and_true]
    decide +kernel
  have hlength : ∀ ks ∈ kss, ks.length = Params.twoOfThree.t.toNat := by
    simp [kss, Params.twoOfThree]
  have hindex : ∀ i ∈ ([3, 1] : List UInt16), Params.twoOfThree.requireIndex i = .ok () := by
    rw [List.forall_mem_cons, List.forall_mem_singleton]
    exact ⟨rfl, rfl⟩
  have hcompleted := completed_ofScalars ⟨Params.twoOfThree, ⟨[1, 1], List.cons_ne_nil _ _⟩⟩
    (by decide) (by decide) rfl hlength hindex hvalues hsums
  obtain ⟨secret, hsecret⟩ := round_consistent Params.twoOfThree (kss.map (.ofScalars suite))
  exact ⟨_, _, _, _, secret, hcompleted, hsecret _ _ _ _ hcompleted⟩

end Bn254

end ThresholdBls
