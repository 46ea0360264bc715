import ThresholdBls.Proofs.Bn254.Pairing
import ThresholdBls.Proofs.Signing

/-!
# Verification of batches

A batch of signatures of one key is verified on the sum of the signatures and
the sum of the points of the digests.  It is valid exactly where the first sum
is the secret multiple of the second.  So a single wrong signature among valid
ones is noticed, whereas several may make up for each other.
-/

namespace ThresholdBls

def PairingGroup.sum {order : Nat} (G : PairingGroup order) (elements : List G.Element) :
    G.Element :=
  elements.foldl (· + ·) G.identity

noncomputable def PairingGroup.log {order : Nat} [Modulus order] (G : PairingGroup order) :
    G.Element → Residue order :=
  Function.invFun fun k => G.generator * k

namespace PairingGroup.IsCyclic

variable {order : Nat} [Modulus order] {G : PairingGroup order}

theorem multiple_log (hG : G.IsCyclic) {a : G.Element} (ha : G.contains a = true) :
    G.generator * G.log a = a :=
  Function.invFun_eq ((hG.contains_iff a).mp ha)

theorem log_of_requireUsable (hG : G.IsCyclic) {a : G.Element}
    (ha : G.requireUsable a = .ok ()) : G.generator * G.log a = a ∧ G.log a ≠ 0 := by
  obtain ⟨hidentity, hcontains⟩ := usable_of_requireUsable ha
  have hlog := hG.multiple_log hcontains
  refine ⟨hlog, fun hzero => hidentity ?_⟩
  rw [← hlog, hzero, hG.multiple_zero]

end PairingGroup.IsCyclic

namespace Suite

variable {S : Suite}

def hashPoints (S : Suite) (digests : List Digest) : List S.g1.Element :=
  digests.map fun digest => (S.hashPoint digest).1

/-- How a batch is answered: the first of five cases that applies decides. -/
structure AnswersBatch (S : Suite) (digests : List Digest) (signatures : List S.g1.Element)
    (publicKey : S.g2.Element) (answer : Except Error Bool) : Prop where
  of_lengths_ne : digests.length ≠ signatures.length →
    answer = .error (.lengthMismatch digests.length signatures.length)
  of_key_refused : digests.length = signatures.length → ∀ error,
    S.g2.requireUsable publicKey = .error error → answer = .error error
  of_empty : digests.length = signatures.length → S.g2.requireUsable publicKey = .ok () →
    signatures = [] → answer = .error .emptyInput
  of_signature_refused : digests.length = signatures.length →
    S.g2.requireUsable publicKey = .ok () → ∀ front bad back error,
    signatures = front ++ bad :: back →
    (∀ signature ∈ front, S.g1.requireUsable signature = .ok ()) →
    S.g1.requireUsable bad = .error error → answer = .error error
  of_usable : digests.length = signatures.length → signatures ≠ [] →
    (∀ signature ∈ signatures, S.g1.requireUsable signature = .ok ()) → ∀ secret : S.Scalar,
    secret ≠ 0 → publicKey = S.g2.generator * secret →
    answer = .ok (decide (S.g1.sum signatures = S.g1.sum (S.hashPoints digests) * secret))

/-! ## Sums of signatures -/

theorem foldlM_usable {signatures : List S.g1.Element}
    (h : ∀ signature ∈ signatures, S.g1.requireUsable signature = .ok ())
    (start : S.g1.Element) :
    (signatures.foldlM (fun acc signature => do
        S.g1.requireUsable signature
        return acc + signature) start : Except Error S.g1.Element) =
      .ok (signatures.foldl (· + ·) start) := by
  induction signatures generalizing start with
  | nil => rfl
  | cons first rest ih =>
      rw [List.forall_mem_cons] at h
      simp only [List.foldlM_cons, h.1]
      exact ih h.2 (start + first)

theorem aggregate_eq_ok {signatures : List S.g1.Element} (hne : signatures ≠ [])
    (h : ∀ signature ∈ signatures, S.g1.requireUsable signature = .ok ()) :
    S.aggregate signatures = .ok (S.g1.sum signatures) := by
  cases signatures with
  | nil => exact absurd rfl hne
  | cons first rest => exact foldlM_usable h S.g1.identity

theorem aggregate_eq_error {front back : List S.g1.Element} {bad : S.g1.Element} {error : Error}
    (hfront : ∀ signature ∈ front, S.g1.requireUsable signature = .ok ())
    (hbad : S.g1.requireUsable bad = .error error) :
    S.aggregate (front ++ bad :: back) = .error error := by
  have hne : (front ++ bad :: back).isEmpty = false := by simp
  simp only [aggregate, hne, List.foldlM_append, foldlM_usable hfront, List.foldlM_cons, hbad]
  rfl

theorem verifyAggregated_of_length_eq {digests : List Digest} {signatures : List S.g1.Element}
    (h : digests.length = signatures.length) (publicKey : S.g2.Element) :
    S.verifyAggregated digests signatures publicKey = (do
      S.g2.requireUsable publicKey
      let signature ← S.aggregate signatures
      return S.signatureHolds signature (S.g1.sum (S.hashPoints digests)) publicKey) := by
  rw [verifyAggregated, if_neg (not_not.mpr h), PairingGroup.sum, hashPoints, List.foldl_map]

/-! ## Sums on scalars -/

section Lawful

variable [S.Lawful]

theorem sum_multiples (ks : List S.Scalar) :
    S.g1.sum (ks.map fun k => S.g1.generator * k) = S.g1.generator * ks.sum := by
  have hsum := Lawful.g1_cyclic.foldl_add_multiples ks 0
  rwa [Lawful.g1_cyclic.multiple_zero, zero_add] at hsum

theorem verifyAggregated_multiples (hS : S.TestsProducts) {digests : List Digest}
    {hs ss : List S.Scalar} {k : S.Scalar} (hk : k ≠ 0) (hne : ss ≠ []) (hss : ∀ s ∈ ss, s ≠ 0)
    (hlength : digests.length = ss.length)
    (hpoints : S.hashPoints digests = hs.map fun h => S.g1.generator * h) :
    S.verifyAggregated digests (ss.map fun s => S.g1.generator * s) (S.g2.generator * k) =
      .ok (decide (ss.sum = hs.sum * k)) := by
  have hkey := Lawful.g2_cyclic.requireUsable_multiple hk
  have haggregate : S.aggregate (ss.map fun s => S.g1.generator * s) =
      .ok (S.g1.generator * ss.sum) := by
    rw [← sum_multiples]
    apply aggregate_eq_ok
    · simpa using hne
    · intro signature hsignature
      obtain ⟨s, hs, rfl⟩ := List.mem_map.mp hsignature
      exact Lawful.g1_cyclic.requireUsable_multiple (hss s hs)
  rw [verifyAggregated_of_length_eq (by simpa using hlength), hkey, haggregate, hpoints,
    sum_multiples]
  exact congrArg Except.ok (signatureHolds_multiples hS _ _ _)

variable (hpoints : ∀ digest, S.g1.contains (S.hashPoint digest).1 = true)

include hpoints

theorem exists_hashPoints_eq (digests : List Digest) :
    ∃ hs : List S.Scalar, S.hashPoints digests = hs.map fun h => S.g1.generator * h := by
  apply Lawful.g1_cyclic.exists_multiples
  simpa [hashPoints] using fun digest _ => hpoints digest

theorem answersBatch (hS : S.TestsProducts) (digests : List Digest)
    (signatures : List S.g1.Element) (publicKey : S.g2.Element) :
    S.AnswersBatch digests signatures publicKey
      (S.verifyAggregated digests signatures publicKey) where
  of_lengths_ne hne := by
    rw [verifyAggregated, if_pos hne]
    rfl
  of_key_refused hlength error hkey := by
    rw [verifyAggregated_of_length_eq hlength, hkey]
    rfl
  of_empty hlength hkey hempty := by
    rw [verifyAggregated_of_length_eq hlength, hkey, hempty]
    rfl
  of_signature_refused hlength hkey front bad back error hsplit hfront hbad := by
    rw [verifyAggregated_of_length_eq hlength, hkey, hsplit, aggregate_eq_error hfront hbad]
    rfl
  of_usable hlength hne husable k hk hkey := by
    obtain ⟨ss, hss, rfl⟩ := Lawful.g1_cyclic.exists_nonzero_multiples husable
    obtain ⟨hs, hhs⟩ := exists_hashPoints_eq hpoints digests
    rw [hkey, verifyAggregated_multiples hS hk (by simpa using hne) hss (by simpa using hlength)
      hhs, hhs, sum_multiples, sum_multiples, Lawful.g1_cyclic.multiple_mul]
    exact congrArg Except.ok (decide_eq_decide.mpr Lawful.g1_cyclic.multiple_inj.symm)

/-- By how much the scalar of a signature exceeds that of the valid one. -/
noncomputable def surplus (S : Suite) [S.Lawful] (k : S.Scalar) (pair : Digest × S.g1.Element) :
    S.Scalar :=
  S.g1.log pair.2 - S.g1.log (S.hashPoint pair.1).1 * k

omit hpoints in
theorem sum_surplus (k : S.Scalar) (pairs : List (Digest × S.g1.Element)) :
    (pairs.map (S.surplus k)).sum =
      (pairs.map fun pair => S.g1.log pair.2).sum -
        (pairs.map fun pair => S.g1.log (S.hashPoint pair.1).1).sum * k := by
  induction pairs with
  | nil => simp
  | cons pair rest ih =>
      simp only [List.map_cons, List.sum_cons, ih, surplus]
      ring

theorem verify_eq_surplus (hS : S.TestsProducts) {k : S.Scalar} (hk : k ≠ 0)
    {pair : Digest × S.g1.Element} (husable : S.g1.requireUsable pair.2 = .ok ()) :
    S.verify pair.1 pair.2 (S.g2.generator * k) = .ok (decide (S.surplus k pair = 0)) := by
  obtain ⟨hlog, hne⟩ := Lawful.g1_cyclic.log_of_requireUsable husable
  have hpoint := (Lawful.g1_cyclic.multiple_log (hpoints pair.1)).symm
  have hverify := verify_multiples hS hpoint hne hk
  rw [hlog] at hverify
  rw [hverify, surplus, decide_eq_decide.mpr sub_eq_zero]

theorem verifyAggregated_eq_surplus (hS : S.TestsProducts) {k : S.Scalar} (hk : k ≠ 0)
    {pairs : List (Digest × S.g1.Element)} (hne : pairs ≠ [])
    (husable : ∀ pair ∈ pairs, S.g1.requireUsable pair.2 = .ok ()) :
    S.verifyAggregated (pairs.map Prod.fst) (pairs.map Prod.snd) (S.g2.generator * k) =
      .ok (decide ((pairs.map (S.surplus k)).sum = 0)) := by
  have hlog := fun pair hpair => Lawful.g1_cyclic.log_of_requireUsable (husable pair hpair)
  have hsignatures : pairs.map Prod.snd =
      (pairs.map fun pair => S.g1.log pair.2).map fun s => S.g1.generator * s := by
    rw [List.map_map]
    exact List.map_congr_left fun pair hpair => (hlog pair hpair).1.symm
  have hhashes : S.hashPoints (pairs.map Prod.fst) =
      (pairs.map fun pair => S.g1.log (S.hashPoint pair.1).1).map fun h =>
        S.g1.generator * h := by
    rw [hashPoints, List.map_map, List.map_map]
    exact List.map_congr_left fun pair _ =>
      (Lawful.g1_cyclic.multiple_log (hpoints pair.1)).symm
  have hscalars : ∀ s ∈ pairs.map fun pair => S.g1.log pair.2, s ≠ 0 := by
    rintro s hs
    obtain ⟨pair, hpair, rfl⟩ := List.mem_map.mp hs
    exact (hlog pair hpair).2
  rw [hsignatures, verifyAggregated_multiples hS hk (by simpa using hne) hscalars (by simp)
    hhashes, sum_surplus, decide_eq_decide.mpr sub_eq_zero]

omit hpoints in
theorem exists_of_verify_eq_ok {pair : Digest × S.g1.Element} {publicKey : S.g2.Element}
    {holds : Bool} (h : S.verify pair.1 pair.2 publicKey = .ok holds) :
    S.g1.requireUsable pair.2 = .ok () ∧ ∃ k : S.Scalar, k ≠ 0 ∧ S.g2.generator * k = publicKey := by
  obtain ⟨⟨⟩, hsignature, h⟩ := bind_eq_ok_iff.mp h
  obtain ⟨⟨⟩, hkey, -⟩ := bind_eq_ok_iff.mp h
  exact ⟨hsignature, (Lawful.g2_cyclic.requireUsable_eq_ok_iff publicKey).mp hkey⟩

theorem surplus_eq_zero_iff (hS : S.TestsProducts) {k : S.Scalar} (hk : k ≠ 0)
    {pair : Digest × S.g1.Element} {holds : Bool}
    (h : S.verify pair.1 pair.2 (S.g2.generator * k) = .ok holds) :
    S.surplus k pair = 0 ↔ holds = true := by
  rw [verify_eq_surplus hpoints hS hk (exists_of_verify_eq_ok h).1, Except.ok.injEq] at h
  rw [← h, decide_eq_true_iff]

theorem sum_surplus_of_all_valid (hS : S.TestsProducts) {k : S.Scalar} (hk : k ≠ 0)
    {pairs : List (Digest × S.g1.Element)}
    (h : ∀ pair ∈ pairs, S.verify pair.1 pair.2 (S.g2.generator * k) = .ok true) :
    (pairs.map (S.surplus k)).sum = 0 := by
  apply List.sum_eq_zero
  rintro s hs
  obtain ⟨pair, hpair, rfl⟩ := List.mem_map.mp hs
  exact (surplus_eq_zero_iff hpoints hS hk (h pair hpair)).mpr rfl

theorem verifyAggregated_of_all_valid (hS : S.TestsProducts) {publicKey : S.g2.Element}
    {pairs : List (Digest × S.g1.Element)} (hne : pairs ≠ [])
    (h : ∀ pair ∈ pairs, S.verify pair.1 pair.2 publicKey = .ok true) :
    S.verifyAggregated (pairs.map Prod.fst) (pairs.map Prod.snd) publicKey = .ok true := by
  obtain ⟨first, hfirst⟩ := List.exists_mem_of_ne_nil pairs hne
  obtain ⟨-, k, hk, rfl⟩ := exists_of_verify_eq_ok (h first hfirst)
  have husable := fun pair hpair => (exists_of_verify_eq_ok (h pair hpair)).1
  rw [verifyAggregated_eq_surplus hpoints hS hk hne husable,
    sum_surplus_of_all_valid hpoints hS hk h, decide_eq_true rfl]

theorem verifyAggregated_of_one_invalid (hS : S.TestsProducts) {publicKey : S.g2.Element}
    {front back : List (Digest × S.g1.Element)} {bad : Digest × S.g1.Element}
    (hvalid : ∀ pair ∈ front ++ back, S.verify pair.1 pair.2 publicKey = .ok true)
    (hbad : S.verify bad.1 bad.2 publicKey = .ok false) :
    S.verifyAggregated ((front ++ bad :: back).map Prod.fst)
      ((front ++ bad :: back).map Prod.snd) publicKey = .ok false := by
  obtain ⟨hbadUsable, k, hk, rfl⟩ := exists_of_verify_eq_ok hbad
  have husable : ∀ pair ∈ front ++ bad :: back, S.g1.requireUsable pair.2 = .ok () := by
    intro pair hpair
    rcases List.mem_cons.mp (List.perm_middle.mem_iff.mp hpair) with rfl | hpair
    · exact hbadUsable
    · exact (exists_of_verify_eq_ok (hvalid pair hpair)).1
  have hsum : ((front ++ bad :: back).map (S.surplus k)).sum = S.surplus k bad := by
    rw [(List.perm_middle.map _).sum_eq, List.map_cons, List.sum_cons,
      sum_surplus_of_all_valid hpoints hS hk hvalid, add_zero]
  have hne : S.surplus k bad ≠ 0 := by
    rw [Ne, surplus_eq_zero_iff hpoints hS hk hbad]
    exact Bool.false_ne_true
  rw [verifyAggregated_eq_surplus hpoints hS hk (by simp) husable, hsum, decide_eq_false hne]

end Lawful

end Suite

namespace Bn254

variable {T : Type} [CommGroup T] {e : Point Fq → Point Fq2 → T}
  {same : Point Fq → Point Fq2 → Point Fq → Point Fq2 → Bool}

theorem contains_hashPoint (digest : Digest) : g1.contains (hashPoint digest).1 = true :=
  (PairingGroup.usable_of_requireUsable (requireUsable_hashPoint digest)).2

/-- A batch is answered by the first of its faults and otherwise by the equality of its sums.  It
is valid if all its signatures are, and not if exactly one of them is not. -/
theorem batch_verification_exact (he : IsPairing e) (hsame : Compares same e) :
    (∀ digests signatures publicKey, (suiteWith same).AnswersBatch digests signatures publicKey
      ((suiteWith same).verifyAggregated digests signatures publicKey)) ∧
    (∀ (pairs : List (Digest × Point Fq)) (publicKey : Point Fq2), pairs ≠ [] →
      (∀ pair ∈ pairs, (suiteWith same).verify pair.1 pair.2 publicKey = .ok true) →
      (suiteWith same).verifyAggregated (pairs.map Prod.fst) (pairs.map Prod.snd) publicKey =
        .ok true) ∧
    ∀ (front back : List (Digest × Point Fq)) (bad : Digest × Point Fq) (publicKey : Point Fq2),
      (∀ pair ∈ front ++ back, (suiteWith same).verify pair.1 pair.2 publicKey = .ok true) →
      (suiteWith same).verify bad.1 bad.2 publicKey = .ok false →
      (suiteWith same).verifyAggregated ((front ++ bad :: back).map Prod.fst)
        ((front ++ bad :: back).map Prod.snd) publicKey = .ok false := by
  have hS := he.testsProducts hsame
  refine ⟨Suite.answersBatch contains_hashPoint hS, ?_, ?_⟩
  · intro pairs publicKey hne hvalid
    exact Suite.verifyAggregated_of_all_valid contains_hashPoint hS hne hvalid
  · intro front back bad publicKey hvalid hbad
    exact Suite.verifyAggregated_of_one_invalid contains_hashPoint hS hvalid hbad

/-- The digest one with a multiple of its point, which is valid under the key two if the scalar is
two. -/
def timesPoint (k : Fr) : Digest × Point Fq :=
  (digestOne, g1.generator * k)

def keyTwo : Point Fq2 := g2.generator * Residue.ofNat order 2

theorem verify_timesPoint {k : Fr} (hk : k ≠ 0) :
    (suiteWith sameScalarPairing).verify (timesPoint k).1 (timesPoint k).2 keyTwo =
      .ok (decide (k = Residue.ofNat order 2)) := by
  have hS := isPairing_scalarPairing.testsProducts compares_sameScalarPairing
  have hgenerator : (hashPoint digestOne).1 = g1Generator := by decide +kernel
  have hpoint : (hashPoint digestOne).1 = g1.generator * (1 : Fr) :=
    hgenerator.trans g1_isCyclic.multiple_one.symm
  have htwo : Residue.ofNat order 2 ≠ 0 := by decide +kernel
  have hone : (1 : Fr) * Residue.ofNat order 2 = Residue.ofNat order 2 := one_mul _
  have hverify := Suite.verify_multiples hS hpoint hk htwo
  exact hverify.trans (congrArg (fun s : Fr => Except.ok (decide (k = s))) hone)

/-- Under the key two, the signatures three and one make up for each other, whereas the signature
three is noticed beside a valid one. -/
theorem batch_verification_exact_timesPoint :
    (suiteWith sameScalarPairing).verifyAggregated [digestOne, digestOne]
        [(timesPoint (Residue.ofNat order 3)).2, (timesPoint 1).2] keyTwo = .ok true ∧
      (suiteWith sameScalarPairing).verifyAggregated [digestOne, digestOne]
        [(timesPoint (Residue.ofNat order 2)).2, (timesPoint (Residue.ofNat order 2)).2] keyTwo =
          .ok true ∧
      (suiteWith sameScalarPairing).verifyAggregated [digestOne, digestOne]
        [(timesPoint (Residue.ofNat order 2)).2, (timesPoint (Residue.ofNat order 3)).2] keyTwo =
          .ok false := by
  obtain ⟨hanswers, hvalid, hinvalid⟩ :=
    batch_verification_exact isPairing_scalarPairing compares_sameScalarPairing
  have htwo : Residue.ofNat order 2 ≠ 0 := by decide +kernel
  have hthree : Residue.ofNat order 3 ≠ 0 := by decide +kernel
  have hdiffer : Residue.ofNat order 3 ≠ Residue.ofNat order 2 := by decide +kernel
  have hgood := verify_timesPoint htwo
  have hbad := verify_timesPoint hthree
  rw [decide_eq_true rfl] at hgood
  rw [decide_eq_false hdiffer] at hbad
  refine ⟨?_, ?_, ?_⟩
  · have hbatch := (hanswers [digestOne, digestOne]
      [(timesPoint (Residue.ofNat order 3)).2, (timesPoint 1).2] keyTwo).of_usable rfl (by simp)
      (by decide +kernel) (Residue.ofNat order 2) htwo rfl
    rw [hbatch]
    decide +kernel
  · exact hvalid [timesPoint _, timesPoint _] keyTwo (by simp) (by simpa using hgood)
  · exact hinvalid [timesPoint _] [] (timesPoint _) keyTwo (by simpa using hgood) hbad

end Bn254

end ThresholdBls
