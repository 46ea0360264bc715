import ThresholdBls.Proofs.Bn254.Groups
import ThresholdBls.Proofs.Interpolation.PublicRecovery
import ThresholdBls.Proofs.Sharing.Feldman
import ThresholdBls.Proofs.Signing
import ThresholdBls.Sharing.Dealer

/-!
# Trusted dealers

A dealer hands out the values of the polynomial that it samples, unless one of
them or the secret itself is zero.  Enough of the shares, private or public,
lead back to the key.
-/

open scoped Polynomial

namespace ThresholdBls

def Params.participants (params : Params) : List UInt16 :=
  (List.range params.n.toNat).map fun position => UInt16.ofNat (position + 1)

theorem Params.toNat_participant {params : Params} {position : Nat}
    (h : position < params.n.toNat) : (UInt16.ofNat (position + 1)).toNat = position + 1 :=
  UInt16.toNat_ofNat_of_lt' (lt_of_le_of_lt h params.n.toNat_lt)

theorem Params.mem_participants_iff {params : Params} {index : UInt16} :
    index ∈ params.participants ↔ 1 ≤ index.toNat ∧ index.toNat ≤ params.n.toNat := by
  rw [participants, List.mem_map]
  constructor
  · rintro ⟨position, hposition, rfl⟩
    have hlt := List.mem_range.mp hposition
    rw [toNat_participant hlt]
    omega
  · rintro ⟨hpos, hle⟩
    refine ⟨index.toNat - 1, List.mem_range.mpr (by omega), ?_⟩
    rw [Nat.sub_add_cancel hpos, UInt16.ofNat_toNat]

theorem Params.zero_notMem_participants (params : Params) : 0 ∉ params.participants :=
  fun h => absurd (mem_participants_iff.mp h).1 (by decide)

theorem Params.ascending_participants (params : Params) :
    params.participants.Pairwise fun i j => i.toNat < j.toNat := by
  rw [participants, List.pairwise_map]
  refine List.pairwise_lt_range.imp_of_mem fun hi hj hlt => ?_
  rw [toNat_participant (List.mem_range.mp hi), toNat_participant (List.mem_range.mp hj)]
  omega

theorem Params.nodup_participants (params : Params) : params.participants.Nodup :=
  params.ascending_participants.imp fun hlt heq => (Nat.ne_of_lt hlt) (congrArg UInt16.toNat heq)

theorem Params.zipIdx_participants {α : Type} (params : Params) (g : UInt16 → α) :
    (params.participants.map g).zipIdx =
      (List.range params.n.toNat).map fun position =>
        (g (UInt16.ofNat (position + 1)), position) := by
  refine List.ext_getElem (by simp [participants]) fun position h h' => ?_
  simp [participants]

theorem Params.entries_ofList {α : Type} (params : Params) (g : UInt16 → α) :
    (IndexMap.ofList (params.participants.map fun i => (i, g i))).entries =
      params.participants.map fun i => (i, g i) := by
  refine IndexMap.entries_ofList ?_
  rw [List.pairwise_map]
  exact params.ascending_participants

variable {S : Suite} [S.Lawful] {params : Params}

/-! ## Values of the sampled polynomial -/

namespace Polynomial

theorem constant_eq_eval (f : Polynomial S.order) :
    f.constant = (committed f.coefficients).eval 0 := by
  obtain ⟨coefficients, hne⟩ := f
  cases coefficients with
  | nil => exact absurd rfl hne
  | cons c rest =>
      rw [eval_committed_cons, zero_mul, add_zero]
      rfl

section Leading

variable {f : Polynomial S.order} {leading : S.Scalar}
  (hlast : f.coefficients.getLast? = some leading) (hleading : leading ≠ 0)

include hlast hleading

theorem evaluate_eq_ok (x : S.Scalar) :
    f.evaluate x = .ok ((committed f.coefficients).eval x) :=
  (value_eq_ok_iff hlast hleading).mpr rfl

theorem contributions_eq_ok (params : Params) :
    f.contributions params.n =
      .ok (params.participants.map fun i =>
        (committed f.coefficients).eval (S.abscissa i)) := by
  have hvalue : ∀ position ∈ List.range params.n.toNat,
      f.evaluate (Residue.ofNat S.order (position + 1)) =
        .ok ((committed f.coefficients).eval (S.abscissa (UInt16.ofNat (position + 1)))) := by
    intro position hposition
    rw [Suite.abscissa, Params.toNat_participant (List.mem_range.mp hposition)]
    exact evaluate_eq_ok hlast hleading _
  rw [contributions, mapM_eq_ok hvalue, Params.participants, List.map_map]
  rfl

end Leading

omit [S.Lawful] in
theorem ofSamples_eq_ok {samples : List S.Scalar} {leading : S.Scalar}
    (hleading : (samples.drop (params.t.toNat - 1)).find? (· ≠ 0) = some leading) :
    ofSamples params.t samples =
      .ok ⟨samples.take (params.t.toNat - 1) ++ [leading], List.concat_ne_nil _ _⟩ := by
  have ht : params.t ≠ 0 := by
    intro hzero
    exact absurd params.one_le_t (by rw [hzero]; decide)
  simp only [ofSamples, if_neg ht, hleading]
  exact dif_neg _

end Polynomial

/-! ## What a dealer hands out -/

omit [S.Lawful] in
theorem PrivateKeyShare.create_zero {index : UInt16}
    (hindex : params.requireIndex index = .ok ()) :
    create (0 : S.Scalar) index params = .error .zeroSecret := by
  have hcreate : PrivateKey.create (0 : S.Scalar) = .error .zeroSecret := if_pos rfl
  simp only [create, hindex, hcreate]
  rfl

namespace Dealing

def ofValues (F : S.Scalar[X]) (params : Params) : Dealing S where
  shares := .ofList (params.participants.map fun i => (i, .ofValue F params i))
  package := {
    params
    publicKeyShares := .ofList (params.participants.map fun i => (i, .ofValue F params i))
    publicKey := ⟨S.g2.generator * F.eval 0⟩ }

omit [S.Lawful] in
theorem mapM_create (value : UInt16 → S.Scalar) :
    ((params.participants.map value).zipIdx.mapM fun (value, position) =>
        PrivateKeyShare.create value (UInt16.ofNat (position + 1)) params) =
      params.participants.mapM fun i => PrivateKeyShare.create (value i) i params := by
  rw [Params.zipIdx_participants, Params.participants, List.mapM_map, List.mapM_map]
  rfl

section Polynomial

variable {f : Polynomial S.order} {leading : S.Scalar}
  (hlast : f.coefficients.getLast? = some leading) (hleading : leading ≠ 0)

include hlast hleading

theorem ofPolynomial_eq (params : Params) :
    ofPolynomial params f = (do
      let shares ← params.participants.mapM fun i =>
        PrivateKeyShare.create ((committed f.coefficients).eval (S.abscissa i)) i params
      let publicKey ← PublicKey.create (S.g2.generator * (committed f.coefficients).eval 0)
      return {
        shares := .ofList (shares.map fun share => (share.index, share))
        package := {
          params
          publicKeyShares := .ofList (shares.map fun share => (share.index, share.publicKeyShare))
          publicKey } }) := by
  rw [ofPolynomial, Polynomial.contributions_eq_ok hlast hleading, Polynomial.constant_eq_eval,
    ← mapM_create]
  rfl

theorem ofPolynomial_of_value_eq_zero
    (hzero : ∃ i ∈ params.participants,
      (committed f.coefficients).eval (S.abscissa i) = 0) :
    ofPolynomial params f = .error .zeroSecret := by
  have hcreate : ∀ i ∈ params.participants,
      (committed f.coefficients).eval (S.abscissa i) = 0 →
      PrivateKeyShare.create ((committed f.coefficients).eval (S.abscissa i)) i params =
        .error .zeroSecret := by
    intro i hi hvalue
    rw [hvalue]
    exact PrivateKeyShare.create_zero
      (Params.requireIndex_of_range (Params.mem_participants_iff.mp hi))
  have hshares : (params.participants.mapM fun i =>
      PrivateKeyShare.create ((committed f.coefficients).eval (S.abscissa i)) i params) =
        .error .zeroSecret := by
    refine mapM_eq_error (fun i hi => ?_) ?_
    · by_cases hvalue : (committed f.coefficients).eval (S.abscissa i) = 0
      · exact .inr (hcreate i hi hvalue)
      · exact .inl ⟨_, PrivateKeyShare.create_eq_ok hvalue
          (Params.requireIndex_of_range (Params.mem_participants_iff.mp hi))⟩
    · obtain ⟨i, hi, hvalue⟩ := hzero
      exact ⟨i, hi, hcreate i hi hvalue⟩
  rw [ofPolynomial_eq hlast hleading, hshares]
  rfl

theorem ofPolynomial_of_values_ne_zero
    (hvalues : ∀ i ∈ params.participants,
      (committed f.coefficients).eval (S.abscissa i) ≠ 0) :
    ofPolynomial params f =
      if (committed f.coefficients).eval 0 = 0 then .error .identityElement
      else .ok (ofValues (committed f.coefficients) params) := by
  have hshares : (params.participants.mapM fun i =>
      PrivateKeyShare.create ((committed f.coefficients).eval (S.abscissa i)) i params) =
        .ok (params.participants.map (.ofValue (committed f.coefficients) params)) :=
    mapM_eq_ok fun i hi => PrivateKeyShare.create_eq_ok (hvalues i hi)
      (Params.requireIndex_of_range (Params.mem_participants_iff.mp hi))
  rw [ofPolynomial_eq hlast hleading, hshares]
  split
  · rename_i hsecret
    rw [hsecret, PublicKey.create_multiple_zero]
    rfl
  · rename_i hsecret
    have hprivate : (params.participants.map fun i => (i,
        PrivateKeyShare.ofValue (committed f.coefficients) params i)) =
          (params.participants.map (.ofValue (committed f.coefficients) params)).map
            fun share => (share.index, share) := by
      rw [List.map_map]
      rfl
    have hpublic : (params.participants.map fun i => (i,
        PublicKeyShare.ofValue (committed f.coefficients) params i)) =
          (params.participants.map (.ofValue (committed f.coefficients) params)).map
            fun share => (share.index, PrivateKeyShare.publicKeyShare share) := by
      rw [List.map_map]
      rfl
    rw [PublicKey.create_multiple hsecret, ofValues, hprivate, hpublic]
    rfl

end Polynomial

/-! ## Recovery from dealt shares -/

section Recovery

variable {F : S.Scalar[X]} (hdegree : F.degree < params.t.toNat) (hsecret : F.eval 0 ≠ 0)

include hdegree hsecret

theorem ofShares_of_mem (hvalues : ∀ i ∈ params.participants, F.eval (S.abscissa i) ≠ 0)
    {shares : List (PrivateKeyShare S)}
    (hmem : ∀ share ∈ shares, share ∈ (ofValues F params).shares.values)
    (hnodup : (shares.map (·.index)).Nodup) (hcount : params.t.toNat ≤ shares.length) :
    PrivateKey.ofShares shares = .ok ⟨F.eval 0⟩ := by
  have hdealt : ∀ share ∈ shares, share.index ∈ params.participants ∧
      share = .ofValue F params share.index := by
    intro share hshare
    have hvalue := hmem share hshare
    rw [IndexMap.values, ofValues, params.entries_ofList, List.map_map] at hvalue
    obtain ⟨i, hi, rfl⟩ := List.mem_map.mp hvalue
    exact ⟨hi, rfl⟩
  have hindices : ∀ i ∈ shares.map (·.index), i ∈ params.participants := by
    intro i hi
    obtain ⟨share, hshare, rfl⟩ := List.mem_map.mp hi
    exact (hdealt share hshare).1
  have hshares : (shares.map (·.index)).map (.ofValue F params) = shares := by
    rw [List.map_map]
    exact (List.map_congr_left fun share hshare => (hdealt share hshare).2.symm).trans
      (List.map_id' _)
  have hrecover := PrivateKey.ofShares_ofValue hdegree hnodup
    (fun h => params.zero_notMem_participants (hindices 0 h)) (by rwa [List.length_map])
    fun i hi => hvalues i (hindices i hi)
  rw [hshares] at hrecover
  rw [hrecover]
  exact if_neg hsecret

theorem ofShares_of_subset {shares : IndexMap (PublicKeyShare S)}
    (hsubset : shares.entries ⊆ (ofValues F params).package.publicKeyShares.entries)
    (hcount : params.t.toNat ≤ shares.size) :
    PublicKey.ofShares shares params = .ok (ofValues F params).package.publicKey := by
  have hdealt : ∀ entry ∈ shares.entries, entry.1 ∈ params.participants ∧
      entry.2 = .ofValue F params entry.1 := by
    intro entry hentry
    have hvalue := hsubset hentry
    rw [ofValues, params.entries_ofList] at hvalue
    obtain ⟨i, hi, rfl⟩ := List.mem_map.mp hvalue
    exact ⟨hi, rfl⟩
  have hzero : 0 ∉ shares.entries.map Prod.fst := by
    intro h
    obtain ⟨entry, hentry, hindex⟩ := List.mem_map.mp h
    exact params.zero_notMem_participants (hindex ▸ (hdealt entry hentry).1)
  rw [PublicKey.ofShares_ofValue hdegree hzero hcount fun entry hentry => (hdealt entry hentry).2]
  exact PublicKey.create_multiple hsecret

end Recovery

/-! ## Dealing from samples -/

/-- The polynomial whose coefficients are the first samples, one less than the threshold, and a
leading one from those that follow. -/
noncomputable def sampledPolynomial (params : Params) (samples : List S.Scalar)
    (leading : S.Scalar) : S.Scalar[X] :=
  committed (samples.take (params.t.toNat - 1) ++ [leading])

theorem degree_sampledPolynomial_lt (samples : List S.Scalar) (leading : S.Scalar) :
    (sampledPolynomial params samples leading).degree < params.t.toNat := by
  have ht := params.one_le_t
  have hlength : (samples.take (params.t.toNat - 1) ++ [leading]).length ≤ params.t.toNat := by
    rw [List.length_append, List.length_take, List.length_singleton]
    omega
  exact (degree_committed_lt _).trans_le (Nat.cast_le.mpr hlength)

/-- The dealing hands out the values of the polynomial, and any shares of it, as many as the
threshold asks for, lead back to the key. -/
structure DealsOut (F : S.Scalar[X]) (params : Params) (dealing : Dealing S) : Prop where
  params_eq : dealing.package.params = params
  private_entries :
    dealing.shares.entries = params.participants.map fun i => (i, .ofValue F params i)
  public_entries : dealing.package.publicKeyShares.entries =
    params.participants.map fun i => (i, .ofValue F params i)
  publicKey_eq : dealing.package.publicKey = ⟨S.g2.generator * F.eval 0⟩
  private_recovery (shares : List (PrivateKeyShare S)) :
    (∀ share ∈ shares, share ∈ dealing.shares.values) → (shares.map (·.index)).Nodup →
      params.t.toNat ≤ shares.length → PrivateKey.ofShares shares = .ok ⟨F.eval 0⟩
  public_recovery (shares : IndexMap (PublicKeyShare S)) :
    shares.entries ⊆ dealing.package.publicKeyShares.entries → params.t.toNat ≤ shares.size →
      PublicKey.ofShares shares params = .ok dealing.package.publicKey

theorem dealsOut_ofValues {F : S.Scalar[X]} (hdegree : F.degree < params.t.toNat)
    (hsecret : F.eval 0 ≠ 0) (hvalues : ∀ i ∈ params.participants, F.eval (S.abscissa i) ≠ 0) :
    (ofValues F params).DealsOut F params where
  params_eq := rfl
  private_entries := params.entries_ofList _
  public_entries := params.entries_ofList _
  publicKey_eq := rfl
  private_recovery _ := ofShares_of_mem hdegree hsecret hvalues
  public_recovery _ := ofShares_of_subset hdegree hsecret

section Samples

variable {samples : List S.Scalar} {leading : S.Scalar}
  (hleading : (samples.drop (params.t.toNat - 1)).find? (· ≠ 0) = some leading)

include hleading

omit [S.Lawful] in
theorem ofSamples_eq_ofPolynomial :
    ofSamples params samples =
      ofPolynomial params ⟨_, List.concat_ne_nil leading (samples.take (params.t.toNat - 1))⟩ := by
  rw [ofSamples, Polynomial.ofSamples_eq_ok hleading]
  rfl

theorem ofSamples_of_value_eq_zero
    (hzero : ∃ i ∈ params.participants,
      (sampledPolynomial params samples leading).eval (S.abscissa i) = 0) :
    ofSamples params samples = .error .zeroSecret := by
  have hnonzero : leading ≠ 0 := by
    simpa using List.find?_some hleading
  rw [ofSamples_eq_ofPolynomial hleading]
  exact ofPolynomial_of_value_eq_zero List.getLast?_concat hnonzero hzero

theorem ofSamples_of_values_ne_zero
    (hvalues : ∀ i ∈ params.participants,
      (sampledPolynomial params samples leading).eval (S.abscissa i) ≠ 0) :
    ofSamples params samples =
      if (sampledPolynomial params samples leading).eval 0 = 0 then .error .identityElement
      else .ok (ofValues (sampledPolynomial params samples leading) params) := by
  have hnonzero : leading ≠ 0 := by
    simpa using List.find?_some hleading
  rw [ofSamples_eq_ofPolynomial hleading]
  exact ofPolynomial_of_values_ne_zero List.getLast?_concat hnonzero hvalues

end Samples

/-- A dealer succeeds if and only if neither the secret nor the value of any participant is zero,
and then hands out shares of the sampled polynomial. -/
theorem ofSamples_correct {samples : List S.Scalar} {leading : S.Scalar}
    (hleading : (samples.drop (params.t.toNat - 1)).find? (· ≠ 0) = some leading) :
    ((∃ dealing, ofSamples params samples = .ok dealing) ↔
        (sampledPolynomial params samples leading).eval 0 ≠ 0 ∧
          ∀ i ∈ params.participants,
            (sampledPolynomial params samples leading).eval (S.abscissa i) ≠ 0) ∧
      ((∃ i ∈ params.participants,
          (sampledPolynomial params samples leading).eval (S.abscissa i) = 0) →
        ofSamples params samples = .error .zeroSecret) ∧
      ((∀ i ∈ params.participants,
          (sampledPolynomial params samples leading).eval (S.abscissa i) ≠ 0) →
        (sampledPolynomial params samples leading).eval 0 = 0 →
        ofSamples params samples = .error .identityElement) ∧
      ∀ dealing, ofSamples params samples = .ok dealing →
        dealing.DealsOut (sampledPolynomial params samples leading) params := by
  by_cases hvalues : ∀ i ∈ params.participants,
      (sampledPolynomial params samples leading).eval (S.abscissa i) ≠ 0
  · have houtcome := ofSamples_of_values_ne_zero hleading hvalues
    by_cases hsecret : (sampledPolynomial params samples leading).eval 0 = 0
    · rw [if_pos hsecret] at houtcome
      refine ⟨?_, ?_, fun _ _ => houtcome, ?_⟩
      · simp [houtcome, hsecret]
      · rintro ⟨i, hi, hzero⟩
        exact absurd hzero (hvalues i hi)
      · simp [houtcome]
    · rw [if_neg hsecret] at houtcome
      refine ⟨⟨fun _ => ⟨hsecret, hvalues⟩, fun _ => ⟨_, houtcome⟩⟩, ?_,
        fun _ hzero => absurd hzero hsecret, ?_⟩
      · rintro ⟨i, hi, hzero⟩
        exact absurd hzero (hvalues i hi)
      · intro dealing hdealing
        cases houtcome.symm.trans hdealing
        exact dealsOut_ofValues (degree_sampledPolynomial_lt _ _) hsecret hvalues
  · have hzero : ∃ i ∈ params.participants,
        (sampledPolynomial params samples leading).eval (S.abscissa i) = 0 := by
      simpa using hvalues
    have houtcome := ofSamples_of_value_eq_zero hleading hzero
    refine ⟨?_, fun _ => houtcome, fun hall => absurd hall hvalues, ?_⟩
    · simp [houtcome, hvalues]
    · simp [houtcome]

theorem ofSamples_correct_line :
    ∃ dealing : Dealing Bn254.suite, ofSamples .twoOfThree [1, 0, 1] = .ok dealing ∧
      dealing.DealsOut (sampledPolynomial .twoOfThree [1, 0, 1] 1) .twoOfThree := by
  have heval : ∀ x : Bn254.suite.Scalar,
      (sampledPolynomial .twoOfThree [1, 0, 1] 1).eval x = 1 + x * (1 + x * 0) := by
    intro x
    change (committed [1, 1]).eval x = _
    rw [eval_committed_cons, eval_committed_cons, committed, Polynomial.eval_zero]
  have hvalues : ∀ i ∈ Params.twoOfThree.participants,
      (sampledPolynomial .twoOfThree [1, 0, 1] 1).eval (Bn254.suite.abscissa i) ≠ 0 := by
    have hparticipants : Params.twoOfThree.participants = [1, 2, 3] := by decide
    intro i hi
    rw [hparticipants, List.mem_cons, List.mem_cons, List.mem_singleton] at hi
    rw [heval]
    rcases hi with rfl | rfl | rfl <;> decide +kernel
  have hsecret : (sampledPolynomial .twoOfThree [1, 0, 1] 1).eval (0 : Bn254.suite.Scalar) ≠ 0 := by
    rw [heval]
    decide +kernel
  have hleading : (([1, 0, 1] : List Bn254.suite.Scalar).drop
      (Params.twoOfThree.t.toNat - 1)).find? (· ≠ 0) = some 1 := by
    decide +kernel
  obtain ⟨hok, -, -, hshares⟩ := ofSamples_correct hleading
  obtain ⟨dealing, hdealing⟩ := hok.mpr ⟨hsecret, hvalues⟩
  exact ⟨dealing, hdealing, hshares dealing hdealing⟩

end Dealing

end ThresholdBls
