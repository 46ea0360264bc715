import ThresholdBls.Proofs.IndexMap
import ThresholdBls.Proofs.Interpolation.Recovery

/-!
# Recovery of public keys

The shares of a public key are multiples of the generator, filed under their
indices.  Those of the lowest indices combine as the scalars do, so that the
multiples by the values of a polynomial lead to that by its value at zero.
-/

open scoped Polynomial

namespace ThresholdBls

variable {S : Suite} [S.Lawful]

def PublicKeyShare.ofValue (F : S.Scalar[X]) (params : Params) (index : UInt16) :
    PublicKeyShare S :=
  ⟨⟨S.g2.generator * F.eval (S.abscissa index)⟩, index, params⟩

omit [S.Lawful] in
theorem PublicKeyShare.checkFiled_eq_ok {params : Params} {entry : UInt16 × PublicKeyShare S}
    (hparams : entry.2.params = params) (hindex : entry.2.index = entry.1) :
    checkFiled params entry = .ok () := by
  have hsame : params.requireSame entry.2.params = .ok () :=
    Params.requireSame_eq_ok_iff.mpr hparams.symm
  have hfiled : ¬ entry.1 ≠ entry.2.index := not_not.mpr hindex.symm
  simp only [checkFiled, hsame, if_neg hfiled]
  rfl

theorem Suite.foldl_multiples (coefficients ks : List S.Scalar)
    {entries : List (UInt16 × PublicKeyShare S)}
    (h : entries.map (·.2.key.element) = ks.map fun k => S.g2.generator * k) (start : S.Scalar) :
    (coefficients.zip entries).foldl (fun acc (c, entry) => acc + entry.2.key.element * c)
        (S.g2.generator * start) =
      S.g2.generator * (start + combine coefficients ks) := by
  induction entries generalizing coefficients ks start with
  | nil =>
      cases ks with
      | nil => simp [combine]
      | cons k ks => cases h
  | cons entry rest ih =>
      cases ks with
      | nil => cases h
      | cons k ks =>
          cases coefficients with
          | nil => simp [combine]
          | cons c coefficients =>
              rw [List.map_cons, List.map_cons, List.cons.injEq] at h
              have hrest := ih coefficients ks h.2 (start + k * c)
              rw [List.zip_cons_cons, List.foldl_cons]
              dsimp only
              rw [h.1, Lawful.g2_cyclic.multiple_mul, Lawful.g2_cyclic.multiple_add, hrest]
              simp only [combine, List.zip_cons_cons, List.map_cons, List.sum_cons]
              rw [add_assoc, mul_comm k]

/-- The shares of the lowest indices, as many as the threshold, are interpolated at zero. -/
theorem PublicKey.ofShares_eq_create {params : Params} {shares : IndexMap (PublicKeyShare S)}
    {ks : List S.Scalar}
    (hfiled : ∀ entry ∈ shares.entries, entry.2.params = params ∧ entry.2.index = entry.1)
    (hzero : 0 ∉ (shares.entries.take params.t.toNat).map Prod.fst)
    (hcount : params.t.toNat ≤ shares.size)
    (helements : (shares.entries.take params.t.toNat).map (·.2.key.element) =
      ks.map fun k => S.g2.generator * k) :
    PublicKey.ofShares shares params =
      PublicKey.create (S.g2.generator * Suite.interpolate
        (((shares.entries.take params.t.toNat).map Prod.fst).map S.abscissa) ks) := by
  have hlength : ((shares.entries.take params.t.toNat).map Prod.fst).length = params.t.toNat := by
    rw [List.length_map]
    exact List.length_take_of_le hcount
  have hnodup : ((shares.entries.take params.t.toNat).map Prod.fst).Nodup :=
    shares.nodup_keys.sublist ((List.take_sublist _ _).map Prod.fst)
  have htake := List.take_of_length_le hlength.le
  have hcoefficients := Suite.coefficients_eq_ok (S := S) params.one_le_t hlength.ge
    (by rwa [htake]) (by rwa [htake])
  rw [htake] at hcoefficients
  have hchecked : (shares.entries.take params.t.toNat).forM (PublicKeyShare.checkFiled params) =
      .ok ⟨⟩ := by
    refine forM_eq_ok fun entry hentry => ?_
    obtain ⟨hparams, hindex⟩ := hfiled entry (List.mem_of_mem_take hentry)
    exact PublicKeyShare.checkFiled_eq_ok hparams hindex
  have hfold (coefficients : List S.Scalar) := Suite.foldl_multiples coefficients ks helements 0
  simp only [Suite.Lawful.g2_cyclic.multiple_zero, zero_add] at hfold
  have hfew : ¬ shares.size < params.t.toNat := not_lt.mpr hcount
  simp only [ofShares, if_neg hfew, hchecked, hcoefficients]
  exact congrArg create (hfold _)

theorem PublicKey.ofShares_ofValue {F : S.Scalar[X]} {params : Params}
    {shares : IndexMap (PublicKeyShare S)} (hdegree : F.degree < params.t.toNat)
    (hzero : 0 ∉ shares.entries.map Prod.fst) (hcount : params.t.toNat ≤ shares.size)
    (hvalues : ∀ entry ∈ shares.entries, entry.2 = .ofValue F params entry.1) :
    PublicKey.ofShares shares params = PublicKey.create (S.g2.generator * F.eval 0) := by
  have hsublist : ((shares.entries.take params.t.toNat).map Prod.fst).Sublist
      (shares.entries.map Prod.fst) := (List.take_sublist _ _).map Prod.fst
  have hzero_take : 0 ∉ (shares.entries.take params.t.toNat).map Prod.fst :=
    fun h => hzero (hsublist.mem h)
  have helements : (shares.entries.take params.t.toNat).map (·.2.key.element) =
      ((((shares.entries.take params.t.toNat).map Prod.fst).map S.abscissa).map
        fun x => F.eval x).map fun k => S.g2.generator * k := by
    rw [List.map_map, List.map_map, List.map_map]
    refine List.map_congr_left fun entry hentry => ?_
    rw [hvalues entry (List.mem_of_mem_take hentry)]
    rfl
  have heval := Suite.interpolate_eval (F := F)
    (Suite.nodup_abscissas (shares.nodup_keys.sublist hsublist))
    (Suite.zero_notMem_abscissas hzero_take)
    (by rwa [List.length_map, List.length_map, List.length_take_of_le hcount])
  rw [ofShares_eq_create ?_ hzero_take hcount helements, heval]
  intro entry hentry
  rw [hvalues entry hentry]
  exact ⟨rfl, rfl⟩

end ThresholdBls
