import ThresholdBls.Proofs.ShareSet.Invariant

/-!
# Sets of shares of a polynomial

The elements of such shares are the values of one polynomial, times a factor
that they have in common, and their hints are any.  They merge to its value at
zero times this factor, with the hint of the lowest index.
-/

open scoped Polynomial

namespace ThresholdBls

variable {S : Suite} [S.Lawful] {F : S.Scalar[X]} {params : Params} {h : S.Scalar}

/-- The element of a participant's share is a value of the polynomial, which is not zero, times
the factor. -/
structure SignatureShare.OfValue (F : S.Scalar[X]) (params : Params) (h : S.Scalar)
    (share : SignatureShare S) : Prop where
  params_eq : params = share.params
  requireIndex : params.requireIndex share.index = .ok ()
  value_ne_zero : F.eval (S.abscissa share.index) ≠ 0
  element_eq :
    share.signature.element = S.g1.generator * (h * F.eval (S.abscissa share.index))

theorem SignatureShare.OfValue.wellFormed {share : SignatureShare S}
    (hshare : share.OfValue F params h) (hh : h ≠ 0) : share.WellFormed := by
  obtain ⟨hzero, hle⟩ := Params.requireIndex_eq_ok_iff.mp hshare.requireIndex
  refine ⟨?_, hzero, hshare.params_eq ▸ hle⟩
  rw [hshare.element_eq]
  exact Suite.Lawful.g1_cyclic.requireUsable_multiple (mul_ne_zero hh hshare.value_ne_zero)

namespace ShareSet

variable (hh : h ≠ 0) (hdegree : F.degree < params.t.toNat) (hsecret : F.eval 0 ≠ 0)

include hh hdegree hsecret

theorem Valid.signature_of_values {set : ShareSet S} (hset : set.Valid)
    (hready : set.isReady = true) (hparams : set.params = params)
    (hvalues : ∀ share ∈ set.shares.values, share.OfValue F params h) :
    ∃ lowest, set.shares.values.head? = some lowest ∧
      set.signature = .ok ⟨S.g1.generator * (h * F.eval 0), lowest.signature.hint⟩ := by
  have hused : ∀ share ∈ set.used, share.OfValue F params h :=
    fun share hshare => hvalues share (mem_values_of_mem_used hshare)
  have hlength : ((set.used.map (·.index)).map S.abscissa).length = params.t.toNat := by
    rw [List.length_map, List.length_map, length_used hready, hparams]
  -- The shares are values of `h F`, as polynomials of the same degree.
  have helements : set.used.map (·.signature.element) =
      (((set.used.map (·.index)).map S.abscissa).map fun x => (Polynomial.C h * F).eval x).map
        fun k => S.g1.generator * k := by
    rw [List.map_map, List.map_map, List.map_map]
    refine List.map_congr_left fun share hshare => ?_
    simp [(hused share hshare).element_eq]
  have hks : ∀ k ∈ ((set.used.map (·.index)).map S.abscissa).map
      fun x => (Polynomial.C h * F).eval x, k ≠ 0 := by
    intro k hk
    rw [List.map_map, List.map_map] at hk
    obtain ⟨share, hshare, rfl⟩ := List.mem_map.mp hk
    simpa [hh] using (hused share hshare).value_ne_zero
  have heval := Suite.interpolate_eval (Suite.nodup_abscissas hset.nodup_used)
    (Suite.zero_notMem_abscissas hset.zero_notMem_used)
    (F := Polynomial.C h * F) (by rw [Polynomial.degree_C_mul hh, hlength]; exact hdegree)
  rw [Polynomial.eval_mul, Polynomial.eval_C] at heval
  obtain ⟨lowest, hlowest, hsignature⟩ := hset.signature_eq_create hready hks helements
  refine ⟨lowest, hlowest, ?_⟩
  rw [hsignature, heval, Signature.create_multiple, if_neg (mul_ne_zero hh hsecret)]

theorem foldlM_add_of_values {shares : List (SignatureShare S)}
    (hnodup : (shares.map (·.index)).Nodup) (hcount : params.t.toNat ≤ shares.length)
    (hvalues : ∀ share ∈ shares, share.OfValue F params h) :
    ∃ set : ShareSet S, ∃ lowest ∈ shares,
      (∀ share ∈ shares, lowest.index.toNat ≤ share.index.toNat) ∧
      shares.foldlM add (.empty params) = .ok set ∧
      set.signature = .ok ⟨S.g1.generator * (h * F.eval 0), lowest.signature.hint⟩ := by
  obtain ⟨set, hfold, hset, hparams, -, hperm⟩ := foldlM_add_empty
    (fun share hshare => (hvalues share hshare).wellFormed hh)
    (fun share hshare => (hvalues share hshare).params_eq) hnodup
  have hready := isReady_of_perm hperm (hparams ▸ hcount)
  obtain ⟨lowest, hlowest, hsignature⟩ := hset.signature_of_values hh hdegree hsecret hready
    hparams fun share hshare => hvalues share (hperm.mem_iff.mp hshare)
  refine ⟨set, lowest, hperm.mem_iff.mp (List.mem_of_head? hlowest), ?_, hfold, hsignature⟩
  exact fun share hshare => hset.index_le_of_head? hlowest (hperm.mem_iff.mpr hshare)

end ShareSet

end ThresholdBls
