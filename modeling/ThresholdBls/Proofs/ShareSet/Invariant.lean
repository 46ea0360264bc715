import ThresholdBls.Proofs.IndexMap
import ThresholdBls.Proofs.Interpolation.Recovery
import ThresholdBls.Proofs.ShareSet.Checked

/-!
# The invariant of share sets

The shares of a set stand under their own indices, carry its parameters and are
well formed, and a set is merged only when ready.  This excludes every failure
of a merge but one, that the shares combine to the identity.
-/

namespace ThresholdBls.ShareSet

variable {S : Suite}

structure Valid (set : ShareSet S) : Prop where
  index_eq : ∀ entry ∈ set.shares.entries, entry.1 = entry.2.index
  params_eq : ∀ entry ∈ set.shares.entries, entry.2.params = set.params
  wellFormed : ∀ entry ∈ set.shares.entries, entry.2.WellFormed
  count_of_merged : set.merged = true → set.params.t.toNat ≤ set.count

theorem valid_empty (params : Params) : (empty params : ShareSet S).Valid where
  index_eq := nofun
  params_eq := nofun
  wellFormed := nofun
  count_of_merged := nofun

theorem isReady_iff (set : ShareSet S) :
    set.isReady = true ↔ set.params.t.toNat ≤ set.count :=
  decide_eq_true_iff

/-! ## Adding a share -/

theorem add_eq (set : ShareSet S) (share : SignatureShare S) :
    set.add share =
      if set.params ≠ share.params then .error .thresholdMismatch
      else if set.merged = true then .error .alreadyMerged
      else if set.shares.contains share.index = true then
        .error (.duplicatedIndex share.index)
      else .ok { set with shares := set.shares.insert share.index share } := by
  unfold add Params.requireSame
  by_cases hparams : set.params = share.params
  · rw [if_pos hparams, if_neg (not_not.mpr hparams)]
    cases set.merged with
    | true => rfl
    | false =>
        cases set.shares.contains share.index with
        | true => rfl
        | false => rfl
  · rw [if_neg hparams, if_pos hparams]
    rfl

theorem add_eq_ok_iff {set larger : ShareSet S} {share : SignatureShare S} :
    set.add share = .ok larger ↔
      set.params = share.params ∧ set.merged = false ∧
        set.shares.contains share.index = false ∧
        larger = { set with shares := set.shares.insert share.index share } := by
  rw [add_eq]
  by_cases hparams : set.params = share.params
  · cases hmerged : set.merged with
    | true => simp [hparams]
    | false =>
        cases hfresh : set.shares.contains share.index with
        | true => simp [hparams]
        | false => simp [hparams, eq_comm]
  · simp [hparams]

theorem Valid.add {set larger : ShareSet S} {share : SignatureShare S} (hset : set.Valid)
    (hshare : share.WellFormed) (h : set.add share = .ok larger) : larger.Valid := by
  obtain ⟨hparams, hmerged, hfresh, rfl⟩ := add_eq_ok_iff.mp h
  have hperm := IndexMap.perm_insert hfresh share
  have hall : ∀ (P : UInt16 × SignatureShare S → Prop), P (share.index, share) →
      (∀ entry ∈ set.shares.entries, P entry) →
      ∀ entry ∈ (set.shares.insert share.index share).entries, P entry := by
    intro P hnew hold entry hentry
    rw [hperm.mem_iff, List.mem_cons] at hentry
    rcases hentry with rfl | hentry
    · exact hnew
    · exact hold entry hentry
  refine ⟨hall _ rfl hset.index_eq, hall _ hparams.symm hset.params_eq,
    hall _ hshare hset.wellFormed, ?_⟩
  intro htrue
  exact absurd htrue (by simp [hmerged])

theorem foldlM_add {set : ShareSet S} {shares : List (SignatureShare S)} (hset : set.Valid)
    (hopen : set.merged = false) (hwell : ∀ share ∈ shares, share.WellFormed)
    (hparams : ∀ share ∈ shares, set.params = share.params)
    (hnodup : (shares.map (·.index)).Nodup)
    (hfresh : ∀ share ∈ shares, set.shares.contains share.index = false) :
    ∃ larger, shares.foldlM add set = .ok larger ∧ larger.Valid ∧
      larger.params = set.params ∧
      larger.shares.values.Perm (shares ++ set.shares.values) := by
  induction shares generalizing set with
  | nil => exact ⟨set, rfl, hset, rfl, List.Perm.refl _⟩
  | cons share rest ih =>
      rw [List.map_cons, List.nodup_cons] at hnodup
      have hnew := hfresh share List.mem_cons_self
      have hadd := add_eq_ok_iff.mpr ⟨hparams share List.mem_cons_self, hopen, hnew, rfl⟩
      have hvalues : (set.shares.insert share.index share).values.Perm
          (share :: set.shares.values) := (IndexMap.perm_insert hnew share).map Prod.snd
      obtain ⟨larger, hfold, hlarger, hsame, hperm⟩ := ih
        (hset.add (hwell share List.mem_cons_self) hadd) hopen
        (fun s hs => hwell s (List.mem_cons_of_mem _ hs))
        (fun s hs => hparams s (List.mem_cons_of_mem _ hs)) hnodup.2
        (by
          intro s hs
          have hne : s.index ≠ share.index := fun h =>
            hnodup.1 (h ▸ List.mem_map_of_mem hs)
          have hold := hfresh s (List.mem_cons_of_mem _ hs)
          rw [IndexMap.contains_eq_isSome] at hold ⊢
          rw [IndexMap.get?_insert_of_ne hnew hne, hold])
      refine ⟨larger, ?_, hlarger, hsame, ?_⟩
      · rw [List.foldlM_cons, hadd]
        exact hfold
      · exact hperm.trans ((hvalues.append_left rest).trans List.perm_middle)

theorem foldlM_add_empty {params : Params} {shares : List (SignatureShare S)}
    (hwell : ∀ share ∈ shares, share.WellFormed) (hparams : ∀ share ∈ shares, params = share.params)
    (hnodup : (shares.map (·.index)).Nodup) :
    ∃ set : ShareSet S, shares.foldlM add (.empty params) = .ok set ∧ set.Valid ∧
      set.params = params ∧ set.merged = false ∧ set.shares.values.Perm shares := by
  obtain ⟨set, hfold, hset, hsame, hperm⟩ :=
    foldlM_add (valid_empty (S := S) params) rfl hwell hparams hnodup (fun _ _ => rfl)
  have hopen : set.merged = false := by
    refine foldlM_invariant (P := fun set : ShareSet S => set.merged = false) rfl ?_ hfold
    intro share _ set larger hopen hadd
    obtain ⟨-, -, -, rfl⟩ := add_eq_ok_iff.mp hadd
    exact hopen
  have hempty : (empty params : ShareSet S).shares.values = [] := rfl
  rw [hempty, List.append_nil] at hperm
  exact ⟨set, hfold, hset, hsame, hopen, hperm⟩

theorem count_of_perm {set : ShareSet S} {shares : List (SignatureShare S)}
    (hperm : set.shares.values.Perm shares) : set.count = shares.length := by
  rw [← hperm.length_eq, IndexMap.values, List.length_map]
  rfl

theorem isReady_of_perm {set : ShareSet S} {shares : List (SignatureShare S)}
    (hperm : set.shares.values.Perm shares) (hcount : set.params.t.toNat ≤ shares.length) :
    set.isReady = true := by
  rw [isReady_iff, count_of_perm hperm]
  exact hcount

/-! ## Merging -/

/-- The shares that a merge uses: those of the lowest indices, as many as the threshold. -/
def used (set : ShareSet S) : List (SignatureShare S) :=
  set.shares.values.take set.params.t.toNat

theorem merge_eq_ok {set : ShareSet S} {signature : Signature S}
    (h : set.signature = .ok signature) :
    set.merge = .ok (signature, { set with merged := true }) := by
  rw [merge, h]
  rfl

section Merge

variable {set : ShareSet S}

theorem mem_values_of_mem_used {share : SignatureShare S} (h : share ∈ set.used) :
    share ∈ set.shares.values :=
  List.mem_of_mem_take h

theorem length_used (hready : set.isReady = true) : set.used.length = set.params.t.toNat := by
  have hcount : set.params.t.toNat ≤ set.shares.values.length := by
    rw [IndexMap.values, List.length_map]
    exact (isReady_iff set).mp hready
  exact List.length_take_of_le hcount

variable (hset : set.Valid)

include hset

theorem Valid.indices_eq : set.shares.values.map (·.index) = set.shares.entries.map Prod.fst := by
  rw [IndexMap.values, List.map_map]
  exact List.map_congr_left fun entry hentry => (hset.index_eq entry hentry).symm

theorem Valid.ascending_values :
    set.shares.values.Pairwise fun a b => a.index.toNat < b.index.toNat := by
  rw [IndexMap.values, List.pairwise_map]
  refine set.shares.ascending.imp_of_mem fun ha hb hlt => ?_
  rwa [← hset.index_eq _ ha, ← hset.index_eq _ hb]

theorem Valid.index_le_of_head? {lowest share : SignatureShare S}
    (hlowest : set.shares.values.head? = some lowest) (hshare : share ∈ set.shares.values) :
    lowest.index.toNat ≤ share.index.toNat := by
  rw [IndexMap.values, List.head?_map, Option.map_eq_some_iff] at hlowest
  obtain ⟨first, hfirst, rfl⟩ := hlowest
  obtain ⟨entry, hentry, rfl⟩ := List.mem_map.mp hshare
  rw [← hset.index_eq first (List.mem_of_head? hfirst), ← hset.index_eq entry hentry]
  exact set.shares.index_le_of_head? hfirst hentry

theorem Valid.wellFormed_of_mem {share : SignatureShare S} (h : share ∈ set.shares.values) :
    share.WellFormed := by
  obtain ⟨entry, hentry, rfl⟩ := List.mem_map.mp h
  exact hset.wellFormed entry hentry

theorem Valid.nodup_used : (set.used.map (·.index)).Nodup := by
  rw [used, List.map_take, hset.indices_eq]
  exact set.shares.nodup_keys.sublist (List.take_sublist _ _)

theorem Valid.zero_notMem_used : 0 ∉ set.used.map (·.index) := by
  intro h
  obtain ⟨share, hshare, hindex⟩ := List.mem_map.mp h
  exact (hset.wellFormed_of_mem (mem_values_of_mem_used hshare)).index_ne_zero hindex

variable [S.Lawful] (hready : set.isReady = true)

include hready

/-- The shares that a merge uses combine by interpolation at zero, if their elements are the
multiples of the generator by nonzero scalars. -/
theorem Valid.signature_eq_create {ks : List S.Scalar} (hks : ∀ k ∈ ks, k ≠ 0)
    (helements : set.used.map (·.signature.element) = ks.map fun k => S.g1.generator * k) :
    ∃ lowest, set.shares.values.head? = some lowest ∧ set.signature =
      Signature.create
        (S.g1.generator * Suite.interpolate ((set.used.map (·.index)).map S.abscissa) ks)
        lowest.signature.hint := by
  have hlength := length_used hready
  have hindices : (set.used.map (·.index)).length = set.params.t.toNat := by
    rw [List.length_map, hlength]
  have hks_length : set.params.t.toNat ≤ ks.length := by
    have hlengths := congrArg List.length helements
    rw [List.length_map, List.length_map, hlength] at hlengths
    exact hlengths.le
  obtain ⟨coefficients, hcoefficients, hrecover⟩ := Suite.recoverSignature_of_length_eq
    set.params.one_le_t hindices hset.zero_notMem_used hset.nodup_used hks_length hks
  have hhead : set.used.head? = set.shares.values.head? := by
    rw [used, List.head?_take, if_neg (Nat.ne_of_gt set.params.one_le_t)]
  have hfew : ¬ set.count < set.params.t.toNat := not_lt.mpr ((isReady_iff set).mp hready)
  have hused : set.shares.values.take set.params.t.toNat = set.used := rfl
  unfold signature
  simp only [if_neg hfew, hused]
  generalize set.used = used at *
  cases used with
  | nil =>
      have ht := set.params.one_le_t
      rw [List.length_nil] at hlength
      omega
  | cons lowest others =>
      refine ⟨lowest, hhead.symm, ?_⟩
      simp only [hcoefficients, helements]
      change (S.recoverSignature coefficients _ _ >>= _) = _
      rw [hrecover]
      rfl

/-- The elements that a merge uses are multiples of the generator, and it fails only where the
scalars interpolate to zero. -/
theorem Valid.exists_signature_eq :
    ∃ (ks : List S.Scalar) (lowest : SignatureShare S),
      set.used.map (·.signature.element) = ks.map (fun k => S.g1.generator * k) ∧
      set.shares.values.head? = some lowest ∧
      set.signature =
        if Suite.interpolate ((set.used.map (·.index)).map S.abscissa) ks = 0 then
          .error .identityElement
        else .ok ⟨S.g1.generator *
          Suite.interpolate ((set.used.map (·.index)).map S.abscissa) ks, lowest.signature.hint⟩ := by
  have husable : ∀ element ∈ set.used.map (·.signature.element),
      S.g1.requireUsable element = .ok () := by
    intro element helement
    obtain ⟨share, hshare, rfl⟩ := List.mem_map.mp helement
    exact (hset.wellFormed_of_mem (mem_values_of_mem_used hshare)).usable
  obtain ⟨ks, hks, helements⟩ := Suite.Lawful.g1_cyclic.exists_nonzero_multiples husable
  obtain ⟨lowest, hlowest, hsignature⟩ := hset.signature_eq_create hready hks helements
  exact ⟨ks, lowest, helements, hlowest, hsignature.trans (Signature.create_multiple _ _)⟩

end Merge

theorem signature_of_not_ready {set : ShareSet S} (h : set.isReady = false) :
    set.signature = .error (.tooFewShares set.params.t.toNat set.count) := by
  have hfew : set.count < set.params.t.toNat := by
    rw [← not_le, ← isReady_iff, h]
    exact Bool.false_ne_true
  unfold signature
  simp only [if_pos hfew]
  rfl

end ThresholdBls.ShareSet
