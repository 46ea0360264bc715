import ThresholdBls.Key.Recovery
import ThresholdBls.Proofs.Interpolation.Lagrange
import ThresholdBls.Proofs.ShareSet.Checked

/-!
# Recovery by interpolation

With as many coefficients as the threshold asks for, secrets and signatures are
recovered as the same combination of the scalars of their shares.  Where those
are the values of a polynomial of small enough degree, this is its value at
zero.
-/

open scoped Polynomial

namespace ThresholdBls.Suite

open Interpolation

variable {S : Suite} [S.Lawful]

def combine (coefficients values : List S.Scalar) : S.Scalar :=
  ((coefficients.zip values).map fun pair => pair.1 * pair.2).sum

def interpolate (xs values : List S.Scalar) : S.Scalar :=
  combine (xs.map (weight xs)) values

omit [S.Lawful] in
theorem combine_map {α : Type} (xs : List α) (f g : α → S.Scalar) :
    combine (xs.map f) (xs.map g) = (xs.map fun x => f x * g x).sum := by
  rw [combine, List.zip_map', List.map_map]
  rfl

omit [S.Lawful] in
theorem combine_take (coefficients values : List S.Scalar) :
    combine coefficients (values.take coefficients.length) = combine coefficients values := by
  induction coefficients generalizing values with
  | nil => rfl
  | cons c rest ih =>
      cases values with
      | nil => rfl
      | cons v values =>
          have htail := ih values
          rw [combine, combine] at htail
          simp [combine, htail]

theorem interpolate_take {xs values : List S.Scalar} {n : Nat} (h : xs.length = n) :
    interpolate xs (values.take n) = interpolate xs values := by
  have htake := combine_take (xs.map (weight xs)) values
  rwa [List.length_map, h] at htake

theorem interpolate_eval {xs : List S.Scalar} (hnodup : xs.Nodup) (hzero : 0 ∉ xs)
    {F : S.Scalar[X]} (hdegree : F.degree < xs.length) :
    interpolate xs (xs.map fun x => F.eval x) = F.eval 0 := by
  rw [interpolate, combine_map]
  exact sum_weight_mul_eval hnodup hzero hdegree

theorem interpolate_mul_left (xs values : List S.Scalar) (c : S.Scalar) :
    interpolate xs (values.map fun v => c * v) = c * interpolate xs values := by
  rw [interpolate, combine, interpolate, combine, List.zip_map_right, List.map_map,
    ← List.sum_map_mul_left]
  refine congrArg List.sum (List.map_congr_left fun pair _ => ?_)
  exact mul_left_comm _ _ _

/-! ## Coefficients of indices -/

section Indices

variable {indices : List UInt16}

theorem nodup_abscissas (hnodup : indices.Nodup) : (indices.map S.abscissa).Nodup :=
  hnodup.map abscissa_injective

theorem zero_notMem_abscissas (hzero : 0 ∉ indices) : 0 ∉ indices.map S.abscissa := by
  intro h
  obtain ⟨index, hindex, habscissa⟩ := List.mem_map.mp h
  exact abscissa_ne_zero (fun h => hzero (h ▸ hindex)) habscissa

theorem coefficients_eq_ok {t : UInt16} (ht : 1 ≤ t.toNat) (hlength : t.toNat ≤ indices.length)
    (hzero : 0 ∉ indices.take t.toNat) (hnodup : (indices.take t.toNat).Nodup) :
    coefficients S.order indices t =
      .ok (((indices.take t.toNat).map S.abscissa).map
        (weight ((indices.take t.toNat).map S.abscissa))) :=
  Interpolation.coefficients_eq_ok ht hlength hzero hnodup (nodup_abscissas hnodup)
    (zero_notMem_abscissas hzero)

end Indices

/-! ## Combinations -/

theorem requireLengths_eq_ok {coefficients shares : Nat} {t : UInt16} (ht : 1 ≤ t.toNat)
    (hcoefficients : t.toNat ≤ coefficients) (hshares : t.toNat ≤ shares) :
    requireLengths coefficients shares t = .ok () := by
  rw [requireLengths, if_neg]
  omega

theorem foldlM_secret {pairs : List (S.Scalar × S.Scalar)} (h : ∀ pair ∈ pairs, pair.2 ≠ 0)
    (start : S.Scalar) :
    pairs.foldlM (fun acc (c, share) =>
        if share = 0 then throw .zeroSecret else return acc + c * share) start =
      (.ok (start + (pairs.map fun pair => pair.1 * pair.2).sum) : Except Error S.Scalar) := by
  induction pairs generalizing start with
  | nil =>
      rw [List.map_nil, List.sum_nil, add_zero]
      rfl
  | cons pair rest ih =>
      obtain ⟨c, share⟩ := pair
      have hshare : share ≠ 0 := h (c, share) List.mem_cons_self
      have hrest := ih (fun p hp => h p (List.mem_cons_of_mem _ hp)) (start + c * share)
      rw [List.foldlM_cons, List.map_cons, List.sum_cons, ← add_assoc]
      simp only [if_neg hshare]
      exact hrest

theorem foldlM_signature {pairs : List (S.Scalar × S.Scalar)}
    (h : ∀ pair ∈ pairs, pair.2 ≠ 0) (start : S.Scalar) :
    (pairs.map fun pair => (pair.1, S.g1.generator * pair.2)).foldlM (fun acc (c, share) => do
        S.g1.requireUsable share
        return acc + share * c) (S.g1.generator * start) =
      Except.ok (S.g1.generator * (start + (pairs.map fun pair => pair.1 * pair.2).sum)) := by
  induction pairs generalizing start with
  | nil =>
      rw [List.map_nil, List.map_nil, List.sum_nil, add_zero]
      rfl
  | cons pair rest ih =>
      have husable := Lawful.g1_cyclic.requireUsable_multiple (h pair List.mem_cons_self)
      have hrest := ih (fun p hp => h p (List.mem_cons_of_mem _ hp)) (start + pair.1 * pair.2)
      rw [mul_comm pair.1, ← Lawful.g1_cyclic.multiple_add, ← Lawful.g1_cyclic.multiple_mul]
        at hrest
      rw [List.map_cons, List.foldlM_cons, List.map_cons, List.sum_cons, ← add_assoc,
        mul_comm pair.1]
      simp only [husable]
      exact hrest

section Combinations

variable {coefficients ks : List S.Scalar} {t : UInt16} (ht : 1 ≤ t.toNat)
  (hcoefficients : coefficients.length = t.toNat) (hks : t.toNat ≤ ks.length)
  (hnonzero : ∀ k ∈ ks, k ≠ 0)

include ht hcoefficients hks hnonzero

theorem recoverSecret_eq_ok :
    S.recoverSecret coefficients ks t =
      .ok (combine coefficients ks, S.g2.generator * combine coefficients ks) := by
  have hlengths := requireLengths_eq_ok ht hcoefficients.ge hks
  have htake : (coefficients.zip ks).take t.toNat = coefficients.zip ks := by
    rw [List.take_of_length_le]
    rw [List.length_zip]
    omega
  have hpairs : ∀ pair ∈ coefficients.zip ks, pair.2 ≠ 0 :=
    fun pair hpair => hnonzero _ (List.of_mem_zip hpair).2
  have hfold := foldlM_secret hpairs 0
  rw [zero_add] at hfold
  simp only [recoverSecret, hlengths, htake]
  exact congrArg (· >>= fun secret => .ok (secret, S.g2.generator * secret)) hfold

theorem recoverSignature_eq_ok :
    S.recoverSignature coefficients (ks.map fun k => S.g1.generator * k) t =
      .ok (S.g1.generator * combine coefficients ks) := by
  have hlengths := requireLengths_eq_ok ht hcoefficients.ge hks
  have htake : (coefficients.zip (ks.map fun k => S.g1.generator * k)).take t.toNat =
      (coefficients.zip ks).map fun pair => (pair.1, S.g1.generator * pair.2) := by
    rw [List.take_of_length_le]
    · rw [List.zip_map_right]
      rfl
    · rw [List.length_zip]
      omega
  have hpairs : ∀ pair ∈ coefficients.zip ks, pair.2 ≠ 0 :=
    fun pair hpair => hnonzero _ (List.of_mem_zip hpair).2
  have hfold := foldlM_signature hpairs 0
  rw [zero_add, Lawful.g1_cyclic.multiple_zero] at hfold
  simp only [recoverSignature, List.length_map, hlengths, htake]
  exact hfold

end Combinations

section Shares

variable {indices : List UInt16} {ks : List S.Scalar} {t : UInt16} (ht : 1 ≤ t.toNat)
  (hindices : t.toNat ≤ indices.length) (hzero : 0 ∉ indices.take t.toNat)
  (hnodup : (indices.take t.toNat).Nodup) (hks : t.toNat ≤ ks.length)
  (hnonzero : ∀ k ∈ ks, k ≠ 0)

include ht hindices hzero hnodup hks hnonzero

theorem recoverSecret_of_indices :
    ∃ coefficients, Interpolation.coefficients S.order indices t = .ok coefficients ∧
      S.recoverSecret coefficients ks t =
        .ok (interpolate ((indices.take t.toNat).map S.abscissa) ks,
          S.g2.generator * interpolate ((indices.take t.toNat).map S.abscissa) ks) := by
  refine ⟨_, coefficients_eq_ok ht hindices hzero hnodup, ?_⟩
  refine recoverSecret_eq_ok ht ?_ hks hnonzero
  rw [List.length_map, List.length_map, List.length_take_of_le hindices]

theorem recoverSignature_of_indices :
    ∃ coefficients, Interpolation.coefficients S.order indices t = .ok coefficients ∧
      S.recoverSignature coefficients (ks.map fun k => S.g1.generator * k) t =
        .ok (S.g1.generator * interpolate ((indices.take t.toNat).map S.abscissa) ks) := by
  refine ⟨_, coefficients_eq_ok ht hindices hzero hnodup, ?_⟩
  refine recoverSignature_eq_ok ht ?_ hks hnonzero
  rw [List.length_map, List.length_map, List.length_take_of_le hindices]

end Shares

theorem recoverSignature_of_length_eq {indices : List UInt16} {ks : List S.Scalar} {t : UInt16}
    (ht : 1 ≤ t.toNat) (hindices : indices.length = t.toNat) (hzero : 0 ∉ indices)
    (hnodup : indices.Nodup) (hks : t.toNat ≤ ks.length) (hnonzero : ∀ k ∈ ks, k ≠ 0) :
    ∃ coefficients, Interpolation.coefficients S.order indices t = .ok coefficients ∧
      S.recoverSignature coefficients (ks.map fun k => S.g1.generator * k) t =
        .ok (S.g1.generator * interpolate (indices.map S.abscissa) ks) := by
  have htake : indices.take t.toNat = indices := List.take_of_length_le hindices.le
  have hrecover := recoverSignature_of_indices (S := S) ht hindices.ge (by rwa [htake])
    (by rwa [htake]) hks hnonzero
  rwa [htake] at hrecover

end ThresholdBls.Suite

namespace ThresholdBls

variable {S : Suite} [S.Lawful]

def PrivateKeyShare.ofValue (F : S.Scalar[X]) (params : Params) (index : UInt16) :
    PrivateKeyShare S :=
  ⟨⟨F.eval (S.abscissa index)⟩, index, params⟩

omit [S.Lawful] in
theorem PrivateKeyShare.forM_requireSame {params : Params} {shares : List (PrivateKeyShare S)}
    (hparams : ∀ share ∈ shares, share.params = params) :
    shares.forM (fun share => params.requireSame share.params) = Except.ok ⟨⟩ :=
  forM_eq_ok fun share hshare => Params.requireSame_eq_ok_iff.mpr (hparams share hshare).symm

theorem PrivateKey.ofShares_eq_create {params : Params} {shares : List (PrivateKeyShare S)}
    (hparams : ∀ share ∈ shares, share.params = params)
    (hzero : 0 ∉ (shares.take params.t.toNat).map (·.index))
    (hnodup : ((shares.take params.t.toNat).map (·.index)).Nodup)
    (hcount : params.t.toNat ≤ shares.length)
    (hnonzero : ∀ share ∈ shares, share.key.scalar ≠ 0) :
    PrivateKey.ofShares shares =
      PrivateKey.create (Suite.interpolate
        (((shares.take params.t.toNat).map (·.index)).map S.abscissa)
        ((shares.take params.t.toNat).map (·.key.scalar))) := by
  have htake : (shares.take params.t.toNat).map (·.index) =
      (shares.map (·.index)).take params.t.toNat := List.map_take
  have htake_scalars : (shares.take params.t.toNat).map (·.key.scalar) =
      (shares.map (·.key.scalar)).take params.t.toNat := List.map_take
  have hlength : ((shares.map (·.index)).take params.t.toNat).length = params.t.toNat := by
    rw [List.length_take_of_le (by rwa [List.length_map])]
  have hscalars : ∀ k ∈ shares.map (·.key.scalar), k ≠ 0 := by
    intro k hk
    obtain ⟨share, hshare, rfl⟩ := List.mem_map.mp hk
    exact hnonzero share hshare
  rw [htake] at hzero hnodup
  obtain ⟨coefficients, hcoefficients, hrecover⟩ := Suite.recoverSecret_of_indices
    params.one_le_t (by rwa [List.length_map]) hzero hnodup (by rwa [List.length_map]) hscalars
  have hsame := PrivateKeyShare.forM_requireSame hparams
  rw [htake, htake_scalars, Suite.interpolate_take (by rw [List.length_map, hlength])]
  cases shares with
  | nil => exact absurd (params.one_le_t.trans hcount) (by simp)
  | cons first rest =>
      have hfirst := hparams first List.mem_cons_self
      simp only [ofShares, hfirst, hsame, hcoefficients]
      change (S.recoverSecret coefficients _ params.t >>= fun pair => create pair.1) = _
      rw [hrecover]
      rfl

omit [S.Lawful] in
theorem PrivateKey.ofShares_of_few {params : Params} {shares : List (PrivateKeyShare S)}
    (hparams : ∀ share ∈ shares, share.params = params) (hne : shares ≠ [])
    (hfew : shares.length < params.t.toNat) :
    ofShares shares = .error (.tooFewShares params.t.toNat shares.length) := by
  have hsame := PrivateKeyShare.forM_requireSame hparams
  have hcoefficients : Interpolation.coefficients S.order (shares.map (·.index)) params.t =
      .error (.tooFewShares params.t.toNat shares.length) := by
    simp only [Interpolation.coefficients, List.length_map, hfew, or_true, if_true]
    rfl
  cases shares with
  | nil => exact absurd rfl hne
  | cons first rest =>
      have hfirst := hparams first List.mem_cons_self
      simp only [ofShares, hfirst, hsame, hcoefficients]
      rfl

/-- Shares of a polynomial combine to its value at zero, in whatever order they come. -/
theorem PrivateKey.ofShares_ofValue {F : S.Scalar[X]} {params : Params} {indices : List UInt16}
    (hdegree : F.degree < params.t.toNat) (hnodup : indices.Nodup) (hzero : 0 ∉ indices)
    (hlength : params.t.toNat ≤ indices.length)
    (hvalues : ∀ i ∈ indices, F.eval (S.abscissa i) ≠ 0) :
    PrivateKey.ofShares (indices.map (PrivateKeyShare.ofValue F params)) =
      PrivateKey.create (F.eval 0) := by
  have htake := List.take_sublist params.t.toNat indices
  have hindices : ((indices.map (PrivateKeyShare.ofValue F params)).take params.t.toNat).map
      (·.index) = indices.take params.t.toNat := by
    rw [← List.map_take, List.map_map]
    exact List.map_id _
  have hscalars : ((indices.map (PrivateKeyShare.ofValue F params)).take params.t.toNat).map
      (·.key.scalar) = ((indices.take params.t.toNat).map S.abscissa).map fun x => F.eval x := by
    rw [← List.map_take, List.map_map, List.map_map]
    rfl
  have hzero_take : 0 ∉ indices.take params.t.toNat := fun h => hzero (htake.mem h)
  have heval := Suite.interpolate_eval (Suite.nodup_abscissas (hnodup.sublist htake))
    (Suite.zero_notMem_abscissas hzero_take) (F := F)
    (by rwa [List.length_map, List.length_take_of_le hlength])
  rw [ofShares_eq_create, hindices, hscalars, heval]
  · intro share hshare
    obtain ⟨i, -, rfl⟩ := List.mem_map.mp hshare
    rfl
  · rwa [hindices]
  · rw [hindices]
    exact hnodup.sublist htake
  · rwa [List.length_map]
  · intro share hshare
    obtain ⟨i, hi, rfl⟩ := List.mem_map.mp hshare
    exact hvalues i hi

end ThresholdBls
