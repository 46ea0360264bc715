import ThresholdBls.Proofs.Bn254.Groups
import ThresholdBls.Proofs.Sharing.Feldman

/-!
# What too few shares tell

Shares of one participant less than the threshold are explained, for each
secret, by one polynomial.  Its leading coefficient is zero for a single
secret, the value at zero of the polynomial that the shares alone determine.
As the leading coefficient of a sharing is not zero, the shares exclude this
secret and no other.
-/

open scoped Polynomial

namespace ThresholdBls

/-! ## Polynomials and their coefficients -/

section Coefficients

variable {K : Type} [Field K]

theorem coeff_committed (ks : List K) (j : Nat) : (committed ks).coeff j = ks.getD j 0 := by
  induction ks generalizing j with
  | nil => simp [committed]
  | cons k ks ih =>
      cases j with
      | zero => simp [committed]
      | succ j => simp [committed, Polynomial.coeff_C_succ, ih]

theorem eq_of_committed_eq {ks ls : List K} (hlength : ks.length = ls.length)
    (h : committed ks = committed ls) : ks = ls := by
  refine List.ext_getElem hlength fun j hj hj' => ?_
  have hcoeff := congrArg (fun F : K[X] => F.coeff j) h
  simpa [coeff_committed, hj, hj'] using hcoeff

theorem exists_committed {F : K[X]} {n : Nat} (hdegree : F.degree < n) :
    ∃ ks : List K, ks.length = n ∧ committed ks = F := by
  refine ⟨(List.range n).map F.coeff, by simp, ?_⟩
  ext j
  rw [coeff_committed]
  by_cases hj : j < n
  · simp [hj]
  · have hzero := Polynomial.degree_lt_iff_coeff_zero F n |>.mp hdegree j (not_lt.mp hj)
    simp [hj, hzero]

theorem leading_committed {ks : List K} {n : Nat} (hlength : ks.length = n + 1) :
    ks.getLast? = some ((committed ks).coeff n) := by
  rw [coeff_committed, List.getLast?_eq_getElem?, hlength]
  simp [hlength]

theorem head?_committed {ks : List K} (hne : ks ≠ []) :
    ks.head? = some ((committed ks).eval 0) := by
  cases ks with
  | nil => exact absurd rfl hne
  | cons k ks => simp [committed]

end Coefficients

variable {S : Suite} [S.Lawful]

/-- The coefficients of a sharing of a secret, by a threshold that is one more than the number of
the indices, which gives each of the indices its value. -/
structure Explains (indices : List UInt16) (value : UInt16 → S.Scalar) (secret : S.Scalar)
    (coefficients : List S.Scalar) : Prop where
  length_eq : coefficients.length = indices.length + 1
  leading_ne_zero : ∃ leading, coefficients.getLast? = some leading ∧ leading ≠ 0
  constant_eq : coefficients.head? = some secret
  value_eq : ∀ i ∈ indices, Polynomial.value coefficients (S.abscissa i) = .ok (value i)

section Explanations

variable (indices : List UInt16) (value : UInt16 → S.Scalar)

noncomputable def lowPolynomial : S.Scalar[X] :=
  Lagrange.interpolate indices.toFinset S.abscissa value

/-- The polynomial of least degree through the values at the indices and the secret at zero. -/
noncomputable def explanation (secret : S.Scalar) : S.Scalar[X] :=
  Lagrange.interpolate (insert 0 indices.toFinset) S.abscissa (Function.update value 0 secret)

variable {indices value} (hnodup : indices.Nodup) (hzero : 0 ∉ indices)

include hnodup in
theorem eq_lowPolynomial_iff {F : S.Scalar[X]} :
    F = lowPolynomial indices value ↔
      F.degree < indices.length ∧ ∀ i ∈ indices, F.eval (S.abscissa i) = value i := by
  rw [lowPolynomial, ← Lagrange.eq_interpolate_iff _ Suite.abscissa_injective.injOn,
    List.toFinset_card_of_nodup hnodup]
  simp only [List.mem_toFinset]

variable (value) in
include hnodup in
theorem lowPolynomial_spec : (lowPolynomial indices value).degree < indices.length ∧
    ∀ i ∈ indices, (lowPolynomial indices value).eval (S.abscissa i) = value i :=
  (eq_lowPolynomial_iff hnodup).mp rfl

include hnodup hzero

theorem eq_explanation_iff {F : S.Scalar[X]} {secret : S.Scalar} :
    F = explanation indices value secret ↔
      F.degree < (indices.length + 1 : Nat) ∧ F.eval 0 = secret ∧
        ∀ i ∈ indices, F.eval (S.abscissa i) = value i := by
  have hcard : (insert 0 indices.toFinset).card = indices.length + 1 := by
    rw [Finset.card_insert_of_notMem (by simpa using hzero), List.toFinset_card_of_nodup hnodup]
  have habscissa : S.abscissa 0 = 0 := rfl
  have hvalue : ∀ i ∈ indices, Function.update value 0 secret i = value i := by
    intro i hi
    exact Function.update_of_ne (ne_of_mem_of_not_mem hi hzero) _ _
  rw [explanation, ← Lagrange.eq_interpolate_iff _ Suite.abscissa_injective.injOn, hcard,
    Finset.forall_mem_insert, habscissa, Function.update_self]
  simp only [List.mem_toFinset]
  exact and_congr_right fun _ => and_congr_right fun _ =>
    forall₂_congr fun i hi => by rw [hvalue i hi]

theorem explanation_spec (secret : S.Scalar) :
    (explanation indices value secret).degree < (indices.length + 1 : Nat) ∧
      (explanation indices value secret).eval 0 = secret ∧
      ∀ i ∈ indices, (explanation indices value secret).eval (S.abscissa i) = value i :=
  (eq_explanation_iff hnodup hzero).mp rfl

theorem explains_iff {secret : S.Scalar} {coefficients : List S.Scalar} :
    Explains indices value secret coefficients ↔
      coefficients.length = indices.length + 1 ∧
        committed coefficients = explanation indices value secret ∧
        (explanation indices value secret).coeff indices.length ≠ 0 := by
  constructor
  · rintro ⟨hlength, ⟨leading, hlast, hleading⟩, hconstant, hvalues⟩
    have hdegree := degree_committed_lt coefficients
    rw [head?_committed (by rintro rfl; cases hlength), Option.some.injEq] at hconstant
    simp only [Polynomial.value_eq_ok_iff hlast hleading] at hvalues
    have hexplanation := (eq_explanation_iff hnodup hzero).mpr
      ⟨hlength ▸ hdegree, hconstant, hvalues⟩
    rw [leading_committed hlength, Option.some.injEq] at hlast
    rw [← hexplanation, hlast]
    exact ⟨hlength, rfl, hleading⟩
  · rintro ⟨hlength, hexplanation, hleading⟩
    obtain ⟨-, hconstant, hvalues⟩ := (eq_explanation_iff hnodup hzero).mp hexplanation
    have hlast := leading_committed hlength
    rw [hexplanation] at hlast
    refine ⟨hlength, ⟨_, hlast, hleading⟩, ?_, fun i hi => ?_⟩
    · rw [head?_committed (by rintro rfl; cases hlength), hconstant]
    · exact (Polynomial.value_eq_ok_iff hlast hleading).mpr (hvalues i hi)

/-- The leading coefficient vanishes where the shares alone lead to the secret. -/
theorem coeff_explanation_eq_zero_iff {secret : S.Scalar} :
    (explanation indices value secret).coeff indices.length = 0 ↔
      secret = (lowPolynomial indices value).eval 0 := by
  obtain ⟨hdegree, hconstant, hvalues⟩ := explanation_spec hnodup hzero secret
  constructor
  · intro hcoeff
    -- Without a leading coefficient, the explanation has the least degree.
    have hlow : (explanation indices value secret).degree < indices.length := by
      rw [Polynomial.degree_lt_iff_coeff_zero] at hdegree ⊢
      intro m hm
      rcases hm.eq_or_lt with rfl | hlt
      · exact hcoeff
      · exact hdegree m hlt
    rw [← (eq_lowPolynomial_iff hnodup).mpr ⟨hlow, hvalues⟩, hconstant]
  · rintro rfl
    obtain ⟨hlow, hvalues⟩ := lowPolynomial_spec value hnodup
    have hlow' : (lowPolynomial indices value).degree < (indices.length + 1 : Nat) :=
      hlow.trans (Nat.cast_lt.mpr (Nat.lt_succ_self _))
    rw [← (eq_explanation_iff hnodup hzero).mpr ⟨hlow', rfl, hvalues⟩]
    exact Polynomial.coeff_eq_zero_of_degree_lt hlow

theorem explains_unique {secret : S.Scalar}
    (hsecret : secret ≠ (lowPolynomial indices value).eval 0) :
    ∃! coefficients, Explains indices value secret coefficients := by
  obtain ⟨hdegree, -, -⟩ := explanation_spec hnodup hzero secret
  obtain ⟨coefficients, hlength, hcommitted⟩ := exists_committed hdegree
  have hleading := mt (coeff_explanation_eq_zero_iff hnodup hzero).mp hsecret
  refine ⟨coefficients, (explains_iff hnodup hzero).mpr ⟨hlength, hcommitted, hleading⟩, ?_⟩
  intro other hother
  obtain ⟨hother_length, hother_committed, -⟩ := (explains_iff hnodup hzero).mp hother
  exact eq_of_committed_eq (hother_length.trans hlength.symm)
    (hother_committed.trans hcommitted.symm)

end Explanations

/-- Shares of one participant less than the threshold exclude one secret, and are explained in one
way by any other. -/
theorem excludes_one_secret {indices : List UInt16} (hnodup : indices.Nodup) (hzero : 0 ∉ indices)
    (value : UInt16 → S.Scalar) :
    ∃! excluded : S.Scalar,
      (∀ secret, secret ≠ excluded →
        ∃! coefficients, Explains indices value secret coefficients) ∧
      ¬ ∃ coefficients, Explains indices value excluded coefficients := by
  refine ⟨(lowPolynomial indices value).eval 0, ⟨?_, ?_⟩, ?_⟩
  · exact fun secret hsecret => explains_unique hnodup hzero hsecret
  · rintro ⟨coefficients, hexplains⟩
    obtain ⟨-, -, hleading⟩ := (explains_iff hnodup hzero).mp hexplains
    exact hleading ((coeff_explanation_eq_zero_iff hnodup hzero).mpr rfl)
  · rintro other ⟨-, hexcluded⟩
    by_contra hother
    exact hexcluded (explains_unique hnodup hzero hother).exists

theorem excludes_one_secret_line :
    ∃! excluded : Bn254.suite.Scalar,
      (∀ secret, secret ≠ excluded → ∃! coefficients,
        Explains [1, 5] (fun i => Bn254.suite.abscissa i + 1) secret coefficients) ∧
      ¬ ∃ coefficients,
        Explains [1, 5] (fun i => Bn254.suite.abscissa i + 1) excluded coefficients :=
  excludes_one_secret (by decide) (by decide) _

end ThresholdBls
