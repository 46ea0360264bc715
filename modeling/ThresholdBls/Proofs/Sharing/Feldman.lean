import ThresholdBls.Proofs.Except
import ThresholdBls.Proofs.Suite.Lawful
import ThresholdBls.Sharing.Participant

/-!
# The polynomial behind a commitment

The elements of an accepted commitment are multiples of the generator, by the
coefficients of one polynomial.  A commitment evaluates in the group as this
polynomial does on scalars, and the accepted value is its value.
-/

open scoped Polynomial

namespace ThresholdBls

/-- The polynomial of given coefficients, constant term first. -/
noncomputable def committed {K : Type} [Field K] : List K → K[X]
  | [] => 0
  | k :: ks => Polynomial.C k + Polynomial.X * committed ks

section Committed

variable {K : Type} [Field K]

theorem eval_committed_cons (k : K) (ks : List K) (x : K) :
    (committed (k :: ks)).eval x = k + x * (committed ks).eval x := by
  rw [committed, Polynomial.eval_add, Polynomial.eval_C, Polynomial.eval_mul, Polynomial.eval_X]

theorem degree_committed_lt (ks : List K) : (committed ks).degree < ks.length := by
  induction ks with
  | nil =>
      rw [committed, Polynomial.degree_zero]
      exact WithBot.bot_lt_coe 0
  | cons k ks ih =>
      rw [Polynomial.degree_lt_iff_coeff_zero] at ih ⊢
      intro m hm
      rw [List.length_cons] at hm
      obtain ⟨j, rfl⟩ : ∃ j, m = j + 1 := ⟨m - 1, by omega⟩
      rw [committed, Polynomial.coeff_add, Polynomial.coeff_C_succ, Polynomial.coeff_X_mul,
        ih j (by omega), add_zero]

end Committed

variable {S : Suite} [S.Lawful]

theorem Polynomial.foldr_eq_eval (coefficients : List S.Scalar) (x : S.Scalar) :
    coefficients.foldr (fun c acc => acc * x + c) 0 = (committed coefficients).eval x := by
  induction coefficients with
  | nil => rw [committed, Polynomial.eval_zero, List.foldr_nil]
  | cons c rest ih => rw [List.foldr_cons, ih, eval_committed_cons, mul_comm, add_comm]

theorem Polynomial.value_eq_ok_iff {coefficients : List S.Scalar} {leading x y : S.Scalar}
    (hlast : coefficients.getLast? = some leading) (hleading : leading ≠ 0) :
    value coefficients x = .ok y ↔ (committed coefficients).eval x = y := by
  simp only [value, hlast, if_neg hleading, foldr_eq_eval, Except.ok.injEq]

namespace Commitment

def ofScalars (S : Suite) (ks : List S.Scalar) : Commitment S :=
  ⟨ks.map fun k => S.g2.generator * k⟩

theorem foldl_evaluate (i : S.Scalar) (ks : List S.Scalar) (power sum : S.Scalar) :
    ((ks.map fun k => S.g2.generator * k).foldl
        (fun ((power, sum) : S.Scalar × S.g2.Element) (element : S.g2.Element) =>
          (i * power, sum + element * power))
        (power, S.g2.generator * sum)).2 =
      S.g2.generator * (sum + power * (committed ks).eval i) := by
  induction ks generalizing power sum with
  | nil => simp [committed]
  | cons k ks ih =>
      rw [List.map_cons, List.foldl_cons]
      dsimp only
      rw [Suite.Lawful.g2_cyclic.multiple_mul, Suite.Lawful.g2_cyclic.multiple_add, ih,
        eval_committed_cons]
      congr 1
      ring

theorem evaluate_ofScalars (ks : List S.Scalar) (index : UInt16) :
    (ofScalars S ks).evaluate index =
      S.g2.generator * (committed ks).eval (S.abscissa index) := by
  have hfold := foldl_evaluate (S.abscissa index) ks 1 0
  rw [Suite.Lawful.g2_cyclic.multiple_zero, zero_add, one_mul] at hfold
  exact hfold

theorem exists_ofScalars {commitment : Commitment S}
    (h : ∀ element ∈ commitment.elements, S.g2.contains element = true) :
    ∃ ks, commitment = ofScalars S ks := by
  obtain ⟨ks, hks⟩ := Suite.Lawful.g2_cyclic.exists_multiples h
  refine ⟨ks, ?_⟩
  cases commitment
  exact congrArg Commitment.mk hks

theorem contains_ofScalars (ks : List S.Scalar) :
    ∀ element ∈ (ofScalars S ks).elements, S.g2.contains element = true := by
  intro element helement
  obtain ⟨k, -, rfl⟩ := List.mem_map.mp helement
  exact Suite.Lawful.g2_cyclic.contains_multiple k

theorem constant_ofScalars {ks : List S.Scalar} (h : ks ≠ []) :
    (ofScalars S ks).constant = .ok (S.g2.generator * (committed ks).eval 0) := by
  cases ks with
  | nil => exact absurd rfl h
  | cons k ks =>
      rw [eval_committed_cons, zero_mul, add_zero]
      rfl

omit [S.Lawful] in
theorem accepts_eq_true_iff {commitment : Commitment S} {index : UInt16} {share : S.Scalar} :
    commitment.accepts index share = true ↔
      index ≠ 0 ∧ (∀ element ∈ commitment.elements, S.g2.contains element = true) ∧
        commitment.evaluate index = S.g2.generator * share := by
  simp [accepts, and_assoc]

theorem accepts_ofScalars_iff {ks : List S.Scalar} {index : UInt16} {share : S.Scalar} :
    (ofScalars S ks).accepts index share = true ↔
      index ≠ 0 ∧ (committed ks).eval (S.abscissa index) = share := by
  rw [accepts_eq_true_iff, evaluate_ofScalars, Suite.Lawful.g2_cyclic.multiple_inj]
  constructor
  · rintro ⟨hindex, -, hvalue⟩
    exact ⟨hindex, hvalue⟩
  · rintro ⟨hindex, hvalue⟩
    exact ⟨hindex, contains_ofScalars ks, hvalue⟩

end Commitment

/-! ## Accepted values -/

omit [S.Lawful] in
theorem Participant.checkValue_eq_ok_true_iff {participant : Participant S} {index : UInt16}
    {value : S.Scalar} {commitment : Commitment S} :
    participant.checkValue index value commitment = .ok true ↔
      value ≠ 0 ∧ commitment.elements.length = participant.params.t.toNat ∧
        commitment.accepts index value = true := by
  unfold checkValue
  by_cases hvalue : value = 0
  · simp [hvalue]
  by_cases hlength : commitment.elements.length = participant.params.t.toNat
  · simp [hvalue, hlength]
  · simp [hvalue, hlength]

theorem Participant.checkValue_ofScalars_iff {participant : Participant S} {index : UInt16}
    {value : S.Scalar} {ks : List S.Scalar} :
    participant.checkValue index value (.ofScalars S ks) = .ok true ↔
      value ≠ 0 ∧ ks.length = participant.params.t.toNat ∧ index ≠ 0 ∧
        (committed ks).eval (S.abscissa index) = value := by
  have hlength : (Commitment.ofScalars S ks).elements.length = ks.length := List.length_map _
  rw [checkValue_eq_ok_true_iff, Commitment.accepts_ofScalars_iff, hlength]

end ThresholdBls
