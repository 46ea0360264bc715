import ThresholdBls.Proofs.Sharing.Dealing

/-!
# The committed value

A commitment of any length, of whatever elements, accepts at most one value for
an index: that of the polynomial whose coefficients its elements are multiples
of the generator by.  Elements outside the group leave no value to accept, and
another element in the place of one leaves another value.
-/

open scoped Polynomial

namespace ThresholdBls

/-! ## Values as sums of powers -/

section Powers

variable {K : Type} [Field K]

theorem eval_committed_eq_sum (ks : List K) (x : K) :
    (committed ks).eval x = ∑ j : Fin ks.length, ks[j] * x ^ (j : Nat) := by
  induction ks with
  | nil => simp [committed]
  | cons k ks ih =>
      rw [eval_committed_cons, ih, Finset.mul_sum]
      symm
      calc ∑ j : Fin (k :: ks).length, (k :: ks)[j] * x ^ (j : Nat)
          = k * x ^ 0 + ∑ j : Fin ks.length, ks[j] * x ^ ((j : Nat) + 1) :=
            Fin.sum_univ_succ _
        _ = k + ∑ j : Fin ks.length, x * (ks[j] * x ^ (j : Nat)) := by
            rw [pow_zero, mul_one]
            refine congrArg (k + ·) (Finset.sum_congr rfl fun j _ => ?_)
            ring

theorem eval_committed_set {ks : List K} {j : Nat} (hj : j < ks.length) (k x : K) :
    (committed (ks.set j k)).eval x = (committed ks).eval x + (k - ks[j]) * x ^ j := by
  induction ks generalizing j with
  | nil => exact absurd hj (Nat.not_lt_zero j)
  | cons first ks ih =>
      cases j with
      | zero =>
          rw [List.set_cons_zero, eval_committed_cons, eval_committed_cons,
            List.getElem_cons_zero]
          ring
      | succ j =>
          rw [List.set_cons_succ, eval_committed_cons, eval_committed_cons,
            ih (Nat.lt_of_succ_lt_succ hj), List.getElem_cons_succ]
          ring

end Powers

variable {S : Suite} [S.Lawful]

namespace Commitment

variable {index : UInt16} {share : S.Scalar}

theorem accepts_iff_sum {commitment : Commitment S} :
    commitment.accepts index share = true ↔
      index ≠ 0 ∧ (∀ element ∈ commitment.elements, S.g2.contains element = true) ∧
        ∃ ks : List S.Scalar, commitment.elements = ks.map (fun k => S.g2.generator * k) ∧
          share = ∑ j : Fin ks.length, ks[j] * S.abscissa index ^ (j : Nat) := by
  constructor
  · intro h
    obtain ⟨hindex, hcontains, -⟩ := accepts_eq_true_iff.mp h
    obtain ⟨ks, rfl⟩ := exists_ofScalars hcontains
    obtain ⟨-, hvalue⟩ := accepts_ofScalars_iff.mp h
    exact ⟨hindex, hcontains, ks, rfl, hvalue.symm.trans (eval_committed_eq_sum ks _)⟩
  · rintro ⟨hindex, -, ks, helements, hvalue⟩
    have hcommitment : commitment = ofScalars S ks := by
      cases commitment
      exact congrArg Commitment.mk helements
    rw [hcommitment]
    exact accepts_ofScalars_iff.mpr ⟨hindex, (eval_committed_eq_sum ks _).trans hvalue.symm⟩

theorem eq_of_accepts {commitment : Commitment S} {other : S.Scalar}
    (h : commitment.accepts index share = true) (hother : commitment.accepts index other = true) :
    other = share := by
  obtain ⟨-, -, hvalue⟩ := accepts_eq_true_iff.mp h
  obtain ⟨-, -, hvalue'⟩ := accepts_eq_true_iff.mp hother
  exact Suite.Lawful.g2_cyclic.multiple_inj.mp (hvalue'.symm.trans hvalue)

theorem accepts_set_eq_false {commitment : Commitment S} {j : Nat}
    {element replaced : S.g2.Element} (h : commitment.accepts index share = true)
    (hj : commitment.elements[j]? = some replaced) (hne : element ≠ replaced) :
    (⟨commitment.elements.set j element⟩ : Commitment S).accepts index share = false := by
  rw [Bool.eq_false_iff]
  intro hset
  obtain ⟨hindex, hcontains, -⟩ := accepts_eq_true_iff.mp h
  obtain ⟨-, hcontains_set, -⟩ := accepts_eq_true_iff.mp hset
  obtain ⟨ks, rfl⟩ := exists_ofScalars hcontains
  obtain ⟨hlt, hreplaced⟩ := List.getElem?_eq_some_iff.mp hj
  obtain ⟨k, rfl⟩ := (Suite.Lawful.g2_cyclic.contains_iff element).mp
    (hcontains_set element (List.mem_set hlt element))
  have hlt' : j < ks.length := by simpa [ofScalars] using hlt
  -- Both commitments are to scalars, and these differ in one coefficient.
  have hscalars : (⟨(ofScalars S ks).elements.set j (S.g2.generator * k)⟩ : Commitment S) =
      ofScalars S (ks.set j k) :=
    congrArg Commitment.mk List.map_set.symm
  have hk : k ≠ ks[j] := by
    rintro rfl
    exact hne (by simpa [ofScalars] using hreplaced)
  rw [hscalars] at hset
  have hvalue := (accepts_ofScalars_iff.mp h).2
  have hvalue' := (accepts_ofScalars_iff.mp hset).2
  rw [eval_committed_set hlt', hvalue, add_eq_left] at hvalue'
  rcases mul_eq_zero.mp hvalue' with hdifference | hpower
  · exact hk (sub_eq_zero.mp hdifference)
  · exact Suite.abscissa_ne_zero hindex (eq_zero_of_pow_eq_zero hpower)

theorem accepts_ofPolynomial {f : Polynomial S.order} (hindex : index ≠ 0) :
    (ofPolynomial f : Commitment S).accepts index
      ((committed f.coefficients).eval (S.abscissa index)) = true :=
  accepts_ofScalars_iff.mpr ⟨hindex, rfl⟩

end Commitment

/-! ## The suite BN254 -/

namespace Bn254

/-- A commitment accepts the value of the polynomial behind it and nothing else.  So the values
that a sender deals are accepted, and none of them is once an element is exchanged. -/
theorem accepts_exactly_committed (index : UInt16) :
    (∀ (commitment : Commitment suite) (share : Fr),
      commitment.accepts index share = true ↔
        index ≠ 0 ∧ (∀ element ∈ commitment.elements, g2.contains element = true) ∧
          ∃ ks : List Fr, commitment.elements = ks.map (fun k => g2.generator * k) ∧
            share = ∑ j : Fin ks.length, ks[j] * (index.toNat : Fr) ^ (j : Nat)) ∧
    (∀ f : Polynomial order, f.coefficients.getLast f.ne_nil ≠ 0 → index ≠ 0 →
      ∃ value, f.evaluate (index.toNat : Fr) = .ok value ∧
        (Commitment.ofPolynomial f : Commitment suite).accepts index value = true) ∧
    (∀ (commitment : Commitment suite) (share other : Fr),
      commitment.accepts index share = true → commitment.accepts index other = true →
        other = share) ∧
    ∀ (commitment : Commitment suite) (share : Fr) (j : Nat) (element replaced : Point Fq2),
      commitment.accepts index share = true → commitment.elements[j]? = some replaced →
        element ≠ replaced →
        (⟨commitment.elements.set j element⟩ : Commitment suite).accepts index share = false := by
  refine ⟨fun commitment share => Commitment.accepts_iff_sum, ?_, ?_, ?_⟩
  · intro f hleading hindex
    have hlast := List.getLast?_eq_getLast_of_ne_nil f.ne_nil
    exact ⟨_, Polynomial.evaluate_eq_ok (S := suite) hlast hleading _,
      Commitment.accepts_ofPolynomial hindex⟩
  · exact fun commitment share other h hother => Commitment.eq_of_accepts h hother
  · exact fun commitment share j element replaced h hj hne =>
      Commitment.accepts_set_eq_false h hj hne

end Bn254

end ThresholdBls
