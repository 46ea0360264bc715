import ThresholdBls.Proofs.Sharing.CommittedValue
import ThresholdBls.Proofs.Validity.Values

/-!
# The held polynomial

A participant samples a polynomial and may be given others in its place.  It
takes only those with as many coefficients as the threshold asks for, so that it
can always commit to the one it holds.  Unless the leading coefficient is zero
it can deal as well, and every recipient accepts its value or finds it zero.
-/

namespace ThresholdBls

/-! ## Sampled polynomials -/

namespace Polynomial

def leading {r : Nat} (f : Polynomial r) : Residue r :=
  f.coefficients.getLast f.ne_nil

theorem getLast?_coefficients {r : Nat} (f : Polynomial r) :
    f.coefficients.getLast? = some f.leading :=
  List.getLast?_eq_getLast_of_ne_nil f.ne_nil

variable {S : Suite} {params : Params} {samples : List S.Scalar}

theorem ofSamples_eq_ok_iff {f : Polynomial S.order} :
    ofSamples params.t samples = .ok f ↔
      ∃ leading, (samples.drop (params.t.toNat - 1)).find? (· ≠ 0) = some leading ∧
        f.coefficients = samples.take (params.t.toNat - 1) ++ [leading] := by
  cases hfind : (samples.drop (params.t.toNat - 1)).find? (· ≠ 0) with
  | none =>
      have hend : ofSamples params.t samples = .error .emptyInput ∨
          ofSamples params.t samples = .error .thresholdOutOfRange := by
        simp only [ofSamples, hfind]
        split
        · exact .inr rfl
        · exact .inl rfl
      rcases hend with hend | hend <;> simp [hend]
  | some leading =>
      rw [ofSamples_eq_ok hfind]
      constructor
      · rintro ⟨⟩
        exact ⟨leading, rfl, rfl⟩
      · rintro ⟨_, ⟨⟩, hcoefficients⟩
        obtain ⟨coefficients, hne⟩ := f
        cases hcoefficients
        rfl

theorem exists_ofSamples_iff :
    (∃ f, ofSamples params.t samples = .ok f) ↔
      ∃ sample ∈ samples.drop (params.t.toNat - 1), sample ≠ 0 := by
  constructor
  · rintro ⟨f, hf⟩
    obtain ⟨leading, hfind, -⟩ := ofSamples_eq_ok_iff.mp hf
    exact ⟨leading, List.mem_of_find?_eq_some hfind, by simpa using List.find?_some hfind⟩
  · rintro ⟨sample, hmem, hne⟩
    cases hfind : (samples.drop (params.t.toNat - 1)).find? (· ≠ 0) with
    | none => exact absurd hne (by simpa using List.find?_eq_none.mp hfind sample hmem)
    | some leading => exact ⟨_, ofSamples_eq_ok hfind⟩

theorem length_of_ofSamples {f : Polynomial S.order} (h : ofSamples params.t samples = .ok f) :
    f.length = params.t.toNat := by
  obtain ⟨leading, hfind, hcoefficients⟩ := ofSamples_eq_ok_iff.mp h
  have hpos := params.one_le_t
  have hlt : params.t.toNat - 1 < samples.length := by
    have hdrop := List.length_pos_of_mem (List.mem_of_find?_eq_some hfind)
    rw [List.length_drop] at hdrop
    omega
  rw [length, hcoefficients, List.length_append, List.length_take, List.length_singleton]
  omega

end Polynomial

variable {S : Suite}

namespace Participant

/-! ## Replacing the polynomial -/

def overwrite (f : Polynomial S.order) : ExceptT Error (StateM (Participant S)) Unit :=
  modify fun participant => { participant with polynomial := f }

/-- The replacement in its steps: the old coefficients are erased after the new ones have passed
the check. -/
def replace (f : Polynomial S.order) : ExceptT Error (StateM (Participant S)) Unit := do
  let participant ← get
  let t := participant.params.t.toNat
  if f.length ≠ t then throw (.lengthMismatch f.length t)
  overwrite participant.polynomial.erase
  overwrite f

def call (participant : Participant S) (f : Polynomial S.order) :
    Except Error Unit × Participant S :=
  (replace f).run participant

def run (participant : Participant S) :
    List (Polynomial S.order) → List (Except Error Unit) × Participant S
  | [] => ([], participant)
  | f :: rest =>
      let (answers, final) := run (participant.call f).2 rest
      ((participant.call f).1 :: answers, final)

theorem call_eq (participant : Participant S) (f : Polynomial S.order) :
    participant.call f =
      if f.length = participant.params.t.toNat then
        (.ok (), { participant with polynomial := f })
      else (.error (.lengthMismatch f.length participant.params.t.toNat), participant) := by
  -- Once the state is read, the remaining steps are in the branches of the check.
  have hread : participant.call f = ExceptT.run (m := StateM (Participant S))
      (if f.length ≠ participant.params.t.toNat then _ else _) participant := rfl
  rw [hread]
  by_cases h : f.length = participant.params.t.toNat
  · rw [if_pos h, if_neg (not_not.mpr h)]
    rfl
  · rw [if_neg h, if_pos h]
    rfl

/-- The steps come to adopting the polynomial, or to nothing. -/
theorem call_eq_adopt (participant : Participant S) (f : Polynomial S.order) :
    participant.call f =
      match participant.adopt f with
      | .ok next => (.ok (), next)
      | .error error => (.error error, participant) := by
  rw [call_eq]
  by_cases h : f.length = participant.params.t.toNat
  · simp [adopt, h]
  · simp [adopt, h]

theorem call_of_rejected {participant : Participant S} {f : Polynomial S.order} {error : Error}
    (h : participant.adopt f = .error error) : participant.call f = (.error error, participant) := by
  rw [call_eq_adopt, h]

structure Fits (params : Params) (participant : Participant S) : Prop where
  params_eq : participant.params = params
  length_eq : participant.polynomial.length = params.t.toNat

variable {params : Params} {participant : Participant S}

theorem Fits.call (h : participant.Fits params) (f : Polynomial S.order) :
    (participant.call f).2.Fits params := by
  rw [call_eq]
  split
  · rename_i hlength
    exact ⟨h.params_eq, hlength.trans (congrArg (·.t.toNat) h.params_eq)⟩
  · exact h

theorem Fits.run (h : participant.Fits params) (calls : List (Polynomial S.order)) :
    (participant.run calls).2.Fits params := by
  induction calls generalizing participant with
  | nil => exact h
  | cons f rest ih => exact ih (h.call f)

theorem Fits.run_answers (h : participant.Fits params) (calls : List (Polynomial S.order)) :
    (participant.run calls).1 = calls.map fun f =>
      if f.length = params.t.toNat then .ok ()
      else .error (.lengthMismatch f.length params.t.toNat) := by
  induction calls generalizing participant with
  | nil => rfl
  | cons f rest ih =>
      have hfirst : (participant.call f).1 = if f.length = params.t.toNat then .ok ()
          else .error (.lengthMismatch f.length params.t.toNat) := by
        rw [call_eq, h.params_eq]
        split
        · rfl
        · rfl
      rw [List.map_cons, ← hfirst, ← ih (h.call f)]
      rfl

/-- The last polynomial of the right length is held, or the first of all if there is none. -/
theorem Fits.run_polynomial (h : participant.Fits params) (calls : List (Polynomial S.order)) :
    (participant.run calls).2.polynomial =
      (calls.filter fun f => f.length = params.t.toNat).getLastD participant.polynomial := by
  induction calls generalizing participant with
  | nil => rfl
  | cons f rest ih =>
      refine (ih (h.call f)).trans ?_
      rw [call_eq, h.params_eq]
      by_cases hlength : f.length = params.t.toNat
      · rw [if_pos hlength, List.filter_cons_of_pos (by simpa using hlength), List.getLastD_cons]
      · rw [if_neg hlength, List.filter_cons_of_neg (by simpa using hlength)]

theorem exists_ofSamples_iff {samples : List S.Scalar} :
    (∃ participant : Participant S, ofSamples params samples = .ok participant) ↔
      ∃ sample ∈ samples.drop (params.t.toNat - 1), sample ≠ 0 := by
  rw [← Polynomial.exists_ofSamples_iff]
  constructor
  · rintro ⟨participant, h⟩
    obtain ⟨f, hf, -⟩ := bind_eq_ok_iff.mp h
    exact ⟨f, hf⟩
  · rintro ⟨f, hf⟩
    exact ⟨_, bind_eq_ok_iff.mpr ⟨f, hf, rfl⟩⟩

theorem fits_of_ofSamples {samples : List S.Scalar}
    (h : ofSamples params samples = .ok participant) : participant.Fits params := by
  obtain ⟨f, hf, hparticipant⟩ := bind_eq_ok_iff.mp h
  cases hparticipant
  exact ⟨rfl, Polynomial.length_of_ofSamples hf⟩

end Participant

/-! ## Dealing -/

theorem Params.getElem?_participants {params : Params} {index : UInt16}
    (h : params.InRange index) : params.participants[index.toNat - 1]? = some index := by
  obtain ⟨hpos, hle⟩ := h
  rw [participants, List.getElem?_map, List.getElem?_range (by omega), Option.map_some,
    Nat.sub_add_cancel hpos, UInt16.ofNat_toNat]

theorem Polynomial.contributions_of_leading_eq_zero {f : Polynomial S.order} (params : Params)
    (h : f.leading = 0) : f.contributions params.n = .error .zeroLeadingCoefficient := by
  have hvalue : ∀ x, f.evaluate x = .error .zeroLeadingCoefficient := by
    intro x
    simp only [evaluate, value, getLast?_coefficients, if_pos h]
  have hn : 0 < params.n.toNat := lt_of_lt_of_le params.one_le_t params.t_le_n
  exact mapM_eq_error (fun i _ => .inr (hvalue _)) ⟨0, List.mem_range.mpr hn, hvalue _⟩

namespace Participant

/-- What a participant can publish and deal: a commitment of `t` elements of the group, and `n`
values that the other participants accept, unless the leading coefficient is zero. -/
structure AbleToDeal (params : Params) (participant : Participant S) : Prop where
  length_eq : participant.polynomial.length = params.t.toNat
  commitment_length : participant.commitment.elements.length = params.t.toNat
  commitment_contains :
    ∀ element ∈ participant.commitment.elements, S.g2.contains element = true
  dealt : participant.polynomial.leading ≠ 0 →
    ∃ values, participant.dealtValues = .ok values ∧ values.length = params.n.toNat ∧
      ∀ index, params.InRange index → ∃ value, values[index.toNat - 1]? = some value ∧
        ∀ other : Participant S, other.params = params →
          other.checkValue index value participant.commitment =
            if value = 0 then .error .zeroSecret else .ok true
  undealt : participant.polynomial.leading = 0 →
    participant.dealtValues = .error .zeroLeadingCoefficient

variable [S.Lawful] {params : Params} {participant : Participant S}

theorem checkValue_ofPolynomial {f : Polynomial S.order} {index : UInt16} (value : S.Scalar)
    (hlength : f.length = participant.params.t.toNat) (hindex : index ≠ 0) :
    participant.checkValue index value (.ofPolynomial f) =
      if value = 0 then .error .zeroSecret
      else .ok (decide (value = (committed f.coefficients).eval (S.abscissa index))) := by
  have hcommitment : (Commitment.ofPolynomial f : Commitment S).elements.length =
      participant.params.t.toNat := (List.length_map _).trans hlength
  have haccepts : (Commitment.ofPolynomial f : Commitment S).accepts index value =
      decide (value = (committed f.coefficients).eval (S.abscissa index)) := by
    rw [Bool.eq_iff_iff, decide_eq_true_iff, eq_comm (a := value)]
    exact Commitment.accepts_ofScalars_iff.trans (and_iff_right hindex)
  simp only [checkValue, hcommitment, haccepts, ne_eq, not_true, if_false]

theorem Fits.ableToDeal (h : participant.Fits params) : participant.AbleToDeal params where
  length_eq := h.length_eq
  commitment_length := (List.length_map _).trans h.length_eq
  commitment_contains := Commitment.contains_ofScalars participant.polynomial.coefficients
  dealt hleading := by
    have hvalues := Polynomial.contributions_eq_ok
      (Polynomial.getLast?_coefficients participant.polynomial) hleading params
    rw [← h.params_eq] at hvalues
    refine ⟨_, hvalues, by simp [Params.participants, h.params_eq], fun index hindex => ?_⟩
    refine ⟨(committed participant.polynomial.coefficients).eval (S.abscissa index), ?_, ?_⟩
    · rw [h.params_eq, List.getElem?_map, Params.getElem?_participants hindex, Option.map_some]
    · rintro other rfl
      rw [commitment, checkValue_ofPolynomial _ h.length_eq hindex.ne_zero, decide_eq_true rfl]
  undealt hleading := by
    rw [dealtValues, h.params_eq]
    exact Polynomial.contributions_of_leading_eq_zero params hleading

end Participant

/-! ## The suite BN254 -/

namespace Bn254

/-- A participant can start if one of its samples can be the leading coefficient.  Whatever
polynomials it is then given, it holds the last one of the right length and can publish and deal
it.  A polynomial that is rejected changes nothing. -/
theorem participant_stays_able (params : Params) (samples : List suite.Scalar) :
    ((∃ start : Participant suite, Participant.ofSamples params samples = .ok start) ↔
      ∃ sample ∈ samples.drop (params.t.toNat - 1), sample ≠ 0) ∧
    ∀ start : Participant suite, Participant.ofSamples params samples = .ok start →
      ∀ calls : List (Polynomial suite.order),
        ((start.run calls).1 = calls.map fun f =>
          if f.length = params.t.toNat then .ok ()
          else .error (.lengthMismatch f.length params.t.toNat)) ∧
        (start.run calls).2.polynomial =
          (calls.filter fun f => f.length = params.t.toNat).getLastD start.polynomial ∧
        (start.run calls).2.AbleToDeal params ∧
        ∀ (f : Polynomial suite.order) (error : Error), (start.run calls).2.adopt f = .error error →
          (start.run calls).2.call f = (.error error, (start.run calls).2) := by
  refine ⟨Participant.exists_ofSamples_iff, fun start hstart calls => ?_⟩
  have hfits := Participant.fits_of_ofSamples hstart
  exact ⟨hfits.run_answers calls, hfits.run_polynomial calls, (hfits.run calls).ableToDeal,
    fun f error => Participant.call_of_rejected⟩

def onePlusX : Participant suite := ⟨.twoOfThree, ⟨[1, 1], List.cons_ne_nil _ _⟩⟩

def oneMinusX : Participant suite := ⟨.twoOfThree, ⟨[1, -1], List.cons_ne_nil _ _⟩⟩

theorem participant_stays_able_oneMinusX :
    Participant.ofSamples .twoOfThree [1, 0, 1] = .ok onePlusX ∧
      onePlusX.run [oneMinusX.polynomial, ⟨[1], List.cons_ne_nil _ _⟩] =
        ([.ok (), .error (.lengthMismatch 1 2)], oneMinusX) ∧
      oneMinusX.dealtValues = .ok [0, -1, -.ofNat order 2] ∧
      onePlusX.checkValue 1 0 oneMinusX.commitment = .error .zeroSecret ∧
      onePlusX.checkValue 2 (-1) oneMinusX.commitment = .ok true := by
  have hstart : Participant.ofSamples .twoOfThree [1, 0, 1] = .ok onePlusX := by
    decide +kernel
  have hrun : onePlusX.run [oneMinusX.polynomial, ⟨[1], List.cons_ne_nil _ _⟩] =
      ([.ok (), .error (.lengthMismatch 1 2)], oneMinusX) := by
    decide +kernel
  have hvalues : oneMinusX.dealtValues = .ok [0, -1, -.ofNat order 2] := by
    decide +kernel
  have hleading : oneMinusX.polynomial.leading ≠ 0 := by
    decide +kernel
  obtain ⟨-, -, hable, -⟩ := (participant_stays_able .twoOfThree [1, 0, 1]).2 onePlusX hstart
    [oneMinusX.polynomial, ⟨[1], List.cons_ne_nil _ _⟩]
  rw [hrun] at hable
  obtain ⟨values, hdealt, -, hchecks⟩ := hable.dealt hleading
  cases hvalues.symm.trans hdealt
  obtain ⟨_, ⟨⟩, hfirst⟩ := hchecks 1 (by decide)
  obtain ⟨_, ⟨⟩, hsecond⟩ := hchecks 2 (by decide)
  refine ⟨hstart, hrun, hvalues, (hfirst onePlusX rfl).trans (if_pos rfl), ?_⟩
  exact (hsecond onePlusX rfl).trans (if_neg (by decide +kernel))

end Bn254

end ThresholdBls
