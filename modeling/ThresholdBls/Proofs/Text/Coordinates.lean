import ThresholdBls.Proofs.Bn254.Groups
import ThresholdBls.Proofs.Text.Numerals

/-!
# Numerals and coordinates

A field element is read from the canonical numeral of a number below the
modulus, and from nothing else.  A point is read from the numerals of its
coordinates, if they satisfy the equation of the curve and the point is in the
group; the two ways to fail have errors of their own.  What is read is written
as it was, and what is written is read back.
-/

namespace ThresholdBls

/-! ## Numerals -/

structure Residue.NumeralCodec (m : Nat) : Prop where
  accepts_iff (s : String) (a : Residue m) :
    ofDecimal s = .ok a ↔ IsNumeral m s ∧ a.val = Decimal.value s
  refuses_iff (s : String) :
    (ofDecimal s : Except FieldError (Residue m)) = .error .malformedScalar ↔ ¬ IsNumeral m s
  toDecimal_eq {s : String} {a : Residue m} : ofDecimal s = .ok a → a.toDecimal = s
  ofDecimal_toDecimal (a : Residue m) : ofDecimal a.toDecimal = .ok a

theorem Residue.numeralCodec (m : Nat) : NumeralCodec m where
  accepts_iff s a := ofDecimal_eq_ok_iff.trans toDecimal_eq_iff
  refuses_iff s := by
    refine ⟨fun herror hnumeral => ?_, ofDecimal_eq_error⟩
    have hread : (ofDecimal s : Except FieldError (Residue m)) = .ok ⟨_, hnumeral.2⟩ :=
      ofDecimal_eq_ok_iff.mpr (toDecimal_eq_iff.mpr ⟨hnumeral, rfl⟩)
    rw [hread] at herror
    cases herror
  toDecimal_eq := ofDecimal_eq_ok_iff.mp
  ofDecimal_toDecimal := ofDecimal_toDecimal

/-! ## Coordinates -/

namespace Bn254

section Codec

variable {F : Type} [Field F]

/-- Numerals of the parts of two elements, those of the abscissa first. -/
def Spells (parts : F → List Fq) (coordinates : List String) (x y : F) : Prop :=
  (∀ s ∈ coordinates, Residue.IsNumeral fieldSize s) ∧
    (parts x ++ parts y).map Residue.val = coordinates.map Decimal.value

/-- What is read from coordinates and what is written, for a group of points of the curve
`y² = x³ + b`.  The points of the group are the multiples of its generator. -/
structure PointCodec (G : PairingGroup order) (affine : F → F → G.Element) (b : F)
    (parts : F → List Fq) : Prop where
  spells_iff (c : List String) :
    (∃ x y, Spells parts c x y) ↔ c.length = G.width ∧ ∀ s ∈ c, Residue.IsNumeral fieldSize s
  accepts_iff (c : List String) (p : G.Element) :
    G.ofCoordinates c = .ok p ↔
      ∃ x y, Spells parts c x y ∧ y ^ 2 = x ^ 3 + b ∧
        (∃ k : Fr, G.generator * k = affine x y) ∧ p = affine x y
  malformed_iff (c : List String) :
    G.ofCoordinates c = .error .malformedElement ↔
      ¬ ∃ x y, Spells parts c x y ∧ y ^ 2 = x ^ 3 + b
  nonPrimeOrder_iff (c : List String) :
    G.ofCoordinates c = .error .nonPrimeOrderElement ↔
      ∃ x y, Spells parts c x y ∧ y ^ 2 = x ^ 3 + b ∧
        ¬ ∃ k : Fr, G.generator * k = affine x y
  toCoordinates_eq {c : List String} {p : G.Element} :
    G.ofCoordinates c = .ok p → p ≠ G.identity ∧ G.toCoordinates p = .ok c
  ofCoordinates_toCoordinates {p : G.Element} :
    G.contains p = true → p ≠ G.identity →
      ∃ c, G.toCoordinates p = .ok c ∧ G.ofCoordinates c = .ok p
  toCoordinates_identity : G.toCoordinates G.identity = .error .identityElement

/-- Coordinates are numerals of the parts of two elements.  Reading them is reading the numerals
and checking the point that they name. -/
structure NumeralCoordinates [DecidableEq F] (G : PairingGroup order)
    (affine : F → F → G.Element) (b : F) (parts : F → List Fq) : Prop where
  length_parts (x y : F) : (parts x ++ parts y).length = G.width
  exists_parts (xs : List Fq) : xs.length = G.width → ∃ x y, parts x ++ parts y = xs
  exists_affine {p : G.Element} : p ≠ G.identity → ∃ x y, p = affine x y
  equation_of_contains {x y : F} : G.contains (affine x y) = true → y ^ 2 = x ^ 3 + b
  toCoordinates_affine (x y : F) :
    G.toCoordinates (affine x y) = .ok ((parts x ++ parts y).map Residue.toDecimal)
  toCoordinates_identity : G.toCoordinates G.identity = .error .identityElement
  ofCoordinates_numerals (x y : F) :
    G.ofCoordinates ((parts x ++ parts y).map Residue.toDecimal) =
      if y ^ 2 = x ^ 3 + b then
        if G.contains (affine x y) then .ok (affine x y) else .error .nonPrimeOrderElement
      else .error .malformedElement
  ofCoordinates_of_not {c : List String} :
    ¬ (c.length = G.width ∧ ∀ s ∈ c, Residue.IsNumeral fieldSize s) →
      G.ofCoordinates c = .error .malformedElement

namespace NumeralCoordinates

variable [DecidableEq F] {G : PairingGroup order} {affine : F → F → G.Element} {b : F}
  {parts : F → List Fq} (hG : NumeralCoordinates G affine b parts) {c : List String} {x y : F}

include hG

theorem exists_spells_iff : (∃ x y, Spells parts c x y) ↔
    c.length = G.width ∧ ∀ s ∈ c, Residue.IsNumeral fieldSize s := by
  constructor
  · rintro ⟨x, y, hnumerals, hvalues⟩
    have hlength := congrArg List.length hvalues
    rw [List.length_map, List.length_map, hG.length_parts] at hlength
    exact ⟨hlength.symm, hnumerals⟩
  · rintro ⟨hlength, hnumerals⟩
    obtain ⟨x, y, hparts⟩ := hG.exists_parts (c.map fun s => (Decimal.value s : Fq))
      ((List.length_map _).trans hlength)
    refine ⟨x, y, hnumerals, ?_⟩
    rw [hparts, List.map_map]
    exact List.map_congr_left fun s hs => Nat.mod_eq_of_lt (hnumerals s hs).2

theorem ofCoordinates_of_spells (h : Spells parts c x y) :
    G.ofCoordinates c =
      if y ^ 2 = x ^ 3 + b then
        if G.contains (affine x y) then .ok (affine x y) else .error .nonPrimeOrderElement
      else .error .malformedElement := by
  rw [← Residue.map_toDecimal_eq_iff.mpr h, hG.ofCoordinates_numerals]

theorem ofCoordinates_of_contains (hspells : Spells parts c x y)
    (hcontains : G.contains (affine x y) = true) : G.ofCoordinates c = .ok (affine x y) := by
  rw [hG.ofCoordinates_of_spells hspells, if_pos (hG.equation_of_contains hcontains),
    if_pos hcontains]

theorem ofCoordinates_of_stray (hspells : Spells parts c x y) (hequation : y ^ 2 = x ^ 3 + b)
    (hstray : ¬ G.contains (affine x y) = true) :
    G.ofCoordinates c = .error .nonPrimeOrderElement := by
  rw [hG.ofCoordinates_of_spells hspells, if_pos hequation, if_neg hstray]

theorem ofCoordinates_of_unnamed (h : ¬ ∃ x y, Spells parts c x y ∧ y ^ 2 = x ^ 3 + b) :
    G.ofCoordinates c = .error .malformedElement := by
  by_cases hspells : ∃ x y, Spells parts c x y
  · obtain ⟨x, y, hspells⟩ := hspells
    rw [hG.ofCoordinates_of_spells hspells, if_neg fun hequation => h ⟨x, y, hspells, hequation⟩]
  · exact hG.ofCoordinates_of_not (mt hG.exists_spells_iff.mpr hspells)

/-- Coordinates name a point of the group, or another point of the curve, or none. -/
theorem ofCoordinates_cases (c : List String) :
    (∃ x y, Spells parts c x y ∧ G.contains (affine x y) = true ∧
        G.ofCoordinates c = .ok (affine x y)) ∨
      (∃ x y, Spells parts c x y ∧ y ^ 2 = x ^ 3 + b ∧ ¬ G.contains (affine x y) = true ∧
        G.ofCoordinates c = .error .nonPrimeOrderElement) ∨
      (¬ ∃ x y, Spells parts c x y ∧ y ^ 2 = x ^ 3 + b) ∧
        G.ofCoordinates c = .error .malformedElement := by
  by_cases hnamed : ∃ x y, Spells parts c x y ∧ y ^ 2 = x ^ 3 + b
  · obtain ⟨x, y, hspells, hequation⟩ := hnamed
    by_cases hcontains : G.contains (affine x y) = true
    · exact .inl ⟨x, y, hspells, hcontains, hG.ofCoordinates_of_contains hspells hcontains⟩
    · exact .inr (.inl ⟨x, y, hspells, hequation, hcontains,
        hG.ofCoordinates_of_stray hspells hequation hcontains⟩)
  · exact .inr (.inr ⟨hnamed, hG.ofCoordinates_of_unnamed hnamed⟩)

theorem exists_of_ofCoordinates {p : G.Element} (h : G.ofCoordinates c = .ok p) :
    ∃ x y, Spells parts c x y ∧ G.contains (affine x y) = true ∧ p = affine x y := by
  rcases hG.ofCoordinates_cases c with
    ⟨x, y, hspells, hcontains, hc⟩ | ⟨x, y, -, -, -, hc⟩ | ⟨-, hc⟩
  · cases hc.symm.trans h
    exact ⟨x, y, hspells, hcontains, rfl⟩
  · cases hc.symm.trans h
  · cases hc.symm.trans h

theorem ne_identity_of_toCoordinates {p : G.Element} (h : G.toCoordinates p = .ok c) :
    p ≠ G.identity := by
  rintro rfl
  cases hG.toCoordinates_identity.symm.trans h

theorem ofCoordinates_eq_ok_iff {p : G.Element} :
    G.ofCoordinates c = .ok p ↔ G.contains p = true ∧ G.toCoordinates p = .ok c := by
  constructor
  · intro h
    obtain ⟨x, y, hspells, hcontains, rfl⟩ := hG.exists_of_ofCoordinates h
    refine ⟨hcontains, ?_⟩
    rw [hG.toCoordinates_affine, Residue.map_toDecimal_eq_iff.mpr hspells]
  · rintro ⟨hcontains, hwritten⟩
    obtain ⟨x, y, rfl⟩ := hG.exists_affine (hG.ne_identity_of_toCoordinates hwritten)
    rw [hG.toCoordinates_affine, Except.ok.injEq] at hwritten
    exact hG.ofCoordinates_of_contains (Residue.map_toDecimal_eq_iff.mp hwritten) hcontains

theorem pointCodec (hcyclic : G.IsCyclic) : PointCodec G affine b parts where
  spells_iff c := hG.exists_spells_iff
  accepts_iff c p := by
    constructor
    · intro h
      obtain ⟨x, y, hspells, hcontains, hp⟩ := hG.exists_of_ofCoordinates h
      exact ⟨x, y, hspells, hG.equation_of_contains hcontains,
        (hcyclic.contains_iff _).mp hcontains, hp⟩
    · rintro ⟨x, y, hspells, -, hmultiple, rfl⟩
      exact hG.ofCoordinates_of_contains hspells ((hcyclic.contains_iff _).mpr hmultiple)
  malformed_iff c := by
    refine ⟨fun h => ?_, hG.ofCoordinates_of_unnamed⟩
    rcases hG.ofCoordinates_cases c with
      ⟨x, y, -, -, hc⟩ | ⟨x, y, -, -, -, hc⟩ | ⟨hunnamed, -⟩
    · cases hc.symm.trans h
    · cases hc.symm.trans h
    · exact hunnamed
  nonPrimeOrder_iff c := by
    constructor
    · intro h
      rcases hG.ofCoordinates_cases c with
        ⟨x, y, -, -, hc⟩ | ⟨x, y, hspells, hequation, hstray, -⟩ | ⟨-, hc⟩
      · cases hc.symm.trans h
      · exact ⟨x, y, hspells, hequation, mt (hcyclic.contains_iff _).mpr hstray⟩
      · cases hc.symm.trans h
    · rintro ⟨x, y, hspells, hequation, hstray⟩
      exact hG.ofCoordinates_of_stray hspells hequation (mt (hcyclic.contains_iff _).mp hstray)
  toCoordinates_eq h := by
    have hwritten := (hG.ofCoordinates_eq_ok_iff.mp h).2
    exact ⟨hG.ne_identity_of_toCoordinates hwritten, hwritten⟩
  ofCoordinates_toCoordinates hcontains hidentity := by
    obtain ⟨x, y, rfl⟩ := hG.exists_affine hidentity
    have hwritten := hG.toCoordinates_affine x y
    exact ⟨_, hwritten, hG.ofCoordinates_eq_ok_iff.mpr ⟨hcontains, hwritten⟩⟩
  toCoordinates_identity := hG.toCoordinates_identity

end NumeralCoordinates

end Codec

/-! ## The two groups -/

section Checked

variable {F : Type} [Field F] [DecidableEq F]

theorem isOnCurve_affine (b x y : F) :
    (Point.affine x y).isOnCurve b = decide (y ^ 2 = x ^ 3 + b) := by
  rw [pow_two, pow_succ, pow_two]
  rfl

theorem equation_of_isOnCurve {b x y : F}
    (h : ((Point.affine x y).isOnCurve b && hasOrder (.affine x y)) = true) :
    y ^ 2 = x ^ 3 + b := by
  rw [Bool.and_eq_true, isOnCurve_affine, decide_eq_true_iff] at h
  exact h.1

theorem checked_eq (b x y : F) :
    checked b x y =
      if y ^ 2 = x ^ 3 + b then
        if (Point.affine x y).isOnCurve b && hasOrder (.affine x y) then .ok (.affine x y)
        else .error .nonPrimeOrderElement
      else .error .malformedElement := by
  unfold checked
  dsimp only
  rw [isOnCurve_affine]
  by_cases h : y ^ 2 = x ^ 3 + b
  · cases horder : hasOrder (.affine x y) <;> simp [h]
  · simp [h]

end Checked

theorem readCoordinate_toDecimal (x : Fq) : readCoordinate x.toDecimal = .ok x := by
  rw [readCoordinate, Residue.ofDecimal_toDecimal]

theorem readCoordinate_bind_eq_error {α : Type} {s : String} {f : Fq → Except GroupError α}
    (h : Residue.IsNumeral fieldSize s → ∀ x, f x = .error .malformedElement) :
    (readCoordinate s >>= f) = .error .malformedElement := by
  by_cases hs : Residue.IsNumeral fieldSize s
  · have hx : (⟨_, hs.2⟩ : Fq).toDecimal = s := Residue.toDecimal_eq_iff.mpr ⟨hs, rfl⟩
    rw [← hx, readCoordinate_toDecimal]
    exact h hs _
  · rw [readCoordinate, Residue.ofDecimal_eq_error hs]
    rfl

theorem g1_numeralCoordinates : NumeralCoordinates g1 Point.affine b fun x => [x] where
  length_parts x y := rfl
  exists_parts xs h := by
    obtain ⟨x, y, rfl⟩ := List.length_eq_two.mp h
    exact ⟨x, y, rfl⟩
  exists_affine {p} h := by
    cases p with
    | infinity => exact absurd rfl h
    | affine x y => exact ⟨x, y, rfl⟩
  equation_of_contains h := equation_of_isOnCurve h
  toCoordinates_affine x y := rfl
  toCoordinates_identity := rfl
  ofCoordinates_numerals x y := by
    change g1OfCoordinates [x.toDecimal, y.toDecimal] = _
    simp only [g1OfCoordinates, readCoordinate_toDecimal]
    exact checked_eq b x y
  ofCoordinates_of_not {c} h := by
    change g1OfCoordinates c = _
    unfold g1OfCoordinates
    split
    · refine readCoordinate_bind_eq_error fun hx _ => ?_
      refine readCoordinate_bind_eq_error fun hy _ => ?_
      exact absurd ⟨rfl, by simp [hx, hy]⟩ h
    · rfl

theorem g2_numeralCoordinates :
    NumeralCoordinates g2 Point.affine twistB fun x => [x.c0, x.c1] where
  length_parts x y := rfl
  exists_parts xs h := by
    match xs, h with
    | [x0, x1, y0, y1], _ => exact ⟨⟨x0, x1⟩, ⟨y0, y1⟩, rfl⟩
  exists_affine {p} h := by
    cases p with
    | infinity => exact absurd rfl h
    | affine x y => exact ⟨x, y, rfl⟩
  equation_of_contains h := equation_of_isOnCurve h
  toCoordinates_affine x y := rfl
  toCoordinates_identity := rfl
  ofCoordinates_numerals x y := by
    change g2OfCoordinates [x.c0.toDecimal, x.c1.toDecimal, y.c0.toDecimal, y.c1.toDecimal] = _
    simp only [g2OfCoordinates, readCoordinate_toDecimal]
    exact checked_eq twistB x y
  ofCoordinates_of_not {c} h := by
    change g2OfCoordinates c = _
    unfold g2OfCoordinates
    split
    · refine readCoordinate_bind_eq_error fun hx0 _ => ?_
      refine readCoordinate_bind_eq_error fun hx1 _ => ?_
      refine readCoordinate_bind_eq_error fun hy0 _ => ?_
      refine readCoordinate_bind_eq_error fun hy1 _ => ?_
      exact absurd ⟨rfl, by simp [hx0, hx1, hy0, hy1]⟩ h
    · rfl

/-- Field elements are read from their canonical numerals alone.  Coordinates are read if they are
numerals, as many as a point of the group has, that satisfy the equation and lead to a point of the
group; without the last they name a point of the wrong order, and without the others no point. -/
theorem numerals_and_coordinates :
    Residue.NumeralCodec order ∧ Residue.NumeralCodec fieldSize ∧
      PointCodec g1 Point.affine b (fun x => [x]) ∧
      PointCodec g2 Point.affine twistB (fun x => [x.c0, x.c1]) :=
  ⟨Residue.numeralCodec order, Residue.numeralCodec fieldSize,
    g1_numeralCoordinates.pointCodec g1_isCyclic, g2_numeralCoordinates.pointCodec g2_isCyclic⟩

/-- The generator is read from its coordinates.  Those of the stray point are refused, though it is
on the curve. -/
theorem numerals_and_coordinates_strayPoint :
    (∃ coordinates, g2.toCoordinates g2Generator = .ok coordinates ∧
        g2.ofCoordinates coordinates = .ok g2Generator) ∧
      ∃ coordinates, g2.toCoordinates strayPoint = .ok coordinates ∧
        g2.ofCoordinates coordinates = .error .nonPrimeOrderElement := by
  obtain ⟨-, -, -, hcodec⟩ := numerals_and_coordinates
  have hgenerator : g2.contains g2Generator = true :=
    (g2_isCyclic.contains_iff g2Generator).mpr ⟨1, g2_isCyclic.multiple_one⟩
  have hstray : ¬ g2.contains strayPoint = true := by
    decide +kernel
  refine ⟨hcodec.ofCoordinates_toCoordinates hgenerator nofun, _, rfl,
    (hcodec.nonPrimeOrder_iff _).mpr ⟨_, _, Residue.map_toDecimal_eq_iff.mp rfl, ?_,
      mt (g2_isCyclic.contains_iff strayPoint).mpr hstray⟩⟩
  decide +kernel

end Bn254

end ThresholdBls
