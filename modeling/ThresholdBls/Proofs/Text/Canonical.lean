import ThresholdBls.Proofs.Validity.Values
import ThresholdBls.Proofs.WrittenForm

/-!
# Canonical texts

A private key, a public key and a hint have one accepted spelling each.  A
parser accepts a text if and only if it is the text of a valid value, and gives
that value.
-/

namespace ThresholdBls

/-- The texts that a parser accepts are those of a grammar.  What is read is written as the text
it was read from, and valid values are read back from their texts. -/
structure CanonicalText {α : Type} (parse : String → Except Error α)
    (render : α → Except GroupError String) (Valid : α → Prop) (IsText : String → Prop) :
    Prop where
  accepts_iff (s : String) : (∃ a, parse s = .ok a) ↔ IsText s
  render_eq {s : String} {a : α} : parse s = .ok a → render a = .ok s
  parse_eq {a : α} : Valid a → ∃ s, render a = .ok s ∧ parse s = .ok a

/-! ## Private keys -/

namespace PrivateKey

variable {S : Suite}

theorem create_eq_ok_iff {scalar : S.Scalar} {key : PrivateKey S} :
    create scalar = .ok key ↔ key.Valid ∧ key.scalar = scalar := by
  unfold create Valid
  split
  · rename_i hzero
    simp [hzero]
  · rename_i hne
    constructor
    · rintro ⟨⟩
      exact ⟨hne, rfl⟩
    · rintro ⟨-, rfl⟩
      rfl

theorem parse_eq_ok_iff {s : String} {key : PrivateKey S} :
    parse s = .ok key ↔ key.Valid ∧ key.render = s := by
  rw [parse, guard_eq_ok_iff, guard_eq_ok_iff, bind_eq_ok_iff]
  constructor
  · rintro ⟨-, -, scalar, hscalar, hcreate⟩
    obtain ⟨hvalid, rfl⟩ := create_eq_ok_iff.mp hcreate
    exact ⟨hvalid, Residue.ofDecimal_eq_ok_iff.mp (mapError_eq_ok_iff.mp hscalar)⟩
  · rintro ⟨hvalid, rfl⟩
    have hdigits : Decimal.isDigits key.render = true := Decimal.isDigits_render _
    exact ⟨Decimal.render_ne_empty _, by simp [hdigits], key.scalar,
      mapError_eq_ok_iff.mpr (Residue.ofDecimal_toDecimal _), create_eq_ok_iff.mpr ⟨hvalid, rfl⟩⟩

end PrivateKey

/-! ## Hints -/

namespace Hint

variable {q : Nat}

theorem ofParts_eq_ok_iff {y shift : String} {hint : Hint q} :
    ofParts y shift = .ok hint ↔
      hint.y.toDecimal = y ∧ Decimal.render hint.shift.toNat = shift := by
  constructor
  · intro h
    unfold ofParts at h
    obtain ⟨-, h⟩ := guard_eq_ok_iff.mp h
    obtain ⟨-, h⟩ := guard_eq_ok_iff.mp h
    obtain ⟨hcanonical, h⟩ := guard_eq_ok_iff.mp h
    obtain ⟨ordinate, hordinate, h⟩ := bind_eq_ok_iff.mp h
    obtain ⟨hfits, h⟩ := guard_eq_ok_iff.mp h
    cases h
    refine ⟨Residue.ofDecimal_eq_ok_iff.mp (mapError_eq_ok_iff.mp hordinate), ?_⟩
    have hshift : (UInt64.ofNat (Decimal.value shift)).toNat = Decimal.value shift :=
      UInt64.toNat_ofNat_of_lt (not_le.mp hfits)
    rw [hshift]
    exact Decimal.render_value (by simpa using hcanonical)
  · rintro ⟨rfl, rfl⟩
    exact ofParts_render hint

theorem parse_eq_ok_iff {s : String} {hint : Hint q} : parse s = .ok hint ↔ hint.render = s := by
  constructor
  · intro h
    unfold parse at h
    split at h
    · cases h
    · split at h
      · rename_i y shift hsplit
        obtain ⟨rfl, rfl⟩ := ofParts_eq_ok_iff.mp h
        exact (Segments.splitFirst?_eq_some_iff.mp hsplit).2
      · cases h
  · rintro rfl
    have hrender : hint.render =
        Segments.join ([hint.y.val, hint.shift.toNat].map Decimal.render) := rfl
    have hne : hint.render ≠ "" := by
      rw [hrender]
      exact Segments.join_numerals_ne_empty (List.cons_ne_nil _ _)
    have hsplit : Segments.splitFirst? hint.render =
        some (hint.y.toDecimal, Decimal.render hint.shift.toNat) :=
      Segments.splitFirst?_eq_some_iff.mpr ⟨Decimal.colon_notMem_render _, rfl⟩
    rw [parse, if_neg hne, hsplit]
    exact ofParts_render hint

end Hint

/-! ## Coordinates -/

theorem PairingGroup.requireUsable_eq_ok_iff_usable {order : Nat} {G : PairingGroup order}
    {a : G.Element} : G.requireUsable a = .ok () ↔ G.Usable a := by
  constructor
  · exact usable_of_requireUsable
  · rintro ⟨hidentity, hcontains⟩
    rw [requireUsable, if_neg hidentity, if_pos hcontains]

/-- Coordinates are numerals.  Those of the elements of the group, except the identity, are
accepted, and no others. -/
structure PairingGroup.CanonicalCoordinates {order : Nat} (G : PairingGroup order) : Prop where
  width_pos : 0 < G.width
  ofCoordinates_eq_ok_iff {coordinates : List String} {a : G.Element} :
    G.ofCoordinates coordinates = .ok a ↔
      G.contains a = true ∧ G.toCoordinates a = .ok coordinates
  exists_numerals {a : G.Element} (ha : a ≠ G.identity) :
    ∃ ns : List Nat, ns.length = G.width ∧ G.toCoordinates a = .ok (ns.map Decimal.render)
  toCoordinates_identity : ∃ error, G.toCoordinates G.identity = .error error

namespace PairingGroup.CanonicalCoordinates

variable {order : Nat} {G : PairingGroup order} (hG : G.CanonicalCoordinates)

include hG

theorem numerals_of_toCoordinates {a : G.Element} {coordinates : List String}
    (h : G.toCoordinates a = .ok coordinates) :
    a ≠ G.identity ∧
      ∃ ns : List Nat, ns.length = G.width ∧ coordinates = ns.map Decimal.render := by
  have hidentity : a ≠ G.identity := by
    rintro rfl
    obtain ⟨error, herror⟩ := hG.toCoordinates_identity
    rw [herror] at h
    cases h
  obtain ⟨ns, hlength, hcoordinates⟩ := hG.exists_numerals hidentity
  rw [hcoordinates, Except.ok.injEq] at h
  exact ⟨hidentity, ns, hlength, h.symm⟩

theorem render_eq_ok_iff {a : G.Element} {s : String} :
    G.render a = .ok s ↔ G.toCoordinates a = .ok (Segments.split s) := by
  rw [render, bind_eq_ok_iff]
  constructor
  · rintro ⟨coordinates, hcoordinates, hs⟩
    obtain ⟨-, ns, hlength, rfl⟩ := hG.numerals_of_toCoordinates hcoordinates
    have hne : ns ≠ [] := List.ne_nil_of_length_pos (hlength ▸ hG.width_pos)
    rw [← pure_eq_ok_iff.mp hs, Segments.split_numerals hne, hcoordinates]
  · intro hcoordinates
    exact ⟨_, hcoordinates, pure_eq_ok_iff.mpr (Segments.join_split s)⟩

theorem exists_render {a : G.Element} (ha : a ≠ G.identity) : ∃ s, G.render a = .ok s := by
  obtain ⟨ns, -, hcoordinates⟩ := hG.exists_numerals ha
  exact ⟨_, bind_eq_ok_iff.mpr ⟨_, hcoordinates, rfl⟩⟩

theorem eq_of_render_eq_ok {a a' : G.Element} {s : String} (ha : G.contains a = true)
    (ha' : G.contains a' = true) (h : G.render a = .ok s) (h' : G.render a' = .ok s) :
    a = a' := by
  have hread := hG.ofCoordinates_eq_ok_iff.mpr ⟨ha, hG.render_eq_ok_iff.mp h⟩
  have hread' := hG.ofCoordinates_eq_ok_iff.mpr ⟨ha', hG.render_eq_ok_iff.mp h'⟩
  exact Except.ok.inj (hread.symm.trans hread')

end PairingGroup.CanonicalCoordinates

/-! ## Public keys -/

namespace PublicKey

variable {S : Suite}

theorem create_eq_ok_iff {element : S.g2.Element} {key : PublicKey S} :
    create element = .ok key ↔ key.Valid ∧ key.element = element := by
  rw [create, bind_eq_ok_iff]
  constructor
  · rintro ⟨⟨⟩, husable, hkey⟩
    cases hkey
    exact ⟨PairingGroup.usable_of_requireUsable husable, rfl⟩
  · rintro ⟨hvalid, rfl⟩
    exact ⟨(), PairingGroup.requireUsable_eq_ok_iff_usable.mpr hvalid, rfl⟩

theorem ofCoordinates_eq_parse_join {coordinates : List String} (hne : coordinates ≠ [])
    (hcolon : ∀ part ∈ coordinates, ':' ∉ part.toList) (hlone : coordinates ≠ [""]) :
    (ofCoordinates coordinates : Except Error (PublicKey S)) =
      parse (Segments.join coordinates) := by
  rw [parse, if_neg (Segments.join_ne_empty hne hcolon hlone), Segments.split_join hne hcolon]

variable (hS : S.g2.CanonicalCoordinates)

include hS

theorem ofCoordinates_eq_ok_iff {coordinates : List String} {key : PublicKey S} :
    ofCoordinates coordinates = .ok key ↔
      key.Valid ∧ S.g2.toCoordinates key.element = .ok coordinates := by
  rw [ofCoordinates, guard_eq_ok_iff, guard_eq_ok_iff, bind_eq_ok_iff]
  constructor
  · rintro ⟨-, -, element, helement, hcreate⟩
    obtain ⟨hvalid, rfl⟩ := create_eq_ok_iff.mp hcreate
    exact ⟨hvalid, (hS.ofCoordinates_eq_ok_iff.mp (mapError_eq_ok_iff.mp helement)).2⟩
  · rintro ⟨hvalid, hcoordinates⟩
    obtain ⟨-, ns, hlength, rfl⟩ := hS.numerals_of_toCoordinates hcoordinates
    refine ⟨by simpa using hlength, by simp [Decimal.isDigits_render], key.element, ?_,
      create_eq_ok_iff.mpr ⟨hvalid, rfl⟩⟩
    exact mapError_eq_ok_iff.mpr (hS.ofCoordinates_eq_ok_iff.mpr ⟨hvalid.2, hcoordinates⟩)

theorem parse_eq_ok_iff {s : String} {key : PublicKey S} :
    parse s = .ok key ↔ key.Valid ∧ key.render = .ok s := by
  rw [render, hS.render_eq_ok_iff, ← ofCoordinates_eq_ok_iff hS, parse]
  split
  · rename_i hempty
    -- A lone empty part is no numeral.
    refine ⟨nofun, fun h => ?_⟩
    obtain ⟨-, hcoordinates⟩ := (ofCoordinates_eq_ok_iff hS).mp h
    obtain ⟨-, ns, hlength, hns⟩ := hS.numerals_of_toCoordinates hcoordinates
    have hne : ns ≠ [] := List.ne_nil_of_length_pos (hlength ▸ hS.width_pos)
    have htext := (Segments.eq_join_of_split_eq hns).trans hempty
    exact absurd htext (Segments.join_numerals_ne_empty hne)
  · rfl

theorem exists_render {key : PublicKey S} (h : key.Valid) : ∃ s, key.render = .ok s :=
  hS.exists_render h.1

end PublicKey

/-! ## The suite BN254 -/

namespace Bn254

theorem NumeralCoordinates.canonicalCoordinates {F : Type} [Field F] [DecidableEq F]
    {G : PairingGroup order} {affine : F → F → G.Element} {b : F} {parts : F → List Fq}
    (hG : NumeralCoordinates G affine b parts) (hwidth : 0 < G.width) :
    G.CanonicalCoordinates where
  width_pos := hwidth
  ofCoordinates_eq_ok_iff := hG.ofCoordinates_eq_ok_iff
  exists_numerals ha := by
    obtain ⟨x, y, rfl⟩ := hG.exists_affine ha
    refine ⟨(parts x ++ parts y).map Residue.val, ?_, ?_⟩
    · rw [List.length_map, hG.length_parts]
    · rw [hG.toCoordinates_affine, List.map_map]
      rfl
  toCoordinates_identity := ⟨_, hG.toCoordinates_identity⟩

theorem g1_canonicalCoordinates : g1.CanonicalCoordinates :=
  g1_numeralCoordinates.canonicalCoordinates (by decide)

theorem g2_canonicalCoordinates : g2.CanonicalCoordinates :=
  g2_numeralCoordinates.canonicalCoordinates (by decide)

def IsPrivateKeyText (s : String) : Prop :=
  ∃ k : Nat, 1 ≤ k ∧ k < order ∧ s = Decimal.render k

def IsPublicKeyText (s : String) : Prop :=
  ∃ x y : Fq2, g2.contains (.affine x y) = true ∧
    s = Segments.join ([x.c0.val, x.c1.val, y.c0.val, y.c1.val].map Decimal.render)

def IsHintText (s : String) : Prop :=
  ∃ y shift : Nat, y < fieldSize ∧ shift < 2 ^ 64 ∧
    s = Segments.join ([y, shift].map Decimal.render)

theorem exists_privateKey_iff (s : String) :
    (∃ key : PrivateKey suite, PrivateKey.parse s = .ok key) ↔ IsPrivateKeyText s := by
  simp only [PrivateKey.parse_eq_ok_iff]
  constructor
  · rintro ⟨⟨scalar⟩, hvalid, rfl⟩
    have hne : scalar.val ≠ 0 := by
      intro hzero
      exact hvalid (Residue.ext (hzero.trans Residue.val_zero.symm))
    exact ⟨scalar.val, Nat.one_le_iff_ne_zero.mpr hne, scalar.val_lt, rfl⟩
  · rintro ⟨k, hpos, hlt, rfl⟩
    refine ⟨⟨⟨k, hlt⟩⟩, fun hzero => ?_, rfl⟩
    have hval : k = (0 : Fr).val := congrArg Residue.val hzero
    rw [Residue.val_zero] at hval
    omega

theorem exists_publicKey_iff (s : String) :
    (∃ key : PublicKey suite, PublicKey.parse s = .ok key) ↔ IsPublicKeyText s := by
  simp only [PublicKey.parse_eq_ok_iff (S := suite) g2_canonicalCoordinates]
  constructor
  · rintro ⟨⟨element⟩, hvalid, hrender⟩
    cases element with
    | infinity => exact absurd rfl hvalid.1
    | affine x y =>
        cases hrender
        exact ⟨x, y, hvalid.2, rfl⟩
  · rintro ⟨x, y, hcontains, rfl⟩
    exact ⟨⟨.affine x y⟩, ⟨nofun, hcontains⟩, rfl⟩

theorem exists_hint_iff (s : String) :
    (∃ hint : Hint fieldSize, Hint.parse s = .ok hint) ↔ IsHintText s := by
  simp only [Hint.parse_eq_ok_iff]
  constructor
  · rintro ⟨hint, rfl⟩
    exact ⟨hint.y.val, hint.shift.toNat, hint.y.val_lt, hint.shift.toNat_lt, rfl⟩
  · rintro ⟨y, shift, hy, hshift, rfl⟩
    refine ⟨⟨⟨y, hy⟩, UInt64.ofNat shift⟩, ?_⟩
    have hvalue : (UInt64.ofNat shift).toNat = shift := UInt64.toNat_ofNat_of_lt hshift
    rw [Hint.render, hvalue]
    rfl

/-- Private keys, public keys and hints have one spelling each, and a public key may as well be
given by the parts of its text. -/
theorem key_and_hint_texts_canonical :
    CanonicalText (α := PrivateKey suite) PrivateKey.parse (fun key => .ok key.render)
      PrivateKey.Valid IsPrivateKeyText ∧
    CanonicalText (α := PublicKey suite) PublicKey.parse PublicKey.render PublicKey.Valid
      IsPublicKeyText ∧
    CanonicalText (α := Hint fieldSize) Hint.parse (fun hint => .ok hint.render)
      (fun _ => True) IsHintText ∧
    ∀ coordinates : List String, coordinates ≠ [] → coordinates ≠ [""] →
      (∀ part ∈ coordinates, ':' ∉ part.toList) →
      (PublicKey.ofCoordinates coordinates : Except Error (PublicKey suite)) =
        PublicKey.parse (Segments.join coordinates) := by
  refine ⟨⟨exists_privateKey_iff, ?_, ?_⟩, ⟨exists_publicKey_iff, ?_, ?_⟩,
    ⟨exists_hint_iff, ?_, ?_⟩, ?_⟩
  · intro s key hparse
    exact congrArg Except.ok (PrivateKey.parse_eq_ok_iff.mp hparse).2
  · intro key hvalid
    exact ⟨key.render, rfl, PrivateKey.parse_eq_ok_iff.mpr ⟨hvalid, rfl⟩⟩
  · intro s key hparse
    exact ((PublicKey.parse_eq_ok_iff g2_canonicalCoordinates).mp hparse).2
  · intro key hvalid
    obtain ⟨s, hs⟩ := PublicKey.exists_render g2_canonicalCoordinates hvalid
    exact ⟨s, hs, (PublicKey.parse_eq_ok_iff g2_canonicalCoordinates).mpr ⟨hvalid, hs⟩⟩
  · intro s hint hparse
    exact congrArg Except.ok (Hint.parse_eq_ok_iff.mp hparse)
  · intro hint _
    exact ⟨hint.render, rfl, Hint.parse_eq_ok_iff.mpr rfl⟩
  · intro coordinates hne hlone hcolon
    exact PublicKey.ofCoordinates_eq_parse_join hne hcolon hlone

def generatorCoordinates : List String :=
  ["10857046999023057135944570762232829481370756359578518086990519993285655852781",
    "11559732032986387107991004021392285783925812861821192530917403151452391805634",
    "8495653923123431417604973247489272438418190587263600148770280649306958101930",
    "4082367875863433681332203403145435568316851327593401208105741076214120093531"]

theorem key_and_hint_texts_canonical_generator :
    PublicKey.ofCoordinates generatorCoordinates = .ok (⟨g2Generator⟩ : PublicKey suite) ∧
      PublicKey.parse (Segments.join generatorCoordinates) =
        .ok (⟨g2Generator⟩ : PublicKey suite) := by
  have hcontains : g2.contains g2Generator = true :=
    (g2_isCyclic.contains_iff g2Generator).mpr ⟨1, g2_isCyclic.multiple_one⟩
  have hcoordinates : g2.toCoordinates g2Generator = .ok generatorCoordinates := by
    decide +kernel
  have hread : PublicKey.ofCoordinates generatorCoordinates =
      .ok (⟨g2Generator⟩ : PublicKey suite) :=
    (PublicKey.ofCoordinates_eq_ok_iff g2_canonicalCoordinates).mpr
      ⟨⟨nofun, hcontains⟩, hcoordinates⟩
  have hjoined := key_and_hint_texts_canonical.2.2.2 generatorCoordinates (by decide) (by decide)
    (by decide +kernel)
  exact ⟨hread, hjoined.symm.trans hread⟩

end Bn254

end ThresholdBls
