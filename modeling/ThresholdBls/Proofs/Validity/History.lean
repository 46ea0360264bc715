import ThresholdBls.Proofs.ShareSet.Invariant
import ThresholdBls.Proofs.Validity.Decoding
import ThresholdBls.Proofs.WrittenForm

/-!
# Histories of values

A caller obtains values one after the other, from the functions that make them
and from parts of values that it holds.  The other arguments, among them all
encoded input, are arbitrary.  All values of a history are valid, so that each
of them has a written form.
-/

namespace ThresholdBls

inductive Value (S : Suite)
  | params (params : Params)
  | privateKey (key : PrivateKey S)
  | publicKey (key : PublicKey S)
  | signature (signature : Signature S)
  | privateKeyShare (share : PrivateKeyShare S)
  | publicKeyShare (share : PublicKeyShare S)
  | signatureShare (share : SignatureShare S)
  | package (package : KeyPackage S)
  | shareSet (set : ShareSet S)

variable {S : Suite}

def Value.Valid : Value S → Prop
  | .params p => 1 ≤ p.t.toNat ∧ p.t.toNat ≤ p.n.toNat
  | .privateKey key => key.Valid
  | .publicKey key => key.Valid
  | .signature s => s.Valid
  | .privateKeyShare share => share.Valid
  | .publicKeyShare share => share.Valid
  | .signatureShare share => share.Valid
  | .package p => p.Valid
  | .shareSet set => ∀ entry ∈ set.shares.entries, entry.2.Valid

/-- The written forms of a value or, if it has none of its own, of its parts. -/
def Value.forms : Value S → List (Except GroupError String)
  | .params _ => []
  | .privateKey key => [.ok key.render]
  | .publicKey key => [key.render]
  | .signature s => [s.render]
  | .privateKeyShare share => [.ok share.render]
  | .publicKeyShare share => [share.render]
  | .signatureShare share => [share.render]
  | .package p =>
      p.publicKey.render :: p.publicKeyShares.entries.map fun entry => entry.2.render
  | .shareSet set => set.shares.entries.map fun entry => entry.2.render

/-! ## Ways to obtain values -/

inductive Params.Obtained : Params → Prop
  | created {t n params} : create t n = .ok params → Obtained params
  | read {params} : Wire.params.Reads params → Obtained params

section Obtained

variable (held : List (Value S))

inductive PrivateKey.Obtained : PrivateKey S → Prop
  | created {scalar key} : create scalar = .ok key → Obtained key
  | sampled {samples count key} : key ∈ ofSamples samples count → Obtained key
  | parsed {text key} : parse text = .ok key → Obtained key
  | read {key} : Wire.privateKey.Reads key → Obtained key
  | recovered {shares key} : ofShares shares = .ok key → Obtained key
  | ofShare {share} : .privateKeyShare share ∈ held → Obtained share.key

inductive PublicKey.Obtained : PublicKey S → Prop
  | created {element key} : create element = .ok key → Obtained key
  | ofCoordinates {coordinates key} :
      PublicKey.ofCoordinates coordinates = .ok key → Obtained key
  | parsed {text key} : parse text = .ok key → Obtained key
  | read {key} : Wire.publicKey.Reads key → Obtained key
  | ofPrivateKey {key} : .privateKey key ∈ held → Obtained key.publicKey
  | recovered {shares params key} : ofShares shares params = .ok key → Obtained key
  | ofCommitments {commitments key} :
      PublicKey.ofCommitments commitments = .ok key → Obtained key
  | ofShare {share} : .publicKeyShare share ∈ held → Obtained share.key
  | ofPackage {package} : .package package ∈ held → Obtained package.publicKey

/-- The checked ways are to create and to parse a signature, to sign a digest or a proof of
possession, and to merge shares. -/
inductive Signature.Obtained : Signature S → Prop
  | checked {signature} : Checked signature → Obtained signature
  | read {signature} : Wire.signature.Reads signature → Obtained signature
  | ofShare {share} : .signatureShare share ∈ held → Obtained share.signature

inductive PrivateKeyShare.Obtained : PrivateKeyShare S → Prop
  | created {scalar index params share} :
      create scalar index params = .ok share → Obtained share
  | parsed {text index params share} : parse text index params = .ok share → Obtained share
  | read {share} : Wire.privateKeyShare.Reads share → Obtained share
  | marked {key index params share} : .privateKey key ∈ held →
      ofKey key index params = .ok share → Obtained share
  | dealt {params samples dealing entry} : Dealing.ofSamples params samples = .ok dealing →
      entry ∈ dealing.shares.entries → Obtained entry.2
  | assembled {participant : Participant S} {index values share} :
      participant.assembleShare index values = .ok share → Obtained share

inductive PublicKeyShare.Obtained : PublicKeyShare S → Prop
  | created {element index params share} :
      create element index params = .ok share → Obtained share
  | ofCoordinates {coordinates index params share} :
      PublicKeyShare.ofCoordinates coordinates index params = .ok share → Obtained share
  | parsed {text index params share} : parse text index params = .ok share → Obtained share
  | read {share} : Wire.publicKeyShare.Reads share → Obtained share
  | marked {key index params share} : .publicKey key ∈ held →
      ofKey key index params = .ok share → Obtained share
  | ofPrivateShare {share} : .privateKeyShare share ∈ held → Obtained share.publicKeyShare
  | ofCommitments {index commitments params share} :
      PublicKeyShare.ofCommitments index commitments params = .ok share → Obtained share
  | ofPackage {package entry} : .package package ∈ held →
      entry ∈ package.publicKeyShares.entries → Obtained entry.2

inductive SignatureShare.Obtained : SignatureShare S → Prop
  | created {element hint index params share} :
      create element hint index params = .ok share → Obtained share
  | parsed {text index params share} : parse text index params = .ok share → Obtained share
  | read {share} : Wire.signatureShare.Reads share → Obtained share
  | marked {signature index params share} : .signature signature ∈ held →
      ofSignature signature index params = .ok share → Obtained share
  | signed {holder digest share} :
      PrivateKeyShare.sign holder digest = .ok share → Obtained share
  | ofSet {set index share} : .shareSet set ∈ held →
      ShareSet.get set index = .ok (some share) → Obtained share

inductive KeyPackage.Obtained : KeyPackage S → Prop
  | composed {params shares key} : (∀ entry ∈ shares.entries, .publicKeyShare entry.2 ∈ held) →
      .publicKey key ∈ held → Obtained ⟨params, shares, key⟩
  | read {package} : Wire.publicKeyPackage.Reads package → Obtained package
  | dealt {params samples dealing} : Dealing.ofSamples params samples = .ok dealing →
      Obtained dealing.package

inductive ShareSet.Obtained : ShareSet S → Prop
  | empty {params} : Obtained (.empty params)
  | added {set share larger} : .shareSet set ∈ held → .signatureShare share ∈ held →
      add set share = .ok larger → Obtained larger
  | merged {set signature closed} : .shareSet set ∈ held →
      merge set = .ok (signature, closed) → Obtained closed

inductive Value.Obtained : Value S → Prop
  | params {params} : Params.Obtained params → Obtained (.params params)
  | privateKey {key} : PrivateKey.Obtained held key → Obtained (.privateKey key)
  | publicKey {key} : PublicKey.Obtained held key → Obtained (.publicKey key)
  | signature {signature} : Signature.Obtained held signature → Obtained (.signature signature)
  | privateKeyShare {share} :
      PrivateKeyShare.Obtained held share → Obtained (.privateKeyShare share)
  | publicKeyShare {share} : PublicKeyShare.Obtained held share → Obtained (.publicKeyShare share)
  | signatureShare {share} : SignatureShare.Obtained held share → Obtained (.signatureShare share)
  | package {package} : KeyPackage.Obtained held package → Obtained (.package package)
  | shareSet {set} : ShareSet.Obtained held set → Obtained (.shareSet set)

end Obtained

/-- The values that a caller has obtained so far, the latest first. -/
inductive History : List (Value S) → Prop
  | start : History []
  | step {held value} : History held → Value.Obtained held value → History (value :: held)

/-! ## One step -/

section Step

variable {held : List (Value S)} (hheld : ∀ value ∈ held, value.Valid)

include hheld

theorem PrivateKey.Obtained.valid {key : PrivateKey S} (h : Obtained held key) : key.Valid := by
  cases h with
  | created h => exact valid_of_create h
  | sampled h => exact valid_of_mem_ofSamples h
  | parsed h => exact valid_of_parse h
  | read h => exact h.of_gives Wire.privateKey_gives
  | recovered h => exact valid_of_ofShares h
  | ofShare h => exact PrivateKeyShare.Valid.key (hheld _ h)

theorem PublicKey.Obtained.valid [S.Lawful] {key : PublicKey S} (h : Obtained held key) :
    key.Valid := by
  cases h with
  | created h => exact valid_of_create h
  | ofCoordinates h => exact valid_of_ofCoordinates h
  | parsed h => exact valid_of_parse h
  | read h => exact h.of_gives Wire.publicKey_gives
  | ofPrivateKey h => exact PrivateKey.Valid.publicKey (hheld _ h)
  | recovered h => exact valid_of_ofShares h
  | ofCommitments h => exact valid_of_ofCommitments h
  | ofShare h => exact PublicKeyShare.Valid.key (hheld _ h)
  | ofPackage h => exact KeyPackage.Valid.publicKey (hheld _ h)

theorem Signature.Obtained.valid {signature : Signature S} (h : Obtained held signature) :
    signature.Valid := by
  cases h with
  | checked h => exact h.valid
  | read h => exact h.of_gives Wire.signature_gives
  | ofShare h => exact SignatureShare.Valid.signature (hheld _ h)

theorem PrivateKeyShare.Obtained.valid [S.Lawful] {share : PrivateKeyShare S}
    (h : Obtained held share) : share.Valid := by
  cases h with
  | created h => exact valid_of_create h
  | parsed h => exact valid_of_parse h
  | read h => exact h.of_gives Wire.privateKeyShare_gives
  | marked hkey h => exact valid_of_ofKey (hheld _ hkey) h
  | dealt h hentry => exact (Dealing.valid_of_ofSamples h).1 _ hentry
  | assembled h => exact valid_of_assembleShare h

theorem PublicKeyShare.Obtained.valid [S.Lawful] {share : PublicKeyShare S}
    (h : Obtained held share) : share.Valid := by
  cases h with
  | created h => exact valid_of_create h
  | ofCoordinates h => exact valid_of_ofCoordinates h
  | parsed h => exact valid_of_parse h
  | read h => exact h.of_gives Wire.publicKeyShare_gives
  | marked hkey h => exact valid_of_ofKey (hheld _ hkey) h
  | ofPrivateShare h => exact PrivateKeyShare.Valid.publicKeyShare (hheld _ h)
  | ofCommitments h => exact valid_of_ofCommitments h
  | ofPackage h hentry => exact KeyPackage.Valid.publicKeyShares (hheld _ h) _ hentry

theorem SignatureShare.Obtained.valid {share : SignatureShare S} (h : Obtained held share) :
    share.Valid := by
  cases h with
  | created h => exact (Checked.created h).wellFormed.valid
  | parsed h => exact (Checked.parsed h).wellFormed.valid
  | read h => exact h.of_gives Wire.signatureShare_gives
  | marked hsignature h => exact valid_of_ofSignature (hheld _ hsignature) h
  | signed h => exact (Checked.signed h).wellFormed.valid
  | ofSet hset h =>
      unfold ShareSet.get at h
      split at h
      · cases h
      · rename_i set index hindex
        rw [Except.ok.injEq, IndexMap.get?_eq_some_iff] at h
        exact hheld _ hset _ h

theorem KeyPackage.Obtained.valid [S.Lawful] {package : KeyPackage S}
    (h : Obtained held package) : package.Valid := by
  cases h with
  | composed hshares hkey =>
      exact ⟨hheld _ hkey, fun entry hentry => hheld _ (hshares entry hentry)⟩
  | read h => exact h.of_gives Wire.publicKeyPackage_gives
  | dealt h => exact (Dealing.valid_of_ofSamples h).2

theorem ShareSet.Obtained.valid {set : ShareSet S} (h : Obtained held set) :
    ∀ entry ∈ set.shares.entries, entry.2.Valid := by
  cases h with
  | empty => exact nofun
  | added hset hshare h =>
      obtain ⟨-, -, -, rfl⟩ := add_eq_ok_iff.mp h
      exact IndexMap.forall_insert (hheld _ hset) (hheld _ hshare)
  | merged hset h =>
      obtain ⟨signature, -, h⟩ := bind_eq_ok_iff.mp h
      cases h
      exact hheld _ hset

theorem Value.Obtained.valid [S.Lawful] {value : Value S} (h : Obtained held value) :
    value.Valid := by
  cases h with
  | params => exact ⟨Params.one_le_t _, Params.t_le_n _⟩
  | privateKey h => exact h.valid hheld
  | publicKey h => exact h.valid hheld
  | signature h => exact h.valid hheld
  | privateKeyShare h => exact h.valid hheld
  | publicKeyShare h => exact h.valid hheld
  | signatureShare h => exact h.valid hheld
  | package h => exact h.valid hheld
  | shareSet h => exact h.valid hheld

end Step

theorem History.valid [S.Lawful] {held : List (Value S)} (h : History held) :
    ∀ value ∈ held, value.Valid := by
  induction h with
  | start => exact nofun
  | step _ hvalue ih => exact List.forall_mem_cons.mpr ⟨hvalue.valid ih, ih⟩

/-! ## The suite BN254 -/

open Bn254

theorem PublicKey.Valid.exists_render {key : PublicKey suite} (h : key.Valid) :
    ∃ text, key.render = .ok text := by
  obtain ⟨element⟩ := key
  cases element with
  | infinity => exact absurd rfl h.1
  | affine x y => exact ⟨_, rfl⟩

theorem Signature.Valid.exists_render {signature : Signature suite} (h : signature.Valid) :
    ∃ text, signature.render = .ok text := by
  obtain ⟨element, hint⟩ := signature
  cases element with
  | infinity => exact absurd rfl h.1
  | affine x y => exact ⟨_, rfl⟩

theorem Value.Valid.exists_forms {value : Value suite} (h : value.Valid) :
    ∀ form ∈ value.forms, ∃ text, form = .ok text := by
  cases value with
  | params => exact nofun
  | privateKey | privateKeyShare => exact List.forall_mem_singleton.mpr ⟨_, rfl⟩
  | publicKey | signature => exact List.forall_mem_singleton.mpr h.exists_render
  | publicKeyShare => exact List.forall_mem_singleton.mpr h.key.exists_render
  | signatureShare => exact List.forall_mem_singleton.mpr h.signature.exists_render
  | package p =>
      refine List.forall_mem_cons.mpr ⟨h.publicKey.exists_render, List.forall_mem_map.mpr ?_⟩
      exact fun entry hentry => (h.publicKeyShares entry hentry).key.exists_render
  | shareSet set =>
      refine List.forall_mem_map.mpr fun entry hentry => ?_
      exact (h entry hentry).signature.exists_render

namespace Bn254

/-- All values that a caller can obtain are valid, and none of them fails to be written. -/
theorem obtained_values_valid {held : List (Value suite)} (h : History held) {value : Value suite}
    (hvalue : value ∈ held) :
    value.Valid ∧ ∀ form ∈ value.forms, ∃ text, form = .ok text :=
  ⟨h.valid value hvalue, (h.valid value hvalue).exists_forms⟩

def shareOfTwo : PrivateKeyShare suite := ⟨⟨.ofNat order 2⟩, 1, .twoOfThree⟩

def historyOfTwo : List (Value suite) :=
  [.shareSet ⟨.twoOfThree, .ofList [(1, ⟨.ofTwo, 1, .twoOfThree⟩)], false⟩,
    .shareSet (.empty .twoOfThree), .signatureShare ⟨.ofTwo, 1, .twoOfThree⟩,
    .publicKeyShare shareOfTwo.publicKeyShare, .privateKeyShare shareOfTwo,
    .privateKey ⟨.ofNat order 2⟩]

theorem history_historyOfTwo : History historyOfTwo := by
  have hread : Wire.privateKey.ofValue (.string "2") =
      .ok (⟨.ofNat order 2⟩ : PrivateKey suite) := by
    decide +kernel
  have hsigned : shareOfTwo.sign digestOne = .ok ⟨.ofTwo, 1, .twoOfThree⟩ := by
    decide +kernel
  have hmarked : PrivateKeyShare.ofKey ⟨.ofNat order 2⟩ 1 .twoOfThree = .ok shareOfTwo := rfl
  have hadded : (ShareSet.empty .twoOfThree).add ⟨.ofTwo, 1, .twoOfThree⟩ =
      .ok ⟨.twoOfThree, .ofList [(1, ⟨.ofTwo, 1, .twoOfThree⟩)], false⟩ := rfl
  refine .step (.step (.step (.step (.step (.step .start ?_) ?_) ?_) ?_) ?_) ?_
  · exact .privateKey (.read (.ofValue hread))
  · exact .privateKeyShare (.marked List.mem_cons_self hmarked)
  · exact .publicKeyShare (.ofPrivateShare List.mem_cons_self)
  · exact .signatureShare (.signed hsigned)
  · exact .shareSet .empty
  · exact .shareSet (.added List.mem_cons_self (.tail _ List.mem_cons_self) hadded)

theorem obtained_values_valid_historyOfTwo :
    History historyOfTwo ∧ ∀ value ∈ historyOfTwo,
      value.Valid ∧ ∀ form ∈ value.forms, ∃ text, form = .ok text :=
  ⟨history_historyOfTwo, fun _ => obtained_values_valid history_historyOfTwo⟩

end Bn254

end ThresholdBls
