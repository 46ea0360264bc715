import ThresholdBls.Proofs.Validity.Values
import ThresholdBls.Wire.Form

/-!
# Decoded values are valid

Strings are decoded by the parsers.  A record collects its fields in a draft,
from a list or from an object, and ends with the check of the scheme.  What
every field keeps of a draft is left when the record is finished.
-/

namespace ThresholdBls.Wire

open Json (Document Fault)

/-! ## Drafts of records -/

def Field.Keeps {Draft : Type} (P : Draft → Prop) (field : Field Draft) : Prop :=
  ∀ document draft draft', P draft → field.read document draft = .ok draft' → P draft'

namespace Record

variable {Draft α : Type} {record : Record Draft α} {P : Draft → Prop}

theorem readItems_keeps {close : Option Fault} {read : Nat} {fields : List (Field Draft)}
    {items left : List Document} {draft draft' : Draft}
    (hfields : ∀ field ∈ fields, field.Keeps P) (hdraft : P draft)
    (h : readItems record close read fields items draft = .ok (draft', left)) : P draft' := by
  induction fields generalizing read items draft with
  | nil =>
      simp only [readItems, Except.ok.injEq, Prod.mk.injEq] at h
      exact h.1 ▸ hdraft
  | cons field fields ih =>
      rw [List.forall_mem_cons] at hfields
      cases items with
      | nil =>
          obtain ⟨-, -, hthrow⟩ := bind_eq_ok_iff.mp h
          cases hthrow
      | cons item items =>
          obtain ⟨next, hnext, hrest⟩ := bind_eq_ok_iff.mp h
          exact ih hfields.2 (hfields.1 item draft next hdraft hnext) hrest

theorem readMember_keeps {member : Json.Key × Document} {draft draft' : Draft}
    (hfields : ∀ field ∈ record.fields, field.Keeps P) (hdraft : P draft)
    (h : readMember record draft member = .ok draft') : P draft' := by
  obtain ⟨name, -, h⟩ := bind_eq_ok_iff.mp h
  split at h
  · rename_i field hfield
    obtain ⟨-, h⟩ := guard_eq_ok_iff.mp h
    exact hfields field (List.mem_of_find?_eq_some hfield) _ _ _ hdraft h
  · obtain ⟨-, h⟩ := guard_eq_ok_iff.mp h
    obtain ⟨-, -, h⟩ := bind_eq_ok_iff.mp h
    cases h
    exact hdraft

/-- Whether a list or an object is decoded, the record is finished from a draft that has what
every field keeps. -/
theorem exists_finish_of_decode {origin : Origin} {document : Document} {a : α}
    (hempty : P record.empty) (hfields : ∀ field ∈ record.fields, field.Keeps P)
    (h : record.decode origin document = .ok a) :
    ∃ draft, P draft ∧ record.finish draft = .ok a := by
  cases document with
  | list items close =>
      obtain ⟨⟨draft, left⟩, hread, h⟩ := bind_eq_ok_iff.mp h
      obtain ⟨-, h⟩ := guard_eq_ok_iff.mp h
      obtain ⟨-, -, hfinish⟩ := bind_eq_ok_iff.mp h
      exact ⟨draft, readItems_keeps hfields hempty hread, hfinish⟩
  | object members close =>
      obtain ⟨draft, hread, h⟩ := bind_eq_ok_iff.mp h
      obtain ⟨-, -, hfinish⟩ := bind_eq_ok_iff.mp h
      refine ⟨draft, foldlM_invariant hempty (fun member _ draft draft' hdraft hmember => ?_) hread,
        hfinish⟩
      exact readMember_keeps hfields hdraft hmember
  | null | bool | number | string | unreadable => cases h

end Record

theorem required_eq_ok_iff {α : Type} {name : String} {content : Option α} {a : α} :
    required name content = .ok a ↔ content = some a := by
  cases content with
  | none => simp [required]
  | some b => simp [required]

theorem checked_eq_ok_iff {α : Type} {result : Except Error α} {a : α} :
    checked result = .ok a ↔ result = .ok a :=
  mapError_eq_ok_iff

theorem forall_indexMap {α : Type} {origin : Origin} {value : Document → Decoded α}
    {document : Document} {map : IndexMap α} {P : α → Prop}
    (hvalue : ∀ document a, value document = .ok a → P a)
    (h : indexMap origin value document = .ok map) : ∀ entry ∈ map.entries, P entry.2 := by
  cases document with
  | object members close =>
      obtain ⟨entries, hentries, h⟩ := bind_eq_ok_iff.mp h
      obtain ⟨-, -, h⟩ := bind_eq_ok_iff.mp h
      cases h
      refine IndexMap.forall_ofList fun entry hentry => ?_
      obtain ⟨⟨key, member⟩, -, hmember⟩ := exists_of_mapM_eq_ok hentries hentry
      obtain ⟨index, -, hmember⟩ := bind_eq_ok_iff.mp hmember
      obtain ⟨a, ha, hmember⟩ := bind_eq_ok_iff.mp hmember
      cases hmember
      exact hvalue member a ha
  | null | bool | number | string | unreadable | list => cases h

/-! ## Forms -/

inductive Form.Reads {α : Type} (form : Form α) : α → Prop
  | ofText {text a} : form.ofText text = .ok a → Reads form a
  | ofValue {value a} : form.ofValue value = .ok a → Reads form a

/-- A form decodes no values but those that have a property. -/
def Form.Gives {α : Type} (P : α → Prop) (form : Form α) : Prop :=
  ∀ origin document a, form.decode origin document = .ok a → P a

theorem Form.Reads.of_gives {α : Type} {P : α → Prop} {form : Form α} {a : α}
    (h : form.Reads a) (hform : form.Gives P) : P a := by
  cases h with
  | ofValue h => exact hform _ _ a h
  | ofText h =>
      obtain ⟨value, hvalue, h⟩ := bind_eq_ok_iff.mp h
      split at h
      · cases h
        exact hform _ _ a hvalue
      · cases h

theorem ofString_gives {α : Type} {render : α → Except GroupError String}
    {parse : String → Except Error α} {P : α → Prop} (hparse : ∀ s a, parse s = .ok a → P a) :
    (ofString render parse).Gives P := by
  intro origin document a h
  obtain ⟨s, -, h⟩ := bind_eq_ok_iff.mp h
  exact hparse s a (checked_eq_ok_iff.mp h)

/-! ## Shares -/

def ShareDraft.Holds {α : Type} (P : α → Prop) (draft : ShareDraft α) : Prop :=
  ∀ a, draft.value = some a → P a

section Shares

variable {α β : Type} {form : Form α} {mark : α → UInt16 → Params → Except Error β}
  {P : α → Prop} {Q : β → Prop} (hform : form.Gives P)

include hform

theorem shareRecord_keeps (origin : Origin) :
    ∀ field ∈ (shareRecord origin form mark).fields, field.Keeps (ShareDraft.Holds P) := by
  simp only [shareRecord, List.forall_mem_cons, List.not_mem_nil, IsEmpty.forall_iff,
    implies_true, and_true]
  refine ⟨?_, ?_, ?_⟩
  · intro item draft draft' hdraft hread
    obtain ⟨index, -, hread⟩ := bind_eq_ok_iff.mp hread
    cases hread
    exact hdraft
  · intro item draft draft' hdraft hread
    obtain ⟨params, -, hread⟩ := bind_eq_ok_iff.mp hread
    cases hread
    exact hdraft
  · intro item draft draft' hdraft hread
    obtain ⟨value, hvalue, hread⟩ := bind_eq_ok_iff.mp hread
    cases hread
    rintro a ⟨⟩
    exact hform origin item value hvalue

theorem shareRecord_gives {encode : β → Except GroupError Json}
    (hmark : ∀ a index params b, P a → mark a index params = .ok b → Q b) :
    Form.Gives Q ⟨encode, fun origin => (shareRecord origin form mark).decode origin⟩ := by
  intro origin document b h
  have hempty : ShareDraft.Holds P ⟨none, none, none⟩ := nofun
  obtain ⟨draft, hdraft, hfinish⟩ :=
    Record.exists_finish_of_decode hempty (shareRecord_keeps hform origin) h
  obtain ⟨index, -, hfinish⟩ := bind_eq_ok_iff.mp hfinish
  obtain ⟨params, -, hfinish⟩ := bind_eq_ok_iff.mp hfinish
  obtain ⟨value, hvalue, hfinish⟩ := bind_eq_ok_iff.mp hfinish
  exact hmark value index params b (hdraft value (required_eq_ok_iff.mp hvalue))
    (checked_eq_ok_iff.mp hfinish)

end Shares

/-! ## Keys, signatures and their shares -/

variable {S : Suite}

theorem privateKey_gives : (privateKey : Form (PrivateKey S)).Gives PrivateKey.Valid :=
  ofString_gives fun _ _ => PrivateKey.valid_of_parse

theorem publicKey_gives : (publicKey : Form (PublicKey S)).Gives PublicKey.Valid :=
  ofString_gives fun _ _ => PublicKey.valid_of_parse

theorem signature_gives : (signature : Form (Signature S)).Gives Signature.Valid :=
  ofString_gives fun _ _ h => (Signature.Checked.parsed h).valid

theorem privateKeyShare_gives :
    (privateKeyShare : Form (PrivateKeyShare S)).Gives PrivateKeyShare.Valid :=
  shareRecord_gives privateKey_gives fun _ _ _ _ => PrivateKeyShare.valid_of_ofKey

theorem publicKeyShare_gives :
    (publicKeyShare : Form (PublicKeyShare S)).Gives PublicKeyShare.Valid :=
  shareRecord_gives publicKey_gives fun _ _ _ _ => PublicKeyShare.valid_of_ofKey

theorem signatureShare_gives :
    (signatureShare : Form (SignatureShare S)).Gives SignatureShare.Valid :=
  shareRecord_gives signature_gives fun _ _ _ _ => SignatureShare.valid_of_ofSignature

/-! ## Packages -/

structure PackageDraft.Valid (draft : PackageDraft S) : Prop where
  publicKey : ∀ key, draft.publicKey = some key → key.Valid
  publicKeyShares : ∀ shares, draft.publicKeyShares = some shares →
    ∀ entry ∈ shares.entries, entry.2.Valid

theorem packageRecord_keeps (origin : Origin) :
    ∀ field ∈ (packageRecord origin : Record (PackageDraft S) _).fields,
      field.Keeps PackageDraft.Valid := by
  simp only [packageRecord, List.forall_mem_cons, List.not_mem_nil, IsEmpty.forall_iff,
    implies_true, and_true]
  refine ⟨?_, ?_, ?_⟩
  · intro item draft draft' hdraft hread
    obtain ⟨params, -, hread⟩ := bind_eq_ok_iff.mp hread
    cases hread
    exact ⟨hdraft.publicKey, hdraft.publicKeyShares⟩
  · intro item draft draft' hdraft hread
    obtain ⟨shares, hshares, hread⟩ := bind_eq_ok_iff.mp hread
    cases hread
    refine ⟨hdraft.publicKey, ?_⟩
    rintro found ⟨⟩
    exact forall_indexMap (publicKeyShare_gives origin) hshares
  · intro item draft draft' hdraft hread
    obtain ⟨key, hkey, hread⟩ := bind_eq_ok_iff.mp hread
    cases hread
    refine ⟨?_, hdraft.publicKeyShares⟩
    rintro found ⟨⟩
    exact publicKey_gives origin item key hkey

theorem publicKeyPackage_gives :
    (publicKeyPackage : Form (KeyPackage S)).Gives KeyPackage.Valid := by
  intro origin document package h
  have hempty : PackageDraft.Valid (S := S) ⟨none, none, none⟩ := ⟨nofun, nofun⟩
  obtain ⟨draft, hdraft, hfinish⟩ :=
    Record.exists_finish_of_decode hempty (packageRecord_keeps origin) h
  obtain ⟨params, -, hfinish⟩ := bind_eq_ok_iff.mp hfinish
  obtain ⟨shares, hshares, hfinish⟩ := bind_eq_ok_iff.mp hfinish
  obtain ⟨key, hkey, hfinish⟩ := bind_eq_ok_iff.mp hfinish
  cases hfinish
  exact ⟨hdraft.publicKey key (required_eq_ok_iff.mp hkey),
    hdraft.publicKeyShares shares (required_eq_ok_iff.mp hshares)⟩

end ThresholdBls.Wire
