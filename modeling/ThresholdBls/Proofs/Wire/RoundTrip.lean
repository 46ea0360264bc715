import ThresholdBls.Proofs.IndexMap
import ThresholdBls.Proofs.Json.Reading
import ThresholdBls.Proofs.Text.Signatures
import ThresholdBls.Proofs.Validity.Decoding

/-!
# Wire forms lose nothing

What a form writes it reads back, from the text and from the JSON value that
the text holds.  The value has the members of its objects in another order, so
that every record is read in the order of its fields and in the order of their
names, and the map of a package in any order.
-/

namespace ThresholdBls.Wire

open Json (Document)

/-- The text of a value is read as the value, and so is its JSON value, as written or with the
members filed as in the JSON value of the text. -/
def Form.RoundTrips {α : Type} (form : Form α) (a : α) : Prop :=
  ∃ json text, form.encode a = .ok json ∧ form.toText a = .ok text ∧ form.ofText text = .ok a ∧
    form.ofValue json = .ok a ∧
    Json.parse text = .ok json.filed ∧ form.ofValue json.filed = .ok a

/-- A JSON value, and the same with its members filed, are decoded as a value. -/
structure Form.Decodes {α : Type} (form : Form α) (json : Json) (a : α) : Prop where
  exact : json.Exact
  written (origin : Origin) : form.decode origin (.ofValue json) = .ok a
  filed (origin : Origin) : form.decode origin (.ofValue json.filed) = .ok a

def Form.Recovers {α : Type} (form : Form α) (a : α) : Prop :=
  ∃ json, form.encode a = .ok json ∧ form.Decodes json a

theorem Form.Recovers.roundTrips {α : Type} {form : Form α} {a : α} (h : form.Recovers a) :
    form.RoundTrips a := by
  obtain ⟨json, hencode, hdecodes⟩ := h
  refine ⟨json, json.render, hencode, bind_eq_ok_iff.mpr ⟨json, hencode, rfl⟩, ?_,
    hdecodes.written .value, Json.parse_render hdecodes.exact, hdecodes.filed .value⟩
  rw [ofText, Json.ofText_render hdecodes.exact]
  exact bind_eq_ok_iff.mpr ⟨a, hdecodes.written .text, rfl⟩

theorem ofString_recovers {α : Type} {render : α → Except GroupError String}
    {parse : String → Except Error α} {s : String} {a : α} (hrender : render a = .ok s)
    (hparse : parse s = .ok a) : (ofString render parse).Recovers a := by
  refine ⟨.string s, bind_eq_ok_iff.mpr ⟨s, hrender, rfl⟩, .string s, fun origin => ?_,
    fun origin => ?_⟩
  · exact bind_eq_ok_iff.mpr ⟨s, rfl, checked_eq_ok_iff.mpr hparse⟩
  · exact bind_eq_ok_iff.mpr ⟨s, rfl, checked_eq_ok_iff.mpr hparse⟩

/-! ## Records -/

namespace Record

variable {Draft α : Type} {record : Record Draft α}

theorem readMember_eq_ok {draft next : Draft} {name : String} {document : Document}
    {field : Field Draft} {raw : List Char} {closed : Bool} {fault : Option Json.Fault}
    (hfield : record.fields.find? (·.name == name) = some field)
    (habsent : field.isPresent draft = false) (hread : field.read document draft = .ok next) :
    readMember record draft (⟨raw, closed, .ok name, fault⟩, document) = .ok next := by
  refine bind_eq_ok_iff.mpr ⟨name, rfl, ?_⟩
  split
  · rename_i found hfound
    cases hfield.symm.trans hfound
    exact guard_eq_ok_iff.mpr ⟨by simp [habsent], hread⟩
  · rename_i hnone
    cases hfield.symm.trans hnone

def Reads (record : Record Draft α) (members : List (String × Json)) (draft final : Draft) : Prop :=
  (Document.ofMembers members).foldlM (readMember record) draft = .ok final

theorem reads_nil (draft : Draft) : record.Reads [] draft draft := rfl

theorem reads_cons {members : List (String × Json)} {draft final : Draft} (next : Draft)
    {name : String} {value : Json} {field : Field Draft}
    (hfield : record.fields.find? (·.name == name) = some field)
    (habsent : field.isPresent draft = false)
    (hread : field.read (.ofValue value) draft = .ok next)
    (hrest : record.Reads members next final) :
    record.Reads ((name, value) :: members) draft final := by
  rw [Reads, Document.ofMembers, List.foldlM_cons]
  exact bind_eq_ok_iff.mpr ⟨next, readMember_eq_ok hfield habsent hread, hrest⟩

theorem decode_object {members : List (String × Json)} (draft : Draft) {a : α}
    (hread : record.Reads members record.empty draft) (hfinish : record.finish draft = .ok a)
    (origin : Origin) : record.decode origin (.ofValue (.object members)) = .ok a :=
  bind_eq_ok_iff.mpr ⟨draft, hread, bind_eq_ok_iff.mpr ⟨(), rfl, hfinish⟩⟩

end Record

theorem bare_fields : ∀ name ∈ ["t", "n", "index", "params", "value", "public_key_shares",
    "public_key"], Json.Bare name := by
  simp [Json.Bare, Json.escape]

/-! ## Parameters -/

theorem index16_ofNat (index : UInt16) :
    index16 (.ofValue (.ofNat index.toNat)) = .ok index := by
  change index16OfNumber (.natural index.toNat) = .ok index
  rw [index16OfNumber, if_pos index.toNat_lt, UInt16.ofNat_toNat]

theorem exact_index (index : UInt16) : (Json.ofNat index.toNat).Exact :=
  .natural (index.toNat_lt.trans (by decide))

theorem create_params (p : Params) : Params.create p.t p.n = .ok p := by
  rw [Params.create, dif_pos ⟨p.one_le_t, p.t_le_n⟩]

theorem filed_encodeParams (p : Params) :
    (encodeParams p).filed = .object [("n", .ofNat p.n.toNat), ("t", .ofNat p.t.toNat)] := by
  have hlt : "n" < "t" := by decide
  simp only [encodeParams, Json.filed, Json.filedMembers, Json.insertMember_nil,
    Json.insertMember_of_lt hlt]
  rfl

theorem params_decodes (p : Params) : params.Decodes (encodeParams p) p where
  exact := .object (by simp [bare_fields]) (by simp [exact_index])
  written origin := by
    refine Record.decode_object ⟨some p.t, some p.n⟩ ?_
      (checked_eq_ok_iff.mpr (create_params p)) origin
    refine Record.reads_cons ⟨some p.t, none⟩ rfl rfl ?_ ?_
    · exact bind_eq_ok_iff.mpr ⟨_, index16_ofNat p.t, rfl⟩
    refine Record.reads_cons _ rfl rfl ?_ (Record.reads_nil _)
    exact bind_eq_ok_iff.mpr ⟨_, index16_ofNat p.n, rfl⟩
  filed origin := by
    rw [filed_encodeParams]
    refine Record.decode_object ⟨some p.t, some p.n⟩ ?_
      (checked_eq_ok_iff.mpr (create_params p)) origin
    refine Record.reads_cons ⟨none, some p.n⟩ rfl rfl ?_ ?_
    · exact bind_eq_ok_iff.mpr ⟨_, index16_ofNat p.n, rfl⟩
    refine Record.reads_cons _ rfl rfl ?_ (Record.reads_nil _)
    exact bind_eq_ok_iff.mpr ⟨_, index16_ofNat p.t, rfl⟩

/-! ## Shares -/

theorem shareRecord_decode {α β : Type} {form : Form α}
    {mark : α → UInt16 → Params → Except Error β} {origin : Origin} {paramsJson value : Json}
    {a : α} {index : UInt16} {p : Params} {b : β}
    (hparams : params.decode origin (.ofValue paramsJson) = .ok p)
    (hvalue : form.decode origin (.ofValue value) = .ok a) (hmark : mark a index p = .ok b) :
    (shareRecord origin form mark).decode origin
      (.ofValue (.object [("index", .ofNat index.toNat), ("params", paramsJson),
        ("value", value)])) = .ok b := by
  refine Record.decode_object ⟨some index, some p, some a⟩ ?_
    (checked_eq_ok_iff.mpr hmark) origin
  refine Record.reads_cons ⟨some index, none, none⟩ rfl rfl ?_ ?_
  · exact bind_eq_ok_iff.mpr ⟨_, index16_ofNat index, rfl⟩
  refine Record.reads_cons ⟨some index, some p, none⟩ rfl rfl ?_ ?_
  · exact bind_eq_ok_iff.mpr ⟨_, hparams, rfl⟩
  refine Record.reads_cons _ rfl rfl ?_ (Record.reads_nil _)
  exact bind_eq_ok_iff.mpr ⟨_, hvalue, rfl⟩

theorem filed_encodeShare (index : UInt16) (p : Params) (value : Json) :
    (encodeShare index p value).filed =
      .object [("index", .ofNat index.toNat), ("params", (encodeParams p).filed),
        ("value", value.filed)] := by
  have hindex : "index" < "params" := by decide
  have hindex' : "index" < "value" := by decide
  have hparams : "params" < "value" := by decide
  simp only [encodeShare, Json.filed, Json.filedMembers, Json.insertMember_nil,
    Json.insertMember_of_gt hindex, Json.insertMember_of_gt hindex',
    Json.insertMember_of_gt hparams]
  rfl

theorem share_recovers {α β : Type} {form : Form α}
    {mark : α → UInt16 → Params → Except Error β} {encode : β → Except GroupError Json}
    {a : α} {index : UInt16} {p : Params} {b : β} (ha : form.Recovers a)
    (hmark : mark a index p = .ok b)
    (hencode : encode b = do return encodeShare index p (← form.encode a)) :
    Form.Recovers ⟨encode, fun origin => (shareRecord origin form mark).decode origin⟩ b := by
  obtain ⟨value, hvalue, hdecodes⟩ := ha
  refine ⟨encodeShare index p value, ?_, ?_, fun origin => ?_, fun origin => ?_⟩
  · exact hencode.trans (bind_eq_ok_iff.mpr ⟨value, hvalue, rfl⟩)
  · exact .object (by simp [bare_fields])
      (by simp [exact_index, (params_decodes p).exact, hdecodes.exact])
  · exact shareRecord_decode ((params_decodes p).written origin) (hdecodes.written origin) hmark
  · rw [filed_encodeShare]
    exact shareRecord_decode ((params_decodes p).filed origin) (hdecodes.filed origin) hmark

/-! ## Maps -/

theorem numericKey_render (origin : Origin) (index : UInt16) :
    numericKey origin ⟨(Decimal.render index.toNat).toList, true,
      .ok (Decimal.render index.toNat), none⟩ = .ok index := by
  obtain ⟨c, cs, hcons, hdigit⟩ := Json.Number.exists_toDigits_eq_cons index.toNat
  have hsmall : index.toNat < UInt64.size := index.toNat_lt.trans (by decide)
  have hread (atEnd : Json.Fault) :=
    Json.Number.read_toDigits atEnd index.toNat Json.ends_nil
  simp only [List.append_nil] at hread
  rw [Decimal.toList_render, numericKey]
  refine guard_eq_ok_iff.mpr ⟨by simp [hcons, hdigit], ?_⟩
  refine bind_eq_ok_iff.mpr ⟨_, mapError_eq_ok_iff.mpr (hread _), ?_⟩
  simp only [Json.Number.value?_toDigits hsmall]
  exact bind_eq_ok_iff.mpr ⟨_, index16_ofNat index, rfl⟩

theorem indexMap_ofValue {α : Type} {origin : Origin} {value : Document → Decoded α}
    {members : List (String × Json)} {entries : List (UInt16 × α)} {map : IndexMap α}
    (hmembers : List.Forall₂ (fun member entry => member.1 = Decimal.render entry.1.toNat ∧
      value (.ofValue member.2) = .ok entry.2) members entries)
    (hentries : entries.Perm map.entries) :
    indexMap origin value (.ofValue (.object members)) = .ok map := by
  refine bind_eq_ok_iff.mpr ⟨entries, ?_, bind_eq_ok_iff.mpr ⟨(), rfl, ?_⟩⟩
  · rw [Json.ofMembers_eq_map, List.mapM_map]
    refine mapM_eq_ok_iff.mpr (hmembers.imp ?_)
    rintro ⟨name, json⟩ ⟨index, a⟩ ⟨rfl, ha⟩
    exact bind_eq_ok_iff.mpr ⟨_, numericKey_render origin index, bind_eq_ok_iff.mpr ⟨_, ha, rfl⟩⟩
  · exact congrArg Except.ok (IndexMap.ofList_eq_of_perm hentries)

/-! ## Packages -/

section Packages

variable {S : Suite} {origin : Origin} {paramsJson shares key : Json} {package : KeyPackage S}
  (hparams : params.decode origin (.ofValue paramsJson) = .ok package.params)
  (hshares : indexMap origin (publicKeyShare.decode origin) (.ofValue shares) =
    .ok package.publicKeyShares)
  (hkey : publicKey.decode origin (.ofValue key) = .ok package.publicKey)

include hparams hshares hkey

theorem packageRecord_decode_written :
    (packageRecord origin).decode origin
      (.ofValue (.object [("params", paramsJson), ("public_key_shares", shares),
        ("public_key", key)])) = .ok package := by
  refine Record.decode_object ⟨some package.params, some package.publicKeyShares,
    some package.publicKey⟩ ?_ rfl origin
  refine Record.reads_cons ⟨some package.params, none, none⟩ rfl rfl ?_ ?_
  · exact bind_eq_ok_iff.mpr ⟨_, hparams, rfl⟩
  refine Record.reads_cons ⟨some package.params, some package.publicKeyShares, none⟩
    rfl rfl ?_ ?_
  · exact bind_eq_ok_iff.mpr ⟨_, hshares, rfl⟩
  refine Record.reads_cons _ rfl rfl ?_ (Record.reads_nil _)
  exact bind_eq_ok_iff.mpr ⟨_, hkey, rfl⟩

theorem packageRecord_decode_filed :
    (packageRecord origin).decode origin
      (.ofValue (.object [("params", paramsJson), ("public_key", key),
        ("public_key_shares", shares)])) = .ok package := by
  refine Record.decode_object ⟨some package.params, some package.publicKeyShares,
    some package.publicKey⟩ ?_ rfl origin
  refine Record.reads_cons ⟨some package.params, none, none⟩ rfl rfl ?_ ?_
  · exact bind_eq_ok_iff.mpr ⟨_, hparams, rfl⟩
  refine Record.reads_cons ⟨some package.params, none, some package.publicKey⟩
    rfl rfl ?_ ?_
  · exact bind_eq_ok_iff.mpr ⟨_, hkey, rfl⟩
  refine Record.reads_cons _ rfl rfl ?_ (Record.reads_nil _)
  exact bind_eq_ok_iff.mpr ⟨_, hshares, rfl⟩

end Packages

theorem filed_package (paramsJson shares key : Json) :
    (Json.object [("params", paramsJson), ("public_key_shares", shares),
      ("public_key", key)]).filed =
      .object [("params", paramsJson.filed), ("public_key", key.filed),
        ("public_key_shares", shares.filed)] := by
  have hshares : "params" < "public_key_shares" := by decide
  have hkey : "params" < "public_key" := by decide
  have hlt : "public_key" < "public_key_shares" := by decide
  simp only [Json.filed, Json.filedMembers, Json.insertMember_nil,
    Json.insertMember_of_gt hshares, Json.insertMember_of_gt hkey, Json.insertMember_of_lt hlt]

section Shares

variable {α : Type} (map : IndexMap α) (json : α → Json)

def mapMembers : List (String × Json) :=
  map.entries.map fun entry => (Decimal.render entry.1.toNat, json entry.2)

theorem nodup_mapMembers : ((mapMembers map json).map Prod.fst).Nodup := by
  have hinjective : Function.Injective fun index : UInt16 => Decimal.render index.toNat := by
    intro index other hrender
    have hvalue := congrArg Decimal.value hrender
    rw [Decimal.value_render, Decimal.value_render] at hvalue
    exact UInt16.toNat_inj.mp hvalue
  have hnames : (mapMembers map json).map Prod.fst =
      (map.entries.map Prod.fst).map fun index => Decimal.render index.toNat := by
    rw [mapMembers, List.map_map, List.map_map]
    rfl
  rw [hnames]
  exact map.nodup_keys.map hinjective

theorem indexMap_of_perm {value : Document → Decoded α} {origin : Origin}
    {members : List (String × Json)} (hperm : members.Perm (mapMembers map json))
    (hvalue : ∀ entry ∈ map.entries, value (.ofValue (json entry.2)) = .ok entry.2) :
    indexMap origin value (.ofValue (.object members)) = .ok map := by
  have hentries : List.Forall₂ (fun member entry => member.1 = Decimal.render entry.1.toNat ∧
      value (.ofValue member.2) = .ok entry.2) (mapMembers map json) map.entries := by
    rw [mapMembers, List.forall₂_map_left_iff, List.forall₂_same]
    exact fun entry hentry => ⟨rfl, hvalue entry hentry⟩
  obtain ⟨entries, hmembers, hperm⟩ := List.perm_comp_forall₂ hperm hentries
  exact indexMap_ofValue hmembers hperm

theorem filed_mapMembers :
    ∃ members, (Json.object (mapMembers map json)).filed = .object members ∧
      members.Perm (mapMembers map fun a => (json a).filed) := by
  refine ⟨_, rfl, ?_⟩
  have hperm := Json.perm_filedMembers [] (nodup_mapMembers map json)
  simpa [mapMembers, Function.comp_def] using hperm

end Shares

theorem package_recovers {S : Suite} {package : KeyPackage S}
    (hshares : ∀ entry ∈ package.publicKeyShares.entries, publicKeyShare.Recovers entry.2)
    (hkey : publicKey.Recovers package.publicKey) : publicKeyPackage.Recovers package := by
  obtain ⟨key, hencode, hdecodes⟩ := hkey
  choose! json hjson using fun (share : PublicKeyShare S) (h : publicKeyShare.Recovers share) => h
  have hentries (entry) (hentry : entry ∈ package.publicKeyShares.entries) :=
    hjson entry.2 (hshares entry hentry)
  have hmembers : package.publicKeyShares.entries.mapM (fun entry => do
      return (Decimal.render entry.1.toNat, ← publicKeyShare.encode entry.2)) =
        .ok (mapMembers package.publicKeyShares json) :=
    mapM_eq_ok fun entry hentry => bind_eq_ok_iff.mpr ⟨_, (hentries entry hentry).1, rfl⟩
  refine ⟨_, bind_eq_ok_iff.mpr ⟨_, hmembers, bind_eq_ok_iff.mpr ⟨key, hencode, rfl⟩⟩, ?_,
    fun origin => ?_, fun origin => ?_⟩
  · have hobject : (Json.object (mapMembers package.publicKeyShares json)).Exact := by
      refine .object (fun member hmember => ?_) fun member hmember => ?_
      · obtain ⟨entry, -, rfl⟩ := List.mem_map.mp hmember
        exact Json.bare_render _
      · obtain ⟨entry, hentry, rfl⟩ := List.mem_map.mp hmember
        exact (hentries entry hentry).2.exact
    exact .object (by simp [bare_fields])
      (by simp [(params_decodes package.params).exact, hobject, hdecodes.exact])
  · refine packageRecord_decode_written ((params_decodes package.params).written origin) ?_
      (hdecodes.written origin)
    exact indexMap_of_perm _ json (List.Perm.refl _)
      fun entry hentry => (hentries entry hentry).2.written origin
  · obtain ⟨members, hfiled, hperm⟩ := filed_mapMembers package.publicKeyShares json
    rw [filed_package, hfiled]
    refine packageRecord_decode_filed ((params_decodes package.params).filed origin) ?_
      (hdecodes.filed origin)
    exact indexMap_of_perm _ _ hperm fun entry hentry => (hentries entry hentry).2.filed origin

/-! ## Commitments -/

theorem list_ofValue {α : Type} {item : Document → Decoded α} {json : α → Json} {as : List α}
    (h : ∀ a ∈ as, item (.ofValue (json a)) = .ok a) :
    list item (.ofValue (.list (as.map json))) = .ok as := by
  refine bind_eq_ok_iff.mpr ⟨as, ?_, rfl⟩
  rw [Json.ofItems_eq_map, List.map_map, List.mapM_map]
  exact (mapM_eq_ok (g := id) h).trans (by rw [List.map_id])

def rowsJson (rows : List (List String)) : Json :=
  .list (rows.map fun row => .list (row.map .string))

theorem exact_rowsJson (rows : List (List String)) : (rowsJson rows).Exact := by
  refine .list fun item hitem => ?_
  obtain ⟨row, -, rfl⟩ := List.mem_map.mp hitem
  refine .list fun item hitem => ?_
  obtain ⟨s, -, rfl⟩ := List.mem_map.mp hitem
  exact .string s

theorem filed_rowsJson (rows : List (List String)) : (rowsJson rows).filed = rowsJson rows := by
  simp [rowsJson, Function.comp_def, Json.filed, Json.filedItems_eq_map]

theorem commitment_recovers {S : Suite} (hS : S.g2.CanonicalCoordinates) {c : Commitment S}
    (h : ∀ element ∈ c.elements, S.g2.Usable element) : commitment.Recovers c := by
  have hrow : ∀ element, S.g2.Usable element → ∃ row, S.g2.toCoordinates element = .ok row ∧
      S.g2.ofCoordinates row = .ok element := by
    intro element husable
    obtain ⟨ns, -, hcoordinates⟩ := hS.exists_numerals husable.1
    exact ⟨_, hcoordinates, hS.ofCoordinates_eq_ok_iff.mpr ⟨husable.2, hcoordinates⟩⟩
  choose! row hrow using hrow
  have hencode : c.coordinates = .ok (c.elements.map row) :=
    mapM_eq_ok fun element helement => (hrow element (h element helement)).1
  have hread : (c.elements.map row).mapM S.g2.ofCoordinates = .ok c.elements := by
    rw [List.mapM_map]
    exact (mapM_eq_ok (g := id) fun element helement => (hrow element (h element helement)).2).trans
      (by rw [List.map_id])
  have hdecode (origin : Origin) :
      commitment.decode origin (.ofValue (rowsJson (c.elements.map row))) = .ok c := by
    refine bind_eq_ok_iff.mpr ⟨c.elements.map row, ?_, ?_⟩
    · exact list_ofValue fun row _ => list_ofValue fun s _ => rfl
    · exact bind_eq_ok_iff.mpr ⟨_, mapError_eq_ok_iff.mpr hread, rfl⟩
  refine ⟨_, bind_eq_ok_iff.mpr ⟨_, hencode, rfl⟩, exact_rowsJson _, hdecode, fun origin => ?_⟩
  rw [← hdecode origin, ← filed_rowsJson]
  rfl

/-! ## The suite BN254 -/

section Bn254

open Bn254

theorem privateKey_recovers {key : PrivateKey suite} (h : key.Valid) : privateKey.Recovers key :=
  ofString_recovers rfl (PrivateKey.parse_eq_ok_iff.mpr ⟨h, rfl⟩)

theorem publicKey_recovers {key : PublicKey suite} (h : key.Valid) : publicKey.Recovers key := by
  obtain ⟨s, hs⟩ := PublicKey.exists_render g2_canonicalCoordinates h
  exact ofString_recovers hs ((PublicKey.parse_eq_ok_iff g2_canonicalCoordinates).mpr ⟨h, hs⟩)

theorem signature_recovers {σ : Signature suite} (h : σ.Readable) : signature.Recovers σ := by
  obtain ⟨s, hs, hparse⟩ := signature_text.parse_eq h
  exact ofString_recovers hs hparse

theorem mark_eq_ok {α : Type} {p : Params} {index : UInt16} {a : α} (h : p.InRange index) :
    (do p.requireIndex index; return a) = Except.ok a :=
  bind_eq_ok_iff.mpr ⟨(), Params.requireIndex_of_range h, rfl⟩

theorem privateKeyShare_recovers {share : PrivateKeyShare suite} (h : share.Valid) :
    privateKeyShare.Recovers share :=
  share_recovers (privateKey_recovers h.key) (mark_eq_ok h.index) rfl

theorem signatureShare_recovers {share : SignatureShare suite}
    (hindex : share.params.InRange share.index) (h : share.signature.Readable) :
    signatureShare.Recovers share :=
  share_recovers (signature_recovers h) (mark_eq_ok hindex) rfl

theorem publicKeyShare_recovers {share : PublicKeyShare suite} (h : share.Valid) :
    publicKeyShare.Recovers share :=
  share_recovers (publicKey_recovers h.key) (mark_eq_ok h.index) rfl

/-- Every value is read back from its JSON text and from its JSON value.  Keys are valid, which an
erased one is not; the text of a signature has to have an accepted length, and a commitment no
element that cannot be read. -/
theorem forms_round_trip :
    (∀ p : Params, params.RoundTrips p) ∧
    (∀ key : PrivateKey suite, key.Valid → privateKey.RoundTrips key) ∧
    (∀ key : PublicKey suite, key.Valid → publicKey.RoundTrips key) ∧
    (∀ share : PrivateKeyShare suite, share.Valid → privateKeyShare.RoundTrips share) ∧
    (∀ share : PublicKeyShare suite, share.Valid → publicKeyShare.RoundTrips share) ∧
    (∀ package : KeyPackage suite, package.Valid → publicKeyPackage.RoundTrips package) ∧
    (∀ c : Commitment suite, (∀ element ∈ c.elements, g2.Usable element) →
      commitment.RoundTrips c) ∧
    (∀ σ : Signature suite, σ.Readable → signature.RoundTrips σ) ∧
    ∀ share : SignatureShare suite, share.params.InRange share.index →
      share.signature.Readable → signatureShare.RoundTrips share := by
  refine ⟨fun p => ?_, fun key h => ?_, fun key h => ?_, fun share h => ?_, fun share h => ?_,
    fun package h => ?_, fun c h => ?_, fun σ h => ?_, fun share hindex h => ?_⟩
  · exact Form.Recovers.roundTrips ⟨_, rfl, params_decodes p⟩
  · exact (privateKey_recovers h).roundTrips
  · exact (publicKey_recovers h).roundTrips
  · exact (privateKeyShare_recovers h).roundTrips
  · exact (publicKeyShare_recovers h).roundTrips
  · have hshares := fun entry hentry => publicKeyShare_recovers (h.publicKeyShares entry hentry)
    exact (package_recovers hshares (publicKey_recovers h.publicKey)).roundTrips
  · exact (commitment_recovers g2_canonicalCoordinates h).roundTrips
  · exact (signature_recovers h).roundTrips
  · exact (signatureShare_recovers hindex h).roundTrips

/-- Shares of other parameters, under indices that are not theirs. -/
def strayPackage : KeyPackage suite where
  params := .twoOfThree
  publicKeyShares := .ofList
    [(10, PrivateKeyShare.publicKeyShare ⟨⟨1⟩, 3, .twoOfThree⟩),
      (2, PrivateKeyShare.publicKeyShare ⟨⟨1⟩, 1, ⟨4, 5, by decide, by decide⟩⟩)]
  publicKey := PrivateKey.publicKey ⟨1⟩

theorem forms_round_trip_strayPackage :
    publicKeyPackage.RoundTrips strayPackage ∧
      signature.RoundTrips (⟨g1Generator, ⟨.ofNat fieldSize 12345, 0⟩⟩ : Signature suite) := by
  obtain ⟨-, -, -, -, -, hpackage, -, hsignature, -⟩ := forms_round_trip
  have hone : (1 : Fr) ≠ 0 := by decide +kernel
  refine ⟨hpackage strayPackage ⟨PrivateKey.Valid.publicKey (S := suite) hone, ?_⟩, hsignature _ ?_⟩
  · refine IndexMap.forall_ofList ?_
    simp only [List.forall_mem_cons, List.not_mem_nil, IsEmpty.forall_iff, implies_true, and_true]
    exact ⟨PrivateKeyShare.Valid.publicKeyShare ⟨hone, by decide⟩,
      PrivateKeyShare.Valid.publicKeyShare ⟨hone, by decide⟩⟩
  · have hcontains : g1.contains g1Generator = true :=
      (g1_isCyclic.contains_iff g1Generator).mpr ⟨1, g1_isCyclic.multiple_one⟩
    have hs := Signature.render_affine (.ofNat fieldSize 1) (.ofNat fieldSize 2)
      ⟨.ofNat fieldSize 12345, 0⟩
    exact (Signature.readable_iff hs).mpr ⟨⟨nofun, hcontains⟩, by decide +kernel⟩

end Bn254

end ThresholdBls.Wire
