import ThresholdBls.Key.Recovery
import ThresholdBls.Proofs.ShareSet.Checked
import ThresholdBls.Sharing.Dealer
import ThresholdBls.Sharing.Participant

/-!
# Valid values

A private key is not zero, elements of public keys and signatures lie in their
groups and are not the identity, and shares name a participant.  Every function
that makes a value checks it, or makes it from valid values in a way that keeps
it valid.
-/

namespace ThresholdBls

variable {S : Suite}

/-! ## Parameters -/

def Params.InRange (params : Params) (index : UInt16) : Prop :=
  1 ≤ index.toNat ∧ index.toNat ≤ params.n.toNat

instance (params : Params) (index : UInt16) : Decidable (params.InRange index) :=
  inferInstanceAs (Decidable (_ ∧ _))

theorem Params.InRange.ne_zero {params : Params} {index : UInt16} (h : params.InRange index) :
    index ≠ 0 := by
  rintro rfl
  exact absurd h.1 (by decide)

theorem Params.inRange_of_requireIndex {params : Params} {index : UInt16}
    (h : params.requireIndex index = .ok ()) : params.InRange index := by
  obtain ⟨hzero, hle⟩ := requireIndex_eq_ok_iff.mp h
  refine ⟨?_, UInt16.le_iff_toNat_le.mp hle⟩
  have hne : index.toNat ≠ 0 := fun hindex => hzero (UInt16.toNat_inj.mp hindex)
  omega

theorem Params.exists_of_marked {α β : Type} {params : Params} {index : UInt16}
    {result : Except Error α} {mark : α → β} {b : β}
    (h : (do params.requireIndex index; return mark (← result)) = Except.ok b) :
    params.InRange index ∧ ∃ a, result = .ok a ∧ mark a = b := by
  obtain ⟨⟨⟩, hindex, h⟩ := bind_eq_ok_iff.mp h
  obtain ⟨a, ha, h⟩ := bind_eq_ok_iff.mp h
  exact ⟨inRange_of_requireIndex hindex, a, ha, pure_eq_ok_iff.mp h⟩

/-! ## Private keys -/

namespace PrivateKey

def Valid (key : PrivateKey S) : Prop := key.scalar ≠ 0

variable {key : PrivateKey S}

theorem valid_of_create {scalar : S.Scalar} (h : create scalar = .ok key) : key.Valid := by
  unfold create at h
  split at h
  · cases h
  · rename_i hscalar
    cases h
    exact hscalar

theorem valid_of_mem_ofSamples {samples : List S.Scalar} {count : Nat}
    (h : key ∈ ofSamples samples count) : key.Valid := by
  obtain ⟨scalar, hscalar, rfl⟩ := List.mem_map.mp h
  have hne : scalar ≠ 0 := by
    simpa using (List.mem_filter.mp (List.mem_of_mem_take hscalar)).2
  exact hne

theorem valid_of_parse {text : String} (h : parse text = .ok key) : key.Valid := by
  obtain ⟨-, h⟩ := guard_eq_ok_iff.mp h
  obtain ⟨-, h⟩ := guard_eq_ok_iff.mp h
  obtain ⟨scalar, -, hcreate⟩ := bind_eq_ok_iff.mp h
  exact valid_of_create hcreate

theorem valid_of_ofShares {shares : List (PrivateKeyShare S)} (h : ofShares shares = .ok key) :
    key.Valid := by
  unfold ofShares at h
  split at h
  · dsimp only at h
    obtain ⟨-, -, h⟩ := bind_eq_ok_iff.mp h
    obtain ⟨coefficients, -, h⟩ := bind_eq_ok_iff.mp h
    obtain ⟨secret, -, hcreate⟩ := bind_eq_ok_iff.mp h
    exact valid_of_create hcreate
  · cases h

end PrivateKey

/-! ## Public keys -/

namespace PublicKey

def Valid (key : PublicKey S) : Prop := S.g2.Usable key.element

variable {key : PublicKey S}

theorem valid_of_create {element : S.g2.Element} (h : create element = .ok key) : key.Valid := by
  obtain ⟨⟨⟩, husable, h⟩ := bind_eq_ok_iff.mp h
  cases h
  exact PairingGroup.usable_of_requireUsable husable

theorem valid_of_ofCoordinates {coordinates : List String}
    (h : ofCoordinates coordinates = .ok key) : key.Valid := by
  obtain ⟨-, h⟩ := guard_eq_ok_iff.mp h
  obtain ⟨-, h⟩ := guard_eq_ok_iff.mp h
  obtain ⟨element, -, hcreate⟩ := bind_eq_ok_iff.mp h
  exact valid_of_create hcreate

theorem valid_of_parse {text : String} (h : parse text = .ok key) : key.Valid := by
  unfold parse at h
  split at h
  · cases h
  · exact valid_of_ofCoordinates h

theorem valid_of_ofShares {shares : IndexMap (PublicKeyShare S)} {params : Params}
    (h : ofShares shares params = .ok key) : key.Valid := by
  obtain ⟨-, h⟩ := guard_eq_ok_iff.mp h
  obtain ⟨-, -, h⟩ := bind_eq_ok_iff.mp h
  obtain ⟨coefficients, -, hcreate⟩ := bind_eq_ok_iff.mp h
  exact valid_of_create hcreate

theorem valid_of_ofCommitments {commitments : List (Commitment S)}
    (h : ofCommitments commitments = .ok key) : key.Valid := by
  obtain ⟨-, h⟩ := guard_eq_ok_iff.mp h
  obtain ⟨element, -, hcreate⟩ := bind_eq_ok_iff.mp h
  exact valid_of_create hcreate

end PublicKey

theorem PrivateKey.Valid.publicKey [S.Lawful] {key : PrivateKey S} (h : key.Valid) :
    key.publicKey.Valid :=
  PairingGroup.usable_of_requireUsable (Suite.Lawful.g2_cyclic.requireUsable_multiple h)

/-! ## Signatures -/

def Signature.Valid (signature : Signature S) : Prop := S.g1.Usable signature.element

theorem Signature.Checked.valid {signature : Signature S} (h : signature.Checked) :
    signature.Valid :=
  PairingGroup.usable_of_requireUsable h.usable

/-! ## Shares -/

namespace PrivateKeyShare

structure Valid (share : PrivateKeyShare S) : Prop where
  key : share.key.Valid
  index : share.params.InRange share.index

variable {share : PrivateKeyShare S} {index : UInt16} {params : Params}

theorem valid_of_ofKey {key : PrivateKey S} (hkey : key.Valid)
    (h : ofKey key index params = .ok share) : share.Valid := by
  obtain ⟨⟨⟩, hindex, h⟩ := bind_eq_ok_iff.mp h
  cases h
  exact ⟨hkey, Params.inRange_of_requireIndex hindex⟩

theorem valid_of_create {scalar : S.Scalar} (h : create scalar index params = .ok share) :
    share.Valid := by
  obtain ⟨hindex, key, hkey, rfl⟩ := Params.exists_of_marked h
  exact ⟨PrivateKey.valid_of_create hkey, hindex⟩

theorem valid_of_parse {text : String} (h : parse text index params = .ok share) :
    share.Valid := by
  obtain ⟨hindex, key, hkey, rfl⟩ := Params.exists_of_marked h
  exact ⟨PrivateKey.valid_of_parse hkey, hindex⟩

theorem valid_of_assembleShare {participant : Participant S} {values : List S.Scalar}
    (h : participant.assembleShare index values = .ok share) : share.Valid := by
  obtain ⟨-, h⟩ := guard_eq_ok_iff.mp h
  obtain ⟨scalar, -, hcreate⟩ := bind_eq_ok_iff.mp h
  exact valid_of_create hcreate

end PrivateKeyShare

namespace PublicKeyShare

structure Valid (share : PublicKeyShare S) : Prop where
  key : share.key.Valid
  index : share.params.InRange share.index

variable {share : PublicKeyShare S} {index : UInt16} {params : Params}

theorem valid_of_ofKey {key : PublicKey S} (hkey : key.Valid)
    (h : ofKey key index params = .ok share) : share.Valid := by
  obtain ⟨⟨⟩, hindex, h⟩ := bind_eq_ok_iff.mp h
  cases h
  exact ⟨hkey, Params.inRange_of_requireIndex hindex⟩

theorem valid_of_create {element : S.g2.Element} (h : create element index params = .ok share) :
    share.Valid := by
  obtain ⟨hindex, key, hkey, rfl⟩ := Params.exists_of_marked h
  exact ⟨PublicKey.valid_of_create hkey, hindex⟩

theorem valid_of_ofCoordinates {coordinates : List String}
    (h : ofCoordinates coordinates index params = .ok share) : share.Valid := by
  obtain ⟨hindex, key, hkey, rfl⟩ := Params.exists_of_marked h
  exact ⟨PublicKey.valid_of_ofCoordinates hkey, hindex⟩

theorem valid_of_parse {text : String} (h : parse text index params = .ok share) :
    share.Valid := by
  obtain ⟨hindex, key, hkey, rfl⟩ := Params.exists_of_marked h
  exact ⟨PublicKey.valid_of_parse hkey, hindex⟩

theorem valid_of_ofCommitments {commitments : List (Commitment S)}
    (h : ofCommitments index commitments params = .ok share) : share.Valid := by
  obtain ⟨⟨⟩, -, h⟩ := bind_eq_ok_iff.mp h
  obtain ⟨-, h⟩ := guard_eq_ok_iff.mp h
  exact valid_of_create h

end PublicKeyShare

theorem PrivateKeyShare.Valid.publicKeyShare [S.Lawful] {share : PrivateKeyShare S}
    (h : share.Valid) : share.publicKeyShare.Valid :=
  ⟨h.key.publicKey, h.index⟩

structure SignatureShare.Valid (share : SignatureShare S) : Prop where
  signature : share.signature.Valid
  index : share.params.InRange share.index

theorem SignatureShare.WellFormed.valid {share : SignatureShare S} (h : share.WellFormed) :
    share.Valid where
  signature := PairingGroup.usable_of_requireUsable h.usable
  index := Params.inRange_of_requireIndex
    (Params.requireIndex_eq_ok_iff.mpr ⟨h.index_ne_zero, h.index_le⟩)

theorem SignatureShare.valid_of_ofSignature {signature : Signature S} {index : UInt16}
    {params : Params} {share : SignatureShare S} (hsignature : signature.Valid)
    (h : ofSignature signature index params = .ok share) : share.Valid := by
  obtain ⟨hindex, rfl⟩ := ofSignature_eq_ok_iff.mp h
  exact ⟨hsignature, Params.inRange_of_requireIndex hindex⟩

/-! ## Collections -/

namespace IndexMap

variable {α : Type} {P : UInt16 × α → Prop}

theorem forall_insert {map : IndexMap α} {index : UInt16} {value : α}
    (hmap : ∀ entry ∈ map.entries, P entry) (hnew : P (index, value)) :
    ∀ entry ∈ (map.insert index value).entries, P entry := by
  intro entry hentry
  rcases mem_insertEntry hentry with rfl | hold
  · exact hnew
  · exact hmap entry hold

theorem forall_ofList {entries : List (UInt16 × α)} (h : ∀ entry ∈ entries, P entry) :
    ∀ entry ∈ (ofList entries).entries, P entry := by
  have hfold : ∀ map : IndexMap α, (∀ entry ∈ map.entries, P entry) →
      ∀ entry ∈ (entries.foldl (fun map entry => map.insert entry.1 entry.2) map).entries,
        P entry := by
    induction entries with
    | nil => exact fun _ hmap => hmap
    | cons first rest ih =>
        intro map hmap
        rw [List.forall_mem_cons] at h
        exact ih h.2 _ (forall_insert hmap h.1)
  exact hfold empty nofun

end IndexMap

structure KeyPackage.Valid (package : KeyPackage S) : Prop where
  publicKey : package.publicKey.Valid
  publicKeyShares : ∀ entry ∈ package.publicKeyShares.entries, entry.2.Valid

theorem Dealing.valid_of_ofSamples [S.Lawful] {params : Params} {samples : List S.Scalar}
    {dealing : Dealing S} (h : ofSamples params samples = .ok dealing) :
    (∀ entry ∈ dealing.shares.entries, entry.2.Valid) ∧ dealing.package.Valid := by
  obtain ⟨f, -, h⟩ := bind_eq_ok_iff.mp h
  obtain ⟨values, -, h⟩ := bind_eq_ok_iff.mp h
  obtain ⟨shares, hshares, h⟩ := bind_eq_ok_iff.mp h
  obtain ⟨publicKey, hpublicKey, h⟩ := bind_eq_ok_iff.mp h
  cases h
  have hvalid : ∀ share ∈ shares, share.Valid := by
    intro share hshare
    obtain ⟨value, -, hcreate⟩ := exists_of_mapM_eq_ok hshares hshare
    exact PrivateKeyShare.valid_of_create hcreate
  refine ⟨IndexMap.forall_ofList ?_, PublicKey.valid_of_create hpublicKey,
    IndexMap.forall_ofList ?_⟩
  · simpa using hvalid
  · simpa using fun share hshare => (hvalid share hshare).publicKeyShare

end ThresholdBls
