import ThresholdBls.Key.Package
import ThresholdBls.Sharing.Commitment
import ThresholdBls.Wire.Decode

/-!
# Wire forms

The JSON form of each value.  Keys and signatures are strings in their written form, parameters,
shares and packages are records, and commitments are lists of lists of numerals.
-/

namespace ThresholdBls.Wire

open Json (Document)

structure Form (α : Type) where
  encode : α → Except GroupError Json
  decode : Origin → Document → Decoded α

namespace Form

variable {α : Type} (form : Form α)

def ofValue (value : Json) : Decoded α :=
  form.decode .value (.ofValue value)

def ofText (text : String) : Decoded α := do
  let (document, rest) := Document.ofText text
  let value ← form.decode .text document
  match rest.map Document.skipBlanks with
  | some [] => return value
  | _ => throw (.fault .malformed)

def toText (a : α) : Except GroupError String := do
  return (← form.encode a).render

end Form

def checked {α : Type} (result : Except Error α) : Decoded α :=
  result.mapError fun error => .data (.scheme error)

def ofString {α : Type} (render : α → Except GroupError String) (parse : String → Except Error α) :
    Form α where
  encode a := do return .string (← render a)
  decode _ document := do checked (parse (← string document))

/-! ## Parameters -/

structure ParamsDraft where
  t : Option UInt16
  n : Option UInt16

/-- Parameters; other fields are skipped. -/
def paramsRecord : Record ParamsDraft Params where
  name := "RawThresholdParams"
  fields := [
    ⟨"t", (·.t.isSome), fun document draft => do return { draft with t := ← index16 document }⟩,
    ⟨"n", (·.n.isSome), fun document draft => do return { draft with n := ← index16 document }⟩]
  strict := false
  empty := ⟨none, none⟩
  finish draft := do
    let t ← required "t" draft.t
    let n ← required "n" draft.n
    checked (Params.create t n)

def encodeParams (params : Params) : Json :=
  .object [("t", .ofNat params.t.toNat), ("n", .ofNat params.n.toNat)]

def params : Form Params where
  encode params := .ok (encodeParams params)
  decode := paramsRecord.decode

/-! ## Keys and signatures -/

variable {S : Suite}

def privateKey : Form (PrivateKey S) :=
  ofString (fun key => .ok key.render) PrivateKey.parse

def publicKey : Form (PublicKey S) :=
  ofString PublicKey.render PublicKey.parse

def signature : Form (Signature S) :=
  ofString Signature.render Signature.parse

/-! ## Shares -/

structure ShareDraft (α : Type) where
  index : Option UInt16
  params : Option Params
  value : Option α

def shareRecord {α β : Type} (origin : Origin) (form : Form α)
    (mark : α → UInt16 → Params → Except Error β) : Record (ShareDraft α) β where
  name := "ShareParts"
  fields := [
    ⟨"index", (·.index.isSome), fun document draft => do
      return { draft with index := ← index16 document }⟩,
    ⟨"params", (·.params.isSome), fun document draft => do
      return { draft with params := ← params.decode origin document }⟩,
    ⟨"value", (·.value.isSome), fun document draft => do
      return { draft with value := ← form.decode origin document }⟩]
  strict := true
  empty := ⟨none, none, none⟩
  finish draft := do
    let index ← required "index" draft.index
    let params ← required "params" draft.params
    let value ← required "value" draft.value
    checked (mark value index params)

def encodeShare (index : UInt16) (params : Params) (value : Json) : Json :=
  .object [("index", .ofNat index.toNat), ("params", encodeParams params), ("value", value)]

def privateKeyShare : Form (PrivateKeyShare S) where
  encode share := do
    return encodeShare share.index share.params (← privateKey.encode share.key)
  decode origin := (shareRecord origin privateKey PrivateKeyShare.ofKey).decode origin

def publicKeyShare : Form (PublicKeyShare S) where
  encode share := do
    return encodeShare share.index share.params (← publicKey.encode share.key)
  decode origin := (shareRecord origin publicKey PublicKeyShare.ofKey).decode origin

def signatureShare : Form (SignatureShare S) where
  encode share := do
    return encodeShare share.index share.params (← signature.encode share.signature)
  decode origin := (shareRecord origin signature SignatureShare.ofSignature).decode origin

/-! ## Packages -/

structure PackageDraft (S : Suite) where
  params : Option Params
  publicKeyShares : Option (IndexMap (PublicKeyShare S))
  publicKey : Option (PublicKey S)

/-- Packages; a share may be filed under any index. -/
def packageRecord (origin : Origin) : Record (PackageDraft S) (KeyPackage S) where
  name := "PublicKeyPackage"
  fields := [
    ⟨"params", (·.params.isSome), fun document draft => do
      return { draft with params := ← params.decode origin document }⟩,
    ⟨"public_key_shares", (·.publicKeyShares.isSome), fun document draft => do
      let shares : IndexMap (PublicKeyShare S) ←
        indexMap origin (publicKeyShare.decode origin) document
      return { draft with publicKeyShares := some shares }⟩,
    ⟨"public_key", (·.publicKey.isSome), fun document draft => do
      let key : PublicKey S ← publicKey.decode origin document
      return { draft with publicKey := some key }⟩]
  strict := true
  empty := ⟨none, none, none⟩
  finish draft := do
    let params ← required "params" draft.params
    let publicKeyShares ← required "public_key_shares" draft.publicKeyShares
    let publicKey ← required "public_key" draft.publicKey
    return { params, publicKeyShares, publicKey }

def publicKeyPackage : Form (KeyPackage S) where
  encode package := do
    let shares ← package.publicKeyShares.entries.mapM fun (index, share) => do
      return (Decimal.render index.toNat, ← publicKeyShare.encode share)
    return .object [
      ("params", encodeParams package.params),
      ("public_key_shares", .object shares),
      ("public_key", ← publicKey.encode package.publicKey)]
  decode origin := (packageRecord origin).decode origin

/-! ## Commitments -/

/-- The lists are read whole before the first element is looked at. -/
def commitment : Form (Commitment S) where
  encode commitment := do
    let rows ← commitment.coordinates
    return .list (rows.map fun row => .list (row.map Json.string))
  decode _ document := do
    let rows ← list (list string) document
    let elements ← (rows.mapM S.g2.ofCoordinates).mapError fun error => .data (.group error)
    return ⟨elements⟩

end ThresholdBls.Wire
