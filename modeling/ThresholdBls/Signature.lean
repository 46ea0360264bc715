import ThresholdBls.Params
import ThresholdBls.Signing

/-!
# Signatures and signature shares

A signature is a usable element of the first group with the hint of the point it was made on.  It
is written as four numerals, `x:y:hint y:hint shift`.
-/

namespace ThresholdBls

structure Signature (S : Suite) where
  element : S.g1.Element
  hint : Hint S.fieldSize
deriving DecidableEq

namespace Signature

variable {S : Suite}

def minLength : Nat := 10

def maxLength : Nat := 240

def create (element : S.g1.Element) (hint : Hint S.fieldSize) : Except Error (Signature S) := do
  S.g1.requireUsable element
  return ⟨element, hint⟩

def render (signature : Signature S) : Except GroupError String := do
  return Segments.join [← S.g1.render signature.element, signature.hint.render]

def describe (signature : Signature S) : Except GroupError String := do
  return "Signature(\"" ++ (← signature.render) ++ "\")"

def parse (s : String) : Except Error (Signature S) :=
  if s = "" then .error .emptyInput
  else if s.utf8ByteSize < minLength ∨ maxLength < s.utf8ByteSize then
    .error (.malformedString .signatureLength)
  else
    match Segments.split s with
    | [x, y, hintY, hintShift] => do
        if !Decimal.isDigits x then throw (.malformedString .signatureX)
        if !Decimal.isDigits y then throw (.malformedString .signatureY)
        let element ← (S.g1.ofCoordinates [x, y]).mapError .ofGroup
        let hint ← Hint.ofParts hintY hintShift
        create element hint
    | _ => .error (.malformedString .signatureSegments)

end Signature

structure SignatureShare (S : Suite) where
  signature : Signature S
  index : UInt16
  params : Params
deriving DecidableEq

namespace SignatureShare

variable {S : Suite}

def ofSignature (signature : Signature S) (index : UInt16) (params : Params) :
    Except Error (SignatureShare S) := do
  params.requireIndex index
  return ⟨signature, index, params⟩

def create (element : S.g1.Element) (hint : Hint S.fieldSize) (index : UInt16)
    (params : Params) : Except Error (SignatureShare S) := do
  ofSignature (← Signature.create element hint) index params

/-- The text is read before the index is checked. -/
def parse (s : String) (index : UInt16) (params : Params) : Except Error (SignatureShare S) := do
  ofSignature (← Signature.parse s) index params

def render (share : SignatureShare S) : Except GroupError String :=
  share.signature.render

def describe (share : SignatureShare S) : Except GroupError String := do
  return "SignatureShare \x7b signature: " ++ (← share.signature.describe) ++ ", index: "
    ++ toString share.index.toNat ++ ", params: " ++ share.params.describe ++ " \x7d"

end SignatureShare

end ThresholdBls
