/-!
# Causes of failure

Three families of errors: those of field elements, those of group elements, and those of the
threshold scheme itself.  The wording of each stands in one function.
-/

namespace ThresholdBls

/-- What a caller can do about an error: mend the call, discard the object, or raise an alarm
about a degenerate key. -/
inductive ErrorKind
  | misuse
  | badElement
  | zeroSecret
deriving DecidableEq, Repr

inductive Layout
  | privateKeyDigits
  | publicKeyDigits
  | signatureLength
  | signatureSegments
  | signatureX
  | signatureY
  | hintSegments
  | hintY
  | hintShift
  | hintShiftZeros
deriving DecidableEq, Repr

inductive FieldError
  | malformedScalar
  | zeroScalar
deriving DecidableEq, Repr

inductive GroupError
  | malformedElement
  | identityElement
  | nonPrimeOrderElement
deriving DecidableEq, Repr

inductive Error
  | thresholdOutOfRange
  | indexOutOfRange (index : UInt16)
  | duplicatedIndex (index : UInt16)
  | tooFewShares (expected got : Nat)
  | lengthMismatch (left right : Nat)
  | thresholdMismatch
  | emptyInput
  | malformedString (part : Layout)
  | zeroLeadingCoefficient
  | alreadyMerged
  | malformedScalar
  | malformedElement
  | identityElement
  | nonPrimeOrderElement
  | hintMismatch
  | zeroSecret
deriving DecidableEq, Repr

def Layout.message : Layout → String
  | .privateKeyDigits => "private key must be a decimal number"
  | .publicKeyDigits => "public key coordinate must be a decimal number"
  | .signatureLength => "signature length out of range"
  | .signatureSegments => "signature must have four segments"
  | .signatureX => "signature X coordinate"
  | .signatureY => "signature Y coordinate"
  | .hintSegments => "hint must have two segments"
  | .hintY => "hint y coordinate"
  | .hintShift => "hint shift"
  | .hintShiftZeros => "hint shift has leading zeros"

def FieldError.message : FieldError → String
  | .malformedScalar => "Malformed scalar encoding."
  | .zeroScalar => "Invalid for this scalar to be zero."

def GroupError.message : GroupError → String
  | .malformedElement => "Malformed group element encoding."
  | .identityElement => "Invalid for this element to be the identity."
  | .nonPrimeOrderElement => "Invalid for this element to not have large prime order."

namespace Error

def message : Error → String
  | .thresholdOutOfRange => "threshold t must be at least 1 and not larger than n"
  | .indexOutOfRange index => "signer index " ++ toString index.toNat ++ " is out of range"
  | .duplicatedIndex index => "duplicated signer index " ++ toString index.toNat
  | .tooFewShares expected got =>
      "expected at least " ++ toString expected ++ " shares, got " ++ toString got
  | .lengthMismatch left right => "length mismatch: " ++ toString left ++ " != " ++ toString right
  | .thresholdMismatch => "threshold parameters do not match"
  | .emptyInput => "empty input"
  | .malformedString part => "malformed string encoding: " ++ part.message
  | .zeroLeadingCoefficient => "incorrect degree of a polynomial"
  | .alreadyMerged => "signature shares were already merged"
  | .malformedScalar => "malformed scalar encoding"
  | .malformedElement => "malformed group element encoding"
  | .identityElement => "invalid for this element to be the identity"
  | .nonPrimeOrderElement => "element is not in the prime order subgroup"
  | .hintMismatch => "hint does not match the message hash"
  | .zeroSecret => "secret key is zero"

def kind : Error → ErrorKind
  | .malformedElement | .identityElement | .nonPrimeOrderElement | .hintMismatch => .badElement
  | .zeroSecret => .zeroSecret
  | _ => .misuse

/-- A zero scalar where a scheme needs a nonzero one is a zero secret key. -/
def ofField : FieldError → Error
  | .malformedScalar => .malformedScalar
  | .zeroScalar => .zeroSecret

def ofGroup : GroupError → Error
  | .malformedElement => .malformedElement
  | .identityElement => .identityElement
  | .nonPrimeOrderElement => .nonPrimeOrderElement

end Error

end ThresholdBls
