import ThresholdBls.Digest
import ThresholdBls.Hint

/-!
# Cipher suites

A suite supplies two groups of one prime order with a pairing, a hash of messages to digests, and
a hash of digests to the first group.  Signatures live in the first group, public keys in the
second.  The scheme is written over the operations alone.
-/

namespace ThresholdBls

/-- A group of prime order `order`, inside a type whose elements may lie outside the group. -/
structure PairingGroup (order : Nat) where
  Element : Type
  decEq : DecidableEq Element
  identity : Element
  generator : Element
  add : Element → Element → Element
  sub : Element → Element → Element
  mul : Element → Residue order → Element
  /-- Whether an element lies in the group; the identity does. -/
  contains : Element → Bool
  /-- How many numerals name an element. -/
  width : Nat
  /-- The numerals of an element; the identity has none. -/
  toCoordinates : Element → Except GroupError (List String)
  /-- Reads the numerals of an element of the group. -/
  ofCoordinates : List String → Except GroupError Element

namespace PairingGroup

variable {order : Nat} {G : PairingGroup order}

instance : DecidableEq G.Element := G.decEq

instance : Add G.Element := ⟨G.add⟩

instance : Sub G.Element := ⟨G.sub⟩

instance : HMul G.Element (Residue order) G.Element := ⟨G.mul⟩

def requireUsable (G : PairingGroup order) (element : G.Element) : Except Error Unit :=
  if element = G.identity then .error .identityElement
  else if G.contains element then .ok ()
  else .error .nonPrimeOrderElement

def render (G : PairingGroup order) (element : G.Element) : Except GroupError String := do
  return Segments.join (← G.toCoordinates element)

end PairingGroup

structure Suite where
  name : String
  order : Nat
  order_modulus : Modulus order
  fieldSize : Nat
  fieldSize_modulus : Modulus fieldSize
  g1 : PairingGroup order
  g2 : PairingGroup order
  hash : List UInt8 → Digest
  /-- The point of a digest, and the hint that leads to it. -/
  hashPoint : Digest → g1.Element × Hint fieldSize
  /-- The point that a hint describes for a digest. -/
  pointOfHint : Digest → Hint fieldSize → Except Error g1.Element
  /-- Whether the first two and the last two elements pair to the same value. -/
  samePairing : g1.Element → g2.Element → g1.Element → g2.Element → Bool

namespace Suite

instance (S : Suite) : Modulus S.order := S.order_modulus

instance (S : Suite) : Modulus S.fieldSize := S.fieldSize_modulus

abbrev Scalar (S : Suite) : Type := Residue S.order

end Suite

end ThresholdBls
