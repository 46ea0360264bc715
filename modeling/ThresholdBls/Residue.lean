import ThresholdBls.Binary
import ThresholdBls.Error
import ThresholdBls.Text.Decimal

/-!
# Residues

The elements of the ring of integers modulo `m`, each kept as its representative below `m`.  For
a prime modulus they form a field, and the inverse of an element is its power `m - 2`.
-/

namespace ThresholdBls

class Modulus (m : Nat) : Prop where
  pos : 0 < m

structure Residue (m : Nat) where
  val : Nat
  val_lt : val < m
deriving DecidableEq, Repr

namespace Residue

variable {m : Nat} [Modulus m]

def ofNat (m : Nat) [Modulus m] (n : Nat) : Residue m :=
  ⟨n % m, Nat.mod_lt n Modulus.pos⟩

instance : Zero (Residue m) := ⟨ofNat m 0⟩

instance : One (Residue m) := ⟨ofNat m 1⟩

protected def add (a b : Residue m) : Residue m := ofNat m (a.val + b.val)

protected def neg (a : Residue m) : Residue m := ofNat m (m - a.val)

protected def sub (a b : Residue m) : Residue m := ofNat m (a.val + (m - b.val))

protected def mul (a b : Residue m) : Residue m := ofNat m (a.val * b.val)

instance : Add (Residue m) := ⟨Residue.add⟩

instance : Neg (Residue m) := ⟨Residue.neg⟩

instance : Sub (Residue m) := ⟨Residue.sub⟩

instance : Mul (Residue m) := ⟨Residue.mul⟩

/-- The inverse for a prime modulus; that of zero is zero. -/
protected def inv (a : Residue m) : Residue m := Binary.power a (m - 2)

instance : Inv (Residue m) := ⟨Residue.inv⟩

def inverse (a : Residue m) : Except FieldError (Residue m) :=
  if a = 0 then .error .zeroScalar else .ok a⁻¹

def sum (xs : List (Residue m)) : Residue m :=
  xs.foldl (· + ·) 0

omit [Modulus m] in
def toDecimal (a : Residue m) : String :=
  Decimal.render a.val

omit [Modulus m] in
def ofDecimal (s : String) : Except FieldError (Residue m) :=
  match Decimal.parse? s with
  | some n => if h : n < m then .ok ⟨n, h⟩ else .error .malformedScalar
  | none => .error .malformedScalar

end Residue

end ThresholdBls
