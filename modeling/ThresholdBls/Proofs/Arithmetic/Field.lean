import ThresholdBls.Proofs.Arithmetic.Power
import ThresholdBls.Residue

/-!
# Residues as a field

Residues are the integers modulo `m`, and their operations are those of a
commutative ring.  For a prime modulus the power `m - 2` is the inverse, so
that they form a field.
-/

namespace ThresholdBls

/-- An odd prime modulus.  Modulo two the power `m - 2` is no inverse of zero. -/
class PrimeModulus (p : Nat) : Prop extends Modulus p where
  prime : p.Prime
  two_lt : 2 < p

namespace Residue

section Ring

variable {m : Nat} [Modulus m]

omit [Modulus m] in
theorem ext {a b : Residue m} (h : a.val = b.val) : a = b := by
  cases a
  cases b
  simp_all

def toZMod (a : Residue m) : ZMod m := (a.val : ZMod m)

omit [Modulus m] in
theorem toZMod_injective : Function.Injective (toZMod : Residue m → ZMod m) := by
  intro a b h
  have hmod := (ZMod.natCast_eq_natCast_iff' a.val b.val m).mp h
  rw [Nat.mod_eq_of_lt a.val_lt, Nat.mod_eq_of_lt b.val_lt] at hmod
  exact ext hmod

@[simp] theorem val_ofNat (n : Nat) : (ofNat m n).val = n % m := rfl

theorem ofNat_val (a : Residue m) : ofNat m a.val = a :=
  ext (Nat.mod_eq_of_lt a.val_lt)

@[simp] theorem toZMod_ofNat (n : Nat) : toZMod (ofNat m n) = (n : ZMod m) :=
  ZMod.natCast_mod n m

@[simp] theorem toZMod_zero : toZMod (0 : Residue m) = 0 := by
  change toZMod (ofNat m 0) = 0
  simp

@[simp] theorem toZMod_one : toZMod (1 : Residue m) = 1 := by
  change toZMod (ofNat m 1) = 1
  simp

@[simp] theorem toZMod_add (a b : Residue m) :
    toZMod (a + b) = toZMod a + toZMod b := by
  change toZMod (ofNat m (a.val + b.val)) = _
  simp [toZMod]

@[simp] theorem toZMod_mul (a b : Residue m) :
    toZMod (a * b) = toZMod a * toZMod b := by
  change toZMod (ofNat m (a.val * b.val)) = _
  simp [toZMod]

@[simp] theorem toZMod_neg (a : Residue m) : toZMod (-a) = -toZMod a := by
  change toZMod (ofNat m (m - a.val)) = _
  rw [toZMod_ofNat, Nat.cast_sub a.val_lt.le, ZMod.natCast_self, zero_sub]
  rfl

@[simp] theorem toZMod_sub (a b : Residue m) :
    toZMod (a - b) = toZMod a - toZMod b := by
  change toZMod (ofNat m (a.val + (m - b.val))) = _
  rw [toZMod_ofNat, Nat.cast_add, Nat.cast_sub b.val_lt.le, ZMod.natCast_self,
    zero_sub, ← sub_eq_add_neg]
  rfl

instance : CommRing (Residue m) where
  add_assoc a b c := toZMod_injective (by simp [add_assoc])
  zero_add a := toZMod_injective (by simp)
  add_zero a := toZMod_injective (by simp)
  add_comm a b := toZMod_injective (by simp [add_comm])
  mul_assoc a b c := toZMod_injective (by simp [mul_assoc])
  one_mul a := toZMod_injective (by simp)
  mul_one a := toZMod_injective (by simp)
  mul_comm a b := toZMod_injective (by simp [mul_comm])
  zero_mul a := toZMod_injective (by simp)
  mul_zero a := toZMod_injective (by simp)
  left_distrib a b c := toZMod_injective (by simp [mul_add])
  right_distrib a b c := toZMod_injective (by simp [add_mul])
  neg_add_cancel a := toZMod_injective (by simp)
  sub_eq_add_neg a b := toZMod_injective (by simp [sub_eq_add_neg])
  nsmul := nsmulRec
  zsmul := zsmulRec
  natCast := ofNat m
  natCast_zero := rfl
  natCast_succ n := toZMod_injective (by simp)

theorem natCast_eq (n : Nat) : (n : Residue m) = ofNat m n := rfl

theorem natCast_val (a : Residue m) : (a.val : Residue m) = a := ofNat_val a

theorem val_zero : (0 : Residue m).val = 0 := Nat.zero_mod m

theorem natCast_eq_natCast_iff (j k : Nat) :
    (j : Residue m) = (k : Residue m) ↔ j % m = k % m := by
  rw [natCast_eq, natCast_eq, ofNat, ofNat, Residue.mk.injEq]

def toZModHom (m : Nat) [Modulus m] : Residue m →+* ZMod m where
  toFun := toZMod
  map_zero' := toZMod_zero
  map_one' := toZMod_one
  map_add' := toZMod_add
  map_mul' := toZMod_mul

def equivFin (m : Nat) : Residue m ≃ Fin m where
  toFun a := ⟨a.val, a.val_lt⟩
  invFun k := ⟨k.val, k.isLt⟩
  left_inv _ := rfl
  right_inv _ := rfl

instance : Fintype (Residue m) := Fintype.ofEquiv (Fin m) (equivFin m).symm

omit [Modulus m] in
theorem card_eq : Fintype.card (Residue m) = m := by
  rw [Fintype.card_congr (equivFin m), Fintype.card_fin]

theorem sum_eq (xs : List (Residue m)) : Residue.sum xs = xs.sum := by
  rw [Residue.sum, List.sum_eq_foldl]

end Ring

section Prime

variable {p : Nat} [PrimeModulus p]

theorem mul_inv_of_ne_zero {a : Residue p} (ha : a ≠ 0) : a * a⁻¹ = 1 := by
  have : Fact p.Prime := ⟨PrimeModulus.prime⟩
  have hclass : toZMod a ≠ 0 := by
    intro h
    exact ha (toZMod_injective (h.trans toZMod_zero.symm))
  have hexponent : p - 2 + 1 = p - 1 := by
    have := PrimeModulus.two_lt (p := p)
    omega
  apply toZMod_injective
  change toZModHom p (a * Binary.power a (p - 2)) = toZModHom p 1
  rw [Binary.power_eq_pow, ← pow_succ', hexponent, map_pow, map_one]
  exact ZMod.pow_card_sub_one_eq_one hclass

theorem inv_zero_eq : (0 : Residue p)⁻¹ = 0 := by
  change Binary.power (0 : Residue p) (p - 2) = 0
  have hexponent : p - 2 ≠ 0 := by
    have := PrimeModulus.two_lt (p := p)
    omega
  rw [Binary.power_eq_pow, zero_pow hexponent]

theorem zero_ne_one_of_prime : (0 : Residue p) ≠ 1 := by
  intro h
  have hval : 0 % p = 1 % p := congrArg Residue.val h
  rw [Nat.zero_mod, Nat.mod_eq_of_lt PrimeModulus.prime.one_lt] at hval
  omega

instance : Field (Residue p) where
  exists_pair_ne := ⟨0, 1, zero_ne_one_of_prime⟩
  mul_inv_cancel _ := mul_inv_of_ne_zero
  inv_zero := inv_zero_eq
  nnqsmul := _
  qsmul := _

theorem inverse_of_ne_zero {a : Residue p} (ha : a ≠ 0) : a.inverse = .ok a⁻¹ :=
  if_neg ha

end Prime

end Residue

end ThresholdBls
