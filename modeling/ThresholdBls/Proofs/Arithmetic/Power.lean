import Mathlib
import ThresholdBls.Binary

/-!
# Walks along binary digits

A walk along the digits of `n` keeps every relation between a number and a
state that doubling and adding respect.  Powers are the first instance; the
multiples of curve points are the second.
-/

namespace ThresholdBls.Binary

/-- The number that a list of digits denotes, read after a number `n`. -/
def valueAfter (n : Nat) (digits : List Bool) : Nat :=
  digits.foldl (fun n bit => if bit then 2 * n + 1 else 2 * n) n

theorem valueAfter_lowBits (start n k : Nat) :
    valueAfter start (lowBits n k) = 2 ^ k * start + n % 2 ^ k := by
  induction k generalizing start with
  | zero => simp [lowBits, valueAfter, Nat.mod_one]
  | succ k ih =>
      have hmod : n % 2 ^ (k + 1) = n % 2 ^ k + 2 ^ k * (n.testBit k).toNat := by
        rw [Nat.mod_pow_succ, Nat.toNat_testBit]
      have hstep : valueAfter start (lowBits n (k + 1)) =
          valueAfter (2 * start + (n.testBit k).toNat) (lowBits n k) := by
        cases hbit : n.testBit k <;> simp [lowBits, valueAfter, hbit]
      rw [hstep, ih, hmod, pow_succ]
      ring

theorem valueAfter_bits (n : Nat) : valueAfter 0 (bits n) = n := by
  rw [bits, valueAfter_lowBits, Nat.mod_eq_of_lt Nat.lt_log2_self]
  omega

section Walk

variable {α : Type} {double add : α → α} (Holds : Nat → α → Prop)

theorem foldl_walk (hdouble : ∀ n a, Holds n a → Holds (2 * n) (double a))
    (hadd : ∀ n a, Holds n a → Holds (n + 1) (add a)) (digits : List Bool)
    {n : Nat} {a : α} (h : Holds n a) :
    Holds (valueAfter n digits) (digits.foldl
      (fun acc bit => if bit then add (double acc) else double acc) a) := by
  induction digits generalizing n a with
  | nil => exact h
  | cons bit rest ih =>
      have hdoubled := hdouble n a h
      cases bit with
      | false => exact ih hdoubled
      | true => exact ih (hadd _ _ hdoubled)

theorem walk_induction {start : α} (hstart : Holds 0 start)
    (hdouble : ∀ n a, Holds n a → Holds (2 * n) (double a))
    (hadd : ∀ n a, Holds n a → Holds (n + 1) (add a)) (n : Nat) :
    Holds n (walk double add start n) := by
  have h := foldl_walk Holds hdouble hadd (bits n) hstart
  rwa [valueAfter_bits] at h

end Walk

theorem power_eq_pow {α : Type} [Monoid α] (x : α) (n : Nat) : power x n = x ^ n := by
  refine walk_induction (fun k acc => acc = x ^ k) (pow_zero x).symm ?_ ?_ n
  · rintro k acc rfl
    rw [← pow_add, two_mul]
  · rintro k acc rfl
    exact (pow_succ x k).symm

end ThresholdBls.Binary
