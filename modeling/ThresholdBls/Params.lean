import ThresholdBls.Error

/-!
# Threshold parameters

Any `t` of the `n` participants of a scheme can sign.
-/

namespace ThresholdBls

structure Params where
  t : UInt16
  n : UInt16
  one_le_t : 1 ≤ t.toNat
  t_le_n : t.toNat ≤ n.toNat
deriving DecidableEq, Repr

namespace Params

def create (t n : UInt16) : Except Error Params :=
  if h : 1 ≤ t.toNat ∧ t.toNat ≤ n.toNat then .ok ⟨t, n, h.1, h.2⟩ else .error .thresholdOutOfRange

def requireIndex (params : Params) (index : UInt16) : Except Error Unit :=
  if index = 0 ∨ params.n < index then .error (.indexOutOfRange index) else .ok ()

def requireSame (params other : Params) : Except Error Unit :=
  if params = other then .ok () else .error .thresholdMismatch

def describe (params : Params) : String :=
  "ThresholdParams \x7b t: " ++ toString params.t.toNat ++ ", n: " ++ toString params.n.toNat
    ++ " \x7d"

end Params

end ThresholdBls
