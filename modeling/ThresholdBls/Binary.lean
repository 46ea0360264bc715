/-!
# Repeated squaring

Powers are computed along the binary digits of the exponent, highest first.  The same walk gives
multiples in an additive group.
-/

namespace ThresholdBls.Binary

def lowBits (n : Nat) : Nat → List Bool
  | 0 => []
  | k + 1 => n.testBit k :: lowBits n k

/-- The binary digits of `n`, highest first; zero is written as one digit. -/
def bits (n : Nat) : List Bool :=
  lowBits n (n.log2 + 1)

/-- Doubles along the digits of `n`, starting from `start`, and adds wherever a digit is one. -/
@[specialize] def walk {α : Type} (double add : α → α) (start : α) (n : Nat) : α :=
  (bits n).foldl (fun acc bit => if bit then add (double acc) else double acc) start

@[specialize] def power {α : Type} [One α] [Mul α] (x : α) (n : Nat) : α :=
  walk (fun acc => acc * acc) (fun acc => acc * x) 1 n

end ThresholdBls.Binary
