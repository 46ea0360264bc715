import ThresholdBls.Text.Hex

/-!
# Message digests

A digest is a string of thirty-two bytes; every signature is made on a digest.
-/

namespace ThresholdBls

structure Digest where
  bytes : List UInt8
  length_bytes : bytes.length = 32
deriving DecidableEq, Repr

namespace Digest

def ofBytes? (bytes : List UInt8) : Option Digest :=
  if h : bytes.length = 32 then some ⟨bytes, h⟩ else none

/-- The number whose big-endian bytes are the digest. -/
def toNat (d : Digest) : Nat :=
  d.bytes.foldl (fun n b => 256 * n + b.toNat) 0

def toHex (d : Digest) : String :=
  Hex.encode d.bytes

end Digest

end ThresholdBls
