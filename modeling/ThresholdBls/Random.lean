import ThresholdBls.Residue

/-!
# Random field elements

A generator yields a given list of words and then the words of the SplitMix64 sequence of a seed.
A field element is drawn from four words: the integer they form, lowest word first and cut to the
bit length of the modulus, is dropped unless it is below the modulus, and stands for its quotient
by `2 ^ 256`.
-/

namespace ThresholdBls

structure Generator where
  words : List UInt64
  seed : UInt64
deriving DecidableEq, Repr

namespace Generator

def scramble (state : UInt64) : UInt64 :=
  let z := (state ^^^ (state >>> 30)) * 0xBF58476D1CE4E5B9
  let z := (z ^^^ (z >>> 27)) * 0x94D049BB133111EB
  z ^^^ (z >>> 31)

def next (g : Generator) : UInt64 × Generator :=
  match g.words with
  | w :: rest => (w, { g with words := rest })
  | [] =>
      let state := g.seed + 0x9E3779B97F4A7C15
      (scramble state, { g with seed := state })

/-- The integer of the next four words, lowest word first. -/
def nextInteger (g : Generator) : Nat × Generator :=
  let (a, g) := g.next
  let (b, g) := g.next
  let (c, g) := g.next
  let (d, g) := g.next
  ([a, b, c, d].foldr (fun word n => word.toNat + UInt64.size * n) 0, g)

/-- The elements among the next `attempts` draws, at most `count` of them. -/
def draw (m : Nat) [Modulus m] : (attempts count : Nat) → Generator → List (Residue m)
  | 0, _, _ => []
  | _, 0, _ => []
  | attempts + 1, count + 1, g =>
      let (n, g) := g.nextInteger
      let n := n % Nat.pow 2 (m.log2 + 1)
      if n < m then
        Residue.ofNat m n * (Residue.ofNat m (Nat.pow 2 256))⁻¹ :: draw m attempts count g
      else
        draw m attempts (count + 1) g

/-- The first `count` elements drawn.  Four words at a time, the sequence of a seed comes round
after `2 ^ 62` draws, so no longer search would find more. -/
def elements (g : Generator) (m : Nat) [Modulus m] (count : Nat) : List (Residue m) :=
  draw m (g.words.length + Nat.pow 2 62) count g

/-- Elements enough to hold `count` nonzero ones.  Two successive words of a seed's sequence are
never both zero, so a zero element takes words of the given list. -/
def supply (g : Generator) (m : Nat) [Modulus m] (count : Nat) : List (Residue m) :=
  g.elements m (count + g.words.length / 4 + 1)

end Generator

end ThresholdBls
