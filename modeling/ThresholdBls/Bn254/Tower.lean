import ThresholdBls.Bn254.Field

/-!
# The extension tower

`Fq2 = Fq[u] / (u² + 1)`, `Fq6 = Fq2[v] / (v³ - ξ)` with `ξ = 9 + u`, and
`Fq12 = Fq6[w] / (w² - v)`.  The second group lives over `Fq2`, pairing values in `Fq12`.
-/

namespace ThresholdBls.Bn254

/-- The element `c0 + c1 u`. -/
structure Fq2 where
  c0 : Fq
  c1 : Fq
deriving DecidableEq, Repr

namespace Fq2

instance : Zero Fq2 := ⟨⟨0, 0⟩⟩

instance : One Fq2 := ⟨⟨1, 0⟩⟩

protected def add (a b : Fq2) : Fq2 := ⟨a.c0 + b.c0, a.c1 + b.c1⟩

protected def sub (a b : Fq2) : Fq2 := ⟨a.c0 - b.c0, a.c1 - b.c1⟩

protected def neg (a : Fq2) : Fq2 := ⟨-a.c0, -a.c1⟩

instance : Add Fq2 := ⟨Fq2.add⟩

instance : Sub Fq2 := ⟨Fq2.sub⟩

instance : Neg Fq2 := ⟨Fq2.neg⟩

protected def mul (a b : Fq2) : Fq2 :=
  ⟨a.c0 * b.c0 - a.c1 * b.c1, a.c0 * b.c1 + a.c1 * b.c0⟩

instance : Mul Fq2 := ⟨Fq2.mul⟩

def conjugate (a : Fq2) : Fq2 := ⟨a.c0, -a.c1⟩

def scale (a : Fq2) (k : Fq) : Fq2 := ⟨a.c0 * k, a.c1 * k⟩

protected def inv (a : Fq2) : Fq2 :=
  a.conjugate.scale (a.c0 * a.c0 + a.c1 * a.c1)⁻¹

instance : Inv Fq2 := ⟨Fq2.inv⟩

/-- The number `9 + u`, which is neither a square nor a cube. -/
def xi : Fq2 := ⟨Residue.ofNat fieldSize 9, 1⟩

def mulXi (a : Fq2) : Fq2 :=
  let nine (x : Fq) : Fq :=
    let two := x + x
    let four := two + two
    four + four + x
  ⟨nine a.c0 - a.c1, nine a.c1 + a.c0⟩

end Fq2

def twistB : Fq2 := Fq2.mk b 0 * Fq2.xi⁻¹

structure Fq6 where
  c0 : Fq2
  c1 : Fq2
  c2 : Fq2
deriving DecidableEq, Repr

namespace Fq6

instance : Zero Fq6 := ⟨⟨0, 0, 0⟩⟩

instance : One Fq6 := ⟨⟨1, 0, 0⟩⟩

protected def add (a b : Fq6) : Fq6 := ⟨a.c0 + b.c0, a.c1 + b.c1, a.c2 + b.c2⟩

protected def sub (a b : Fq6) : Fq6 := ⟨a.c0 - b.c0, a.c1 - b.c1, a.c2 - b.c2⟩

protected def neg (a : Fq6) : Fq6 := ⟨-a.c0, -a.c1, -a.c2⟩

protected def mul (a b : Fq6) : Fq6 :=
  let p0 := a.c0 * b.c0
  let p1 := a.c1 * b.c1
  let p2 := a.c2 * b.c2
  ⟨p0 + ((a.c1 + a.c2) * (b.c1 + b.c2) - p1 - p2).mulXi,
   (a.c0 + a.c1) * (b.c0 + b.c1) - p0 - p1 + p2.mulXi,
   (a.c0 + a.c2) * (b.c0 + b.c2) - p0 - p2 + p1⟩

instance : Add Fq6 := ⟨Fq6.add⟩

instance : Sub Fq6 := ⟨Fq6.sub⟩

instance : Neg Fq6 := ⟨Fq6.neg⟩

instance : Mul Fq6 := ⟨Fq6.mul⟩

def mulV (a : Fq6) : Fq6 := ⟨a.c2.mulXi, a.c0, a.c1⟩

def scale (a : Fq6) (k : Fq2) : Fq6 := ⟨a.c0 * k, a.c1 * k, a.c2 * k⟩

protected def inv (a : Fq6) : Fq6 :=
  let t0 := a.c0 * a.c0 - (a.c1 * a.c2).mulXi
  let t1 := (a.c2 * a.c2).mulXi - a.c0 * a.c1
  let t2 := a.c1 * a.c1 - a.c0 * a.c2
  let norm := a.c0 * t0 + (a.c2 * t1 + a.c1 * t2).mulXi
  (Fq6.mk t0 t1 t2).scale norm⁻¹

instance : Inv Fq6 := ⟨Fq6.inv⟩

end Fq6

structure Fq12 where
  c0 : Fq6
  c1 : Fq6
deriving DecidableEq, Repr

namespace Fq12

instance : One Fq12 := ⟨⟨1, 0⟩⟩

protected def mul (a b : Fq12) : Fq12 :=
  let p0 := a.c0 * b.c0
  let p1 := a.c1 * b.c1
  ⟨p0 + p1.mulV, (a.c0 + a.c1) * (b.c0 + b.c1) - p0 - p1⟩

instance : Mul Fq12 := ⟨Fq12.mul⟩

def conjugate (a : Fq12) : Fq12 := ⟨a.c0, -a.c1⟩

protected def inv (a : Fq12) : Fq12 :=
  let norm := (a.c0 * a.c0 - (a.c1 * a.c1).mulV)⁻¹
  ⟨a.c0 * norm, -(a.c1 * norm)⟩

instance : Inv Fq12 := ⟨Fq12.inv⟩

def square (a : Fq12) : Fq12 :=
  let product := a.c0 * a.c1
  ⟨(a.c0 + a.c1) * (a.c0 + a.c1.mulV) - product - product.mulV, product + product⟩

def twistRoot : Fq2 := Binary.power Fq2.xi ((fieldSize - 1) / 6)

/-- The image under the `q`-th power, which conjugates `Fq2` and multiplies `w` by its factor. -/
def frobenius (a : Fq12) : Fq12 :=
  let g1 := twistRoot
  let g2 := g1 * g1
  let g3 := g2 * g1
  let g4 := g2 * g2
  let g5 := g4 * g1
  ⟨⟨a.c0.c0.conjugate, a.c0.c1.conjugate * g2, a.c0.c2.conjugate * g4⟩,
   ⟨a.c1.c0.conjugate * g1, a.c1.c1.conjugate * g3, a.c1.c2.conjugate * g5⟩⟩

def power (a : Fq12) (n : Nat) : Fq12 :=
  Binary.walk square (· * a) 1 n

/-- The product with the sparse element `a + b w + c v w`. -/
def mulSparse (f : Fq12) (a b c : Fq2) : Fq12 :=
  f * ⟨⟨a, 0, 0⟩, ⟨b, c, 0⟩⟩

end Fq12

end ThresholdBls.Bn254
