import ThresholdBls.Bn254.Field
import ThresholdBls.Proofs.Arithmetic.Primality

/-!
# The primes of BN254

The size of the base field and the order of the groups are odd primes, by one
certificate for both.  The base field thus is a field, of size three modulo
four, and so is the scalar field.
-/

namespace ThresholdBls.Bn254

open Primality

def certificate : List Step :=
  [⟨237073, 15, [(2, 4), (3, 1), (11, 1), (449, 1)]⟩,
   ⟨405928799, 22, [(2, 1), (11, 1), (3691, 1), (4999, 1)]⟩,
   ⟨12048837557, 2, [(2, 2), (7, 2), (661, 1), (93001, 1)]⟩,
   ⟨5156902474397, 2, [(2, 2), (107, 1), (12048837557, 1)]⟩,
   ⟨1670836401704629, 2, [(2, 2), (3, 4), (5156902474397, 1)]⟩,
   ⟨1593227, 2, [(2, 1), (19, 1), (41927, 1)]⟩,
   ⟨639533339, 2, [(2, 1), (229, 1), (853, 1), (1637, 1)]⟩,
   ⟨65865678001877903, 5, [(2, 1), (83, 1), (379, 1), (1637, 1), (639533339, 1)]⟩,
   ⟨13818364434197438864469338081, 3,
     [(2, 5), (5, 1), (823, 1), (1593227, 1), (65865678001877903, 1)]⟩,
   ⟨order, 5,
     [(2, 28), (3, 2), (13, 1), (29, 1), (983, 1), (11003, 1), (237073, 1), (405928799, 1),
      (1670836401704629, 1), (13818364434197438864469338081, 1)]⟩,
   ⟨327599, 19, [(2, 1), (19, 1), (37, 1), (233, 1)]⟩,
   ⟨11465965001, 3, [(2, 3), (5, 4), (7, 1), (327599, 1)]⟩,
   ⟨1853641, 17, [(2, 3), (3, 2), (5, 1), (19, 1), (271, 1)]⟩,
   ⟨4562087, 5, [(2, 1), (17, 1), (109, 1), (1231, 1)]⟩,
   ⟨173171039, 13, [(2, 1), (73, 1), (89, 1), (13327, 1)]⟩,
   ⟨1263766531, 10, [(2, 1), (3, 1), (5, 1), (13, 1), (911, 1), (3557, 1)]⟩,
   ⟨35385462869, 2, [(2, 2), (7, 1), (1263766531, 1)]⟩,
   ⟨2480874801745591, 6, [(2, 1), (3, 2), (5, 1), (19, 1), (41, 1), (35385462869, 1)]⟩,
   ⟨13427688667394608761327070753331941386769, 17,
     [(2, 4), (3, 1), (7, 1), (11, 1), (1853641, 1), (4562087, 1), (173171039, 1),
      (2480874801745591, 1)]⟩,
   ⟨fieldSize, 3,
     [(2, 1), (3, 2), (13, 1), (29, 1), (67, 1), (229, 1), (311, 1), (983, 1), (11003, 1),
      (405928799, 1), (11465965001, 1), (13427688667394608761327070753331941386769, 1)]⟩]

theorem acceptsAll_certificate : acceptsAll [] certificate = true := by
  decide +kernel

theorem order_prime : order.Prime :=
  prime_of_acceptsAll (by simp) acceptsAll_certificate order (by simp [certificate])

theorem fieldSize_prime : fieldSize.Prime :=
  prime_of_acceptsAll (by simp) acceptsAll_certificate fieldSize (by simp [certificate])

instance : PrimeModulus order := ⟨order_prime, by decide +kernel⟩

instance : PrimeModulus fieldSize := ⟨fieldSize_prime, by decide +kernel⟩

end ThresholdBls.Bn254
