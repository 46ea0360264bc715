import ThresholdBls.Proofs.Arithmetic.Field

/-!
# Primality certificates

A certificate lists primes in an order in which every large prime factor of
`p - 1` precedes `p`.  Each step names a primitive root of its prime and the
factorization of `p - 1`; small factors are tried by division.
-/

namespace ThresholdBls.Primality

/-- Whether no number from `d` on divides `n`, up to the root of `n`; the search
gives up after `tries` numbers. -/
def noDivisorFrom (n : Nat) : (tries d : Nat) → Bool
  | 0, _ => false
  | tries + 1, d => n.blt (d * d) || (n % d != 0 && noDivisorFrom n tries (d + 1))

theorem not_dvd_of_noDivisorFrom {n tries d m : Nat}
    (h : noDivisorFrom n tries d = true) (hd : d ≤ m) (hm : m * m ≤ n) : ¬ m ∣ n := by
  induction tries generalizing d with
  | zero => simp [noDivisorFrom] at h
  | succ tries ih =>
      simp only [noDivisorFrom, Bool.or_eq_true, Bool.and_eq_true, bne_iff_ne,
        Nat.blt_eq] at h
      rcases h with h | ⟨hmod, hrest⟩
      · have := Nat.mul_self_le_mul_self hd
        omega
      · rcases Nat.lt_or_eq_of_le hd with hlt | rfl
        · exact ih hrest hlt
        · exact fun hdvd => hmod (Nat.mod_eq_zero_of_dvd hdvd)

def isSmallPrime (n : Nat) : Bool :=
  decide (2 ≤ n) && noDivisorFrom n 400 2

theorem prime_of_isSmallPrime {n : Nat} (h : isSmallPrime n = true) : n.Prime := by
  simp only [isSmallPrime, Bool.and_eq_true, decide_eq_true_eq] at h
  refine Nat.prime_def_le_sqrt.mpr ⟨h.1, ?_⟩
  intro d hd hsqrt
  exact not_dvd_of_noDivisorFrom h.2 hd (Nat.le_sqrt.mp hsqrt)

/-- A prime, a primitive root, and the factors of `p - 1` with their
exponents. -/
structure Step where
  prime : Nat
  root : Nat
  factors : List (Nat × Nat)

namespace Step

/-- The order of the root is `p - 1`: its power `p - 1` is one, and no power
`(p - 1) / f` is. -/
def hasRoot (step : Step) : Bool :=
  if h : 2 ≤ step.prime then
    have : Modulus step.prime := ⟨by omega⟩
    let root := Residue.ofNat step.prime step.root
    decide (Binary.power root (step.prime - 1) = 1) &&
      step.factors.all fun f => decide (Binary.power root ((step.prime - 1) / f.1) ≠ 1)
  else false

def accepts (step : Step) (known : List Nat) : Bool :=
  step.hasRoot &&
    (step.factors.all (fun f => isSmallPrime f.1 || known.contains f.1) &&
      (step.factors.map fun f => f.1 ^ f.2).prod == step.prime - 1)

private theorem power_eq_one_iff {p : Nat} [Modulus p] (a n : Nat) :
    Binary.power (Residue.ofNat p a) n = 1 ↔ (a : ZMod p) ^ n = 1 := by
  rw [Binary.power_eq_pow, ← Residue.toZMod_injective.eq_iff]
  change Residue.toZModHom p (Residue.ofNat p a ^ n) = Residue.toZModHom p 1 ↔ _
  rw [map_pow, map_one]
  simp [Residue.toZModHom]

theorem order_of_hasRoot {step : Step} (h : step.hasRoot = true) :
    (step.root : ZMod step.prime) ^ (step.prime - 1) = 1 ∧
      ∀ f ∈ step.factors, (step.root : ZMod step.prime) ^ ((step.prime - 1) / f.1) ≠ 1 := by
  unfold hasRoot at h
  split at h
  case isTrue htwo =>
    have : Modulus step.prime := ⟨by omega⟩
    simp only [Bool.and_eq_true, decide_eq_true_eq, List.all_eq_true, ne_eq,
      power_eq_one_iff] at h
    exact h
  case isFalse => simp at h

theorem prime_of_accepts {step : Step} {known : List Nat}
    (hknown : ∀ p ∈ known, p.Prime) (h : step.accepts known = true) : step.prime.Prime := by
  simp only [accepts, Bool.and_eq_true, List.all_eq_true, Bool.or_eq_true,
    List.contains_iff_mem, beq_iff_eq] at h
  obtain ⟨hroot, hfactors, hproduct⟩ := h
  obtain ⟨hfull, hpartial⟩ := order_of_hasRoot hroot
  refine lucas_primality step.prime step.root hfull ?_
  intro q hq hdvd
  rw [← hproduct] at hdvd
  obtain ⟨power, hmem, hqpower⟩ := (Prime.dvd_prod_iff hq.prime).mp hdvd
  obtain ⟨f, hf, rfl⟩ := List.mem_map.mp hmem
  have hprime : f.1.Prime := (hfactors f hf).elim prime_of_isSmallPrime (hknown f.1)
  have hq_eq : q = f.1 :=
    (Nat.prime_dvd_prime_iff_eq hq hprime).mp (hq.dvd_of_dvd_pow hqpower)
  exact hq_eq ▸ hpartial f hf

end Step

def acceptsAll (known : List Nat) : List Step → Bool
  | [] => true
  | step :: rest => step.accepts known && acceptsAll (step.prime :: known) rest

theorem prime_of_acceptsAll {known : List Nat} {steps : List Step}
    (hknown : ∀ p ∈ known, p.Prime) (h : acceptsAll known steps = true) :
    ∀ p ∈ steps.map Step.prime, p.Prime := by
  induction steps generalizing known with
  | nil => simp
  | cons step rest ih =>
      simp only [acceptsAll, Bool.and_eq_true] at h
      have hprime := Step.prime_of_accepts hknown h.1
      have hrest := ih (List.forall_mem_cons.mpr ⟨hprime, hknown⟩) h.2
      rw [List.map_cons]
      exact List.forall_mem_cons.mpr ⟨hprime, hrest⟩

end ThresholdBls.Primality
