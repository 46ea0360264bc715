import ThresholdBls.Proofs.Arithmetic.Field
import ThresholdBls.Signing

/-!
# Lawful suites

The groups of a lawful suite are cyclic of one prime order, which exceeds every
signer index.  An element of such a group is a multiple of the generator by one
scalar, so that sums and multiples of elements are computed on scalars.
-/

namespace ThresholdBls

namespace PairingGroup

variable {order : Nat} [Modulus order] {G : PairingGroup order}

/-- The elements of the group are the multiples of its generator, each by one scalar. -/
structure IsCyclic (G : PairingGroup order) : Prop where
  contains_iff (a : G.Element) :
    G.contains a = true ↔ ∃ k : Residue order, G.generator * k = a
  multiple_injective : Function.Injective fun k : Residue order => G.generator * k
  multiple_zero : G.generator * (0 : Residue order) = G.identity
  multiple_one : G.generator * (1 : Residue order) = G.generator
  multiple_add (j k : Residue order) :
    G.generator * j + G.generator * k = G.generator * (j + k)
  multiple_mul (j k : Residue order) : G.generator * j * k = G.generator * (j * k)

def Usable (G : PairingGroup order) (element : G.Element) : Prop :=
  element ≠ G.identity ∧ G.contains element = true

section Usable

omit [Modulus order]

theorem requireUsable_identity : G.requireUsable G.identity = .error .identityElement :=
  if_pos rfl

theorem usable_of_requireUsable {element : G.Element} (h : G.requireUsable element = .ok ()) :
    G.Usable element := by
  unfold requireUsable at h
  split at h
  · cases h
  · rename_i hidentity
    split at h
    · rename_i hcontains
      exact ⟨hidentity, hcontains⟩
    · cases h

end Usable

namespace IsCyclic

theorem contains_multiple (hG : G.IsCyclic) (k : Residue order) :
    G.contains (G.generator * k) = true :=
  (hG.contains_iff _).mpr ⟨k, rfl⟩

theorem multiple_inj (hG : G.IsCyclic) {j k : Residue order} :
    G.generator * j = G.generator * k ↔ j = k :=
  hG.multiple_injective.eq_iff

theorem multiple_eq_identity_iff (hG : G.IsCyclic) (k : Residue order) :
    G.generator * k = G.identity ↔ k = 0 := by
  rw [← hG.multiple_zero, hG.multiple_inj]

theorem requireUsable_eq_ok_iff (hG : G.IsCyclic) (a : G.Element) :
    G.requireUsable a = .ok () ↔ ∃ k : Residue order, k ≠ 0 ∧ G.generator * k = a := by
  constructor
  · intro h
    unfold requireUsable at h
    split at h
    · cases h
    · rename_i hidentity
      split at h
      · rename_i hcontains
        obtain ⟨k, rfl⟩ := (hG.contains_iff a).mp hcontains
        exact ⟨k, mt (hG.multiple_eq_identity_iff k).mpr hidentity, rfl⟩
      · cases h
  · rintro ⟨k, hk, rfl⟩
    rw [requireUsable, if_neg (mt (hG.multiple_eq_identity_iff k).mp hk),
      if_pos (hG.contains_multiple k)]

theorem requireUsable_multiple (hG : G.IsCyclic) {k : Residue order} (hk : k ≠ 0) :
    G.requireUsable (G.generator * k) = .ok () :=
  (hG.requireUsable_eq_ok_iff _).mpr ⟨k, hk, rfl⟩

theorem requireUsable_multiple_iff (hG : G.IsCyclic) {k : Residue order} :
    G.requireUsable (G.generator * k) = .ok () ↔ k ≠ 0 := by
  rw [hG.requireUsable_eq_ok_iff]
  constructor
  · rintro ⟨j, hj, hmul⟩
    rwa [← hG.multiple_inj.mp hmul]
  · exact fun hk => ⟨k, hk, rfl⟩

theorem foldl_add_multiples (hG : G.IsCyclic) (ks : List (Residue order)) (j : Residue order) :
    (ks.map fun k => G.generator * k).foldl (· + ·) (G.generator * j) =
      G.generator * (j + ks.sum) := by
  induction ks generalizing j with
  | nil => rw [List.map_nil, List.foldl_nil, List.sum_nil, add_zero]
  | cons k ks ih =>
      rw [List.map_cons, List.foldl_cons, hG.multiple_add, ih, List.sum_cons, add_assoc]

theorem map_multiple (hG : G.IsCyclic) {T : Type} [Group T] {f : G.Element → T}
    (hf : ∀ a c, G.contains a = true → G.contains c = true → f (a + c) = f a * f c) (n : Nat) :
    f (G.generator * (n : Residue order)) = f G.generator ^ n := by
  induction n with
  | zero =>
      have hadd := hf _ _ (hG.contains_multiple 0) (hG.contains_multiple 0)
      rw [hG.multiple_add, add_zero] at hadd
      rw [Nat.cast_zero, pow_zero]
      exact left_eq_mul.mp hadd
  | succ n ih =>
      rw [Nat.cast_succ, ← hG.multiple_add,
        hf _ _ (hG.contains_multiple _) (hG.contains_multiple _), ih, hG.multiple_one, pow_succ]

theorem exists_multiples (hG : G.IsCyclic) {elements : List G.Element}
    (h : ∀ a ∈ elements, G.contains a = true) :
    ∃ ks : List (Residue order), elements = ks.map fun k => G.generator * k := by
  induction elements with
  | nil => exact ⟨[], rfl⟩
  | cons a rest ih =>
      obtain ⟨k, hk⟩ := (hG.contains_iff a).mp (h a List.mem_cons_self)
      obtain ⟨ks, hks⟩ := ih fun a ha => h a (List.mem_cons_of_mem _ ha)
      exact ⟨k :: ks, by rw [List.map_cons, hk, hks]⟩

theorem exists_nonzero_multiples (hG : G.IsCyclic) {elements : List G.Element}
    (h : ∀ a ∈ elements, G.requireUsable a = .ok ()) :
    ∃ ks : List (Residue order), (∀ k ∈ ks, k ≠ 0) ∧
      elements = ks.map fun k => G.generator * k := by
  induction elements with
  | nil => exact ⟨[], nofun, rfl⟩
  | cons a rest ih =>
      obtain ⟨k, hk, ha⟩ := (hG.requireUsable_eq_ok_iff a).mp (h a List.mem_cons_self)
      obtain ⟨ks, hks, hrest⟩ := ih fun a ha => h a (List.mem_cons_of_mem _ ha)
      refine ⟨k :: ks, ?_, by rw [List.map_cons, ha, hrest]⟩
      intro k' hk'
      rcases List.mem_cons.mp hk' with rfl | hk'
      · exact hk
      · exact hks k' hk'

end IsCyclic

end PairingGroup

namespace Suite

/-- Both groups are cyclic of a prime order that exceeds every index. -/
class Lawful (S : Suite) : Prop where
  prime : S.order.Prime
  index_lt : UInt16.size ≤ S.order
  g1_cyclic : S.g1.IsCyclic
  g2_cyclic : S.g2.IsCyclic

variable {S : Suite} [S.Lawful]

instance : PrimeModulus S.order where
  prime := Lawful.prime
  two_lt := lt_of_lt_of_le (by decide) (Lawful.index_lt (S := S))

def abscissa (S : Suite) (index : UInt16) : S.Scalar := Residue.ofNat S.order index.toNat

theorem abscissa_injective : Function.Injective S.abscissa := by
  have hsize := Lawful.index_lt (S := S)
  intro i j h
  have hmod : i.toNat % S.order = j.toNat % S.order := congrArg Residue.val h
  rw [Nat.mod_eq_of_lt (lt_of_lt_of_le i.toNat_lt hsize),
    Nat.mod_eq_of_lt (lt_of_lt_of_le j.toNat_lt hsize)] at hmod
  exact UInt16.toNat_inj.mp hmod

theorem abscissa_ne_zero {index : UInt16} (h : index ≠ 0) : S.abscissa index ≠ 0 :=
  fun hzero => h (abscissa_injective hzero)

/-- The pairing test compares products of scalars. -/
def TestsProducts (S : Suite) : Prop :=
  ∀ a b c d : S.Scalar,
    S.samePairing (S.g1.generator * a) (S.g2.generator * b) (S.g1.generator * c)
      (S.g2.generator * d) = true ↔ a * b = c * d

theorem signatureHolds_multiples (hS : S.TestsProducts) (s h k : S.Scalar) :
    S.signatureHolds (S.g1.generator * s) (S.g1.generator * h) (S.g2.generator * k) =
      decide (s = h * k) := by
  have htest := hS s 1 h k
  rw [Lawful.g2_cyclic.multiple_one, mul_one] at htest
  rw [Bool.eq_iff_iff, decide_eq_true_iff]
  exact htest

end Suite

end ThresholdBls
