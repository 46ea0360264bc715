import Mathlib
import ThresholdBls.Residue
import ThresholdBls.Text.Segments

/-!
# Numerals and their segments

The numeral of a number is canonical and reads back as the number.  It has no
colon, so that numerals joined by colons split into the same numerals.
-/

namespace ThresholdBls

namespace Decimal

@[simp] theorem toList_render (n : Nat) : (render n).toList = Nat.toDigits 10 n :=
  String.toList_ofList

theorem isDigit_of_mem_render {n : Nat} {c : Char} (h : c ∈ (render n).toList) :
    c.isDigit = true := by
  rw [toList_render] at h
  exact Nat.isDigit_of_mem_toDigits (by decide) (by decide) h

theorem colon_notMem_render (n : Nat) : ':' ∉ (render n).toList :=
  fun h => absurd (isDigit_of_mem_render h) (by decide)

theorem render_ne_empty (n : Nat) : render n ≠ "" := by
  intro h
  have hlist := congrArg String.toList h
  rw [toList_render] at hlist
  exact Nat.toDigits_ne_nil hlist

theorem isDigits_render (n : Nat) : isDigits (render n) = true := by
  have hne : (render n).toList ≠ [] := by
    rw [toList_render]
    exact Nat.toDigits_ne_nil
  have hall : (render n).toList.all Char.isDigit = true :=
    List.all_eq_true.mpr fun _ hc => isDigit_of_mem_render hc
  rw [isDigits, hall, Bool.and_true, Bool.not_eq_true', List.isEmpty_eq_false_iff]
  exact hne

theorem head?_toDigits_ne_zero {n : Nat} (hn : 0 < n) :
    (Nat.toDigits 10 n).head? ≠ some '0' := by
  induction n using Nat.strongRecOn with
  | ind n ih =>
      by_cases hlt : n < 10
      · rw [Nat.toDigits_of_lt_base hlt]
        interval_cases n <;> decide
      · rw [Nat.toDigits_of_base_le (by decide) (by omega),
          List.head?_append_of_ne_nil _ Nat.toDigits_ne_nil]
        exact ih (n / 10) (by omega) (by omega)

theorem isCanonical_render (n : Nat) : isCanonical (render n) = true := by
  rw [isCanonical, isDigits_render, Bool.true_and, Bool.or_eq_true, toList_render]
  rcases Nat.eq_zero_or_pos n with rfl | hn
  · exact .inl rfl
  · exact .inr (bne_iff_ne.mpr (head?_toDigits_ne_zero hn))

@[simp] theorem value_render (n : Nat) : value (render n) = n := by
  rw [value, toList_render, Nat.ofDigitChars_ten_toDigits]

theorem parse?_render (n : Nat) : parse? (render n) = some n := by
  rw [parse?, if_pos (isCanonical_render n), value_render]

theorem toDigits_digit {c : Char} (h : c.isDigit = true) :
    Nat.toDigits 10 (c.toNat - '0'.toNat) = [c] := by
  rw [Char.isDigit, Bool.and_eq_true, decide_eq_true_iff, decide_eq_true_iff] at h
  have hlow : 48 ≤ c.toNat := UInt32.le_iff_toNat_le.mp h.1
  have hhigh : c.toNat ≤ 57 := UInt32.le_iff_toNat_le.mp h.2
  have hlt : c.toNat - 48 < 10 := by omega
  change Nat.toDigits 10 (c.toNat - 48) = [c]
  rw [Nat.toDigits_of_lt_base hlt, List.singleton_inj, ← Char.toNat_inj,
    Nat.toNat_digitChar_of_lt_ten hlt]
  omega

theorem toDigits_ofDigitChars {cs : List Char} {n : Nat} (hn : 0 < n)
    (h : ∀ c ∈ cs, c.isDigit = true) :
    Nat.toDigits 10 (Nat.ofDigitChars 10 cs n) = Nat.toDigits 10 n ++ cs := by
  induction cs generalizing n with
  | nil => simp
  | cons c cs ih =>
      rw [List.forall_mem_cons] at h
      have hdigit := toDigits_digit h.1
      have hlt : c.toNat - '0'.toNat < 10 := by
        have hlength := (Nat.length_toDigits_le_iff (k := 1) (by decide) one_pos).mp
          (congrArg List.length hdigit).le
        simpa using hlength
      have happend := Nat.toDigits_append_toDigits (b := 10) (by decide) hn hlt
      rw [hdigit] at happend
      rw [Nat.ofDigitChars_cons, ih (by omega) h.2, ← happend, List.append_assoc,
        List.singleton_append]

theorem render_value {s : String} (h : isCanonical s = true) : render (value s) = s := by
  apply String.toList_injective
  rw [toList_render, value]
  simp only [isCanonical, isDigits, Bool.and_eq_true, Bool.or_eq_true, List.all_eq_true] at h
  generalize s.toList = cs at h ⊢
  obtain ⟨⟨hne, hdigits⟩, hcanonical⟩ := h
  cases cs with
  | nil => cases hne
  | cons c cs =>
      rw [List.forall_mem_cons] at hdigits
      rw [Nat.ofDigitChars_cons, mul_zero, zero_add]
      cases cs with
      | nil => exact toDigits_digit hdigits.1
      | cons d cs =>
          have hzero : c ≠ '0' := by simpa using hcanonical
          have hpos : 0 < c.toNat - '0'.toNat := by
            by_contra hnot
            have hdigit := toDigits_digit hdigits.1
            rw [Nat.eq_zero_of_not_pos hnot] at hdigit
            exact hzero (List.singleton_inj.mp hdigit).symm
          rw [toDigits_ofDigitChars hpos hdigits.2, toDigits_digit hdigits.1,
            List.singleton_append]

theorem parse?_eq_some_iff {s : String} {n : Nat} : parse? s = some n ↔ render n = s := by
  constructor
  · intro h
    rw [parse?, Option.ite_none_right_eq_some] at h
    obtain ⟨hcanonical, hvalue⟩ := h
    cases hvalue
    exact render_value hcanonical
  · rintro rfl
    exact parse?_render n

def length (n : Nat) : Nat :=
  (Nat.toDigits 10 n).length

theorem length_le_iff {n k : Nat} (hk : 0 < k) : length n ≤ k ↔ n < 10 ^ k :=
  Nat.length_toDigits_le_iff (by decide) hk

theorem utf8Size_of_isDigit {c : Char} (h : c.isDigit = true) : c.utf8Size = 1 := by
  rw [Char.isDigit, Bool.and_eq_true, decide_eq_true_iff, decide_eq_true_iff] at h
  have hlast : (57 : UInt32) ≤ 127 := by decide
  exact Char.utf8Size_eq_one_iff.mpr (UInt32.le_trans h.2 hlast)

theorem utf8Len_of_digits {cs : List Char} (h : ∀ c ∈ cs, c.isDigit = true) :
    String.utf8Len cs = cs.length := by
  induction cs with
  | nil => rfl
  | cons c rest ih =>
      rw [String.utf8Len_cons, utf8Size_of_isDigit (h c List.mem_cons_self),
        ih fun d hd => h d (List.mem_cons_of_mem _ hd), List.length_cons]

theorem utf8ByteSize_render (n : Nat) : (render n).utf8ByteSize = length n := by
  rw [render, String.utf8ByteSize_ofList]
  exact utf8Len_of_digits fun c hc => Nat.isDigit_of_mem_toDigits (by decide) (by decide) hc

end Decimal

namespace Residue

variable {m : Nat}

theorem ofDecimal_toDecimal (a : Residue m) : ofDecimal a.toDecimal = .ok a := by
  simp only [ofDecimal, toDecimal, Decimal.parse?_render]
  exact dif_pos a.val_lt

theorem ofDecimal_eq_ok_iff {s : String} {a : Residue m} :
    ofDecimal s = .ok a ↔ a.toDecimal = s := by
  constructor
  · intro h
    unfold ofDecimal at h
    split at h
    · rename_i n hparse
      split at h
      · cases h
        exact Decimal.parse?_eq_some_iff.mp hparse
      · cases h
    · cases h
  · rintro rfl
    exact ofDecimal_toDecimal a

/-- The canonical spelling of a number below the modulus. -/
def IsNumeral (m : Nat) (s : String) : Prop :=
  Decimal.isCanonical s = true ∧ Decimal.value s < m

theorem toDecimal_eq_iff {s : String} {a : Residue m} :
    a.toDecimal = s ↔ IsNumeral m s ∧ a.val = Decimal.value s := by
  constructor
  · rintro rfl
    have hvalue : a.val = Decimal.value a.toDecimal := (Decimal.value_render a.val).symm
    exact ⟨⟨Decimal.isCanonical_render a.val, hvalue ▸ a.val_lt⟩, hvalue⟩
  · rintro ⟨⟨hcanonical, -⟩, hvalue⟩
    rw [toDecimal, hvalue]
    exact Decimal.render_value hcanonical

theorem ofDecimal_eq_error {s : String} (h : ¬ IsNumeral m s) :
    (ofDecimal s : Except FieldError (Residue m)) = .error .malformedScalar := by
  unfold ofDecimal Decimal.parse?
  by_cases hcanonical : Decimal.isCanonical s = true
  · rw [if_pos hcanonical]
    exact dif_neg fun hlt => h ⟨hcanonical, hlt⟩
  · rw [if_neg hcanonical]

theorem map_toDecimal_eq_iff {xs : List (Residue m)} {numerals : List String} :
    xs.map toDecimal = numerals ↔
      (∀ s ∈ numerals, IsNumeral m s) ∧ xs.map val = numerals.map Decimal.value := by
  induction xs generalizing numerals with
  | nil => cases numerals <;> simp
  | cons x xs ih =>
      cases numerals with
      | nil => simp
      | cons s rest =>
          rw [List.map_cons, List.map_cons, List.map_cons, List.cons.injEq, List.cons.injEq,
            List.forall_mem_cons, toDecimal_eq_iff, ih]
          tauto

end Residue

namespace Segments

@[simp] theorem toList_join (parts : List String) :
    (join parts).toList = [':'].intercalate (parts.map String.toList) :=
  String.toList_ofList

theorem split_join {parts : List String} (hne : parts ≠ [])
    (h : ∀ part ∈ parts, ':' ∉ part.toList) : split (join parts) = parts := by
  have hparts : ∀ cs ∈ parts.map String.toList, ':' ∉ cs := by
    intro cs hcs
    obtain ⟨part, hpart, rfl⟩ := List.mem_map.mp hcs
    exact h part hpart
  rw [split, toList_join, List.splitOn_intercalate ':' hparts (by simpa using hne), List.map_map]
  exact (List.map_congr_left fun part _ => String.ofList_toList).trans (List.map_id parts)

theorem join_split (s : String) : join (split s) = s := by
  apply String.toList_injective
  rw [toList_join, split, List.map_map]
  have hid : String.toList ∘ String.ofList = id := funext fun _ => String.toList_ofList
  rw [hid, List.map_id, List.intercalate_splitOn]

theorem eq_join_of_split_eq {s : String} {parts : List String} (h : split s = parts) :
    join parts = s := by
  rw [← h, join_split]

theorem join_ne_empty {parts : List String} (hne : parts ≠ [])
    (hcolon : ∀ part ∈ parts, ':' ∉ part.toList) (hlone : parts ≠ [""]) : join parts ≠ "" := by
  intro hempty
  have hparts := split_join hne hcolon
  rw [hempty] at hparts
  exact hlone hparts.symm

theorem toList_join_pair (front back : String) :
    (join [front, back]).toList = front.toList ++ ':' :: back.toList := by
  rw [toList_join]
  simp [List.intercalate]

theorem splitFirst?_eq_some_iff {s front back : String} :
    splitFirst? s = some (front, back) ↔ ':' ∉ front.toList ∧ join [front, back] = s := by
  rw [splitFirst?, List.span_eq_takeWhile_dropWhile]
  constructor
  · intro h
    split at h
    · cases h
    · rename_i front' c back' hspan
      obtain ⟨hfront, hback⟩ := Prod.mk.inj hspan
      cases h
      have hc : c = ':' := by
        have hhead := List.head?_dropWhile_not (fun c => decide (c ≠ ':')) s.toList
        rw [hback] at hhead
        simpa using hhead
      constructor
      · rw [String.toList_ofList, ← hfront]
        intro hcolon
        simpa using List.mem_takeWhile_imp hcolon
      · apply String.toList_injective
        rw [toList_join_pair, String.toList_ofList, String.toList_ofList, ← hc, ← hback, ← hfront,
          List.takeWhile_append_dropWhile]
  · rintro ⟨hcolon, rfl⟩
    have hfront : ∀ c ∈ front.toList, decide (c ≠ ':') = true := by
      intro c hc
      exact decide_eq_true fun h => hcolon (h ▸ hc)
    rw [toList_join_pair, List.takeWhile_append_of_pos hfront, List.dropWhile_append_of_pos hfront]
    simp

theorem split_numerals {ns : List Nat} (hne : ns ≠ []) :
    split (join (ns.map Decimal.render)) = ns.map Decimal.render := by
  apply split_join
  · simpa using hne
  · intro part hpart
    obtain ⟨n, -, rfl⟩ := List.mem_map.mp hpart
    exact Decimal.colon_notMem_render n

theorem split_four_numerals (a b c d : Nat) :
    split (join [Decimal.render a, Decimal.render b, Decimal.render c, Decimal.render d]) =
      [Decimal.render a, Decimal.render b, Decimal.render c, Decimal.render d] := by
  have hne : [a, b, c, d] ≠ [] := by simp
  have hsplit := split_numerals hne
  simp only [List.map_cons, List.map_nil] at hsplit
  exact hsplit

theorem join_numerals_ne_empty {ns : List Nat} (hne : ns ≠ []) :
    join (ns.map Decimal.render) ≠ "" := by
  intro hempty
  have hsplit := split_numerals hne
  rw [hempty] at hsplit
  have hmem : "" ∈ ns.map Decimal.render := hsplit ▸ List.mem_singleton_self ""
  obtain ⟨n, -, hn⟩ := List.mem_map.mp hmem
  exact Decimal.render_ne_empty n hn

theorem join_singleton (part : String) : join [part] = part := by
  apply String.toList_injective
  rw [toList_join]
  simp [List.intercalate]

theorem join_cons_cons (first second : String) (rest : List String) :
    join (first :: second :: rest) = first ++ ":" ++ join (second :: rest) := by
  apply String.toList_injective
  rw [String.toList_append, String.toList_append, toList_join, toList_join]
  simp [List.intercalate]

theorem join_join (first second third fourth : String) :
    join [join [first, second], join [third, fourth]] = join [first, second, third, fourth] := by
  simp only [join_cons_cons, join_singleton, String.append_assoc]

theorem utf8ByteSize_join {parts : List String} (hne : parts ≠ []) :
    (join parts).utf8ByteSize + 1 = (parts.map fun part => part.utf8ByteSize + 1).sum := by
  induction parts with
  | nil => exact absurd rfl hne
  | cons first rest ih =>
      cases rest with
      | nil => rw [join_singleton, List.map_singleton, List.sum_singleton]
      | cons second rest =>
          have hcolon : ":".utf8ByteSize = 1 := rfl
          rw [join_cons_cons, String.utf8ByteSize_append, String.utf8ByteSize_append, hcolon,
            List.map_cons, List.sum_cons, ← ih (List.cons_ne_nil _ _)]
          omega

end Segments

end ThresholdBls
