import ThresholdBls.Json.Document
import ThresholdBls.Proofs.Except
import ThresholdBls.Proofs.Text.Numerals

/-!
# Reading written tokens

A string is read back character by character, as each character is written as
itself or as one escape.  A natural number is read back as far as 64 bits go,
if what follows cannot be a part of a number.
-/

namespace ThresholdBls.Json

/-! ## Strings -/

theorem digitValue?_digit : ∀ d < 16, Hex.digitValue? (Hex.digit d) = some d := by
  decide

theorem unicodeEscape_control {n : Nat} (h : n < 32) (rest : List Char) :
    Document.unicodeEscape ('0' :: '0' :: Hex.digit (n / 16) :: Hex.digit (n % 16) :: rest) =
      .ok (Char.ofNat n, rest) := by
  have hhigh := digitValue?_digit (n / 16) (by omega)
  have hlow := digitValue?_digit (n % 16) (by omega)
  have hzero : Hex.digitValue? '0' = some 0 := by decide
  have hcode : 4096 * 0 + 256 * 0 + 16 * (n / 16) + n % 16 = n := by omega
  simp only [Document.unicodeEscape, Document.hexDigits, hzero, hhigh, hlow, hcode]
  have hlow : ¬ (0xDC00 ≤ n ∧ n ≤ 0xDFFF) := by omega
  have hhigh : ¬ (0xD800 ≤ n ∧ n ≤ 0xDBFF) := by omega
  simp [Bind.bind, Except.bind, hlow, hhigh]
  rfl

section Steps

variable {bound : Nat} {c : Char} {rest s left : List Char}

theorem readString_letter {letter : Char} (hletter : Document.simpleEscape letter = some c)
    (h : Document.readString bound rest = .ok (s, left)) :
    Document.readString (bound + 1) ('\\' :: letter :: rest) = .ok (c :: s, left) := by
  have hu : letter ≠ 'u' := by
    rintro rfl
    cases hletter
  simp [Document.readString, hletter, h]

theorem readString_numeric {escaped : List Char}
    (hescape : Document.unicodeEscape escaped = .ok (c, rest))
    (h : Document.readString bound rest = .ok (s, left)) :
    Document.readString (bound + 1) ('\\' :: 'u' :: escaped) = .ok (c :: s, left) := by
  simp only [Document.readString]
  exact bind_eq_ok_iff.mpr ⟨_, hescape, bind_eq_ok_iff.mpr ⟨_, h, rfl⟩⟩

theorem readString_plain (hquote : c ≠ '"') (hslash : c ≠ '\\') (hcontrol : ¬ c.toNat < 32)
    (h : Document.readString bound rest = .ok (s, left)) :
    Document.readString (bound + 1) (c :: rest) = .ok (c :: s, left) := by
  simp [Document.readString, hslash, hcontrol, h]

theorem readString_escape (h : Document.readString bound rest = .ok (s, left)) :
    Document.readString (bound + 1) (escape c ++ rest) = .ok (c :: s, left) := by
  unfold escape
  split
  · subst_vars
    exact readString_letter rfl h
  split
  · subst_vars
    exact readString_letter rfl h
  split
  · subst_vars
    exact readString_letter rfl h
  split
  · subst_vars
    exact readString_letter rfl h
  split
  · subst_vars
    exact readString_letter rfl h
  split
  · rename_i hc
    exact readString_letter (congrArg some (Char.toNat_inj.mp hc.symm)) h
  split
  · rename_i hc
    exact readString_letter (congrArg some (Char.toNat_inj.mp hc.symm)) h
  split
  · rename_i hc
    have hescape := unicodeEscape_control hc rest
    rw [Char.ofNat_toNat] at hescape
    exact readString_numeric hescape h
  · exact readString_plain ‹_› ‹_› ‹_› h

end Steps

theorem readString_written {cs : List Char} {bound : Nat} (hbound : cs.length < bound)
    (rest : List Char) :
    Document.readString bound (cs.flatMap escape ++ '"' :: rest) = .ok (cs, rest) := by
  induction cs generalizing bound with
  | nil =>
      obtain ⟨bound, rfl⟩ := Nat.exists_eq_add_one.mpr hbound
      rfl
  | cons c cs ih =>
      rw [List.length_cons] at hbound
      obtain ⟨bound, rfl⟩ := Nat.exists_eq_add_one.mpr (Nat.zero_lt_of_lt hbound)
      rw [List.flatMap_cons, List.append_assoc]
      exact readString_escape (ih (by omega))

theorem length_le_flatMap_escape (cs : List Char) : cs.length ≤ (cs.flatMap escape).length := by
  induction cs with
  | nil => exact le_rfl
  | cons c cs ih =>
      have hpos : 1 ≤ (escape c).length := by
        unfold escape
        split_ifs <;> simp
      rw [List.flatMap_cons, List.length_append, List.length_cons]
      omega

theorem stringToken_written (s : String) {bound : Nat} (hbound : s.toList.length < bound)
    (rest : List Char) :
    Document.stringToken bound (s.toList.flatMap escape ++ '"' :: rest) =
      (.string s, some rest) := by
  simp only [Document.stringToken, readString_written hbound, String.ofList_toList]

/-! ## Keys -/

def Bare (name : String) : Prop :=
  ∀ c ∈ name.toList, escape c = [c]

theorem flatMap_escape_of_bare {name : String} (h : Bare name) :
    name.toList.flatMap escape = name.toList := by
  rw [List.flatMap_congr h, List.flatMap_singleton']

theorem quote_of_bare {name : String} (h : Bare name) :
    quote name = '"' :: name.toList ++ ['"'] := by
  rw [quote, flatMap_escape_of_bare h]

theorem escape_eq_self {c : Char} (h : escape c = [c]) : c ≠ '"' ∧ c ≠ '\\' ∧ ¬ c.toNat < 32 := by
  refine ⟨?_, ?_, ?_⟩
  · rintro rfl
    cases h
  · rintro rfl
    cases h
  · intro hcontrol
    unfold escape at h
    split_ifs at h <;> simp at h

theorem escape_of_isDigit {c : Char} (h : c.isDigit = true) : escape c = [c] := by
  have hlow : 48 ≤ c.toNat := by
    rw [Char.isDigit, Bool.and_eq_true, decide_eq_true_iff] at h
    exact UInt32.le_iff_toNat_le.mp h.1
  unfold escape
  split_ifs with hquote hslash hline hreturn htab
  · cases hquote ▸ h
  · cases hslash ▸ h
  · cases hline ▸ h
  · cases hreturn ▸ h
  · cases htab ▸ h
  · omega
  · omega
  · omega
  · rfl

theorem bare_render (n : Nat) : Bare (Decimal.render n) :=
  fun _ hc => escape_of_isDigit (Decimal.isDigit_of_mem_render hc)

theorem skipString_bare {cs : List Char} {bound : Nat} (hbare : ∀ c ∈ cs, escape c = [c])
    (hbound : cs.length < bound) (rest : List Char) :
    Document.skipString bound (cs ++ '"' :: rest) = .ok (cs, rest) := by
  induction cs generalizing bound with
  | nil =>
      obtain ⟨bound, rfl⟩ := Nat.exists_eq_add_one.mpr hbound
      rfl
  | cons c cs ih =>
      rw [List.length_cons] at hbound
      rw [List.forall_mem_cons] at hbare
      obtain ⟨bound, rfl⟩ := Nat.exists_eq_add_one.mpr (Nat.zero_lt_of_lt hbound)
      obtain ⟨hquote, hslash, hcontrol⟩ := escape_eq_self hbare.1
      simp [Document.skipString, hslash, hcontrol, ih hbare.2 (by omega : cs.length < bound)]

theorem keyToken_bare {name : String} (hbare : Bare name) {bound : Nat}
    (hbound : name.toList.length < bound) (rest : List Char) :
    Document.keyToken bound (name.toList ++ '"' :: rest) =
      (⟨name.toList, true, .ok name, none⟩, some rest) := by
  have hread := readString_written hbound rest
  rw [flatMap_escape_of_bare hbare] at hread
  rw [Document.keyToken, hread, skipString_bare hbare hbound]
  simp [Except.map]

/-! ## Numbers -/

def Ends (rest : List Char) : Prop :=
  ∀ c ∈ rest.head?, c.isDigit = false ∧ c ≠ '.' ∧ c ≠ 'e' ∧ c ≠ 'E'

theorem ends_nil : Ends [] := nofun

namespace Number

theorem digits_append {cs rest : List Char} (atEnd : Fault) (hne : cs ≠ [])
    (hdigits : ∀ c ∈ cs, c.isDigit = true) (hrest : Ends rest) :
    digits atEnd (cs ++ rest) = .ok (cs, rest) := by
  have htake : rest.takeWhile Char.isDigit = [] := by
    cases rest with
    | nil => rfl
    | cons c rest => exact List.takeWhile_cons_of_neg (by simp [(hrest c rfl).1])
  have hspan : (cs ++ rest).span Char.isDigit = (cs, rest) := by
    have hdrop := List.takeWhile_append_dropWhile (p := Char.isDigit) (l := rest)
    rw [htake, List.nil_append] at hdrop
    rw [List.span_eq_takeWhile_dropWhile, List.takeWhile_append_of_pos hdigits,
      List.dropWhile_append_of_pos hdigits, htake, hdrop, List.append_nil]
  unfold digits
  rw [hspan]
  cases cs with
  | nil => exact absurd rfl hne
  | cons c cs => rfl

theorem isDigit_toDigits {n : Nat} {c : Char} (h : c ∈ Nat.toDigits 10 n) : c.isDigit = true :=
  Nat.isDigit_of_mem_toDigits (by decide) (by decide) h

theorem exists_toDigits_eq_cons (n : Nat) :
    ∃ c cs, Nat.toDigits 10 n = c :: cs ∧ c.isDigit = true := by
  obtain ⟨c, cs, hcons⟩ := List.exists_cons_of_ne_nil (Nat.toDigits_ne_nil (b := 10) (n := n))
  exact ⟨c, cs, hcons, isDigit_toDigits (hcons ▸ List.mem_cons_self)⟩

theorem wholePart_toDigits (atEnd : Fault) (n : Nat) {rest : List Char} (hrest : Ends rest) :
    wholePart atEnd (Nat.toDigits 10 n ++ rest) = .ok (Nat.toDigits 10 n, rest) := by
  have hdigits := digits_append atEnd Nat.toDigits_ne_nil
    (fun _ => isDigit_toDigits (n := n)) hrest
  unfold wholePart
  rw [hdigits]
  split
  · rename_i other _ heq
    rcases Nat.eq_zero_or_pos n with rfl | hn
    · cases heq
    · refine absurd ?_ (Decimal.head?_toDigits_ne_zero hn)
      rw [(Prod.mk.inj (Except.ok.inj heq)).1]
      rfl
  · rfl

theorem read_toDigits (atEnd : Fault) (n : Nat) {rest : List Char} (hrest : Ends rest) :
    Numeral.read atEnd (Nat.toDigits 10 n ++ rest) =
      .ok (⟨false, Nat.toDigits 10 n, none, none⟩, rest) := by
  have hsign : ∀ cs, Nat.toDigits 10 n ++ rest ≠ '-' :: cs := by
    intro cs heq
    obtain ⟨c, ds, hcons, hdigit⟩ := exists_toDigits_eq_cons n
    rw [hcons, List.cons_append] at heq
    rw [(List.cons.inj heq).1] at hdigit
    cases hdigit
  have hfraction : fractionPart atEnd rest = .ok (none, rest) := by
    unfold fractionPart
    split
    · exact absurd rfl (hrest '.' rfl).2.1
    · rfl
  have hexponent : exponentPart atEnd rest = .ok (none, rest) := by
    unfold exponentPart
    split
    · exact absurd rfl (hrest 'e' rfl).2.2.1
    · exact absurd rfl (hrest 'E' rfl).2.2.2
    · rfl
  have hpart := wholePart_toDigits atEnd n hrest
  unfold Numeral.read
  split
  rename_i negative cs heq
  split at heq
  · exact absurd ‹_› (hsign _)
  · cases heq
    refine bind_eq_ok_iff.mpr ⟨_, hpart, ?_⟩
    refine bind_eq_ok_iff.mpr ⟨_, hfraction, ?_⟩
    exact bind_eq_ok_iff.mpr ⟨_, hexponent, rfl⟩

theorem value?_toDigits {n : Nat} (h : n < UInt64.size) :
    Numeral.value? ⟨false, Nat.toDigits 10 n, none, none⟩ = some (.natural n) := by
  simp [Numeral.value?, Nat.ofDigitChars_ten_toDigits, h]

end Number

theorem numberToken_toDigits {n : Nat} (h : n < UInt64.size) {rest : List Char}
    (hrest : Ends rest) :
    Document.numberToken (Nat.toDigits 10 n ++ rest) = (.number (.natural n), some rest) := by
  simp only [Document.numberToken, Number.read_toDigits _ n hrest, Number.value?_toDigits h]

end ThresholdBls.Json
