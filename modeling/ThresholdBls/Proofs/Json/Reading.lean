import ThresholdBls.Proofs.Json.Tokens

/-!
# Reading written values

A value whose numbers are natural and whose keys need no escapes is read back
from its text as the document of the value, up to what follows.  By induction on
the value, with one lemma each for the items of a list and the members of an
object.  The value of the document has the members of all objects filed by their
keys.
-/

namespace ThresholdBls.Json

open Document

/-- Values with numbers below `2 ^ 64` and keys that stand for themselves. -/
inductive Exact : Json → Prop
  | null : Exact .null
  | bool (b : Bool) : Exact (.bool b)
  | natural {n : Nat} (h : n < UInt64.size) : Exact (.number (.natural n))
  | string (s : String) : Exact (.string s)
  | list {items : List Json} (h : ∀ item ∈ items, Exact item) : Exact (.list items)
  | object {members : List (String × Json)} (hnames : ∀ member ∈ members, Bare member.1)
      (hvalues : ∀ member ∈ members, Exact member.2) : Exact (.object members)

/-! ## Texts of lists and objects -/

theorem itemChars_eq_map (items : List Json) : itemChars items = items.map chars := by
  induction items with
  | nil => rfl
  | cons item rest ih => rw [itemChars, ih, List.map_cons]

/-- Texts with a comma before each, except before the first of all. -/
def joined : Bool → List (List Char) → List Char
  | _, [] => []
  | true, text :: texts => text ++ joined false texts
  | false, text :: texts => ',' :: text ++ joined false texts

theorem commas_eq_joined (texts : List (List Char)) : commas texts = joined true texts := by
  cases texts with
  | nil => rfl
  | cons first rest =>
      induction rest generalizing first with
      | nil => simp [commas, joined, List.intercalate]
      | cons second rest ih =>
          have hsecond := ih second
          simp only [commas, joined, List.intercalate] at hsecond ⊢
          simp [hsecond]

theorem isBlank_of_isDigit {c : Char} (h : c.isDigit = true) : isBlank c = false := by
  by_contra hblank
  simp only [isBlank, Bool.or_eq_false_iff, decide_eq_false_iff_not, not_and_or, not_not]
    at hblank
  rcases hblank with ((rfl | rfl) | rfl) | rfl <;> cases h

theorem skipBlanks_cons {c : Char} (h : isBlank c = false) (cs : List Char) :
    skipBlanks (c :: cs) = c :: cs :=
  List.dropWhile_cons_of_neg (by simp [h])

theorem Exact.exists_chars_eq_cons {value : Json} (h : value.Exact) :
    ∃ c cs, value.chars = c :: cs ∧ isBlank c = false ∧ c ≠ ']' := by
  cases h with
  | null => exact ⟨_, _, rfl, by decide, by decide⟩
  | bool b => cases b <;> exact ⟨_, _, rfl, by decide, by decide⟩
  | @natural n =>
      obtain ⟨c, cs, hcons, hdigit⟩ := Number.exists_toDigits_eq_cons n
      refine ⟨c, cs, ?_, ?_, ?_⟩
      · rw [chars, Number.render, String.toList_ofList, hcons]
      · exact isBlank_of_isDigit hdigit
      · rintro rfl
        cases hdigit
  | string s => exact ⟨_, _, rfl, by decide, by decide⟩
  | list h => exact ⟨_, _, rfl, by decide, by decide⟩
  | object hnames hvalues => exact ⟨_, _, rfl, by decide, by decide⟩

theorem ends_joined {close : Char} (hclose : close = ']' ∨ close = '\x7d')
    (texts : List (List Char)) (rest : List Char) :
    Ends (joined false texts ++ close :: rest) := by
  cases texts with
  | nil =>
      rintro c ⟨⟩
      rcases hclose with rfl | rfl <;> decide
  | cons text texts =>
      rintro c ⟨⟩
      decide

theorem ofItems_eq_map (items : List Json) : ofItems items = items.map ofValue := by
  induction items with
  | nil => rfl
  | cons item rest ih => rw [ofItems, ih, List.map_cons]

theorem ofMembers_eq_map (members : List (String × Json)) :
    ofMembers members =
      members.map fun member => (⟨member.1.toList, true, .ok member.1, none⟩, ofValue member.2) := by
  induction members with
  | nil => rfl
  | cons member rest ih =>
      obtain ⟨key, value⟩ := member
      rw [ofMembers, ih, List.map_cons]

/-! ## Reading -/

/-- The text is read as the document of the value, up to what follows. -/
def ReadsBack (value : Json) : Prop :=
  ∀ bound rest, value.chars.length ≤ bound → Ends rest →
    Document.read bound (value.chars ++ rest) = (.ofValue value, some rest)

theorem readItems_joined {items : List Json} (hexact : ∀ item ∈ items, Exact item)
    (hitems : ∀ item ∈ items, ReadsBack item) (isFirst : Bool) {bound : Nat}
    (hbound : (joined isFirst (items.map chars)).length < bound) (rest : List Char) :
    readItems bound isFirst (joined isFirst (items.map chars) ++ ']' :: rest) =
      (ofItems items, none, some rest) := by
  induction items generalizing isFirst bound with
  | nil =>
      obtain ⟨bound, rfl⟩ := Nat.exists_eq_add_one.mpr hbound
      cases isFirst <;> rfl
  | cons item items ih =>
      rw [List.forall_mem_cons] at hexact hitems
      obtain ⟨bound, rfl⟩ := Nat.exists_eq_add_one.mpr (Nat.zero_lt_of_lt hbound)
      obtain ⟨c, cs, hcons, hblank, hclose⟩ := hexact.1.exists_chars_eq_cons
      have hlength : item.chars.length + (joined false (items.map chars)).length ≤ bound := by
        cases isFirst <;> simp [joined] at hbound <;> omega
      have hpos : 0 < item.chars.length := by simp [hcons]
      have hitem := hitems.1 bound _ (by omega) (ends_joined (.inl rfl) (items.map chars) rest)
      have hrest := ih hexact.2 hitems.2 false (show _ < bound by omega)
      cases isFirst with
      | false =>
          rw [List.map_cons, joined, List.cons_append, List.cons_append, List.append_assoc,
            readItems, skipBlanks_cons (by decide)]
          simp [hitem, hrest, ofItems]
      | true =>
          rw [hcons] at hitem
          rw [List.map_cons, joined, List.append_assoc, hcons, List.cons_append, readItems,
            skipBlanks_cons hblank]
          simp_all [ofItems]

theorem readMembers_joined {members : List (String × Json)}
    (hnames : ∀ member ∈ members, Bare member.1)
    (hvalues : ∀ member ∈ members, ReadsBack member.2) (isFirst : Bool) {bound : Nat}
    (hbound : (joined isFirst (memberChars members)).length < bound) (rest : List Char) :
    readMembers bound isFirst (joined isFirst (memberChars members) ++ '\x7d' :: rest) =
      (ofMembers members, none, some rest) := by
  induction members generalizing isFirst bound with
  | nil =>
      obtain ⟨bound, rfl⟩ := Nat.exists_eq_add_one.mpr hbound
      cases isFirst <;> rfl
  | cons member members ih =>
      obtain ⟨name, value⟩ := member
      rw [List.forall_mem_cons] at hnames hvalues
      dsimp only at hnames hvalues
      obtain ⟨bound, rfl⟩ := Nat.exists_eq_add_one.mpr (Nat.zero_lt_of_lt hbound)
      rw [memberChars, quote_of_bare hnames.1] at hbound ⊢
      have hlength : name.toList.length + value.chars.length +
          (joined false (memberChars members)).length < bound := by
        cases isFirst <;> simp [joined] at hbound <;> omega
      have hkey := keyToken_bare hnames.1 (show _ < bound by omega)
      have hvalue := hvalues.1 bound _ (by omega)
        (ends_joined (.inr rfl) (memberChars members) rest)
      have hrest := ih hnames.2 hvalues.2 false (show _ < bound by omega)
      cases isFirst <;>
        simp [joined, readMembers, skipBlanks_cons, isBlank, hkey, hvalue, hrest, ofMembers]

theorem readsBack_natural {n : Nat} (h : n < UInt64.size) : ReadsBack (.number (.natural n)) := by
  intro bound rest hbound hrest
  have htoken := numberToken_toDigits h hrest
  rw [chars, Number.render, String.toList_ofList] at hbound ⊢
  obtain ⟨c, cs, hcons, hdigit⟩ := Number.exists_toDigits_eq_cons n
  rw [hcons] at hbound htoken ⊢
  obtain ⟨bound, rfl⟩ := Nat.exists_eq_add_one.mpr (Nat.zero_lt_of_lt hbound)
  rw [List.cons_append] at htoken ⊢
  rw [Document.read, skipBlanks_cons (isBlank_of_isDigit hdigit)]
  -- A digit opens none of the other kinds of values.
  split
  case h_1 heq => cases heq
  case h_8 heq =>
    cases heq
    rw [if_pos (.inr hdigit), htoken]
    rfl
  all_goals
    rename_i heq
    cases heq
    cases hdigit

theorem Exact.readsBack {value : Json} (h : Exact value) : ReadsBack value := by
  induction h with
  | null =>
      intro bound rest hbound hrest
      obtain ⟨bound, rfl⟩ := Nat.exists_eq_add_one.mpr (Nat.zero_lt_of_lt hbound)
      rfl
  | bool b =>
      intro bound rest hbound hrest
      cases b <;> obtain ⟨bound, rfl⟩ := Nat.exists_eq_add_one.mpr (Nat.zero_lt_of_lt hbound) <;> rfl
  | natural h => exact readsBack_natural h
  | string s =>
      intro bound rest hbound hrest
      rw [chars, quote] at hbound ⊢
      obtain ⟨bound, rfl⟩ := Nat.exists_eq_add_one.mpr (Nat.zero_lt_of_lt hbound)
      have hlength : s.toList.length < bound := by
        have hescape := length_le_flatMap_escape s.toList
        rw [List.length_append, List.length_cons, List.length_singleton] at hbound
        omega
      have hstring := stringToken_written s hlength rest
      rw [Document.read]
      simp [skipBlanks_cons, isBlank, hstring, ofValue]
  | @list items hexact ih =>
      intro bound rest hbound hrest
      rw [chars, itemChars_eq_map, commas_eq_joined] at hbound ⊢
      obtain ⟨bound, rfl⟩ := Nat.exists_eq_add_one.mpr (Nat.zero_lt_of_lt hbound)
      have hlength : (joined true (items.map chars)).length < bound := by
        simp only [List.length_append, List.length_cons, List.length_nil] at hbound
        omega
      have hitems := readItems_joined hexact ih true hlength rest
      rw [Document.read]
      simp [skipBlanks_cons, isBlank, hitems, ofValue]
  | @object members hnames hexact ih =>
      intro bound rest hbound hrest
      rw [chars, commas_eq_joined] at hbound ⊢
      obtain ⟨bound, rfl⟩ := Nat.exists_eq_add_one.mpr (Nat.zero_lt_of_lt hbound)
      have hlength : (joined true (memberChars members)).length < bound := by
        simp only [List.length_append, List.length_cons, List.length_nil] at hbound
        omega
      have hmembers := readMembers_joined hnames ih true hlength rest
      rw [Document.read]
      simp [skipBlanks_cons, isBlank, hmembers, ofValue]

theorem ofText_render {value : Json} (h : Exact value) :
    Document.ofText value.render = (.ofValue value, some []) := by
  have hread := h.readsBack (2 * value.chars.length + 2) [] (by omega) nofun
  rw [List.append_nil] at hread
  rw [Document.ofText, render, String.toList_ofList, hread]

/-! ## Values of texts -/

mutual

def filed : Json → Json
  | .list items => .list (filedItems items)
  | .object members => .object (filedMembers [] members)
  | value => value

def filedItems : List Json → List Json
  | [] => []
  | item :: rest => filed item :: filedItems rest

def filedMembers (done : List (String × Json)) : List (String × Json) → List (String × Json)
  | [] => done
  | (key, value) :: rest => filedMembers (insertMember key (filed value) done) rest

end

mutual

theorem toValue_ofValue : (value : Json) → toValue (ofValue value) = .ok value.filed
  | .null => rfl
  | .bool _ => rfl
  | .number _ => rfl
  | .string _ => rfl
  | .list items => by
      rw [ofValue, toValue, toItems_ofItems items]
      rfl
  | .object members => by
      rw [ofValue, toValue, toMembers_ofMembers [] members]
      rfl

theorem toItems_ofItems : (items : List Json) → toItems (ofItems items) = .ok (filedItems items)
  | [] => rfl
  | item :: rest => by
      rw [ofItems, toItems, toValue_ofValue item, toItems_ofItems rest]
      rfl

theorem toMembers_ofMembers (done : List (String × Json)) : (members : List (String × Json)) →
    toMembers done (ofMembers members) = .ok (filedMembers done members)
  | [] => rfl
  | (key, value) :: rest => by
      rw [ofMembers, toMembers, toValue_ofValue value]
      exact toMembers_ofMembers _ rest

end

theorem parse_render {value : Json} (h : Exact value) : parse value.render = .ok value.filed := by
  rw [parse, ofText_render h]
  exact bind_eq_ok_iff.mpr ⟨_, toValue_ofValue value, rfl⟩

theorem filedItems_eq_map (items : List Json) : filedItems items = items.map filed := by
  induction items with
  | nil => rfl
  | cons item rest ih => rw [filedItems, ih, List.map_cons]

@[simp] theorem filed_list (items : List Json) : (list items).filed = .list (items.map filed) := by
  rw [filed, filedItems_eq_map]

section Insertion

variable {key name : String} {value content : Json} {rest : List (String × Json)}

theorem insertMember_nil : insertMember key value [] = [(key, value)] := rfl

theorem insertMember_of_lt (h : key < name) :
    insertMember key value ((name, content) :: rest) = (key, value) :: (name, content) :: rest := by
  rw [insertMember, if_neg h.ne, if_pos h]

theorem insertMember_of_gt (h : name < key) :
    insertMember key value ((name, content) :: rest) =
      (name, content) :: insertMember key value rest := by
  rw [insertMember, if_neg h.ne', if_neg h.not_gt]

end Insertion

theorem perm_insertMember {key : String} (value : Json) {members : List (String × Json)}
    (h : key ∉ members.map Prod.fst) :
    (insertMember key value members).Perm ((key, value) :: members) := by
  induction members with
  | nil => exact List.Perm.refl _
  | cons member rest ih =>
      rw [List.map_cons, List.mem_cons, not_or] at h
      rw [insertMember, if_neg h.1]
      split
      · exact List.Perm.refl _
      · exact ((ih h.2).cons member).trans (List.Perm.swap _ _ _)

theorem perm_filedMembers (done : List (String × Json)) {members : List (String × Json)}
    (h : ((done ++ members).map Prod.fst).Nodup) :
    (filedMembers done members).Perm
      (done ++ members.map fun member => (member.1, member.2.filed)) := by
  induction members generalizing done with
  | nil =>
      rw [List.map_nil, List.append_nil]
      exact List.Perm.refl _
  | cons member rest ih =>
      obtain ⟨key, value⟩ := member
      have hmiddle : (done ++ (key, value) :: rest).Perm ((key, value) :: (done ++ rest)) :=
        List.perm_middle
      rw [(hmiddle.map Prod.fst).nodup_iff, List.map_cons, List.nodup_cons, List.map_append,
        List.mem_append, not_or] at h
      have hinsert := perm_insertMember value.filed h.1.1
      rw [filedMembers]
      refine (ih _ ?_).trans ?_
      · rw [((hinsert.append_right rest).map Prod.fst).nodup_iff]
        simpa [h.1.1, h.1.2] using h.2
      · refine (hinsert.append_right _).trans ?_
        exact List.perm_middle.symm

end ThresholdBls.Json
