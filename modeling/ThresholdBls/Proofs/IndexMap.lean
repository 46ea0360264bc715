import Mathlib
import ThresholdBls.IndexMap

/-!
# Lookup in index maps

A map holds one value per index.  Insertion changes the value of its own index
only, and at an index not present it adds one entry.
-/

namespace ThresholdBls.IndexMap

variable {α : Type}

theorem nodup_keys (map : IndexMap α) : (map.entries.map Prod.fst).Nodup := by
  rw [List.Nodup, List.pairwise_map]
  exact map.ascending.imp fun hlt heq => (Nat.ne_of_lt hlt) (congrArg UInt16.toNat heq)

theorem index_le_of_head? (map : IndexMap α) {first entry : UInt16 × α}
    (hfirst : map.entries.head? = some first) (hentry : entry ∈ map.entries) :
    first.1.toNat ≤ entry.1.toNat := by
  have hascending := map.ascending
  obtain ⟨rest, hentries⟩ := List.head?_eq_some_iff.mp hfirst
  rw [hentries] at hascending hentry
  rcases List.mem_cons.mp hentry with rfl | hrest
  · exact le_rfl
  · exact (List.rel_of_pairwise_cons hascending hrest).le

theorem get?_eq_some_iff (map : IndexMap α) (index : UInt16) (value : α) :
    map.get? index = some value ↔ (index, value) ∈ map.entries := by
  rw [get?, Option.map_eq_some_iff]
  constructor
  · rintro ⟨entry, hfind, rfl⟩
    have hindex : entry.1 = index := by simpa using List.find?_some hfind
    rw [← hindex]
    exact List.mem_of_find?_eq_some hfind
  · intro hmem
    have hsome : (map.entries.find? fun entry => entry.1 == index).isSome := by
      rw [List.find?_isSome]
      exact ⟨_, hmem, by simp⟩
    obtain ⟨entry, hfind⟩ := Option.isSome_iff_exists.mp hsome
    have hindex : entry.1 = index := by simpa using List.find?_some hfind
    refine ⟨entry, hfind, ?_⟩
    -- Entries of one index are equal, as the indices are pairwise distinct.
    have hentry := List.inj_on_of_nodup_map map.nodup_keys (List.mem_of_find?_eq_some hfind) hmem
      hindex
    rw [hentry]

theorem contains_eq_isSome (map : IndexMap α) (index : UInt16) :
    map.contains index = (map.get? index).isSome := by
  rw [contains, get?, Option.isSome_map, List.isSome_find?]

theorem mem_keys_iff (map : IndexMap α) (index : UInt16) :
    index ∈ map.entries.map Prod.fst ↔ map.contains index = true := by
  rw [contains_eq_isSome, Option.isSome_iff_exists, List.mem_map]
  constructor
  · rintro ⟨entry, hentry, rfl⟩
    exact ⟨entry.2, (map.get?_eq_some_iff _ _).mpr hentry⟩
  · rintro ⟨value, hvalue⟩
    exact ⟨(index, value), (map.get?_eq_some_iff _ _).mp hvalue, rfl⟩

/-! ## Insertion -/

theorem perm_insertEntry {index : UInt16} (value : α) {entries : List (UInt16 × α)}
    (h : index ∉ entries.map Prod.fst) :
    (insertEntry index value entries).Perm ((index, value) :: entries) := by
  induction entries with
  | nil => exact List.Perm.refl _
  | cons entry rest ih =>
      rw [List.map_cons, List.mem_cons, not_or] at h
      unfold insertEntry
      split
      · exact List.Perm.refl _
      · split
        · rename_i hsame
          exact absurd (UInt16.toNat_inj.mp hsame) h.1
        · exact ((ih h.2).cons entry).trans (List.Perm.swap _ _ _)

theorem perm_insert {map : IndexMap α} {index : UInt16} (h : map.contains index = false)
    (value : α) : (map.insert index value).entries.Perm ((index, value) :: map.entries) := by
  refine perm_insertEntry value fun hmem => ?_
  rw [(map.mem_keys_iff index).mp hmem] at h
  cases h

theorem size_insert {map : IndexMap α} {index : UInt16} (h : map.contains index = false)
    (value : α) : (map.insert index value).size = map.size + 1 :=
  (perm_insert h value).length_eq

theorem get?_insert_self {map : IndexMap α} {index : UInt16} (h : map.contains index = false)
    (value : α) : (map.insert index value).get? index = some value := by
  rw [get?_eq_some_iff, (perm_insert h value).mem_iff]
  exact List.mem_cons_self

theorem get?_insert_of_ne {map : IndexMap α} {index other : UInt16}
    (h : map.contains index = false) (hne : other ≠ index) (value : α) :
    (map.insert index value).get? other = map.get? other := by
  ext found
  rw [get?_eq_some_iff, get?_eq_some_iff, (perm_insert h value).mem_iff, List.mem_cons]
  constructor
  · rintro (heq | hmem)
    · exact absurd (congrArg Prod.fst heq) hne
    · exact hmem
  · exact Or.inr

/-! ## Maps of lists -/

theorem perm_foldl_insert {map : IndexMap α} {entries : List (UInt16 × α)}
    (h : ((map.entries ++ entries).map Prod.fst).Nodup) :
    (entries.foldl (fun map entry => map.insert entry.1 entry.2) map).entries.Perm
      (map.entries ++ entries) := by
  induction entries generalizing map with
  | nil =>
      rw [List.append_nil]
      exact List.Perm.refl _
  | cons entry rest ih =>
      have hmiddle : (map.entries ++ entry :: rest).Perm (entry :: (map.entries ++ rest)) :=
        List.perm_middle
      have hfresh : map.contains entry.1 = false := by
        rw [(hmiddle.map Prod.fst).nodup_iff, List.map_cons, List.nodup_cons, List.map_append,
          List.mem_append, not_or] at h
        rw [← Bool.not_eq_true, ← map.mem_keys_iff]
        exact h.1.1
      have hentries := ((perm_insert hfresh entry.2).append_right rest).trans hmiddle.symm
      refine (ih ?_).trans hentries
      exact (hentries.map Prod.fst).nodup_iff.mpr h

theorem perm_ofList {entries : List (UInt16 × α)} (h : (entries.map Prod.fst).Nodup) :
    (ofList entries).entries.Perm entries :=
  @perm_foldl_insert α empty entries h

theorem ofList_eq_of_perm {entries : List (UInt16 × α)} {map : IndexMap α}
    (h : entries.Perm map.entries) : ofList entries = map := by
  have hnodup : (entries.map Prod.fst).Nodup := (h.map Prod.fst).nodup_iff.mpr map.nodup_keys
  have hentries : (ofList entries).entries = map.entries :=
    ((perm_ofList hnodup).trans h).eq_of_pairwise (fun _ _ _ _ hlt hgt => absurd hlt hgt.not_gt)
      (ofList entries).ascending map.ascending
  cases map
  cases hentries
  rfl

theorem entries_ofList {entries : List (UInt16 × α)}
    (h : entries.Pairwise fun a b => a.1.toNat < b.1.toNat) :
    (ofList entries).entries = entries := by
  have hmap : ofList entries = ⟨entries, h⟩ := ofList_eq_of_perm (List.Perm.refl _)
  rw [hmap]

@[simp] theorem entries_empty : (empty : IndexMap α).entries = [] := rfl

@[simp] theorem size_empty : (empty : IndexMap α).size = 0 := rfl

@[simp] theorem get?_empty (index : UInt16) : (empty : IndexMap α).get? index = none := rfl

end ThresholdBls.IndexMap
