/-!
# Maps keyed by signer index

A map is the list of its entries in ascending order of their indices.  Inserting at an index that
is present replaces its value.
-/

namespace ThresholdBls

structure IndexMap (α : Type) where
  entries : List (UInt16 × α)
  ascending : entries.Pairwise (fun a b => a.1.toNat < b.1.toNat)

namespace IndexMap

variable {α : Type}

def empty : IndexMap α := ⟨[], .nil⟩

def insertEntry (index : UInt16) (value : α) : List (UInt16 × α) → List (UInt16 × α)
  | [] => [(index, value)]
  | entry :: rest =>
      if index.toNat < entry.1.toNat then (index, value) :: entry :: rest
      else if index.toNat = entry.1.toNat then (index, value) :: rest
      else entry :: insertEntry index value rest

theorem mem_insertEntry {index : UInt16} {value : α} {entries : List (UInt16 × α)}
    {entry : UInt16 × α} (h : entry ∈ insertEntry index value entries) :
    entry = (index, value) ∨ entry ∈ entries := by
  induction entries with
  | nil => simpa [insertEntry] using h
  | cons head rest ih =>
      unfold insertEntry at h
      split at h
      · simpa using h
      · split at h
        · rcases List.mem_cons.1 h with h | h
          · exact .inl h
          · exact .inr (List.mem_cons_of_mem _ h)
        · rcases List.mem_cons.1 h with h | h
          · exact .inr (h ▸ List.mem_cons_self)
          · exact (ih h).imp id (List.mem_cons_of_mem _)

theorem pairwise_insertEntry (index : UInt16) (value : α) {entries : List (UInt16 × α)}
    (h : entries.Pairwise (fun a b => a.1.toNat < b.1.toNat)) :
    (insertEntry index value entries).Pairwise (fun a b => a.1.toNat < b.1.toNat) := by
  induction entries with
  | nil => simp [insertEntry]
  | cons head rest ih =>
      obtain ⟨below, tail⟩ := List.pairwise_cons.1 h
      unfold insertEntry
      split
      case isTrue less =>
        refine List.pairwise_cons.2 ⟨fun entry member => ?_, h⟩
        rcases List.mem_cons.1 member with same | member
        · exact same ▸ less
        · exact Nat.lt_trans less (below entry member)
      case isFalse notLess =>
        split
        case isTrue same =>
          exact List.pairwise_cons.2 ⟨fun entry member => same ▸ below entry member, tail⟩
        case isFalse other =>
          refine List.pairwise_cons.2 ⟨fun entry member => ?_, ih tail⟩
          rcases mem_insertEntry member with same | member
          · subst same
            exact Nat.lt_of_le_of_ne (Nat.le_of_not_lt notLess) (Ne.symm other)
          · exact below entry member

def insert (map : IndexMap α) (index : UInt16) (value : α) : IndexMap α :=
  ⟨insertEntry index value map.entries, pairwise_insertEntry index value map.ascending⟩

/-- The map of a list of entries, of which a later one replaces an earlier one. -/
def ofList (entries : List (UInt16 × α)) : IndexMap α :=
  entries.foldl (fun map entry => map.insert entry.1 entry.2) empty

def get? (map : IndexMap α) (index : UInt16) : Option α :=
  (map.entries.find? fun entry => entry.1 == index).map Prod.snd

def contains (map : IndexMap α) (index : UInt16) : Bool :=
  map.entries.any fun entry => entry.1 == index

def size (map : IndexMap α) : Nat :=
  map.entries.length

def values (map : IndexMap α) : List α :=
  map.entries.map Prod.snd

end IndexMap

end ThresholdBls
