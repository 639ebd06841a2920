import Mathlib

/-!
# Maps with a queue of keys that may go

A finite map together with a queue of some of its keys. Room is made by taking keys from
the front of the queue and their entries out of the map: one key that is still in the
map, or all keys through a given one.
-/

/-- A map and a queue of keys. -/
structure QueuedMap (κ ι : Type*) where
  entries : AList fun _ : κ => ι
  queue : List κ

namespace QueuedMap

variable {κ ι : Type*} [DecidableEq κ]

def size (m : QueuedMap κ ι) : ℕ := m.entries.keys.length

def lookup (m : QueuedMap κ ι) (key : κ) : Option ι := m.entries.lookup key

def insert (m : QueuedMap κ ι) (key : κ) (value : ι) : QueuedMap κ ι :=
  { m with entries := m.entries.insert key value }

def enqueue (m : QueuedMap κ ι) (key : κ) : QueuedMap κ ι :=
  { m with queue := m.queue ++ [key] }

/-- Take keys from the queue until one of them was in the map. -/
def dropOldest (entries : AList fun _ : κ => ι) : List κ → QueuedMap κ ι × Bool
  | [] => (⟨entries, []⟩, false)
  | oldest :: rest =>
    if oldest ∈ entries then (⟨entries.erase oldest, rest⟩, true) else dropOldest entries rest

/-- Take keys from the queue until one of them is the given one. -/
def dropThrough (key : κ) (entries : AList fun _ : κ => ι) : List κ → QueuedMap κ ι
  | [] => ⟨entries, []⟩
  | oldest :: rest =>
    if oldest = key then ⟨entries.erase oldest, rest⟩
    else dropThrough key (entries.erase oldest) rest

/-- The keys have left the front of the queue, and their entries the map. -/
structure Drops (m m' : QueuedMap κ ι) (dropped : List κ) : Prop where
  queue : m.queue = dropped ++ m'.queue
  lookup : ∀ key, m'.lookup key = if key ∈ dropped then none else m.lookup key

variable {m m' : QueuedMap κ ι} {dropped : List κ} {key : κ}

theorem lookup_insert (m : QueuedMap κ ι) (key key' : κ) (value : ι) :
    (m.insert key value).lookup key' = if key' = key then some value else m.lookup key' := by
  unfold insert lookup
  split_ifs with h
  · rw [h, AList.lookup_insert]
  · exact AList.lookup_insert_ne h

theorem lookup_erase (entries : AList fun _ : κ => ι) (key key' : κ) :
    (entries.erase key).lookup key' = if key' = key then none else entries.lookup key' := by
  split_ifs with h
  · rw [h, AList.lookup_erase]
  · exact AList.lookup_erase_ne h

theorem mem_keys_iff : key ∈ m.entries.keys ↔ m.lookup key ≠ none := by
  rw [← AList.mem_keys, lookup, Ne, AList.lookup_eq_none, not_not]

theorem size_insert_le (m : QueuedMap κ ι) (key : κ) (value : ι) :
    (m.insert key value).size ≤ m.size + 1 := by
  rw [size, insert, AList.keys_insert, List.length_cons]
  exact Nat.succ_le_succ List.length_erase_le

theorem drops_dropOldest {entries : AList fun _ : κ => ι} {oldest : κ} {rest : List κ}
    (h : oldest ∈ entries) :
    ∃ m', dropOldest entries (oldest :: rest) = (m', true) ∧
      Drops ⟨entries, oldest :: rest⟩ m' [oldest] := by
  refine ⟨⟨entries.erase oldest, rest⟩, if_pos h, rfl, fun key => ?_⟩
  simp only [lookup, lookup_erase, List.mem_singleton]

theorem drops_dropThrough {before after : List κ} (h : key ∉ before)
    (entries : AList fun _ : κ => ι) :
    Drops ⟨entries, before ++ key :: after⟩ (dropThrough key entries (before ++ key :: after))
      (before ++ [key]) := by
  induction before generalizing entries with
  | nil =>
    rw [List.nil_append, dropThrough, if_pos rfl]
    refine ⟨rfl, fun key' => ?_⟩
    simp only [lookup, lookup_erase, List.nil_append, List.mem_singleton]
  | cons oldest before ih =>
    rw [List.mem_cons, not_or] at h
    obtain ⟨hqueue, hlookup⟩ := ih h.2 (entries.erase oldest)
    rw [List.cons_append, dropThrough, if_neg (Ne.symm h.1)]
    refine ⟨congrArg (oldest :: ·) hqueue, fun key' => ?_⟩
    rw [hlookup]
    rcases eq_or_ne key' oldest with rfl | hold
    · simp [lookup]
    · simp [lookup, hold]

/-- A key in the map that has left makes room. -/
theorem Drops.size_lt (h : Drops m m' dropped) (hmem : key ∈ dropped) (hkey : m.lookup key ≠ none) :
    m'.size < m.size := by
  have hsubset : m'.entries.keys ⊆ m.entries.keys.erase key := by
    intro key' hkey'
    have hne := mem_keys_iff.mp hkey'
    rw [h.lookup] at hne
    split_ifs at hne with hleft
    · exact absurd rfl hne
    · refine (List.mem_erase_of_ne ?_).mpr (mem_keys_iff.mpr hne)
      rintro rfl
      exact hleft hmem
  have hle : m'.entries.keys.length ≤ (m.entries.keys.erase key).length :=
    (List.subperm_of_subset m'.entries.keys_nodup hsubset).length_le
  have hmemKeys : key ∈ m.entries.keys := mem_keys_iff.mpr hkey
  have hpos := List.length_pos_of_mem hmemKeys
  rw [List.length_erase_of_mem hmemKeys] at hle
  unfold size
  omega

end QueuedMap
