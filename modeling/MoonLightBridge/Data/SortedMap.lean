import Mathlib

/-!
# Ordered maps as strictly increasing association lists

The observable part of a balanced search tree keyed by a linear order: the list
of its entries in increasing key order. The order is a field of the structure,
so a map with a repeated key or with entries out of order cannot be built, and
two maps with the same entries are equal.
-/

/-- A finite map, represented by its entries in strictly increasing key order. -/
@[ext] structure SortedMap (κ ν : Type*) [LinearOrder κ] where
  toList : List (κ × ν)
  increasing : (toList.map Prod.fst).Pairwise (· < ·)

namespace SortedMap

variable {κ ν : Type*} [LinearOrder κ]

instance [DecidableEq ν] : DecidableEq (SortedMap κ ν) := fun m m' =>
  decidable_of_iff (m.toList = m'.toList) SortedMap.ext_iff.symm

/-- The map without entries. -/
def empty : SortedMap κ ν := ⟨[], List.Pairwise.nil⟩

instance : Inhabited (SortedMap κ ν) := ⟨empty⟩

/-- The keys in increasing order. -/
def keys (m : SortedMap κ ν) : List κ := m.toList.map Prod.fst

/-- The value stored under a key. -/
def get? (m : SortedMap κ ν) (k : κ) : Option ν :=
  (m.toList.find? fun entry => entry.1 = k).map Prod.snd

/-- Put an entry where its key belongs, replacing an entry of the same key. -/
def insertEntry (k : κ) (v : ν) : List (κ × ν) → List (κ × ν)
  | [] => [(k, v)]
  | (k', v') :: l =>
    if k < k' then (k, v) :: (k', v') :: l
    else if k = k' then (k, v) :: l
    else (k', v') :: insertEntry k v l

variable {k x : κ} {l : List (κ × ν)} {v : ν}

theorem mem_keys_insertEntry :
    x ∈ (insertEntry k v l).map Prod.fst ↔ x = k ∨ x ∈ l.map Prod.fst := by
  induction l with
  | nil => simp [insertEntry]
  | cons entry l ih =>
    obtain ⟨k', v'⟩ := entry
    unfold insertEntry
    split_ifs with hlt heq
    · simp
    · subst heq
      simp
    · rw [List.map_cons, List.mem_cons, ih, List.map_cons, List.mem_cons]
      tauto

theorem increasing_insertEntry (h : (l.map Prod.fst).Pairwise (· < ·)) :
    ((insertEntry k v l).map Prod.fst).Pairwise (· < ·) := by
  induction l with
  | nil => simp [insertEntry]
  | cons entry l ih =>
    obtain ⟨k', v'⟩ := entry
    rw [List.map_cons, List.pairwise_cons] at h
    unfold insertEntry
    split_ifs with hlt heq
    · rw [List.map_cons, List.map_cons, List.pairwise_cons, List.pairwise_cons]
      refine ⟨?_, h⟩
      intro x hx
      rcases List.mem_cons.mp hx with rfl | hx
      · exact hlt
      · exact hlt.trans (h.1 x hx)
    · subst heq
      exact List.pairwise_cons.mpr h
    · -- the new key goes further down, above `k'`
      refine List.pairwise_cons.mpr ⟨?_, ih h.2⟩
      intro x hx
      rcases mem_keys_insertEntry.mp hx with rfl | hx
      · exact lt_of_le_of_ne (not_lt.mp hlt) (Ne.symm heq)
      · exact h.1 x hx

/-- Insert an entry, replacing the value of a key already present. -/
def insert (m : SortedMap κ ν) (k : κ) (v : ν) : SortedMap κ ν :=
  ⟨insertEntry k v m.toList, increasing_insertEntry m.increasing⟩

variable {m : SortedMap κ ν}

theorem mem_keys_insert : x ∈ (m.insert k v).keys ↔ x = k ∨ x ∈ m.keys :=
  mem_keys_insertEntry

theorem insertEntry_of_forall_lt (h : ∀ x ∈ l.map Prod.fst, x < k) :
    insertEntry k v l = l ++ [(k, v)] := by
  induction l with
  | nil => rfl
  | cons entry l ih =>
    obtain ⟨k', v'⟩ := entry
    rw [List.map_cons, List.forall_mem_cons] at h
    have hk : k' < k := h.1
    -- every comparison on the way goes to the last branch
    rw [insertEntry, if_neg hk.not_gt, if_neg hk.ne', ih h.2, List.cons_append]

/-- A key above all others goes to the end. -/
theorem toList_insert_of_forall_lt (h : ∀ x ∈ m.keys, x < k) :
    (m.insert k v).toList = m.toList ++ [(k, v)] :=
  insertEntry_of_forall_lt h

/-- A fresh entry is added to the others, wherever it is put. -/
theorem insertEntry_perm (h : k ∉ l.map Prod.fst) : (insertEntry k v l).Perm ((k, v) :: l) := by
  induction l with
  | nil => exact List.Perm.refl _
  | cons entry l ih =>
    obtain ⟨k', v'⟩ := entry
    rw [List.map_cons, List.mem_cons, not_or] at h
    unfold insertEntry
    split_ifs with hlt heq
    · exact List.Perm.refl _
    · exact absurd heq h.1
    · exact ((ih h.2).cons _).trans (List.Perm.swap _ _ _)

theorem get?_eq_none_iff : m.get? k = none ↔ k ∉ m.keys := by
  simp only [get?, keys, Option.map_eq_none_iff, List.find?_eq_none, decide_eq_true_eq,
    List.mem_map, not_exists, not_and]

theorem nodup_keys (m : SortedMap κ ν) : (m.toList.map Prod.fst).Nodup :=
  m.increasing.imp ne_of_lt

/-- A key has one value. -/
theorem eq_of_mem {v' : ν} (h : (k, v) ∈ m.toList) (h' : (k, v') ∈ m.toList) : v = v' := by
  have heq := List.inj_on_of_nodup_map m.nodup_keys h h' rfl
  exact (Prod.mk.inj heq).2

theorem get?_eq_some_iff : m.get? k = some v ↔ (k, v) ∈ m.toList := by
  constructor
  · intro h
    obtain ⟨⟨k', v'⟩, hfind, rfl⟩ := Option.map_eq_some_iff.mp h
    obtain rfl : k' = k := by simpa using List.find?_some hfind
    exact List.mem_of_find?_eq_some hfind
  · intro h
    cases hget : m.get? k with
    | none => exact absurd (List.mem_map_of_mem h) (get?_eq_none_iff.mp hget)
    | some v' =>
      obtain ⟨⟨k', w⟩, hfind, rfl⟩ := Option.map_eq_some_iff.mp hget
      obtain rfl : k' = k := by simpa using List.find?_some hfind
      rw [eq_of_mem (List.mem_of_find?_eq_some hfind) h]

theorem mem_insertEntry {w : ν} (h : (l.map Prod.fst).Pairwise (· < ·)) :
    (x, w) ∈ insertEntry k v l ↔ x = k ∧ w = v ∨ x ≠ k ∧ (x, w) ∈ l := by
  induction l with
  | nil => simp [insertEntry]
  | cons entry l ih =>
    obtain ⟨k', v'⟩ := entry
    rw [List.map_cons, List.pairwise_cons] at h
    have habove : ∀ {y u}, (y, u) ∈ l → k' < y := fun hmem => h.1 _ (List.mem_map_of_mem hmem)
    unfold insertEntry
    split_ifs with hlt heq
    · -- the keys that follow lie above the new one
      have hne : (x, w) ∈ (k', v') :: l → x ≠ k := by
        intro hmem hx
        rcases List.mem_cons.mp hmem with hhead | htail
        · exact hlt.ne' ((Prod.mk.inj hhead).1.symm.trans hx)
        · exact (hlt.trans (habove htail)).ne' hx
      rw [List.mem_cons, Prod.mk.injEq]
      exact or_congr_right ⟨fun hmem => ⟨hne hmem, hmem⟩, And.right⟩
    · subst heq
      have hne : (x, w) ∈ l → x ≠ k := fun hmem => (habove hmem).ne'
      rw [List.mem_cons, Prod.mk.injEq, List.mem_cons, Prod.mk.injEq]
      tauto
    · rw [List.mem_cons, Prod.mk.injEq, ih h.2, List.mem_cons, Prod.mk.injEq]
      have hne : x = k' → x ≠ k := fun hx hk => heq (hk.symm.trans hx)
      tauto

/-- The entries after an insertion. -/
theorem mem_toList_insert {w : ν} :
    (x, w) ∈ (m.insert k v).toList ↔ x = k ∧ w = v ∨ x ≠ k ∧ (x, w) ∈ m.toList :=
  mem_insertEntry m.increasing

theorem get?_insert_self (m : SortedMap κ ν) (k : κ) (v : ν) : (m.insert k v).get? k = some v :=
  get?_eq_some_iff.mpr (mem_toList_insert.mpr (.inl ⟨rfl, rfl⟩))

/-- A map with the given entries; of those with one key, the last counts. -/
def ofList (entries : List (κ × ν)) : SortedMap κ ν :=
  entries.foldl (fun m entry => m.insert entry.1 entry.2) empty

variable {entries : List (κ × ν)}

theorem mem_toList_foldl_insert (h : (entries.map Prod.fst).Nodup) :
    (k, v) ∈ (entries.foldl (fun m entry => m.insert entry.1 entry.2) m).toList ↔
      (k, v) ∈ entries ∨ k ∉ entries.map Prod.fst ∧ (k, v) ∈ m.toList := by
  induction entries generalizing m with
  | nil => simp
  | cons entry entries ih =>
    obtain ⟨k', v'⟩ := entry
    rw [List.map_cons, List.nodup_cons] at h
    rw [List.foldl_cons, ih h.2, mem_toList_insert, List.mem_cons, Prod.mk.injEq, List.map_cons,
      List.mem_cons]
    -- the later entries have other keys than the first
    have hother : k = k' → k ∉ entries.map Prod.fst := fun hk => hk ▸ h.1
    tauto

theorem mem_toList_ofList (h : (entries.map Prod.fst).Nodup) :
    (k, v) ∈ (ofList entries).toList ↔ (k, v) ∈ entries := by
  rw [ofList, mem_toList_foldl_insert h]
  simp [empty]

/-- A set of keys is determined by its elements. -/
theorem ext_keys {s t : SortedMap κ Unit} (h : ∀ k, k ∈ s.keys ↔ k ∈ t.keys) : s = t := by
  have hkeys : s.keys = t.keys := s.increasing.eq_of_mem_iff t.increasing h
  have hlist (m : SortedMap κ Unit) : m.keys.map (·, ()) = m.toList := by
    rw [keys, List.map_map]
    exact List.map_id _
  exact SortedMap.ext (by rw [← hlist s, hkeys, hlist t])

theorem mem_keys_foldl_insert :
    k ∈ (entries.foldl (fun m entry => m.insert entry.1 entry.2) m).keys ↔
      k ∈ entries.map Prod.fst ∨ k ∈ m.keys := by
  induction entries generalizing m with
  | nil => simp
  | cons entry entries ih =>
    rw [List.foldl_cons, ih, mem_keys_insert, List.map_cons, List.mem_cons]
    tauto

end SortedMap
