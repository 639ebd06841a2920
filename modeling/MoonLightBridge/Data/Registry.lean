import Mathlib

/-!
# Registries that do not reuse what they have retired

A registry gives identifiers to names. Both may go out of use, and are then retired: a
registry that comes after it gives neither of them out again. The relation between an
earlier registry and a later one is a preorder, so that what holds of one revision holds
of a whole history of them.
-/

/-- Identifiers and their names, and those that must not be used again. -/
structure Registry (ι ν : Type*) where
  live : Set (ι × ν)
  retiredIds : Set ι
  retiredNames : Set ν
  name_unique : ∀ {i a b}, (i, a) ∈ live → (i, b) ∈ live → a = b
  id_unique : ∀ {i j a}, (i, a) ∈ live → (j, a) ∈ live → i = j
  id_notMem : ∀ {i a}, (i, a) ∈ live → i ∉ retiredIds
  name_notMem : ∀ {i a}, (i, a) ∈ live → a ∉ retiredNames

namespace Registry

variable {ι ν : Type*} {r r' r'' : Registry ι ν} {i j : ι} {a b : ν}

/-- A later registry keeps or retires every pair, and takes nothing back. -/
structure Retains (r r' : Registry ι ν) : Prop where
  live : ∀ {i a}, (i, a) ∈ r.live → (i, a) ∈ r'.live ∨ i ∈ r'.retiredIds ∧ a ∈ r'.retiredNames
  ids : r.retiredIds ⊆ r'.retiredIds
  names : r.retiredNames ⊆ r'.retiredNames

theorem Retains.refl (r : Registry ι ν) : Retains r r :=
  ⟨fun h => .inl h, subset_rfl, subset_rfl⟩

theorem Retains.trans (h : Retains r r') (h' : Retains r' r'') : Retains r r'' where
  live hmem := by
    rcases h.live hmem with hkept | ⟨hid, hname⟩
    · exact h'.live hkept
    · exact .inr ⟨h'.ids hid, h'.names hname⟩
  ids := h.ids.trans h'.ids
  names := h.names.trans h'.names

/-- An identifier keeps its name. -/
theorem Retains.name_eq (h : Retains r r') (hold : (i, a) ∈ r.live) (hnew : (i, b) ∈ r'.live) :
    a = b := by
  rcases h.live hold with hkept | ⟨hid, -⟩
  · exact r'.name_unique hkept hnew
  · exact absurd hid (r'.id_notMem hnew)

/-- A name keeps its identifier. -/
theorem Retains.id_eq (h : Retains r r') (hold : (i, a) ∈ r.live) (hnew : (j, a) ∈ r'.live) :
    i = j := by
  rcases h.live hold with hkept | ⟨-, hname⟩
  · exact r'.id_unique hkept hnew
  · exact absurd hname (r'.name_notMem hnew)

/-- What is not in use any more is retired. -/
theorem Retains.retired (h : Retains r r') (hold : (i, a) ∈ r.live) (hgone : (i, a) ∉ r'.live) :
    i ∈ r'.retiredIds ∧ a ∈ r'.retiredNames :=
  (h.live hold).resolve_left hgone

end Registry
