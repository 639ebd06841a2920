import MoonLightBridge.Codegen.Compatibility

/-!
# Enums against the compatibility check

An enum may lose a value only if it reserves the number and the name of it, and it may not
give up a reservation. The check compares snapshots, in which two things are lost. The values
are kept by their numbers, so of the names that share a number under `allow_alias` only the
last one is recorded. And an inclusive range is made a half-open one by adding one to its
end, which stays where it is at the largest `i32`: that number is then not recorded as
reserved.
-/

namespace MoonLightBridge.Codegen

open Schema Compatibility

def IsInt32 (number : ℤ) : Prop := -2 ^ 31 ≤ number ∧ number < 2 ^ 31

instance decidableIsInt32 (number : ℤ) : Decidable (IsInt32 number) :=
  inferInstanceAs (Decidable (_ ∧ _))

/-- An enum that `protoc` accepts: names are distinct, numbers need not be, and it uses nothing
that it reserves. -/
structure EnumDeclaration where
  values : List (String × ℤ)
  /-- the first and the last number of each -/
  reservedRanges : List (ℤ × ℤ)
  reservedNames : List String
  isInt32_value : ∀ value ∈ values, IsInt32 value.2 := by decide
  isInt32_range : ∀ range ∈ reservedRanges, IsInt32 range.1 ∧ IsInt32 range.2 := by decide
  nodup_names : (values.map Prod.fst).Nodup := by decide
  start_le_stop : ∀ range ∈ reservedRanges, range.1 ≤ range.2 := by decide
  number_notReserved : ∀ value ∈ values, ∀ range ∈ reservedRanges,
    ¬ (range.1 ≤ value.2 ∧ value.2 ≤ range.2) := by decide
  name_notReserved : ∀ value ∈ values, value.1 ∉ reservedNames := by decide

namespace EnumDeclaration

def descriptor (enumeration : EnumDeclaration) (name : String) : EnumDescriptorProto where
  name := some name
  value := enumeration.values.map fun value => ⟨some value.1, some value.2⟩
  reservedRange := enumeration.reservedRanges.map fun range => ⟨some range.1, some range.2⟩
  reservedName := enumeration.reservedNames

def Reserves (enumeration : EnumDeclaration) (number : ℤ) : Prop :=
  ∃ range ∈ enumeration.reservedRanges, range.1 ≤ number ∧ number ≤ range.2

/-- Every value is kept, or its number and its name are reserved, and so is what was. -/
def CompatibleWith (old new : EnumDeclaration) : Prop :=
  (∀ value ∈ old.values,
    value ∈ new.values ∨ new.Reserves value.2 ∧ value.1 ∈ new.reservedNames) ∧
  (∀ number, old.Reserves number → new.Reserves number) ∧
  ∀ name ∈ old.reservedNames, name ∈ new.reservedNames

/-- No number has two names, and the largest `i32` is not reserved. -/
def IsFaithful (enumeration : EnumDeclaration) : Prop :=
  (enumeration.values.map Prod.snd).Nodup ∧
    ∀ range ∈ enumeration.reservedRanges, range.2 < 2 ^ 31 - 1

instance decidableIsFaithful (enumeration : EnumDeclaration) : Decidable enumeration.IsFaithful :=
  inferInstanceAs (Decidable (_ ∧ _))

/-! ### What is recorded -/

def locked (enumeration : EnumDeclaration) : LockedEnum where
  values := .ofList (enumeration.values.map Prod.swap)
  reservedRanges := enumeration.reservedRanges.map fun range =>
    ⟨range.1, min (range.2 + 1) (2 ^ 31 - 1)⟩
  reservedNames := enumeration.reservedNames

variable {old new enumeration : EnumDeclaration} {name : String} {number : ℤ}

theorem mapM_snapshotValue (values : List (String × ℤ)) :
    (values.map fun value => EnumValueDescriptorProto.mk (some value.1) (some value.2)).mapM
      snapshotValue = .ok (values.map Prod.swap) := by
  induction values with
  | nil => rfl
  | cons value values ih =>
    rw [List.map_cons, List.mapM_cons, ih]
    rfl

theorem get?_of_snapshotEnum {scope : String} {base lock : SchemaLock}
    (h : snapshotEnum scope base (enumeration.descriptor name) = .ok lock) :
    lock.enums.get? (qualify scope name) = some enumeration.locked := by
  have hsnapshot : snapshotEnum scope base (enumeration.descriptor name) = .ok { base with
      enums := base.enums.insert (qualify scope name) enumeration.locked } := by
    rw [snapshotEnum, descriptor, mapM_snapshotValue, locked]
    simp only [List.map_map]
    rfl
  rw [hsnapshot] at h
  cases h
  exact SortedMap.get?_insert_self _ _ _

section Faithful

variable (hfaithful : enumeration.IsFaithful)

include hfaithful

theorem mem_locked_values :
    (number, name) ∈ enumeration.locked.values.toList ↔ (name, number) ∈ enumeration.values := by
  have hnodup : ((enumeration.values.map Prod.swap).map Prod.fst).Nodup := by
    rw [List.map_map]
    exact hfaithful.1
  rw [locked, SortedMap.mem_toList_ofList hnodup, List.mem_map]
  constructor
  · rintro ⟨value, hmem, heq⟩
    cases heq
    exact hmem
  · intro hmem
    exact ⟨_, hmem, rfl⟩

theorem exists_locked_contains :
    (∃ range ∈ enumeration.locked.reservedRanges, range.Contains number) ↔
      enumeration.Reserves number := by
  have hcontains : ∀ range ∈ enumeration.reservedRanges,
      (NumberRange.Contains ⟨range.1, min (range.2 + 1) (2 ^ 31 - 1)⟩ number ↔
        range.1 ≤ number ∧ number ≤ range.2) := by
    intro range hmem
    have hlt := hfaithful.2 range hmem
    simp only [NumberRange.Contains]
    omega
  constructor
  · rintro ⟨_, hmem, hnumber⟩
    obtain ⟨range, hrange, rfl⟩ := List.mem_map.mp hmem
    exact ⟨range, hrange, (hcontains range hrange).mp hnumber⟩
  · rintro ⟨range, hrange, hnumber⟩
    exact ⟨_, List.mem_map_of_mem hrange, (hcontains range hrange).mpr hnumber⟩

/-- A value is reported unless it is kept or reserved. -/
theorem valueErrors_eq_nil_iff {full : String} :
    valueErrors full enumeration.locked (number, name) = [] ↔
      (name, number) ∈ enumeration.values ∨
        enumeration.Reserves number ∧ name ∈ enumeration.reservedNames := by
  unfold valueErrors
  cases hget : enumeration.locked.values.get? number with
  | some name' =>
    have hmem := (mem_locked_values hfaithful).mp (SortedMap.get?_eq_some_iff.mp hget)
    -- a number that is used is not reserved
    have hfree : ¬ enumeration.Reserves number := by
      rintro ⟨range, hrange, hnumber⟩
      exact enumeration.number_notReserved _ hmem range hrange hnumber
    have hsame : (name, number) ∈ enumeration.values ↔ name' = name := by
      rw [← mem_locked_values hfaithful, ← SortedMap.get?_eq_some_iff, hget, Option.some_inj]
    simp [hfree, hsame]
  | none =>
    have hnot : (name, number) ∉ enumeration.values := by
      rw [← mem_locked_values hfaithful, ← SortedMap.get?_eq_some_iff, hget]
      exact (Option.some_ne_none name).symm
    have hreserved : isReserved number name enumeration.locked.reservedRanges
        enumeration.locked.reservedNames = true ↔ _ := isReserved_iff
    rw [exists_locked_contains hfaithful] at hreserved
    rw [or_iff_right hnot]
    dsimp only
    split_ifs with h
    · exact iff_of_true rfl (hreserved.mp h)
    · exact iff_of_false not_false (mt hreserved.mpr h)

end Faithful

theorem reservations_eq_nil_iff (hold : old.IsFaithful) (hnew : new.IsFaithful) :
    checkPreservedReservations .enumeration name old.locked.reservedRanges old.reservedNames
        new.locked.reservedRanges new.reservedNames = [] ↔
      (∀ number, old.Reserves number → new.Reserves number) ∧
        ∀ name ∈ old.reservedNames, name ∈ new.reservedNames := by
  rw [checkPreservedReservations_eq_nil]
  refine and_congr_left fun _ => ?_
  have hcovered : ∀ range ∈ old.locked.reservedRanges,
      (rangeIsCovered range new.locked.reservedRanges = true ↔
        ∀ number, range.Contains number → new.Reserves number) := by
    intro range hmem
    obtain ⟨declared, hdeclared, rfl⟩ := List.mem_map.mp hmem
    have hle := old.start_le_stop declared hdeclared
    have hlt := hold.2 declared hdeclared
    rw [rangeIsCovered_iff (by dsimp only; omega)]
    simp only [exists_locked_contains hnew]
  simp only [← exists_locked_contains hold]
  constructor
  · rintro h number ⟨range, hmem, hnumber⟩
    exact (hcovered range hmem).mp (h range hmem) number hnumber
  · intro h range hmem
    exact (hcovered range hmem).mpr fun number hnumber => h number ⟨range, hmem, hnumber⟩

/-- A status as it was, and after it has lost a value and reserved what it was. -/
def openStatus : EnumDeclaration where
  values := [("UNKNOWN", 0), ("OPEN", 2)]
  reservedRanges := [(-3, -2)]
  reservedNames := []

@[inherit_doc openStatus]
def reservingStatus : EnumDeclaration where
  values := [("UNKNOWN", 0), ("CLOSED", 7)]
  reservedRanges := [(2, 2), (-5, -1)]
  reservedNames := ["OPEN"]

/-- A status with two names for zero, and the same status without the first of them. -/
def aliasedStatus : EnumDeclaration where
  values := [("NONE", 0), ("UNKNOWN", 0)]
  reservedRanges := []
  reservedNames := []

@[inherit_doc aliasedStatus]
def unaliasedStatus : EnumDeclaration where
  values := [("UNKNOWN", 0)]
  reservedRanges := []
  reservedNames := []

/-- A status that uses the largest `i32`, and one that has it reserved. -/
def largestStatus : EnumDeclaration where
  values := [("UNKNOWN", 0), ("LARGEST", 2 ^ 31 - 1)]
  reservedRanges := []
  reservedNames := []

@[inherit_doc largestStatus]
def largestReservedStatus : EnumDeclaration where
  values := [("UNKNOWN", 0)]
  reservedRanges := [(2 ^ 31 - 1, 2 ^ 31 - 1)]
  reservedNames := ["LARGEST"]

/-- What the check reports for the two. -/
def reported (old new : EnumDeclaration) : Except String (List CompatibilityError) := do
  let lock ← snapshotEnum "" .empty (old.descriptor "Status")
  let lock' ← snapshotEnum "" .empty (new.descriptor "Status")
  return compatibilityErrors lock lock'

end EnumDeclaration

end MoonLightBridge.Codegen
