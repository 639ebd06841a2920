import MoonLightBridge.Codegen.Source

/-!
# The numbers the three frontends give

The Rust, Java and Kotlin frontends write the same declarations. Each gives a member the
number that the lock has for its name, and otherwise the first number that neither the lock
nor a member before it uses; each reserves what the lock has and the declaration has lost.
The Rust frontend keeps the lock by number, the other two by name.

The members are given by their names in the Protobuf file, and those of a message with what
their types are mapped to. The search for a free number does not run out of `i32`s.
-/

namespace MoonLightBridge.Codegen.Source

/-- The loop over the members: one that is locked keeps its number. -/
def numberMembers (locked : String → Option ℤ) (next : SortedMap ℤ Unit → ℤ) :
    SortedMap ℤ Unit → List String → List (ℤ × String)
  | _, [] => []
  | used, name :: names =>
    let number := (locked name).getD (next used)
    (number, name) :: numberMembers locked next (used.insert number ()) names

def sortByNumber (values : List (ℤ × String)) : List (ℤ × String) :=
  values.insertionSort fun value value' => value.1 ≤ value'.1

structure ProtoEnum where
  name : String
  reserved : List Statement
  values : List (ℤ × String)
  deriving DecidableEq, Repr

/-! ### Rust -/

/-- `next_enum_number` -/
def nextEnumNumber (used : SortedMap ℤ Unit) : ℤ := searchNumber used (used.keys.length + 1001) 0

/-- `generate_enum`, for variants without fields. A `LockedEnum` has the fields of a
`LockedMessage`; they are its values. -/
def generateEnum (previous : Option LockedMessage) (name : String) (names : List String) :
    Except String ProtoEnum :=
  let values := sortByNumber (numberMembers (fun name => previous.bind (·.numberOf name))
    nextEnumNumber (usedNumbers previous) names)
  if values.head?.any (·.1 ≠ 0) then
    .error ("enum " ++ name ++ " must retain or declare an active zero-valued variant")
  else .ok {
    name
    reserved := previous.elim [] (reservations · names)
    values }

/-! ### Java and Kotlin -/

/-- `LockedMessage` and `LockedEnum` of the other frontends. -/
structure NamedLock where
  numbers : SortedMap String ℤ
  reservedNumbers : SortedMap ℤ Unit
  reservedNames : SortedMap String Unit

namespace NamedLock

def empty : NamedLock := ⟨.empty, .empty, .empty⟩

/-- What they read of a lock. -/
def ofLocked (locked : LockedMessage) : NamedLock where
  numbers := .ofList (locked.fields.toList.map Prod.swap)
  reservedNumbers := locked.reservedNumbers
  reservedNames := locked.reservedNames

def used (locked : NamedLock) : SortedMap ℤ Unit :=
  .ofList ((locked.numbers.toList.map Prod.snd ++ locked.reservedNumbers.keys).map (·, ()))

def reservations (locked : NamedLock) (currentNames : List String) : List Statement :=
  ((locked.numbers.toList.filter fun entry => entry.1 ∉ currentNames).insertionSort
      fun entry entry' => entry.2 ≤ entry'.2).flatMap
      (fun entry => [.reservedNumber entry.2, .reservedName entry.1]) ++
    locked.reservedNumbers.keys.map .reservedNumber ++
    locked.reservedNames.keys.map .reservedName

end NamedLock

/-- A field of a message, and what its type is mapped to. -/
structure Member where
  name : String
  type : Except String (Label × String)

/-- The loop over the fields. -/
def numberFields (locked : NamedLock) (next : SortedMap ℤ Unit → ℤ) :
    SortedMap ℤ Unit → List Member → Except String (List FieldStatement)
  | _, [] => .ok []
  | used, member :: members =>
    let number := (locked.numbers.get? member.name).getD (next used)
    match member.type with
    | .error error => .error error
    | .ok (label, type) =>
      match numberFields locked next (used.insert number ()) members with
      | .error error => .error error
      | .ok statements => .ok (⟨label, type, member.name, number⟩ :: statements)

def namedMessage (next : SortedMap ℤ Unit → ℤ) (previous : Option NamedLock) (name : String)
    (members : List Member) : Except String ProtoMessage :=
  let locked := previous.getD .empty
  match numberFields locked next locked.used members with
  | .error error => .error error
  | .ok statements => .ok {
      name
      body := locked.reservations (members.map Member.name) ++ statements.map .field }

def namedEnum (next : SortedMap ℤ Unit → ℤ) (rejects : List (ℤ × String) → Bool)
    (previous : Option NamedLock) (name : String) (names : List String) :
    Except String ProtoEnum :=
  let locked := previous.getD .empty
  let values := sortByNumber (numberMembers locked.numbers.get? next locked.used names)
  if rejects values then
    .error ("enum " ++ name ++ " must retain or declare an active zero-valued constant")
  else .ok { name, reserved := locked.reservations names, values }

/-- `nextNumber` of the Kotlin frontend -/
def nextNumberFrom (start : ℤ) (used : SortedMap ℤ Unit) : ℤ :=
  searchNumber used (used.keys.length + 1001) start

def emitMessage : Option NamedLock → String → List Member → Except String ProtoMessage :=
  namedMessage nextNumber

def appendMessage : Option NamedLock → String → List Member → Except String ProtoMessage :=
  namedMessage (nextNumberFrom 1)

def emitEnum : Option NamedLock → String → List String → Except String ProtoEnum :=
  namedEnum nextEnumNumber fun values => values.head?.any (·.1 ≠ 0)

/-- `appendEnum`; it also rejects an enum without values. -/
def appendEnum : Option NamedLock → String → List String → Except String ProtoEnum :=
  namedEnum (nextNumberFrom 0) fun values => values.head?.map Prod.fst ≠ some 0

/-! ### The locks agree -/

section Locked

variable {locked : LockedMessage} (hnames : (locked.fields.toList.map Prod.snd).Nodup)

include hnames

theorem mem_ofLocked_numbers {name : String} {number : ℤ} :
    (name, number) ∈ (NamedLock.ofLocked locked).numbers.toList ↔
      (number, name) ∈ locked.fields.toList := by
  have hnodup : ((locked.fields.toList.map Prod.swap).map Prod.fst).Nodup := by
    rw [List.map_map]
    exact hnames
  rw [NamedLock.ofLocked, SortedMap.mem_toList_ofList hnodup, List.mem_map]
  constructor
  · rintro ⟨entry, hmem, heq⟩
    cases heq
    exact hmem
  · intro hmem
    exact ⟨_, hmem, rfl⟩

/-- A name has the same number in both. -/
theorem get?_ofLocked (name : String) :
    (NamedLock.ofLocked locked).numbers.get? name = locked.numberOf name := by
  cases hnumber : locked.numberOf name with
  | none =>
    rw [SortedMap.get?_eq_none_iff]
    intro hmem
    obtain ⟨⟨_, number⟩, hentry, rfl⟩ := List.mem_map.mp hmem
    exact numberOf_eq_none.mp hnumber number ((mem_ofLocked_numbers hnames).mp hentry)
  | some number =>
    rw [SortedMap.get?_eq_some_iff, mem_ofLocked_numbers hnames]
    exact numberOf_eq_some hnumber

theorem used_ofLocked : (NamedLock.ofLocked locked).used = usedNumbers (some locked) := by
  refine SortedMap.ext_keys fun number => ?_
  rw [NamedLock.used, usedNumbers, mem_keys_ofList, mem_keys_ofList, List.mem_append,
    List.mem_append]
  refine or_congr_left ?_
  rw [SortedMap.keys, List.mem_map, List.mem_map]
  constructor
  · rintro ⟨⟨name, number⟩, hmem, rfl⟩
    exact ⟨_, (mem_ofLocked_numbers hnames).mp hmem, rfl⟩
  · rintro ⟨⟨number, name⟩, hmem, rfl⟩
    exact ⟨_, (mem_ofLocked_numbers hnames).mpr hmem, rfl⟩

/-- What is lost is found in the order of its numbers, too. -/
theorem reservations_ofLocked (names : List String) :
    (NamedLock.ofLocked locked).reservations names = reservations locked names := by
  set lost := locked.fields.toList.filter fun entry => entry.2 ∉ names with hlost
  set lost' := (NamedLock.ofLocked locked).numbers.toList.filter fun entry => entry.1 ∉ names
    with hlost'
  have hmem {entry : String × ℤ} : entry ∈ lost' ↔ entry ∈ lost.map Prod.swap := by
    rw [hlost', List.mem_filter, mem_ofLocked_numbers hnames, List.mem_map]
    constructor
    · rintro ⟨hmem, hnot⟩
      exact ⟨entry.swap, List.mem_filter.mpr ⟨hmem, hnot⟩, rfl⟩
    · rintro ⟨entry, hmem, rfl⟩
      exact List.mem_filter.mp hmem
  have hincreasing : (lost.map Prod.fst).Pairwise (· < ·) :=
    locked.fields.increasing.sublist (List.filter_sublist.map _)
  have hnodup : lost.Nodup := .of_map Prod.fst (hincreasing.imp ne_of_lt)
  have hnodup' : lost'.Nodup :=
    (List.Nodup.of_map Prod.fst (NamedLock.ofLocked locked).numbers.nodup_keys).filter _
  have hperm : lost'.Perm (lost.map Prod.swap) :=
    (List.perm_ext_iff_of_nodup hnodup' (hnodup.map Prod.swap_injective)).mpr fun _ => hmem
  have hsorted : lost'.insertionSort (fun entry entry' => entry.2 ≤ entry'.2) =
      lost.map Prod.swap := by
    refine ((List.perm_insertionSort _ _).trans hperm).eq_of_pairwise (fun a b ha hb hab hba => ?_)
      (List.pairwise_insertionSort _ _) ?_
    · -- a number has one name
      have ha' := hmem.mp ((List.mem_insertionSort _).mp ha)
      obtain ⟨⟨number, name⟩, hlocked, rfl⟩ := List.mem_map.mp ha'
      obtain ⟨⟨number', name'⟩, hlocked', rfl⟩ := List.mem_map.mp hb
      obtain rfl : number = number' := le_antisymm hab hba
      rw [SortedMap.eq_of_mem (List.mem_of_mem_filter hlocked) (List.mem_of_mem_filter hlocked')]
    · rw [List.pairwise_map] at hincreasing ⊢
      exact hincreasing.imp le_of_lt
  rw [NamedLock.reservations, ← hlost', hsorted, List.flatMap_map]
  rfl

end Locked

/-! ### The loops -/

section Loops

variable {message : String} {previous : Option LockedMessage} {locked : NamedLock}
  {next : SortedMap ℤ Unit → ℤ} {used : SortedMap ℤ Unit} {statements : List FieldStatement}

theorem numbers_generateFields {fields : List Field}
    (h : generateFields message previous used fields = .ok statements) :
    statements.map (fun statement => (statement.number, statement.name)) =
      numberMembers (fun name => previous.bind (·.numberOf name)) nextNumber used
        (fields.map Field.ident) := by
  induction fields generalizing used statements with
  | nil =>
    cases h
    rfl
  | cons field fields ih =>
    simp only [generateFields] at h
    split at h
    · cases h
    · split at h
      · cases h
      · rename_i rest hrest
        cases h
        have hnumber : fieldNumber previous used field.ident =
            (previous.bind (·.numberOf field.ident)).getD (nextNumber used) := by
          unfold fieldNumber
          cases previous.bind (·.numberOf field.ident) <;> rfl
        rw [List.map_cons, List.map_cons, numberMembers, ih hrest, hnumber]

theorem numbers_numberFields {members : List Member}
    (h : numberFields locked next used members = .ok statements) :
    statements.map (fun statement => (statement.number, statement.name)) =
      numberMembers locked.numbers.get? next used (members.map Member.name) := by
  induction members generalizing used statements with
  | nil =>
    cases h
    rfl
  | cons member members ih =>
    simp only [numberFields] at h
    split at h
    · cases h
    · split at h
      · cases h
      · rename_i rest hrest
        cases h
        rw [List.map_cons, List.map_cons, numberMembers, ih hrest]

end Loops

/-! ### The frontends agree -/

/-- A line but for the type of its field. -/
def Statement.untyped : Statement → Statement
  | .field statement => .field ⟨.implicit, "", statement.name, statement.number⟩
  | statement => statement

theorem map_untyped (statements : List FieldStatement) :
    (statements.map Statement.field).map Statement.untyped =
      (statements.map fun statement => (statement.number, statement.name)).map fun value =>
        .field ⟨.implicit, "", value.2, value.1⟩ := by
  rw [List.map_map, List.map_map]
  rfl

/-- Both kinds of lock start the loops alike, and the same is reserved. -/
theorem named_eq {previous : Option LockedMessage}
    (hnames : ∀ locked ∈ previous, (locked.fields.toList.map Prod.snd).Nodup)
    (names : List String) :
    let locked := (previous.map NamedLock.ofLocked).getD .empty
    locked.numbers.get? = (fun name => previous.bind (·.numberOf name)) ∧
      locked.used = usedNumbers previous ∧
      locked.reservations names = previous.elim [] (reservations · names) := by
  cases previous with
  | none => exact ⟨rfl, rfl, rfl⟩
  | some locked =>
    have hnodup := hnames locked rfl
    exact ⟨funext (get?_ofLocked hnodup), used_ofLocked hnodup, reservations_ofLocked hnodup names⟩

theorem untyped_namedMessage {package name : String} {schema : LockedSchema} {fields : List Field}
    {members : List Member} {rust named : ProtoMessage}
    (hnames : ∀ locked ∈ schema.messages.get? (package ++ "." ++ name),
      (locked.fields.toList.map Prod.snd).Nodup)
    (hmembers : members.map Member.name = fields.map Field.ident)
    (hrust : generateMessage package ⟨name, some fields⟩ schema = .ok rust)
    (hnamed : namedMessage nextNumber
      ((schema.messages.get? (package ++ "." ++ name)).map .ofLocked) name members = .ok named) :
    named.body.map Statement.untyped = rust.body.map Statement.untyped := by
  obtain ⟨hnumbers, hused, hreserved⟩ := named_eq hnames (fields.map Field.ident)
  simp only [generateMessage] at hrust
  split at hrust
  · cases hrust
  · rename_i statements hstatements
    cases hrust
    simp only [namedMessage] at hnamed
    split at hnamed
    · cases hnamed
    · rename_i statements' hstatements'
      cases hnamed
      rw [hused] at hstatements'
      simp only [List.map_append, map_untyped, numbers_generateFields hstatements,
        numbers_numberFields hstatements', hmembers, hnumbers, hreserved]
      cases schema.messages.get? (package ++ "." ++ name) <;> rfl

theorem sortByNumber_ne_nil {locked : String → Option ℤ} {next : SortedMap ℤ Unit → ℤ}
    {used : SortedMap ℤ Unit} {names : List String} (h : names ≠ []) :
    sortByNumber (numberMembers locked next used names) ≠ [] := by
  cases names with
  | nil => exact absurd rfl h
  | cons name names =>
    rw [← List.length_pos_iff, sortByNumber, List.length_insertionSort]
    exact Nat.succ_pos _

/-- Three members that were used, and two that are not any more. -/
def lockedLevels : LockedMessage where
  fields := .ofList [(0, "low"), (2, "high"), (5, "highest")]
  reservedNumbers := .ofList [(1, ())]
  reservedNames := .ofList [("middle", ())]

end MoonLightBridge.Codegen.Source
