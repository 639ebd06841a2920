import MoonLightBridge.Codegen.Schema

/-!
# Messages generated from Rust structs

`source.rs`, as far as messages go: the Protobuf type of a Rust type, what is read of a
lock, and `generate_message`, which gives every field of a struct a number. A field that
the lock has keeps its number, other fields get numbers that were never used, and what
the struct has lost is reserved.

What `generate_message` writes is kept as a list of statements, one for each line. The
lock is read from the record that the JSON file holds.

`protoc` compiles these statements to the descriptor that the next lock is a snapshot of.
What is assumed of it is `Compiles`.
-/

namespace MoonLightBridge.Codegen.Source

open Schema

/-! ### Types -/

/-- A type of a Rust field, as far as `proto_type` looks at it: of a path, its last
segment and whether it has others. -/
inductive RustType where
  /-- a path without arguments in angle brackets -/
  | path (isQualified : Bool) (name : String)
  /-- a path with arguments in angle brackets, none of which is a type -/
  | bracketed (isQualified : Bool) (name : String)
  /-- a path with arguments in angle brackets, and the first of them that is a type -/
  | generic (isQualified : Bool) (name : String) (argument : RustType)
  /-- anything but a path -/
  | other
  deriving DecidableEq, Repr

/-- The label `proto_type` returns, with the text it stands for. -/
inductive Label where
  /-- the empty text -/
  | implicit
  | repeated
  | optional
  deriving DecidableEq, Repr

/-- `simple_type_name` -/
def simpleTypeName : RustType → Option String
  | .path false name | .bracketed false name | .generic false name _ => some name
  | _ => none

/-- The names `proto_type` translates; others stand for themselves, unless they are
qualified. -/
def mappedName (isQualified : Bool) (name : String) : Except String (Label × String) :=
  if name = "String" ∨ name = "str" then .ok (.implicit, "string")
  else if name = "bool" then .ok (.implicit, "bool")
  else if name = "i32" then .ok (.implicit, "int32")
  else if name = "i64" then .ok (.implicit, "int64")
  else if name = "u32" then .ok (.implicit, "uint32")
  else if name = "u64" then .ok (.implicit, "uint64")
  else if name = "f32" then .ok (.implicit, "float")
  else if name = "f64" then .ok (.implicit, "double")
  else if isQualified = false then .ok (.implicit, name)
  else .error ("qualified type " ++ name)

def protoType : RustType → Except String (Label × String)
  | .other => .error "expected a path type"
  | .path isQualified name | .bracketed isQualified name =>
    if name = "Vec" ∨ name = "Option" then .error (name ++ " needs one type argument")
    else mappedName isQualified name
  | .generic isQualified name argument =>
    if name = "Vec" ∨ name = "Option" then
      if name = "Vec" ∧ simpleTypeName argument = some "u8" then .ok (.implicit, "bytes")
      else
        match protoType argument with
        | .error error => .error error
        | .ok (_, type) => .ok (if name = "Vec" then .repeated else .optional, type)
    else mappedName isQualified name

/-! ### The lock -/

/-- `LockedMessage` of `source.rs` -/
structure LockedMessage where
  fields : SortedMap ℤ String
  reservedNumbers : SortedMap ℤ Unit
  reservedNames : SortedMap String Unit
  deriving DecidableEq

/-- The message part of `LockedSchema`. -/
structure LockedSchema where
  messages : SortedMap String LockedMessage
  deriving DecidableEq

def LockedMessage.default : LockedMessage := ⟨.empty, .empty, .empty⟩

/-- `numbers.extend(start..end)`, for one range. -/
def rangeNumbers (range : NumberRange) : List ℤ :=
  (List.range (range.stop - range.start).toNat).map fun offset : ℕ => range.start + (offset : ℤ)

/-- `load_lock`, for one message, with `load_reservations`. -/
def loadMessage (message : Schema.LockedMessage) : LockedMessage where
  fields := .ofList (message.fields.toList.map fun entry => (entry.1, entry.2.name))
  reservedNumbers := .ofList ((message.reservedRanges.flatMap rangeNumbers).map fun n => (n, ()))
  reservedNames := .ofList (message.reservedNames.map fun name => (name, ()))

def loadLock (lock : SchemaLock) : LockedSchema where
  messages := .ofList (lock.messages.toList.map fun entry => (entry.1, loadMessage entry.2))

/-! ### Numbers -/

/-- The numbers Protobuf keeps for itself. -/
def IsImplementationNumber (number : ℤ) : Prop := 19000 ≤ number ∧ number ≤ 19999

instance decidableIsImplementationNumber (number : ℤ) :
    Decidable (IsImplementationNumber number) := inferInstanceAs (Decidable (_ ∧ _))

/-- The loop of `next_number`, for a number of rounds. -/
def searchNumber (used : SortedMap ℤ Unit) : ℕ → ℤ → ℤ
  | 0, candidate => candidate
  | rounds + 1, candidate =>
    if candidate ∈ used.keys ∨ IsImplementationNumber candidate then
      searchNumber used rounds (candidate + 1)
    else candidate

/-- `next_number`. The loop ends before it has seen more numbers than are taken. -/
def nextNumber (used : SortedMap ℤ Unit) : ℤ := searchNumber used (used.keys.length + 1001) 1

/-! ### Messages -/

/-- A named field of a struct. -/
structure Field where
  ident : String
  type : RustType
  deriving DecidableEq, Repr

/-- `ItemStruct`; its fields are named, or they are not. -/
structure ItemStruct where
  ident : String
  named : Option (List Field)
  deriving DecidableEq, Repr

/-- A field of a message. -/
structure FieldStatement where
  label : Label
  type : String
  name : String
  number : ℤ
  deriving DecidableEq, Repr

/-- A line inside a message. -/
inductive Statement where
  | reservedNumber (number : ℤ)
  | reservedName (name : String)
  | field (statement : FieldStatement)
  deriving DecidableEq, Repr

structure ProtoMessage where
  name : String
  body : List Statement
  deriving DecidableEq, Repr

/-- The first number that the lock has for a name. -/
def LockedMessage.numberOf (message : LockedMessage) (name : String) : Option ℤ :=
  (message.fields.toList.find? fun entry => entry.2 = name).map Prod.fst

/-- The number of a field. -/
def fieldNumber (previous : Option LockedMessage) (used : SortedMap ℤ Unit) (name : String) : ℤ :=
  match previous.bind fun message => message.numberOf name with
  | some number => number
  | none => nextNumber used

/-- The loop over the fields of the struct. -/
def generateFields (message : String) (previous : Option LockedMessage) :
    SortedMap ℤ Unit → List Field → Except String (List FieldStatement)
  | _, [] => .ok []
  | used, field :: fields =>
    let number := fieldNumber previous used field.ident
    match protoType field.type with
    | .error error =>
      .error ("unsupported Rust type for " ++ message ++ "." ++ field.ident ++ ": " ++ error)
    | .ok (label, type) =>
      match generateFields message previous (used.insert number ()) fields with
      | .error error => .error error
      | .ok statements => .ok (⟨label, type, field.ident, number⟩ :: statements)

/-- What is reserved: what the struct has lost, and what was reserved before. -/
def reservations (previous : LockedMessage) (currentNames : List String) : List Statement :=
  (previous.fields.toList.filter fun entry => entry.2 ∉ currentNames).flatMap
      (fun entry => [.reservedNumber entry.1, .reservedName entry.2]) ++
    previous.reservedNumbers.keys.map .reservedNumber ++
    previous.reservedNames.keys.map .reservedName

/-- The numbers that are in use, or must not be used any more. -/
def usedNumbers (previous : Option LockedMessage) : SortedMap ℤ Unit :=
  match previous with
  | none => .empty
  | some message =>
    .ofList ((message.fields.keys ++ message.reservedNumbers.keys).map fun number => (number, ()))

/-- `generate_message` -/
def generateMessage (package : String) (message : ItemStruct) (locked : LockedSchema) :
    Except String ProtoMessage :=
  let previous := locked.messages.get? (package ++ "." ++ message.ident)
  match message.named with
  | none => .error ("message " ++ message.ident ++ " must use named fields")
  | some fields =>
    match generateFields message.ident previous (usedNumbers previous) fields with
    | .error error => .error error
    | .ok statements => .ok {
        name := message.ident
        body := (match previous with
          | none => []
          | some previous => reservations previous (fields.map Field.ident)) ++
            statements.map .field }

variable {name : String} {number : ℤ}

namespace ProtoMessage

def fields (message : ProtoMessage) : List FieldStatement :=
  message.body.filterMap fun
    | .field statement => some statement
    | _ => none

def reservedNumbers (message : ProtoMessage) : List ℤ :=
  message.body.filterMap fun
    | .reservedNumber number => some number
    | _ => none

def reservedNames (message : ProtoMessage) : List String :=
  message.body.filterMap fun
    | .reservedName name => some name
    | _ => none

theorem mem_reservedNumbers {message : ProtoMessage} :
    number ∈ message.reservedNumbers ↔ .reservedNumber number ∈ message.body := by
  rw [reservedNumbers, List.mem_filterMap]
  constructor
  · rintro ⟨statement, hmem, hsome⟩
    cases statement with
    | reservedNumber number' => exact Option.some.inj hsome ▸ hmem
    | reservedName name => cases hsome
    | field statement => cases hsome
  · intro hmem
    exact ⟨_, hmem, rfl⟩

theorem mem_reservedNames {message : ProtoMessage} :
    name ∈ message.reservedNames ↔ .reservedName name ∈ message.body := by
  rw [reservedNames, List.mem_filterMap]
  constructor
  · rintro ⟨statement, hmem, hsome⟩
    cases statement with
    | reservedName name' => exact Option.some.inj hsome ▸ hmem
    | reservedNumber number => cases hsome
    | field statement => cases hsome
  · intro hmem
    exact ⟨_, hmem, rfl⟩

end ProtoMessage

/-! ### What is assumed of `protoc` -/

/-- The descriptors of fields, in the order of the source. Every `optional` field gets a
oneof of its own, and `index` of them were met before. -/
def compileFields (resolve : String → ℤ × Option String) :
    ℤ → List FieldStatement → List FieldDescriptorProto
  | _, [] => []
  | index, statement :: statements =>
    { name := some statement.name
      number := some statement.number
      label := some (if statement.label = .repeated then 3 else 1)
      type := some (resolve statement.type).1
      typeName := (resolve statement.type).2
      oneofIndex := if statement.label = .optional then some index else none
      proto3Optional := if statement.label = .optional then some true else none } ::
    compileFields resolve (if statement.label = .optional then index + 1 else index) statements

/-- A message compiles to a descriptor; `resolve` is what the names of types stand for. -/
structure Compiles (resolve : String → ℤ × Option String) (package : String)
    (message : ProtoMessage) (descriptor : DescriptorProto) : Prop where
  /-- an empty package is a syntax error -/
  package_ne : package ≠ ""
  numbers_notMem : ∀ statement ∈ message.fields, statement.number ∉ message.reservedNumbers
  names_notMem : ∀ statement ∈ message.fields, statement.name ∉ message.reservedNames
  /-- fields and reservations are preserved, and nothing is nested -/
  descriptor : ∃ reservedRange reservedName,
    descriptor = .mk (some message.name) (compileFields resolve 0 message.fields) [] []
      reservedRange reservedName ∧
    (∀ number, (∃ range ∈ reservedRange.map snapshotRange, range.Contains number) ↔
      number ∈ message.reservedNumbers) ∧
    ∀ name, name ∈ reservedName ↔ name ∈ message.reservedNames

/-- A compiler that does what is assumed. -/
structure Protoc where
  resolve : String → ℤ × Option String
  compile : String → ProtoMessage → Option DescriptorProto
  compiles : ∀ {package message descriptor}, compile package message = some descriptor →
    Compiles resolve package message descriptor

/-- The types of Protobuf; every other name is taken for that of a message. -/
def scalarTypes (name : String) : ℤ × Option String :=
  if name = "double" then (1, none)
  else if name = "float" then (2, none)
  else if name = "int64" then (3, none)
  else if name = "uint64" then (4, none)
  else if name = "int32" then (5, none)
  else if name = "bool" then (8, none)
  else if name = "string" then (9, none)
  else if name = "bytes" then (12, none)
  else if name = "uint32" then (13, none)
  else (11, some name)

/-- The check of a compiler that rejects nothing but what it has to. -/
def IsAccepted (package : String) (message : ProtoMessage) : Prop :=
  package ≠ "" ∧ (∀ statement ∈ message.fields, statement.number ∉ message.reservedNumbers) ∧
    ∀ statement ∈ message.fields, statement.name ∉ message.reservedNames

instance decidableIsAccepted (package : String) (message : ProtoMessage) :
    Decidable (IsAccepted package message) := inferInstanceAs (Decidable (_ ∧ _))

def lenientDescriptor (message : ProtoMessage) : DescriptorProto :=
  .mk (some message.name) (compileFields scalarTypes 0 message.fields) [] []
    (message.reservedNumbers.map fun number => ⟨some number, some (number + 1)⟩)
    message.reservedNames

theorem compiles_lenientDescriptor {package : String} {message : ProtoMessage}
    (h : IsAccepted package message) :
    Compiles scalarTypes package message (lenientDescriptor message) := by
  refine ⟨h.1, h.2.1, h.2.2, _, _, rfl, fun number => ?_, fun _ => Iff.rfl⟩
  rw [List.map_map]
  constructor
  · rintro ⟨range, hmem, hcontains⟩
    obtain ⟨number', hnumber', rfl⟩ := List.mem_map.mp hmem
    -- a range of one number
    obtain ⟨hlow, hhigh⟩ : number' ≤ number ∧ number < number' + 1 := hcontains
    obtain rfl : number = number' := by omega
    exact hnumber'
  · intro hmem
    exact ⟨_, List.mem_map_of_mem hmem, le_rfl, Int.lt_succ number⟩

def lenientProtoc : Protoc where
  resolve := scalarTypes
  compile package message :=
    if IsAccepted package message then some (lenientDescriptor message) else none
  compiles := by
    intro package message descriptor h
    split_ifs at h with haccepted
    exact Option.some.inj h ▸ compiles_lenientDescriptor haccepted

/-! ### Free numbers -/

section Numbers

variable {used : SortedMap ℤ Unit}

/-- The search stops at a free number, or has met only numbers that are taken. -/
theorem searchNumber_spec (used : SortedMap ℤ Unit) (rounds : ℕ) (candidate : ℤ) :
    candidate ≤ searchNumber used rounds candidate ∧
      ((searchNumber used rounds candidate ∉ used.keys ∧
          ¬ IsImplementationNumber (searchNumber used rounds candidate)) ∨
        ∀ number, candidate ≤ number → number < candidate + rounds →
          number ∈ used.keys ∨ IsImplementationNumber number) := by
  induction rounds generalizing candidate with
  | zero =>
    refine ⟨le_rfl, .inr fun number hlow hhigh => ?_⟩
    simp only [Nat.cast_zero, add_zero] at hhigh
    omega
  | succ rounds ih =>
    rw [searchNumber]
    split_ifs with htaken
    · obtain ⟨hle, hfree | hall⟩ := ih (candidate + 1)
      · exact ⟨by omega, .inl hfree⟩
      · refine ⟨by omega, .inr fun number hlow hhigh => ?_⟩
        by_cases heq : number = candidate
        · exact heq ▸ htaken
        · exact hall number (by omega) (by push_cast at hhigh; omega)
    · exact ⟨le_rfl, .inl (not_or.mp htaken)⟩

/-- There are not as many numbers taken as the search meets. -/
theorem exists_free (used : SortedMap ℤ Unit) :
    ∃ number, 1 ≤ number ∧ number < 1 + ((used.keys.length + 1001 : ℕ) : ℤ) ∧
      number ∉ used.keys ∧ ¬ IsImplementationNumber number := by
  by_contra hnone
  push Not at hnone
  have hsubset : Finset.Ico (1 : ℤ) (1 + ((used.keys.length + 1001 : ℕ) : ℤ)) ⊆
      used.keys.toFinset ∪ Finset.Icc 19000 19999 := by
    intro number hnumber
    obtain ⟨hlow, hhigh⟩ := Finset.mem_Ico.mp hnumber
    rw [Finset.mem_union, List.mem_toFinset, Finset.mem_Icc]
    by_cases hmem : number ∈ used.keys
    · exact .inl hmem
    · exact .inr (hnone number hlow hhigh hmem)
  have hcard := (Finset.card_le_card hsubset).trans (Finset.card_union_le _ _)
  have hused := List.toFinset_card_le used.keys
  rw [Int.card_Ico, Int.card_Icc] at hcard
  omega

/-- The number found is positive, not in use, and not one of Protobuf's own. -/
theorem nextNumber_spec (used : SortedMap ℤ Unit) :
    1 ≤ nextNumber used ∧ nextNumber used ∉ used.keys ∧
      ¬ IsImplementationNumber (nextNumber used) := by
  obtain ⟨hpos, hfree | hall⟩ := searchNumber_spec used (used.keys.length + 1001) 1
  · exact ⟨hpos, hfree⟩
  · obtain ⟨number, hlow, hhigh, hfree, himpl⟩ := exists_free used
    exact absurd (hall number hlow hhigh) (not_or.mpr ⟨hfree, himpl⟩)

end Numbers

/-! ### Reading the lock -/

theorem mem_rangeNumbers {range : NumberRange} :
    number ∈ rangeNumbers range ↔ range.Contains number := by
  simp only [rangeNumbers, List.mem_map, List.mem_range, NumberRange.Contains]
  constructor
  · rintro ⟨offset, hlt, rfl⟩
    omega
  · rintro ⟨hlow, hhigh⟩
    exact ⟨(number - range.start).toNat, by omega, by omega⟩

/-- A set given by its elements. -/
theorem mem_keys_ofList {κ : Type*} [LinearOrder κ] {l : List κ} {k : κ} :
    k ∈ (SortedMap.ofList (l.map fun x => (x, ()))).keys ↔ k ∈ l := by
  rw [SortedMap.ofList, SortedMap.mem_keys_foldl_insert, List.map_map,
    show Prod.fst ∘ (fun x : κ => (x, ())) = id from rfl, List.map_id]
  simp [SortedMap.empty, SortedMap.keys]

section Load

variable {message : Schema.LockedMessage} {lock : SchemaLock}

theorem mem_loadMessage_fields :
    (number, name) ∈ (loadMessage message).fields.toList ↔
      ∃ field, (number, field) ∈ message.fields.toList ∧ field.name = name := by
  have hnodup : ((message.fields.toList.map fun entry => (entry.1, entry.2.name)).map
      Prod.fst).Nodup := by
    rw [List.map_map]
    exact message.fields.nodup_keys
  rw [loadMessage, SortedMap.mem_toList_ofList hnodup, List.mem_map]
  constructor
  · rintro ⟨⟨number', field⟩, hmem, heq⟩
    cases heq
    exact ⟨field, hmem, rfl⟩
  · rintro ⟨field, hmem, rfl⟩
    exact ⟨_, hmem, rfl⟩

theorem mem_loadMessage_reservedNumbers :
    number ∈ (loadMessage message).reservedNumbers.keys ↔
      ∃ range ∈ message.reservedRanges, range.Contains number := by
  rw [loadMessage, mem_keys_ofList, List.mem_flatMap]
  simp only [mem_rangeNumbers]

theorem mem_loadMessage_reservedNames :
    name ∈ (loadMessage message).reservedNames.keys ↔ name ∈ message.reservedNames := by
  rw [loadMessage, mem_keys_ofList]

theorem get?_loadLock (lock : SchemaLock) (name : String) :
    (loadLock lock).messages.get? name = (lock.messages.get? name).map loadMessage := by
  have hnodup : ((lock.messages.toList.map fun entry => (entry.1, loadMessage entry.2)).map
      Prod.fst).Nodup := by
    rw [List.map_map]
    exact lock.messages.nodup_keys
  have hmem : ∀ loaded, (name, loaded) ∈ (loadLock lock).messages.toList ↔
      ∃ message, (name, message) ∈ lock.messages.toList ∧ loadMessage message = loaded := by
    intro loaded
    rw [loadLock, SortedMap.mem_toList_ofList hnodup, List.mem_map]
    constructor
    · rintro ⟨⟨name', message⟩, hmem, heq⟩
      cases heq
      exact ⟨message, hmem, rfl⟩
    · rintro ⟨message, hmem, rfl⟩
      exact ⟨_, hmem, rfl⟩
  apply Option.ext
  intro loaded
  rw [SortedMap.get?_eq_some_iff, hmem, Option.map_eq_some_iff]
  simp only [SortedMap.get?_eq_some_iff]

end Load

/-! ### What is written -/

section Generate

variable {previous : Option LockedMessage} {used : SortedMap ℤ Unit} {message : String}
  {fields : List Field} {statements : List FieldStatement}

theorem numberOf_eq_some {locked : LockedMessage} (h : locked.numberOf name = some number) :
    (number, name) ∈ locked.fields.toList := by
  obtain ⟨⟨number', name'⟩, hfind, rfl⟩ := Option.map_eq_some_iff.mp h
  obtain rfl : name' = name := by simpa using List.find?_some hfind
  exact List.mem_of_find?_eq_some hfind

theorem numberOf_eq_none {locked : LockedMessage} :
    locked.numberOf name = none ↔ ∀ number, (number, name) ∉ locked.fields.toList := by
  rw [LockedMessage.numberOf, Option.map_eq_none_iff, List.find?_eq_none]
  constructor
  · intro h number hmem
    exact absurd (h _ hmem) (by simp)
  · rintro h ⟨number, name'⟩ hmem heq
    obtain rfl : name' = name := by simpa using heq
    exact h number hmem

/-- Where the number of a field comes from: from the lock, or it is new. -/
inductive Numbered (previous : Option LockedMessage) (used : SortedMap ℤ Unit) (name : String)
    (number : ℤ) : Prop where
  | locked {message : LockedMessage} (hprevious : previous = some message)
      (hmem : (number, name) ∈ message.fields.toList)
  | fresh (hnone : ∀ message, previous = some message →
        ∀ number, (number, name) ∉ message.fields.toList)
      (hfree : number ∉ used.keys) (himpl : ¬ IsImplementationNumber number)

theorem numbered_fieldNumber (previous : Option LockedMessage) (used : SortedMap ℤ Unit)
    (name : String) : Numbered previous used name (fieldNumber previous used name) := by
  unfold fieldNumber
  split
  · rename_i number hnumber
    obtain ⟨locked, rfl, hlocked⟩ := Option.bind_eq_some_iff.mp hnumber
    exact .locked rfl (numberOf_eq_some hlocked)
  · rename_i hnone
    obtain ⟨-, hfree, himpl⟩ := nextNumber_spec used
    refine .fresh ?_ hfree himpl
    rintro locked rfl
    exact numberOf_eq_none.mp hnone

theorem Numbered.mono {used' : SortedMap ℤ Unit} (h : Numbered previous used' name number)
    (hsub : used.keys ⊆ used'.keys) : Numbered previous used name number := by
  cases h with
  | locked hprevious hmem => exact .locked hprevious hmem
  | fresh hnone hfree himpl => exact .fresh hnone (fun hmem => hfree (hsub hmem)) himpl

/-- Every field becomes a statement, with its type and a number of its own kind. -/
theorem generateFields_eq_ok (h : generateFields message previous used fields = .ok statements) :
    List.Forall₂ (fun field statement => statement.name = field.ident ∧
      protoType field.type = .ok (statement.label, statement.type) ∧
      Numbered previous used field.ident statement.number) fields statements := by
  induction fields generalizing used statements with
  | nil =>
    cases h
    exact .nil
  | cons field fields ih =>
    simp only [generateFields] at h
    split at h
    · cases h
    · rename_i label type htype
      split at h
      · cases h
      · rename_i rest hrest
        cases h
        have hnumbered := numbered_fieldNumber previous used field.ident
        refine .cons ⟨rfl, htype, hnumbered⟩ ((ih hrest).imp ?_)
        rintro other statement ⟨hname, htype, hnumbered⟩
        refine ⟨hname, htype, hnumbered.mono fun number hmem => ?_⟩
        exact SortedMap.mem_keys_insert.mpr (.inr hmem)

theorem map_name_of_generateFields
    (h : generateFields message previous used fields = .ok statements) :
    statements.map FieldStatement.name = fields.map Field.ident := by
  have hall := generateFields_eq_ok h
  clear h
  induction hall with
  | nil => rfl
  | cons hfirst _ ih => rw [List.map_cons, List.map_cons, ih, hfirst.1]

/-- A statement is made from a field. -/
theorem exists_field_of_mem {R : Field → FieldStatement → Prop}
    (h : List.Forall₂ R fields statements) {statement : FieldStatement}
    (hmem : statement ∈ statements) : ∃ field ∈ fields, R field statement := by
  induction h with
  | nil => cases hmem
  | cons hfirst _ ih =>
    rcases List.mem_cons.mp hmem with rfl | hmem
    · exact ⟨_, List.mem_cons_self, hfirst⟩
    · obtain ⟨field, hfield, hrel⟩ := ih hmem
      exact ⟨field, List.mem_cons_of_mem _ hfield, hrel⟩

/-- Numbers are given once. -/
theorem nodup_numbers_of_generateFields
    (h : generateFields message previous used fields = .ok statements)
    (hnames : (fields.map Field.ident).Nodup)
    (hused : ∀ locked, previous = some locked → locked.fields.keys ⊆ used.keys) :
    (statements.map FieldStatement.number).Nodup := by
  induction fields generalizing used statements with
  | nil =>
    cases h
    exact List.nodup_nil
  | cons field fields ih =>
    simp only [generateFields] at h
    split at h
    · cases h
    · rename_i label type htype
      split at h
      · cases h
      · rename_i rest hrest
        cases h
        rw [List.map_cons, List.nodup_cons] at hnames ⊢
        have hinsert : used.keys ⊆ (used.insert (fieldNumber previous used field.ident) ()).keys :=
          fun number hmem => SortedMap.mem_keys_insert.mpr (.inr hmem)
        refine ⟨fun hmem => ?_, ih hrest hnames.2 fun locked hlocked =>
          List.Subset.trans (hused locked hlocked) hinsert⟩
        obtain ⟨statement, hstatement, hnumber⟩ := List.mem_map.mp hmem
        obtain ⟨other, hother, hname, -, hnumbered⟩ :=
          exists_field_of_mem (generateFields_eq_ok hrest) hstatement
        rw [hnumber] at hnumbered
        cases hnumbered with
        | fresh _ hfree => exact hfree (SortedMap.mem_keys_insert.mpr (.inl rfl))
        | @locked locked hprevious hlocked =>
          cases numbered_fieldNumber previous used field.ident with
          | fresh _ hfree =>
            exact hfree (hused locked hprevious (List.mem_map_of_mem hlocked))
          | locked hprevious' hfirst =>
            obtain rfl := Option.mem_unique hprevious hprevious'
            -- one number has one name in the lock
            have hsame : other.ident = field.ident := SortedMap.eq_of_mem hlocked hfirst
            exact hnames.1 (hsame ▸ List.mem_map_of_mem hother)

theorem mem_keys_usedNumbers :
    number ∈ (usedNumbers previous).keys ↔
      number ∈ (previous.getD .default).fields.keys ∨
        number ∈ (previous.getD .default).reservedNumbers.keys := by
  cases previous with
  | none => simp [usedNumbers, LockedMessage.default, SortedMap.empty, SortedMap.keys]
  | some locked => rw [usedNumbers, mem_keys_ofList, List.mem_append, Option.getD_some]

/-- What is written for a struct: its fields, and the reservations. -/
structure Generates (previous : Option LockedMessage) (message : ItemStruct) (fields : List Field)
    (proto : ProtoMessage) : Prop where
  named : message.named = some fields
  generated : generateFields message.ident previous (usedNumbers previous) fields =
    .ok proto.fields
  name : proto.name = message.ident
  numbers : ∀ number, number ∈ proto.reservedNumbers ↔
    (∃ name, (number, name) ∈ (previous.getD .default).fields.toList ∧
        name ∉ fields.map Field.ident) ∨
      number ∈ (previous.getD .default).reservedNumbers.keys
  names : ∀ name, name ∈ proto.reservedNames ↔
    (∃ number, (number, name) ∈ (previous.getD .default).fields.toList ∧
        name ∉ fields.map Field.ident) ∨
      name ∈ (previous.getD .default).reservedNames.keys

theorem generateMessage_eq_ok {package : String} {message : ItemStruct} {locked : LockedSchema}
    {proto : ProtoMessage} (h : generateMessage package message locked = .ok proto) :
    ∃ fields, Generates (locked.messages.get? (package ++ "." ++ message.ident)) message fields
      proto := by
  simp only [generateMessage] at h
  split at h
  · cases h
  · rename_i fields hfields
    split at h
    · cases h
    · rename_i statements hstatements
      cases h
      generalize locked.messages.get? (package ++ "." ++ message.ident) = previous at *
      refine ⟨fields, hfields, ?_, rfl, fun number => ?_, fun name => ?_⟩
      · rw [hstatements]
        cases previous <;>
          simp [ProtoMessage.fields, reservations, List.filterMap_append, List.filterMap_flatMap,
            List.filterMap_map]
      · rw [ProtoMessage.mem_reservedNumbers]
        cases previous with
        | none => simp [LockedMessage.default, SortedMap.empty, SortedMap.keys]
        | some previous => simp [reservations]
      · rw [ProtoMessage.mem_reservedNames]
        cases previous with
        | none => simp [LockedMessage.default, SortedMap.empty, SortedMap.keys]
        | some previous => simp [reservations]

end Generate

/-! ### The next lock -/

section Snapshot

variable {resolve : String → ℤ × Option String} {package : String} {proto : ProtoMessage}
  {descriptor : DescriptorProto}

/-- What is recorded of a field, `index` optional ones having been met before. -/
def lockedField (resolve : String → ℤ × Option String) (index : ℤ) (statement : FieldStatement) :
    LockedField where
  name := statement.name
  number := statement.number
  label := if statement.label = .repeated then 3 else 1
  kind := (resolve statement.type).1
  typeName := (resolve statement.type).2.getD ""
  oneofIndex := if statement.label = .optional then some index else none
  proto3Optional := statement.label = .optional

def lockedFields (resolve : String → ℤ × Option String) :
    ℤ → List FieldStatement → List (ℤ × LockedField)
  | _, [] => []
  | index, statement :: statements =>
    (statement.number, lockedField resolve index statement) ::
    lockedFields resolve (if statement.label = .optional then index + 1 else index) statements

theorem mapM_snapshotField (index : ℤ) (statements : List FieldStatement) :
    (compileFields resolve index statements).mapM snapshotField =
      .ok (lockedFields resolve index statements) := by
  induction statements generalizing index with
  | nil => rfl
  | cons statement statements ih =>
    rw [compileFields, List.mapM_cons, ih, lockedFields]
    by_cases hoptional : statement.label = .optional
    · simp [hoptional, snapshotField, required, lockedField]
      rfl
    · simp [hoptional, snapshotField, required, lockedField]
      rfl

theorem map_fst_lockedFields (index : ℤ) (statements : List FieldStatement) :
    (lockedFields resolve index statements).map Prod.fst =
      statements.map FieldStatement.number := by
  induction statements generalizing index with
  | nil => rfl
  | cons statement statements ih => rw [lockedFields, List.map_cons, List.map_cons, ih]

/-- What the snapshot of a compiled message records. -/
structure Records (resolve : String → ℤ × Option String) (proto : ProtoMessage)
    (locked : Schema.LockedMessage) : Prop where
  fields : ∀ number field, (number, field) ∈ locked.fields.toList ↔
    (number, field) ∈ lockedFields resolve 0 proto.fields
  numbers : ∀ number, (∃ range ∈ locked.reservedRanges, range.Contains number) ↔
    number ∈ proto.reservedNumbers
  names : ∀ name, name ∈ locked.reservedNames ↔ name ∈ proto.reservedNames

theorem snapshot_of_compiles (h : Compiles resolve package proto descriptor)
    (hnodup : (proto.fields.map FieldStatement.number).Nodup) :
    ∃ locked, snapshotMessage package .empty descriptor =
        .ok { SchemaLock.empty with
          messages := SortedMap.empty.insert (package ++ "." ++ proto.name) locked } ∧
      Records resolve proto locked := by
  obtain ⟨reservedRange, reservedName, rfl, hnumbers, hnames⟩ := h.descriptor
  refine ⟨⟨.ofList (lockedFields resolve 0 proto.fields), reservedRange.map snapshotRange,
    reservedName⟩, ?_, fun number field => ?_, hnumbers, hnames⟩
  · rw [snapshotMessage_eq_ok (mapM_snapshotField 0 proto.fields), qualify, if_neg h.package_ne]
    rfl
  · apply SortedMap.mem_toList_ofList
    rwa [map_fst_lockedFields]

end Snapshot

end MoonLightBridge.Codegen.Source
