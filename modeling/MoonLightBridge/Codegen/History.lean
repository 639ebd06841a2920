import MoonLightBridge.Codegen.Source
import MoonLightBridge.Data.Registry
import MoonLightBridge.Semantics.Transition

/-!
# The numbers of a message over its history

A message is edited again and again: its struct is changed, `generate_message` numbers
the fields against the current lock, and the snapshot of what was generated is the next
lock. The lock of a message is a registry of numbers and names, and every edit leads to
one that retains it.

An edit that is not generated or not compiled leaves the lock as it is.
-/

namespace MoonLightBridge.Codegen.History

open Schema Source Transition

/-- The fields a struct is given. Rust does not take two fields of one name. -/
structure Edit where
  fields : List Field
  nodup : (fields.map Field.ident).Nodup

/-- Generate a message, compile it, and take the snapshot as the next lock. -/
def evolve (protoc : Protoc) (package name : String) (lock : SchemaLock) (edit : Edit) :
    Option SchemaLock :=
  match generateMessage package ⟨name, some edit.fields⟩ (loadLock lock) with
  | .error _ => none
  | .ok proto =>
    match protoc.compile package proto with
    | none => none
    | some descriptor => (snapshotMessage package .empty descriptor).toOption

/-- What a lock has of a message; nothing, if it does not have the message. -/
def lockedMessage (package name : String) (lock : SchemaLock) : Source.LockedMessage :=
  ((loadLock lock).messages.get? (package ++ "." ++ name)).getD .default

/-- A name has one number, neither is reserved, and no number is one of Protobuf's own. -/
structure Sound (message : Source.LockedMessage) : Prop where
  number_unique : ∀ {number number' name}, (number, name) ∈ message.fields.toList →
    (number', name) ∈ message.fields.toList → number = number'
  number_notMem : ∀ {number name}, (number, name) ∈ message.fields.toList →
    number ∉ message.reservedNumbers.keys
  name_notMem : ∀ {number name}, (number, name) ∈ message.fields.toList →
    name ∉ message.reservedNames.keys
  not_implementation : ∀ {number name}, (number, name) ∈ message.fields.toList →
    ¬ IsImplementationNumber number

theorem sound_default : Sound .default where
  number_unique h := absurd h List.not_mem_nil
  number_notMem h := absurd h List.not_mem_nil
  name_notMem h := absurd h List.not_mem_nil
  not_implementation h := absurd h List.not_mem_nil

/-- The lock of a message as a registry: fields are in use, reservations are retired. -/
def registry (message : Source.LockedMessage) (h : Sound message) : Registry ℤ String where
  live := {entry | entry ∈ message.fields.toList}
  retiredIds := {number | number ∈ message.reservedNumbers.keys}
  retiredNames := {name | name ∈ message.reservedNames.keys}
  name_unique := SortedMap.eq_of_mem
  id_unique := h.number_unique
  id_notMem := h.number_notMem
  name_notMem := h.name_notMem

section Evolve

variable {protoc : Protoc} {package name : String} {lock lock' : SchemaLock} {edit : Edit}

/-- What an edit goes through. -/
theorem evolve_eq_some (h : evolve protoc package name lock edit = some lock') :
    ∃ proto descriptor,
      generateMessage package ⟨name, some edit.fields⟩ (loadLock lock) = .ok proto ∧
      Compiles protoc.resolve package proto descriptor ∧
      snapshotMessage package .empty descriptor = .ok lock' := by
  unfold evolve at h
  split at h
  · cases h
  · rename_i proto hproto
    split at h
    · cases h
    · rename_i descriptor hdescriptor
      refine ⟨proto, descriptor, hproto, protoc.compiles hdescriptor, ?_⟩
      cases hsnapshot : snapshotMessage package .empty descriptor with
      | error error =>
        rw [hsnapshot] at h
        cases h
      | ok next =>
        rw [hsnapshot] at h
        exact congrArg _ (Option.some.inj h)

theorem nodup_numbers_of_generates {previous : Option Source.LockedMessage}
    {proto : ProtoMessage} (h : Generates previous ⟨name, some edit.fields⟩ edit.fields proto) :
    (proto.fields.map FieldStatement.number).Nodup := by
  refine nodup_numbers_of_generateFields h.generated edit.nodup fun locked hlocked number hmem => ?_
  rw [mem_keys_usedNumbers, hlocked]
  exact .inl hmem

theorem generates_of_generateMessage {proto : ProtoMessage}
    (h : generateMessage package ⟨name, some edit.fields⟩ (loadLock lock) = .ok proto) :
    Generates ((loadLock lock).messages.get? (package ++ "." ++ name)) ⟨name, some edit.fields⟩
      edit.fields proto := by
  obtain ⟨fields, hgenerates⟩ := generateMessage_eq_ok h
  obtain rfl : edit.fields = fields := Option.some.inj hgenerates.named
  exact hgenerates

/-- The next lock holds nothing but this message, as it was generated. -/
theorem records_of_evolve (h : evolve protoc package name lock edit = some lock') :
    ∃ proto descriptor locked,
      Generates ((loadLock lock).messages.get? (package ++ "." ++ name)) ⟨name, some edit.fields⟩
        edit.fields proto ∧
      Compiles protoc.resolve package proto descriptor ∧ Records protoc.resolve proto locked ∧
      lock'.messages.get? (package ++ "." ++ name) = some locked := by
  obtain ⟨proto, descriptor, hproto, hcompiles, hsnapshot⟩ := evolve_eq_some h
  have hgenerates := generates_of_generateMessage hproto
  obtain ⟨locked, hlocked, hrecords⟩ :=
    snapshot_of_compiles hcompiles (nodup_numbers_of_generates hgenerates)
  refine ⟨proto, descriptor, locked, hgenerates, hcompiles, hrecords, ?_⟩
  obtain rfl := Except.ok.inj (hsnapshot.symm.trans hlocked)
  rw [show name = proto.name from hgenerates.name.symm]
  exact SortedMap.get?_insert_self _ _ _

/-- A field has the number of the lock, or its name is new. -/
theorem numbered_of_generates {proto : ProtoMessage}
    (h : Generates ((loadLock lock).messages.get? (package ++ "." ++ name))
      ⟨name, some edit.fields⟩ edit.fields proto) {statement : FieldStatement}
    (hstatement : statement ∈ proto.fields) :
    (statement.number, statement.name) ∈ (lockedMessage package name lock).fields.toList ∨
      (∀ number, (number, statement.name) ∉ (lockedMessage package name lock).fields.toList) ∧
        ¬ IsImplementationNumber statement.number := by
  obtain ⟨field, -, hname, -, hnumbered⟩ :=
    exists_field_of_mem (generateFields_eq_ok h.generated) hstatement
  rw [hname, lockedMessage]
  cases hnumbered with
  | locked hprevious hmem =>
    rw [hprevious]
    exact .inl hmem
  | fresh hnone _ himpl =>
    refine .inr ⟨fun number hmem => ?_, himpl⟩
    cases hprevious : (loadLock lock).messages.get? (package ++ "." ++ name) with
    | none =>
      rw [hprevious] at hmem
      exact absurd hmem List.not_mem_nil
    | some message =>
      rw [hprevious] at hmem
      exact hnone message hprevious number hmem

/-- Numbers in a generated message are distinct, and not Protobuf's own. -/
theorem numbers_of_generateMessage (hsound : Sound (lockedMessage package name lock))
    {proto : ProtoMessage}
    (h : generateMessage package ⟨name, some edit.fields⟩ (loadLock lock) = .ok proto) :
    (proto.fields.map FieldStatement.number).Nodup ∧
      ∀ statement ∈ proto.fields, ¬ IsImplementationNumber statement.number := by
  have hgenerates := generates_of_generateMessage h
  refine ⟨nodup_numbers_of_generates hgenerates, fun statement hstatement => ?_⟩
  rcases numbered_of_generates hgenerates hstatement with hlocked | ⟨-, himpl⟩
  · exact hsound.not_implementation hlocked
  · exact himpl

theorem mem_lockedFields {resolve : String → ℤ × Option String} {index : ℤ}
    {statements : List FieldStatement} {number : ℤ} {fieldName : String} :
    (∃ field, (number, field) ∈ lockedFields resolve index statements ∧ field.name = fieldName) ↔
      ∃ statement ∈ statements, statement.number = number ∧ statement.name = fieldName := by
  induction statements generalizing index with
  | nil => simp [lockedFields]
  | cons statement statements ih =>
    simp only [lockedFields, List.mem_cons, Prod.mk.injEq, or_and_right, exists_or, ih,
      exists_eq_left]
    refine or_congr_left ⟨?_, ?_⟩
    · rintro ⟨field, ⟨rfl, rfl⟩, hname⟩
      exact ⟨rfl, hname⟩
    · rintro ⟨rfl, hname⟩
      exact ⟨_, ⟨rfl, rfl⟩, hname⟩

/-- What the lock after an edit has of the message. -/
structure Evolved (old new : Source.LockedMessage) (proto : ProtoMessage) (edit : Edit) : Prop where
  names : proto.fields.map FieldStatement.name = edit.fields.map Field.ident
  numbered : ∀ statement ∈ proto.fields,
    (statement.number, statement.name) ∈ old.fields.toList ∨
      (∀ number, (number, statement.name) ∉ old.fields.toList) ∧
        ¬ IsImplementationNumber statement.number
  fields : ∀ number name, (number, name) ∈ new.fields.toList ↔
    ∃ statement ∈ proto.fields, statement.number = number ∧ statement.name = name
  reservedNumbers : ∀ number, number ∈ new.reservedNumbers.keys ↔
    (∃ name, (number, name) ∈ old.fields.toList ∧ name ∉ edit.fields.map Field.ident) ∨
      number ∈ old.reservedNumbers.keys
  reservedNames : ∀ name, name ∈ new.reservedNames.keys ↔
    (∃ number, (number, name) ∈ old.fields.toList ∧ name ∉ edit.fields.map Field.ident) ∨
      name ∈ old.reservedNames.keys
  number_notMem : ∀ statement ∈ proto.fields, statement.number ∉ new.reservedNumbers.keys
  name_notMem : ∀ statement ∈ proto.fields, statement.name ∉ new.reservedNames.keys

theorem evolved_of_evolve (h : evolve protoc package name lock edit = some lock') :
    ∃ proto, Evolved (lockedMessage package name lock) (lockedMessage package name lock') proto
      edit := by
  obtain ⟨proto, descriptor, locked, hgenerates, hcompiles, hrecords, hlocked⟩ :=
    records_of_evolve h
  have hnew : lockedMessage package name lock' = loadMessage locked := by
    rw [lockedMessage, get?_loadLock, hlocked]
    rfl
  have hnumbers : ∀ number, number ∈ (loadMessage locked).reservedNumbers.keys ↔
      number ∈ proto.reservedNumbers := by
    intro number
    rw [mem_loadMessage_reservedNumbers, hrecords.numbers]
  have hnames : ∀ name, name ∈ (loadMessage locked).reservedNames.keys ↔
      name ∈ proto.reservedNames := by
    intro name
    rw [mem_loadMessage_reservedNames, hrecords.names]
  rw [hnew]
  refine ⟨proto, map_name_of_generateFields hgenerates.generated,
    fun statement hstatement => numbered_of_generates hgenerates hstatement,
    fun number name => ?_, fun number => ?_, fun name => ?_,
    fun statement hstatement => ?_, fun statement hstatement => ?_⟩
  · rw [mem_loadMessage_fields]
    simp only [hrecords.fields]
    exact mem_lockedFields
  · rw [hnumbers, hgenerates.numbers]
    rfl
  · rw [hnames, hgenerates.names]
    rfl
  · rw [hnumbers]
    exact hcompiles.numbers_notMem statement hstatement
  · rw [hnames]
    exact hcompiles.names_notMem statement hstatement

section Evolved

variable {old new : Source.LockedMessage} {proto : ProtoMessage}

theorem Evolved.sound (h : Evolved old new proto edit) (hold : Sound old) : Sound new where
  number_unique hnumber hnumber' := by
    obtain ⟨statement, hmem, rfl, hname⟩ := (h.fields _ _).mp hnumber
    obtain ⟨statement', hmem', rfl, hname'⟩ := (h.fields _ _).mp hnumber'
    have hnodup : (proto.fields.map FieldStatement.name).Nodup := h.names ▸ edit.nodup
    rw [List.inj_on_of_nodup_map hnodup hmem hmem' (hname.trans hname'.symm)]
  number_notMem hnumber := by
    obtain ⟨statement, hmem, rfl, -⟩ := (h.fields _ _).mp hnumber
    exact h.number_notMem statement hmem
  name_notMem hnumber := by
    obtain ⟨statement, hmem, -, rfl⟩ := (h.fields _ _).mp hnumber
    exact h.name_notMem statement hmem
  not_implementation hnumber := by
    obtain ⟨statement, hmem, rfl, -⟩ := (h.fields _ _).mp hnumber
    rcases h.numbered statement hmem with hlocked | ⟨-, himpl⟩
    · exact hold.not_implementation hlocked
    · exact himpl

/-- A field that is still there keeps its number, and one that is not is reserved. -/
theorem Evolved.retains (h : Evolved old new proto edit) (hold : Sound old) :
    (registry old hold).Retains (registry new (h.sound hold)) where
  live {number name} hmem := by
    change (number, name) ∈ old.fields.toList at hmem
    by_cases hname : name ∈ edit.fields.map Field.ident
    · left
      rw [← h.names] at hname
      obtain ⟨statement, hstatement, rfl⟩ := List.mem_map.mp hname
      rcases h.numbered statement hstatement with hlocked | ⟨hnone, -⟩
      · rw [hold.number_unique hmem hlocked]
        exact (h.fields _ _).mpr ⟨statement, hstatement, rfl, rfl⟩
      · exact absurd hmem (hnone number)
    · right
      exact ⟨(h.reservedNumbers number).mpr (.inl ⟨name, hmem, hname⟩),
        (h.reservedNames name).mpr (.inl ⟨number, hmem, hname⟩)⟩
  ids number hmem := (h.reservedNumbers number).mpr (.inr hmem)
  names name hmem := (h.reservedNames name).mpr (.inr hmem)

end Evolved

/-- A later lock is sound, and retains an earlier one. -/
theorem retains_of_run {edits : List Edit} (hsound : Sound (lockedMessage package name lock))
    (h : run (evolve protoc package name) lock edits = some lock') :
    ∃ hsound' : Sound (lockedMessage package name lock'),
      (registry _ hsound).Retains (registry _ hsound') := by
  refine run_invariant (I := fun later => ∃ hlater : Sound (lockedMessage package name later),
    (registry _ hsound).Retains (registry _ hlater)) ?_ h ⟨hsound, .refl _⟩
  rintro later edit next ⟨hlater, hretains⟩ hstep
  obtain ⟨proto, hevolved⟩ := evolved_of_evolve hstep
  exact ⟨hevolved.sound hlater, hretains.trans (hevolved.retains hlater)⟩

end Evolve

/-- Over the history of a message, a number is never given to two names and a name keeps
its number; what is removed is reserved from then on; and the numbers of a message are
distinct, and not among those that Protobuf keeps for itself. -/
theorem numbers_never_reused (protoc : Protoc) (package name : String)
    (start lock lock' : SchemaLock) (hstart : Sound (lockedMessage package name start))
    (edits later : List Edit) (hedits : run (evolve protoc package name) start edits = some lock)
    (hlater : run (evolve protoc package name) lock later = some lock') :
    (∀ number field field', (number, field) ∈ (lockedMessage package name lock).fields.toList →
      (number, field') ∈ (lockedMessage package name lock').fields.toList → field = field') ∧
    (∀ number number' field, (number, field) ∈ (lockedMessage package name lock).fields.toList →
      (number', field) ∈ (lockedMessage package name lock').fields.toList → number = number') ∧
    (∀ number field, (number, field) ∈ (lockedMessage package name lock).fields.toList →
      (number, field) ∉ (lockedMessage package name lock').fields.toList →
        number ∈ (lockedMessage package name lock').reservedNumbers.keys ∧
        field ∈ (lockedMessage package name lock').reservedNames.keys) ∧
    ((lockedMessage package name lock).reservedNumbers.keys ⊆
      (lockedMessage package name lock').reservedNumbers.keys) ∧
    ((lockedMessage package name lock).reservedNames.keys ⊆
      (lockedMessage package name lock').reservedNames.keys) ∧
    ∀ (edit : Edit) (proto : ProtoMessage),
      generateMessage package ⟨name, some edit.fields⟩ (loadLock lock) = .ok proto →
        (proto.fields.map FieldStatement.number).Nodup ∧
        ∀ statement ∈ proto.fields,
          ¬ (19000 ≤ statement.number ∧ statement.number ≤ 19999) := by
  obtain ⟨hsound, -⟩ := retains_of_run hstart hedits
  obtain ⟨hsound', hretains⟩ := retains_of_run hsound hlater
  refine ⟨fun _ _ _ hold hnew => hretains.name_eq hold hnew,
    fun _ _ _ hold hnew => hretains.id_eq hold hnew,
    fun _ _ hold hgone => hretains.retired hold hgone, fun _ hmem => hretains.ids hmem,
    fun _ hmem => hretains.names hmem, fun edit proto hproto => ?_⟩
  exact numbers_of_generateMessage hsound hproto

/-- String fields of the given names. -/
def stringFields (names : List String) : List Field :=
  names.map fun name => ⟨name, .path false "String"⟩

/-- A player has an id and a rank. -/
def firstEdit : Edit := ⟨stringFields ["id", "rank"], by decide⟩

/-- The id is dropped, and a level is added. -/
def secondEdit : Edit := ⟨stringFields ["level", "rank"], by decide⟩

/-- The new field does not get the number of the one that was dropped. -/
theorem numbers_never_reused_twoEdits :
    ∃ lock lock',
      run (evolve lenientProtoc "example.v1" "Player") .empty [firstEdit] = some lock ∧
      run (evolve lenientProtoc "example.v1" "Player") lock [secondEdit] = some lock' ∧
      (lockedMessage "example.v1" "Player" lock).fields.toList = [(1, "id"), (2, "rank")] ∧
      (lockedMessage "example.v1" "Player" lock').fields.toList = [(2, "rank"), (3, "level")] ∧
      1 ∈ (lockedMessage "example.v1" "Player" lock').reservedNumbers.keys := by
  have hdecide : ((run (evolve lenientProtoc "example.v1" "Player") .empty [firstEdit]).bind
      fun lock => (run (evolve lenientProtoc "example.v1" "Player") lock [secondEdit]).map
        fun lock' => ((lockedMessage "example.v1" "Player" lock).fields.toList,
          (lockedMessage "example.v1" "Player" lock').fields.toList)) =
      some ([(1, "id"), (2, "rank")], [(2, "rank"), (3, "level")]) := by
    decide +kernel
  obtain ⟨lock, hfirst, hsecond⟩ := Option.bind_eq_some_iff.mp hdecide
  obtain ⟨lock', hsecond, hfields⟩ := Option.map_eq_some_iff.mp hsecond
  obtain ⟨hold, hnew⟩ := Prod.mk.inj hfields
  obtain ⟨-, -, hreserved, -⟩ := numbers_never_reused lenientProtoc "example.v1" "Player" .empty
    lock lock' sound_default [firstEdit] [secondEdit] hfirst hsecond
  refine ⟨lock, lock', hfirst, hsecond, hold, hnew, (hreserved 1 "id" ?_ ?_).1⟩
  · rw [hold]
    decide
  · rw [hnew]
    decide

end MoonLightBridge.Codegen.History
