import MoonLightBridge.Codegen.History

/-!
# Generated messages against the compatibility check

A message that was generated from a lock is checked against this lock. All that the check
asks for is kept: the reservations, the numbers, the types, and for what was removed, its
number and its name. What is not kept is the place of an `Option` field. `protoc` gives
every such field a oneof, whose index counts the ones before it, and the check compares
these indices, too: a field that stays is reported as changed if an `Option` field before
it is removed, or is added, or if two of them are exchanged.
-/

namespace MoonLightBridge.Codegen.Compatibility

open Schema Source History

/-- What every snapshot of a compiled message is like. -/
structure WellFormed (locked : Schema.LockedMessage) : Prop where
  number_eq : ∀ {number field}, (number, field) ∈ locked.fields.toList → field.number = number
  name_unique : ∀ {number number' field field'}, (number, field) ∈ locked.fields.toList →
    (number', field') ∈ locked.fields.toList → field.name = field'.name → number = number'
  start_lt_stop : ∀ range ∈ locked.reservedRanges, range.start < range.stop

/-- The Rust type of a field compiles to the type that the lock has. -/
def KeepsType (resolve : String → ℤ × Option String) (field : Field) (locked : LockedField) :
    Prop :=
  ∃ label type, protoType field.type = .ok (label, type) ∧
    locked.label = (if label = .repeated then 3 else 1) ∧ locked.kind = (resolve type).1 ∧
    locked.typeName = (resolve type).2.getD "" ∧ locked.proto3Optional = decide (label = .optional)

/-- The fields that stay keep their types. -/
def KeepsTypes (resolve : String → ℤ × Option String) (locked : Schema.LockedMessage)
    (fields : List Field) : Prop :=
  ∀ field ∈ fields, ∀ number lockedField, (number, lockedField) ∈ locked.fields.toList →
    lockedField.name = field.ident → KeepsType resolve field lockedField

def isOptional (field : Field) : Bool :=
  match protoType field.type with
  | .ok (.optional, _) => true
  | _ => false

/-- The oneof of the field at a place counts the optional fields before it. -/
def oneofIndexAt (fields : List Field) (place : ℕ) (field : Field) : Option ℤ :=
  if isOptional field then some ((fields.take place).countP isOptional) else none

/-- The fields that stay have as many optional fields before them as in the lock. -/
def KeepsPlaces (locked : Schema.LockedMessage) (fields : List Field) : Prop :=
  ∀ place field, fields[place]? = some field → ∀ number lockedField,
    (number, lockedField) ∈ locked.fields.toList → lockedField.name = field.ident →
      lockedField.oneofIndex = oneofIndexAt fields place field

/-! ### Which message an error is about -/

section Errors

variable {old new : SchemaLock} {error : CompatibilityError}

variable {name : String}

theorem subject?_of_mem_reservations {kind : DeclarationKind}
    {oldRanges newRanges : List NumberRange} {oldNames newNames : List String}
    (h : error ∈ checkPreservedReservations kind name oldRanges oldNames newRanges newNames) :
    error.subject? = some (kind, name) := by
  rcases List.mem_append.mp h with hrange | hname
  · obtain ⟨range, -, rfl⟩ := List.mem_map.mp hrange
    rfl
  · obtain ⟨reservedName, -, rfl⟩ := List.mem_map.mp hname
    rfl

theorem subject?_of_mem_messageErrors {entry : String × Schema.LockedMessage}
    (h : error ∈ messageErrors new entry) : error.subject? = some (.message, entry.1) := by
  unfold messageErrors at h
  split at h
  · obtain rfl := List.mem_singleton.mp h
    rfl
  · rcases List.mem_append.mp h with hreserved | hfield
    · exact subject?_of_mem_reservations hreserved
    · obtain ⟨field, -, hfield⟩ := List.mem_flatMap.mp hfield
      unfold fieldErrors at hfield
      split at hfield <;> split_ifs at hfield <;>
        simp only [List.mem_singleton, List.not_mem_nil] at hfield
      · rw [hfield]
        rfl
      · rw [hfield]
        rfl

theorem subject?_of_mem_enumErrors {entry : String × LockedEnum}
    (h : error ∈ enumErrors new entry) : error.subject? = some (.enumeration, entry.1) := by
  unfold enumErrors at h
  split at h
  · obtain rfl := List.mem_singleton.mp h
    rfl
  · rcases List.mem_append.mp h with hreserved | hvalue
    · exact subject?_of_mem_reservations hreserved
    · obtain ⟨value, -, hvalue⟩ := List.mem_flatMap.mp hvalue
      unfold valueErrors at hvalue
      split at hvalue <;> split_ifs at hvalue <;>
        simp only [List.mem_singleton, List.not_mem_nil] at hvalue
      · rw [hvalue]
        rfl
      · rw [hvalue]
        rfl

theorem subject?_of_mem_serviceErrors {entry : String × LockedService}
    (h : error ∈ serviceErrors new entry) : error.subject? = none := by
  unfold serviceErrors at h
  split at h
  · obtain rfl := List.mem_singleton.mp h
    rfl
  · obtain ⟨method, -, hmethod⟩ := List.mem_flatMap.mp h
    unfold methodErrors at hmethod
    split at hmethod
    · obtain rfl := List.mem_singleton.mp hmethod
      rfl
    · split_ifs at hmethod <;> simp only [List.mem_singleton, List.not_mem_nil] at hmethod
      · rw [hmethod]
        rfl
      · rw [hmethod]
        rfl

/-- The errors about a message are those of its comparison. -/
theorem mem_messageErrors {locked : Schema.LockedMessage}
    (hlocked : old.messages.get? name = some locked) :
    error ∈ compatibilityErrors old new ∧ error.message? = some name ↔
      error ∈ messageErrors new (name, locked) := by
  have hmem := SortedMap.get?_eq_some_iff.mp hlocked
  rw [CompatibilityError.message?_eq_some_iff, compatibilityErrors, List.mem_append,
    List.mem_append]
  constructor
  · rintro ⟨(hmessage | henum) | hservice, hname⟩
    · obtain ⟨⟨name', locked'⟩, hmem', herror⟩ := List.mem_flatMap.mp hmessage
      cases (subject?_of_mem_messageErrors herror).symm.trans hname
      rwa [SortedMap.eq_of_mem hmem hmem']
    · obtain ⟨entry, -, herror⟩ := List.mem_flatMap.mp henum
      cases (subject?_of_mem_enumErrors herror).symm.trans hname
    · obtain ⟨entry, -, herror⟩ := List.mem_flatMap.mp hservice
      cases (subject?_of_mem_serviceErrors herror).symm.trans hname
  · intro herror
    exact ⟨.inl (.inl (List.mem_flatMap.mpr ⟨_, hmem, herror⟩)),
      subject?_of_mem_messageErrors herror⟩

/-- The errors about an enum are those of its comparison. -/
theorem mem_enumErrors {locked : LockedEnum} (hlocked : old.enums.get? name = some locked) :
    error ∈ compatibilityErrors old new ∧ error.subject? = some (.enumeration, name) ↔
      error ∈ enumErrors new (name, locked) := by
  have hmem := SortedMap.get?_eq_some_iff.mp hlocked
  rw [compatibilityErrors, List.mem_append, List.mem_append]
  constructor
  · rintro ⟨(hmessage | henum) | hservice, hname⟩
    · obtain ⟨entry, -, herror⟩ := List.mem_flatMap.mp hmessage
      cases (subject?_of_mem_messageErrors herror).symm.trans hname
    · obtain ⟨⟨name', locked'⟩, hmem', herror⟩ := List.mem_flatMap.mp henum
      cases (subject?_of_mem_enumErrors herror).symm.trans hname
      rwa [SortedMap.eq_of_mem hmem hmem']
    · obtain ⟨entry, -, herror⟩ := List.mem_flatMap.mp hservice
      cases (subject?_of_mem_serviceErrors herror).symm.trans hname
  · intro herror
    exact ⟨.inl (.inr (List.mem_flatMap.mpr ⟨_, hmem, herror⟩)), subject?_of_mem_enumErrors herror⟩

end Errors

/-! ### What is recorded of a field -/

variable {field : Field} {place : ℕ}

section Fields

variable {resolve : String → ℤ × Option String} {previous : Option Source.LockedMessage}
  {used : SortedMap ℤ Unit} {message : String} {fields : List Field}
  {statements : List FieldStatement}

theorem getElem?_lockedFields (index : ℤ) (statements : List FieldStatement) (place : ℕ) :
    (lockedFields resolve index statements)[place]? = statements[place]?.map fun statement =>
      (statement.number, lockedField resolve
        (index + ((statements.take place).countP fun statement => statement.label = .optional : ℕ))
        statement) := by
  induction statements generalizing index place with
  | nil => rfl
  | cons statement statements ih =>
    cases place with
    | zero => simp [lockedFields]
    | succ place =>
      rw [lockedFields, List.getElem?_cons_succ, ih, List.getElem?_cons_succ, List.take_succ_cons,
        List.countP_cons]
      congr 1
      funext other
      by_cases hoptional : statement.label = .optional
      · simp only [hoptional, if_true, decide_true, Nat.cast_add, Nat.cast_one]
        rw [add_assoc, add_comm (1 : ℤ)]
      · simp only [hoptional, if_false, decide_false, Bool.false_eq_true, add_zero]

/-- A field is optional if the statement it becomes is. -/
theorem isOptional_iff {label : Label} {type : String}
    (h : protoType field.type = .ok (label, type)) :
    isOptional field = decide (label = .optional) := by
  unfold isOptional
  rw [h]
  cases label <;> rfl

theorem countP_isOptional (h : generateFields message previous used fields = .ok statements)
    (place : ℕ) :
    (statements.take place).countP (fun statement => statement.label = .optional) =
      (fields.take place).countP isOptional := by
  have htake := List.forall₂_take place (generateFields_eq_ok h)
  generalize fields.take place = fields at htake
  generalize statements.take place = statements at htake
  induction htake with
  | nil => rfl
  | cons hfirst _ ih => rw [List.countP_cons, List.countP_cons, ih, isOptional_iff hfirst.2.1]

/-- What the next lock has of the field at a place. -/
theorem exists_statement_of_getElem? (resolve : String → ℤ × Option String)
    (h : generateFields message previous used fields = .ok statements)
    (hfield : fields[place]? = some field) :
    ∃ statement ∈ statements, statement.name = field.ident ∧
      protoType field.type = .ok (statement.label, statement.type) ∧
      (statement.number, lockedField resolve ((fields.take place).countP isOptional : ℕ)
        statement) ∈ lockedFields resolve 0 statements := by
  have hall := generateFields_eq_ok h
  obtain ⟨hlt, rfl⟩ := List.getElem?_eq_some_iff.mp hfield
  have hlt' : place < statements.length := hall.length_eq ▸ hlt
  obtain ⟨hname, htype, -⟩ := hall.get hlt hlt'
  refine ⟨statements[place], List.getElem_mem hlt', hname, htype, ?_⟩
  apply List.mem_of_getElem? (i := place)
  rw [getElem?_lockedFields, List.getElem?_eq_getElem hlt', countP_isOptional h]
  simp only [Option.map_some, zero_add]

/-- A field that keeps its name, its number and its type is the same if its oneof is. -/
theorem lockedField_eq_iff {statement : FieldStatement} {locked : LockedField}
    (hname : locked.name = statement.name) (hnumber : locked.number = statement.number)
    (htype : protoType field.type = .ok (statement.label, statement.type))
    (hkeeps : KeepsType resolve field locked) :
    lockedField resolve ((fields.take place).countP isOptional : ℕ) statement = locked ↔
      locked.oneofIndex = oneofIndexAt fields place field := by
  obtain ⟨label, type, htype', hlabel, hkind, htypeName, hoptional⟩ := hkeeps
  obtain ⟨rfl, rfl⟩ := Prod.mk.inj (Except.ok.inj (htype.symm.trans htype'))
  obtain ⟨name, number, label, kind, typeName, oneofIndex, proto3Optional⟩ := locked
  simp only at hname hnumber hlabel hkind htypeName hoptional ⊢
  subst hname hnumber hlabel hkind htypeName hoptional
  have hindex : oneofIndexAt fields place field =
      if statement.label = .optional then some ((fields.take place).countP isOptional : ℤ)
      else none := by
    rw [oneofIndexAt, isOptional_iff htype]
    simp only [decide_eq_true_eq]
  simp only [lockedField, LockedField.mk.injEq, true_and, and_true, hindex]
  exact eq_comm

end Fields

/-! ### The comparison -/

variable {number : ℤ}

section Comparison

variable {protoc : Protoc} {package name : String} {lock lock' : SchemaLock} {edit : Edit}
  {locked : Schema.LockedMessage}
  (hlocked : lock.messages.get? (package ++ "." ++ name) = some locked)

include hlocked

/-- What the generator is given of the message. -/
theorem lockedMessage_eq : lockedMessage package name lock = loadMessage locked := by
  rw [lockedMessage, get?_loadLock, hlocked]
  rfl

section Generated

variable {new : Schema.LockedMessage} {proto : ProtoMessage}
  (hgenerates : Generates ((loadLock lock).messages.get? (package ++ "." ++ name))
    ⟨name, some edit.fields⟩ edit.fields proto)
  (hrecords : Records protoc.resolve proto new)

include hgenerates hrecords

/-- No reservation is lost. -/
theorem reservations_eq_nil (hwf : WellFormed locked) :
    checkPreservedReservations .message (package ++ "." ++ name) locked.reservedRanges
      locked.reservedNames new.reservedRanges new.reservedNames = [] := by
  have hnumbers := hgenerates.numbers
  have hnames := hgenerates.names
  rw [get?_loadLock, hlocked] at hnumbers hnames
  refine checkPreservedReservations_eq_nil.mpr ⟨fun range hrange => ?_, fun name hname => ?_⟩
  · rw [rangeIsCovered_iff (hwf.start_lt_stop range hrange)]
    intro number hnumber
    rw [hrecords.numbers, hnumbers]
    exact .inr (mem_loadMessage_reservedNumbers.mpr ⟨range, hrange, hnumber⟩)
  · rw [hrecords.names, hnames]
    exact .inr (mem_loadMessage_reservedNames.mpr hname)

/-- A field that is not there any more is reserved. -/
theorem fieldErrors_of_removed {descriptor : DescriptorProto}
    (hcompiles : Compiles protoc.resolve package proto descriptor) {field : LockedField}
    (hfield : (number, field) ∈ locked.fields.toList)
    (hremoved : field.name ∉ edit.fields.map Field.ident) :
    fieldErrors (package ++ "." ++ name) new (number, field) = [] := by
  have hloaded : (number, field.name) ∈ (loadMessage locked).fields.toList :=
    mem_loadMessage_fields.mpr ⟨field, hfield, rfl⟩
  have hnumbers := hgenerates.numbers number
  have hnames := hgenerates.names field.name
  rw [get?_loadLock, hlocked] at hnumbers hnames
  have hnumber : number ∈ proto.reservedNumbers := hnumbers.mpr (.inl ⟨_, hloaded, hremoved⟩)
  have hname : field.name ∈ proto.reservedNames := hnames.mpr (.inl ⟨_, hloaded, hremoved⟩)
  -- nobody else has got its number
  have hnone : new.fields.get? number = none := by
    rw [SortedMap.get?_eq_none_iff]
    intro hmem
    obtain ⟨⟨number', other⟩, hother, rfl⟩ := List.mem_map.mp hmem
    have hnumbered := List.mem_map_of_mem (f := Prod.fst) ((hrecords.fields _ _).mp hother)
    rw [map_fst_lockedFields] at hnumbered
    obtain ⟨statement, hstatement, hsame⟩ := List.mem_map.mp hnumbered
    exact hcompiles.numbers_notMem statement hstatement (hsame ▸ hnumber)
  have hreserved : isReserved number field.name new.reservedRanges new.reservedNames = true :=
    isReserved_iff.mpr ⟨(hrecords.numbers number).mpr hnumber, (hrecords.names _).mpr hname⟩
  simp only [fieldErrors, hnone, hreserved, if_true]

/-- A field that stays is reported exactly if its oneof is another one. -/
theorem fieldErrors_eq_nil_iff (hwf : WellFormed locked)
    (htypes : KeepsTypes protoc.resolve locked edit.fields) {lockedField : LockedField}
    (hmem : (number, lockedField) ∈ locked.fields.toList)
    (hfield : edit.fields[place]? = some field) (hname : lockedField.name = field.ident) :
    fieldErrors (package ++ "." ++ name) new (number, lockedField) = [] ↔
      lockedField.oneofIndex = oneofIndexAt edit.fields place field := by
  obtain ⟨statement, hstatement, hsame, htype, hnew⟩ :=
    exists_statement_of_getElem? protoc.resolve hgenerates.generated hfield
  -- the statement has the number of the lock
  have hnumber : statement.number = number := by
    have hloaded : (number, statement.name) ∈ (loadMessage locked).fields.toList :=
      mem_loadMessage_fields.mpr ⟨lockedField, hmem, hname.trans hsame.symm⟩
    rcases numbered_of_generates hgenerates hstatement with hold | ⟨hnone, -⟩
    · rw [lockedMessage_eq hlocked] at hold
      obtain ⟨other, hother, hothername⟩ := mem_loadMessage_fields.mp hold
      exact hwf.name_unique hother hmem (hothername.trans (hname.trans hsame.symm).symm)
    · rw [lockedMessage_eq hlocked] at hnone
      exact absurd hloaded (hnone number)
  subst hnumber
  have hget := SortedMap.get?_eq_some_iff.mpr ((hrecords.fields _ _).mpr hnew)
  simp only [fieldErrors, hget]
  rw [← lockedField_eq_iff (hname.trans hsame.symm) (hwf.number_eq hmem) htype
    (htypes field (List.mem_of_getElem? hfield) _ _ hmem hname)]
  split_ifs with hne
  · exact ⟨fun hnil => hnil.elim, fun heq => absurd heq hne⟩
  · exact ⟨fun _ => not_not.mp hne, fun _ => rfl⟩

end Generated

variable (hwf : WellFormed locked) (htypes : KeepsTypes protoc.resolve locked edit.fields)
  (h : evolve protoc package name lock edit = some lock')

include hwf htypes h

/-- The comparison of the message finds nothing exactly if no field changes its place. -/
theorem messageErrors_eq_nil_iff :
    messageErrors lock' (package ++ "." ++ name, locked) = [] ↔
      KeepsPlaces locked edit.fields := by
  obtain ⟨proto, descriptor, new, hgenerates, hcompiles, hrecords, hnew⟩ := records_of_evolve h
  simp only [messageErrors, hnew]
  rw [List.append_eq_nil_iff, List.flatMap_eq_nil_iff]
  constructor
  · rintro ⟨-, hfields⟩ place field hfield number lockedField hmem hname
    exact (fieldErrors_eq_nil_iff hlocked hgenerates hrecords hwf htypes hmem hfield hname).mp
      (hfields _ hmem)
  · intro hplaces
    refine ⟨reservations_eq_nil hlocked hgenerates hrecords hwf, ?_⟩
    rintro ⟨number, lockedField⟩ hmem
    by_cases hstays : lockedField.name ∈ edit.fields.map Field.ident
    · obtain ⟨field, hfield, hname⟩ := List.mem_map.mp hstays
      obtain ⟨place, hplace⟩ := List.mem_iff_getElem?.mp hfield
      exact (fieldErrors_eq_nil_iff hlocked hgenerates hrecords hwf htypes hmem hplace
        hname.symm).mpr (hplaces place field hplace number lockedField hmem hname.symm)
    · exact fieldErrors_of_removed hlocked hgenerates hrecords hcompiles hmem hstays

/-- The condition cannot be weakened: an edit that does not meet it is reported. -/
theorem keepsPlaces_of_no_errors
    (hnone : ∀ error ∈ compatibilityErrors lock lock',
      error.message? ≠ some (package ++ "." ++ name)) : KeepsPlaces locked edit.fields := by
  rw [← messageErrors_eq_nil_iff hlocked hwf htypes h, List.eq_nil_iff_forall_not_mem]
  intro error hmem
  obtain ⟨herror, hname⟩ := (mem_messageErrors hlocked).mpr hmem
  exact hnone error herror hname

end Comparison

/-- A message that was generated from its lock is compatible with it, if no `Option`
field that stays comes to another place among the `Option` fields. -/
theorem no_errors_of_keepsPlaces (protoc : Protoc) (package name : String)
    (lock lock' : SchemaLock) (locked : Schema.LockedMessage)
    (hlocked : lock.messages.get? (package ++ "." ++ name) = some locked) (hwf : WellFormed locked)
    (edit : Edit) (htypes : KeepsTypes protoc.resolve locked edit.fields)
    (hevolve : evolve protoc package name lock edit = some lock')
    (hplaces : KeepsPlaces locked edit.fields) :
    ∀ error ∈ compatibilityErrors lock lock', error.message? ≠ some (package ++ "." ++ name) := by
  intro error herror hname
  have hmem := (mem_messageErrors hlocked).mp ⟨herror, hname⟩
  rw [(messageErrors_eq_nil_iff hlocked hwf htypes hevolve).mpr hplaces] at hmem
  cases hmem

/-- `Option<String>` fields of the given names. -/
def optionFields (names : List String) : List Field :=
  names.map fun name => ⟨name, .generic false "Option" (.path false "String")⟩

/-- What is recorded of an `Option<String>` field. -/
def lockedOption (name : String) (number index : ℤ) : LockedField :=
  ⟨name, number, 1, 9, "", some index, true⟩

/-- A player that has an id and a rank, and may have neither. -/
def lockedPlayer : Schema.LockedMessage where
  fields := .ofList [(1, lockedOption "id" 1 0), (2, lockedOption "rank" 2 1)]
  reservedRanges := []
  reservedNames := []

def playerLock : SchemaLock :=
  { SchemaLock.empty with messages := SortedMap.empty.insert "example.v1.Player" lockedPlayer }

theorem mem_lockedPlayer {field : LockedField} :
    (number, field) ∈ lockedPlayer.fields.toList ↔
      number = 1 ∧ field = lockedOption "id" 1 0 ∨
        number = 2 ∧ field = lockedOption "rank" 2 1 := by
  rw [lockedPlayer, SortedMap.mem_toList_ofList (by decide)]
  simp

theorem wellFormed_lockedPlayer : WellFormed lockedPlayer where
  number_eq h := by
    rcases mem_lockedPlayer.mp h with ⟨rfl, rfl⟩ | ⟨rfl, rfl⟩ <;> rfl
  name_unique h h' hname := by
    rcases mem_lockedPlayer.mp h with ⟨rfl, rfl⟩ | ⟨rfl, rfl⟩ <;>
      rcases mem_lockedPlayer.mp h' with ⟨rfl, rfl⟩ | ⟨rfl, rfl⟩ <;> first
        | rfl
        | exact absurd hname (by decide)
  start_lt_stop range h := absurd h List.not_mem_nil

/-- `Option<String>` fields keep the type that the lock has for them. -/
theorem keepsTypes_optionFields (names : List String) :
    KeepsTypes lenientProtoc.resolve lockedPlayer (optionFields names) := by
  intro field hfield number locked hmem _
  obtain ⟨name, -, rfl⟩ := List.mem_map.mp hfield
  refine ⟨.optional, "string", rfl, ?_⟩
  rcases mem_lockedPlayer.mp hmem with ⟨-, rfl⟩ | ⟨-, rfl⟩ <;> exact ⟨rfl, rfl, rfl, rfl⟩

/-- A level is added. -/
def appendingEdit : Edit := ⟨optionFields ["id", "rank", "level"], by decide⟩

theorem keepsPlaces_appendingEdit : KeepsPlaces lockedPlayer appendingEdit.fields := by
  intro place field hfield number locked hmem hname
  match place, hfield with
  | 0, hfield =>
    cases hfield
    rcases mem_lockedPlayer.mp hmem with ⟨-, rfl⟩ | ⟨-, rfl⟩
    · rfl
    · exact absurd hname (by decide)
  | 1, hfield =>
    cases hfield
    rcases mem_lockedPlayer.mp hmem with ⟨-, rfl⟩ | ⟨-, rfl⟩
    · exact absurd hname (by decide)
    · rfl
  | 2, hfield =>
    cases hfield
    rcases mem_lockedPlayer.mp hmem with ⟨-, rfl⟩ | ⟨-, rfl⟩ <;> exact absurd hname (by decide)

/-- A field that is added at the end is compatible. -/
theorem no_errors_of_keepsPlaces_appendingEdit :
    ∃ lock', evolve lenientProtoc "example.v1" "Player" playerLock appendingEdit = some lock' ∧
      ∀ error ∈ compatibilityErrors playerLock lock',
        error.message? ≠ some "example.v1.Player" := by
  have hdecide :
      (evolve lenientProtoc "example.v1" "Player" playerLock appendingEdit).isSome = true := by
    decide +kernel
  obtain ⟨lock', hevolve⟩ := Option.isSome_iff_exists.mp hdecide
  exact ⟨lock', hevolve, no_errors_of_keepsPlaces lenientProtoc "example.v1" "Player" playerLock
    lock' lockedPlayer rfl wellFormed_lockedPlayer appendingEdit
    (keepsTypes_optionFields _) hevolve keepsPlaces_appendingEdit⟩

/-- The id is dropped. -/
def droppingEdit : Edit := ⟨optionFields ["rank"], by decide⟩

/-- The lock is the one of a generated message, the id is dropped and reserved, the rank
keeps its type and its number, and yet it is reported as changed. -/
theorem error_of_droppingEdit :
    evolve lenientProtoc "example.v1" "Player" .empty
        ⟨optionFields ["id", "rank"], by decide⟩ = some playerLock ∧
      WellFormed lockedPlayer ∧
      KeepsTypes lenientProtoc.resolve lockedPlayer droppingEdit.fields ∧
      (evolve lenientProtoc "example.v1" "Player" playerLock droppingEdit).map
          (compatibilityErrors playerLock) =
        some [.fieldChanged "example.v1.Player" 2 (lockedOption "rank" 2 1)
          (lockedOption "rank" 2 0)] := by
  refine ⟨?_, wellFormed_lockedPlayer, keepsTypes_optionFields _, ?_⟩
  · decide +kernel
  · decide +kernel

theorem keepsPlaces_of_no_errors_appendingEdit :
    ∃ lock', evolve lenientProtoc "example.v1" "Player" playerLock appendingEdit = some lock' ∧
      compatibilityErrors playerLock lock' = [] ∧
      KeepsPlaces lockedPlayer appendingEdit.fields := by
  have hdecide : (evolve lenientProtoc "example.v1" "Player" playerLock appendingEdit).map
      (compatibilityErrors playerLock) = some [] := by
    decide +kernel
  obtain ⟨lock', hevolve, hnone⟩ := Option.map_eq_some_iff.mp hdecide
  refine ⟨lock', hevolve, hnone, keepsPlaces_of_no_errors rfl wellFormed_lockedPlayer
    (keepsTypes_optionFields _) hevolve ?_⟩
  rw [hnone]
  exact List.forall_mem_nil _

end MoonLightBridge.Codegen.Compatibility
