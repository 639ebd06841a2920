import MoonLightBridge.Data.SortedMap

/-!
# Schema locks and the compatibility check

`schema.rs`: a lock records the messages, enums and services of a descriptor set, and a
later descriptor set is checked against it. A message or enum may lose a member only if
it reserves both the number and the name of it.

The numbers of the source are `i32`s, and nothing here computes with them but the end of
an inclusive range. Reading and writing the JSON file is left out.
-/

namespace MoonLightBridge.Codegen.Schema

/-! ### Descriptors -/

/-- `FieldDescriptorProto`, as far as it is recorded. -/
structure FieldDescriptorProto where
  name : Option String
  number : Option ℤ
  label : Option ℤ
  type : Option ℤ
  typeName : Option String
  oneofIndex : Option ℤ
  proto3Optional : Option Bool
  deriving DecidableEq, Repr

/-- `ReservedRange` and `EnumReservedRange` -/
structure ReservedRange where
  start : Option ℤ
  stop : Option ℤ
  deriving DecidableEq, Repr

structure EnumValueDescriptorProto where
  name : Option String
  number : Option ℤ
  deriving DecidableEq, Repr

structure EnumDescriptorProto where
  name : Option String
  value : List EnumValueDescriptorProto
  reservedRange : List ReservedRange
  reservedName : List String
  deriving DecidableEq, Repr

inductive DescriptorProto where
  | mk (name : Option String) (field : List FieldDescriptorProto)
      (nestedType : List DescriptorProto) (enumType : List EnumDescriptorProto)
      (reservedRange : List ReservedRange) (reservedName : List String)

/-! ### Locks -/

structure LockedField where
  name : String
  number : ℤ
  label : ℤ
  kind : ℤ
  typeName : String
  oneofIndex : Option ℤ
  proto3Optional : Bool
  deriving DecidableEq, Repr

/-- The numbers from `start` up to, and without, `stop`. -/
structure NumberRange where
  start : ℤ
  stop : ℤ
  deriving DecidableEq, Repr

def NumberRange.Contains (range : NumberRange) (number : ℤ) : Prop :=
  range.start ≤ number ∧ number < range.stop

instance NumberRange.decidableContains (range : NumberRange) (number : ℤ) :
    Decidable (range.Contains number) := inferInstanceAs (Decidable (_ ∧ _))

structure LockedMessage where
  fields : SortedMap ℤ LockedField
  reservedRanges : List NumberRange
  reservedNames : List String
  deriving DecidableEq

structure LockedEnum where
  values : SortedMap ℤ String
  reservedRanges : List NumberRange
  reservedNames : List String
  deriving DecidableEq

/-- `Idempotency` of `policy.rs` -/
inductive Idempotency where
  | unspecified
  | readOnly
  | idempotent
  | keyRequired
  deriving DecidableEq, Repr

inductive CompressionMode where
  | default
  | disabled
  | prefer
  | required
  deriving DecidableEq, Repr

structure RetryPolicy where
  maxAttempts : UInt32
  initialBackoffMs : UInt32
  maxBackoffMs : UInt32
  multiplierMilli : UInt32
  deriving DecidableEq, Repr

structure RpcPolicy where
  timeoutMs : UInt32
  idleTimeoutMs : UInt32
  retry : RetryPolicy
  idempotency : Idempotency
  maxRequestBytes : UInt32
  maxResponseBytes : UInt32
  requiredScopes : List String
  compression : CompressionMode
  traceSamplePerMillion : UInt32
  deriving DecidableEq, Repr

structure LockedMethod where
  input : String
  output : String
  clientStreaming : Bool
  serverStreaming : Bool
  policy : RpcPolicy
  deriving DecidableEq, Repr

structure LockedService where
  methods : SortedMap String LockedMethod
  deriving DecidableEq

/-- `SchemaLock`; the number of its format is checked before it is compared. -/
structure SchemaLock where
  messages : SortedMap String LockedMessage
  enums : SortedMap String LockedEnum
  services : SortedMap String LockedService
  deriving DecidableEq

def SchemaLock.empty : SchemaLock := ⟨.empty, .empty, .empty⟩

/-! ### Snapshots -/

def qualify (scope name : String) : String := if scope = "" then name else scope ++ "." ++ name

def required (value : Option String) (field : String) : Except String String :=
  match value with
  | some value => .ok value
  | none => .error ("missing " ++ field)

/-- The closure over the fields of a message. -/
def snapshotField (field : FieldDescriptorProto) : Except String (ℤ × LockedField) :=
  match field.number with
  | none => .error "field number is missing"
  | some number =>
    match required field.name "field name" with
    | .error error => .error error
    | .ok name => .ok (number, {
        name
        number
        label := field.label.getD 0
        kind := field.type.getD 0
        typeName := field.typeName.getD ""
        oneofIndex := field.oneofIndex
        proto3Optional := field.proto3Optional.getD false })

def snapshotRange (range : ReservedRange) : NumberRange := ⟨range.start.getD 0, range.stop.getD 0⟩

/-- The ranges of an enum are inclusive; the largest `i32` stays where it is. -/
def snapshotEnumRange (range : ReservedRange) : NumberRange :=
  ⟨range.start.getD 0, min (range.stop.getD 0 + 1) (2 ^ 31 - 1)⟩

def snapshotValue (value : EnumValueDescriptorProto) : Except String (ℤ × String) :=
  match value.number with
  | none => .error "enum value number is missing"
  | some number =>
    match required value.name "enum value name" with
    | .error error => .error error
    | .ok name => .ok (number, name)

def snapshotEnum (scope : String) (lock : SchemaLock) (enumeration : EnumDescriptorProto) :
    Except String SchemaLock := do
  let name ← required enumeration.name "enum name"
  let values ← enumeration.value.mapM snapshotValue
  return { lock with
    enums := lock.enums.insert (qualify scope name) {
      values := .ofList values
      reservedRanges := enumeration.reservedRange.map snapshotEnumRange
      reservedNames := enumeration.reservedName } }

mutual

def snapshotMessage (scope : String) (lock : SchemaLock) :
    DescriptorProto → Except String SchemaLock
  | .mk name field nestedType enumType reservedRange reservedName => do
    let name ← required name "message name"
    let fields ← field.mapM snapshotField
    let lock ← snapshotNested (qualify scope name) { lock with
      messages := lock.messages.insert (qualify scope name) {
        fields := .ofList fields
        reservedRanges := reservedRange.map snapshotRange
        reservedNames := reservedName } } nestedType
    enumType.foldlM (snapshotEnum (qualify scope name)) lock

def snapshotNested (scope : String) (lock : SchemaLock) :
    List DescriptorProto → Except String SchemaLock
  | [] => .ok lock
  | message :: messages => do
    let lock ← snapshotMessage scope lock message
    snapshotNested scope lock messages

end

/-! ### The check -/

inductive DeclarationKind where
  | message
  | enumeration
  deriving DecidableEq, Repr

def DeclarationKind.text : DeclarationKind → String
  | .message => "message"
  | .enumeration => "enum"

/-- What is reported, with the data its text is made of. -/
inductive CompatibilityError where
  | messageRemoved (name : String)
  | enumRemoved (name : String)
  | serviceRemoved (name : String)
  | rangeNotReserved (kind : DeclarationKind) (name : String) (range : NumberRange)
  | nameNotReserved (kind : DeclarationKind) (name reservedName : String)
  | fieldChanged (message : String) (number : ℤ) (old new : LockedField)
  | fieldRemoved (message : String) (number : ℤ) (field : String)
  | valueChanged (enumeration : String) (number : ℤ) (old new : String)
  | valueRemoved (enumeration : String) (number : ℤ) (value : String)
  | methodRemoved (service method : String)
  | signatureChanged (service method : String)
  | policyChanged (service method : String)
  deriving DecidableEq, Repr

/-- The field as `Debug` prints it. -/
def LockedField.debug (field : LockedField) : String :=
  "LockedField \x7b name: \"" ++ field.name ++ "\", number: " ++ toString field.number ++
    ", label: " ++ toString field.label ++ ", kind: " ++ toString field.kind ++
    ", type_name: \"" ++ field.typeName ++ "\", oneof_index: " ++
    (match field.oneofIndex with
      | none => "None"
      | some index => "Some(" ++ toString index ++ ")") ++
    ", proto3_optional: " ++ toString field.proto3Optional ++ " \x7d"

def CompatibilityError.text : CompatibilityError → String
  | .messageRemoved name => "message " ++ name ++ " was removed"
  | .enumRemoved name => "enum " ++ name ++ " was removed"
  | .serviceRemoved name => "service " ++ name ++ " was removed"
  | .rangeNotReserved kind name range =>
    kind.text ++ " " ++ name ++ " no longer reserves numbers " ++ toString range.start ++ ".." ++
      toString range.stop
  | .nameNotReserved kind name reservedName =>
    kind.text ++ " " ++ name ++ " no longer reserves name " ++ reservedName
  | .fieldChanged message number old new =>
    "field " ++ message ++ "." ++ old.name ++ " #" ++ toString number ++ " changed from " ++
      old.debug ++ " to " ++ new.debug
  | .fieldRemoved message number field =>
    "field " ++ message ++ "." ++ field ++ " #" ++ toString number ++
      " was removed without reserving both its number and name"
  | .valueChanged enumeration number old new =>
    "enum value " ++ enumeration ++ "." ++ old ++ " #" ++ toString number ++ " changed to " ++ new
  | .valueRemoved enumeration number value =>
    "enum value " ++ enumeration ++ "." ++ value ++ " #" ++ toString number ++
      " was removed without reserving both its number and name"
  | .methodRemoved service method => "RPC " ++ service ++ "/" ++ method ++ " was removed or renamed"
  | .signatureChanged service method => "RPC " ++ service ++ "/" ++ method ++ " signature changed"
  | .policyChanged service method => "RPC " ++ service ++ "/" ++ method ++ " policy changed"

/-- The message an error is about. -/
def CompatibilityError.message? : CompatibilityError → Option String
  | .messageRemoved name => some name
  | .rangeNotReserved .message name _ => some name
  | .nameNotReserved .message name _ => some name
  | .fieldChanged message _ _ _ => some message
  | .fieldRemoved message _ _ => some message
  | _ => none

/-- The message or enum an error is about. -/
def CompatibilityError.subject? : CompatibilityError → Option (DeclarationKind × String)
  | .messageRemoved name | .fieldChanged name _ _ _ | .fieldRemoved name _ _ =>
    some (.message, name)
  | .enumRemoved name | .valueChanged name _ _ _ | .valueRemoved name _ _ =>
    some (.enumeration, name)
  | .rangeNotReserved kind name _ | .nameNotReserved kind name _ => some (kind, name)
  | .serviceRemoved _ | .methodRemoved _ _ | .signatureChanged _ _ | .policyChanged _ _ => none

theorem CompatibilityError.message?_eq_some_iff {error : CompatibilityError} {name : String} :
    error.message? = some name ↔ error.subject? = some (.message, name) := by
  cases error with
  | rangeNotReserved kind | nameNotReserved kind => cases kind <;> simp [message?, subject?]
  | _ => simp [message?, subject?]

/-- The loop of `range_is_covered`, over ranges in the order of their starts. -/
def coveredFrom (stop : ℤ) : ℤ → List NumberRange → Bool
  | cursor, [] => stop ≤ cursor
  | cursor, range :: ranges =>
    if range.stop ≤ cursor then coveredFrom stop cursor ranges
    else if cursor < range.start then false
    else if stop ≤ max cursor range.stop then true
    else coveredFrom stop (max cursor range.stop) ranges

def rangeIsCovered (required : NumberRange) (available : List NumberRange) : Bool :=
  coveredFrom required.stop required.start
    (available.insertionSort fun range range' => range.start ≤ range'.start)

def isReserved (number : ℤ) (name : String) (ranges : List NumberRange) (names : List String) :
    Bool :=
  ranges.any (fun range => range.Contains number) && names.any (· == name)

def checkPreservedReservations (kind : DeclarationKind) (name : String)
    (oldRanges : List NumberRange) (oldNames : List String) (newRanges : List NumberRange)
    (newNames : List String) : List CompatibilityError :=
  (oldRanges.filter fun range => !rangeIsCovered range newRanges).map
      (.rangeNotReserved kind name) ++
    (oldNames.filter fun reservedName => !newNames.any (· == reservedName)).map
      (.nameNotReserved kind name)

/-- The inner loop over the fields of a message, for one of them. -/
def fieldErrors (name : String) (newMessage : LockedMessage) (entry : ℤ × LockedField) :
    List CompatibilityError :=
  match newMessage.fields.get? entry.1 with
  | some newField =>
    if newField ≠ entry.2 then [.fieldChanged name entry.1 entry.2 newField] else []
  | none =>
    if isReserved entry.1 entry.2.name newMessage.reservedRanges newMessage.reservedNames then []
    else [.fieldRemoved name entry.1 entry.2.name]

def messageErrors (new : SchemaLock) (entry : String × LockedMessage) : List CompatibilityError :=
  match new.messages.get? entry.1 with
  | none => [.messageRemoved entry.1]
  | some newMessage =>
    checkPreservedReservations .message entry.1 entry.2.reservedRanges entry.2.reservedNames
        newMessage.reservedRanges newMessage.reservedNames ++
      entry.2.fields.toList.flatMap (fieldErrors entry.1 newMessage)

def valueErrors (name : String) (newEnum : LockedEnum) (entry : ℤ × String) :
    List CompatibilityError :=
  match newEnum.values.get? entry.1 with
  | some newName =>
    if newName ≠ entry.2 then [.valueChanged name entry.1 entry.2 newName] else []
  | none =>
    if isReserved entry.1 entry.2 newEnum.reservedRanges newEnum.reservedNames then []
    else [.valueRemoved name entry.1 entry.2]

def enumErrors (new : SchemaLock) (entry : String × LockedEnum) : List CompatibilityError :=
  match new.enums.get? entry.1 with
  | none => [.enumRemoved entry.1]
  | some newEnum =>
    checkPreservedReservations .enumeration entry.1 entry.2.reservedRanges entry.2.reservedNames
        newEnum.reservedRanges newEnum.reservedNames ++
      entry.2.values.toList.flatMap (valueErrors entry.1 newEnum)

def methodErrors (name : String) (newService : LockedService) (entry : String × LockedMethod) :
    List CompatibilityError :=
  match newService.methods.get? entry.1 with
  | none => [.methodRemoved name entry.1]
  | some newMethod =>
    if newMethod.input ≠ entry.2.input ∨ newMethod.output ≠ entry.2.output ∨
        newMethod.clientStreaming ≠ entry.2.clientStreaming ∨
        newMethod.serverStreaming ≠ entry.2.serverStreaming then
      [.signatureChanged name entry.1]
    else if newMethod.policy ≠ entry.2.policy then [.policyChanged name entry.1]
    else []

def serviceErrors (new : SchemaLock) (entry : String × LockedService) : List CompatibilityError :=
  match new.services.get? entry.1 with
  | none => [.serviceRemoved entry.1]
  | some newService => entry.2.methods.toList.flatMap (methodErrors entry.1 newService)

def compatibilityErrors (old new : SchemaLock) : List CompatibilityError :=
  old.messages.toList.flatMap (messageErrors new) ++
    old.enums.toList.flatMap (enumErrors new) ++
    old.services.toList.flatMap (serviceErrors new)

/-! ### Ranges -/

section Ranges

variable {ranges : List NumberRange} {cursor stop : ℤ}

/-- What the loop decides, from a cursor that has not reached the end. -/
theorem coveredFrom_iff (hsorted : ranges.Pairwise fun range range' => range.start ≤ range'.start)
    (hcursor : cursor < stop) :
    coveredFrom stop cursor ranges = true ↔
      ∀ number, cursor ≤ number → number < stop → ∃ range ∈ ranges, range.Contains number := by
  induction ranges generalizing cursor with
  | nil =>
    simp only [coveredFrom, decide_eq_true_eq, List.not_mem_nil, false_and, exists_false]
    exact ⟨fun hstop => absurd hcursor (not_lt.mpr hstop), fun h => (h cursor le_rfl hcursor).elim⟩
  | cons range ranges ih =>
    obtain ⟨hfirst, hrest⟩ := List.pairwise_cons.mp hsorted
    simp only [coveredFrom]
    split_ifs with hbehind hgap hend
    · -- the range ends before the cursor
      rw [ih hrest hcursor]
      refine forall₃_congr fun number hlow hhigh => ?_
      rw [List.exists_mem_cons_iff]
      refine (or_iff_right fun hcontains => ?_).symm
      have := hcontains.2
      omega
    · -- no range starts at or before the cursor
      refine iff_of_false (by simp) fun h => ?_
      obtain ⟨other, hother, hcontains⟩ := h cursor le_rfl hcursor
      have hstart := hcontains.1
      rcases List.mem_cons.mp hother with rfl | hother
      · omega
      · have := hfirst other hother
        omega
    · refine iff_of_true rfl fun number hlow hhigh => ⟨range, List.mem_cons_self, ?_, ?_⟩
      · omega
      · omega
    · rw [ih hrest (not_le.mp hend)]
      constructor
      · intro h number hlow hhigh
        by_cases hin : number < range.stop
        · exact ⟨range, List.mem_cons_self, by omega, hin⟩
        · obtain ⟨other, hother, hcontains⟩ := h number (by omega) hhigh
          exact ⟨other, List.mem_cons_of_mem _ hother, hcontains⟩
      · intro h number hlow hhigh
        obtain ⟨other, hother, hcontains⟩ := h number (by omega) hhigh
        rcases List.mem_cons.mp hother with rfl | hother
        · have := hcontains.2
          omega
        · exact ⟨other, hother, hcontains⟩

/-- A range is covered if all its numbers are. -/
theorem rangeIsCovered_iff {required : NumberRange} (h : required.start < required.stop)
    (available : List NumberRange) :
    rangeIsCovered required available = true ↔
      ∀ number, required.Contains number → ∃ range ∈ available, range.Contains number := by
  have hsorted := List.pairwise_insertionSort
    (fun range range' : NumberRange => range.start ≤ range'.start) available
  rw [rangeIsCovered, coveredFrom_iff hsorted h]
  simp only [List.mem_insertionSort, NumberRange.Contains, and_imp]

end Ranges

/-- The sweep decides whether the numbers of a range are among those of the others. -/
theorem rangeIsCovered_iff_subset (required : NumberRange) (available : List NumberRange)
    (h : required.start < required.stop) :
    rangeIsCovered required available = true ↔ Set.Ico required.start required.stop ⊆
      ⋃ range ∈ available, Set.Ico range.start range.stop := by
  rw [rangeIsCovered_iff h]
  simp only [Set.subset_def, Set.mem_Ico, Set.mem_iUnion, exists_prop, NumberRange.Contains]

/-- Ranges out of order that overlap, touch, or are empty. -/
theorem rangeIsCovered_iff_subset_overlapping :
    Set.Ico (1 : ℤ) 8 ⊆
      ⋃ range ∈ ([⟨6, 9⟩, ⟨4, 4⟩, ⟨0, 5⟩, ⟨2, 6⟩] : List NumberRange),
        Set.Ico range.start range.stop :=
  (rangeIsCovered_iff_subset ⟨1, 8⟩ _ (by decide)).mp (by decide)

theorem isReserved_iff {number : ℤ} {name : String} {ranges : List NumberRange}
    {names : List String} :
    isReserved number name ranges names = true ↔
      (∃ range ∈ ranges, range.Contains number) ∧ name ∈ names := by
  simp [isReserved]

theorem checkPreservedReservations_eq_nil {kind : DeclarationKind} {name : String}
    {oldRanges newRanges : List NumberRange} {oldNames newNames : List String} :
    checkPreservedReservations kind name oldRanges oldNames newRanges newNames = [] ↔
      (∀ range ∈ oldRanges, rangeIsCovered range newRanges = true) ∧
        ∀ reservedName ∈ oldNames, reservedName ∈ newNames := by
  simp [checkPreservedReservations]

/-! ### What a snapshot records -/

/-- A message without nested declarations. -/
theorem snapshotMessage_eq_ok {scope name : String} {lock : SchemaLock}
    {field : List FieldDescriptorProto} {fields : List (ℤ × LockedField)}
    {reservedRange : List ReservedRange} {reservedName : List String}
    (hfields : field.mapM snapshotField = .ok fields) :
    snapshotMessage scope lock (.mk (some name) field [] [] reservedRange reservedName) =
      .ok { lock with
        messages := lock.messages.insert (qualify scope name) {
          fields := .ofList fields
          reservedRanges := reservedRange.map snapshotRange
          reservedNames := reservedName } } := by
  rw [snapshotMessage, hfields]
  rfl

end MoonLightBridge.Codegen.Schema
