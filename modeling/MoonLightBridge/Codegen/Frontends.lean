import MoonLightBridge.Codegen.Source

/-!
# Field types in Rust, Java and Kotlin

A contract can be written as a Rust module, a Java interface or a Kotlin interface, and
each of the three frontends has a function of its own from the type of a field to a
Protobuf label and type name: `proto_type`, `mapType` and `protoType`. Here they are
compared on the types that the three languages have in common, each written the way the
language writes it.

They agree on scalars, byte strings and messages, on optional ones, and on lists of
strings, byte strings and messages. A list of another scalar is refused in Java, where its
elements are boxed and a boxed type is read as an optional one. Of the types with more
than one layer, Rust and Kotlin keep the outermost label and drop the others.
-/

namespace MoonLightBridge.Codegen.Frontends

open Source

/-! ### Java -/

/-- The primitive kinds of `TypeKind`. -/
inductive Primitive where
  | boolean
  | byte
  | short
  | int
  | long
  | char
  | float
  | double
  deriving DecidableEq, Repr

/-- A `TypeMirror`, as far as `mapType` looks at it. Names are lists of their parts. -/
inductive JavaType where
  | primitive (kind : Primitive)
  | array (component : JavaType)
  /-- a class without type arguments -/
  | declared (qualified : List String)
  /-- a class with type arguments, and the first of them -/
  | generic (qualified : List String) (argument : JavaType)
  /-- anything else, such as a type variable -/
  | other
  deriving DecidableEq, Repr

inductive JavaTypeError where
  /-- `unsupported JVM type for <location>: <type>` -/
  | unsupported (location : String) (type : JavaType)
  /-- `nested optional/repeated types are unsupported` -/
  | nested
  /-- `getFirst` of no type arguments -/
  | noSuchElement
  deriving DecidableEq, Repr

/-- The last part of a qualified name. -/
def simpleName (qualified : List String) : String := qualified.getLastD ""

/-- A name that starts with `java.lang.`. -/
def isJavaLang (qualified : List String) : Bool :=
  qualified.take 2 = ["java", "lang"] ∧ 2 < qualified.length

/-- The label and the name of a class that is no container. -/
def mapClass (qualified : List String) : Label × String :=
  let label :=
    if isJavaLang qualified ∧ qualified ≠ ["java", "lang", "String"] then Label.optional
    else .implicit
  let scalar :=
    if qualified = ["java", "lang", "String"] then "string"
    else if qualified = ["java", "lang", "Boolean"] then "bool"
    else if qualified = ["java", "lang", "Integer"] then "int32"
    else if qualified = ["java", "lang", "Long"] then "int64"
    else if qualified = ["java", "lang", "Float"] then "float"
    else if qualified = ["java", "lang", "Double"] then "double"
    else simpleName qualified
  (label, scalar)

/-- `withLabel` refuses a type that has a label already. -/
def withLabel (label : Label) : Label × String → Except JavaTypeError (Label × String)
  | (.implicit, name) => .ok (label, name)
  | _ => .error .nested

/-- The label a container stands for. -/
def containerLabel (qualified : List String) : Option Label :=
  if qualified = ["java", "util", "List"] ∨ qualified = ["java", "util", "Collection"] then
    some .repeated
  else if qualified = ["java", "util", "Optional"] then some .optional
  else none

def JavaType.mapType (location : String) : JavaType → Except JavaTypeError (Label × String)
  | .primitive .boolean => .ok (.implicit, "bool")
  | .primitive .int => .ok (.implicit, "int32")
  | .primitive .long => .ok (.implicit, "int64")
  | .primitive .float => .ok (.implicit, "float")
  | .primitive .double => .ok (.implicit, "double")
  | .array (.primitive .byte) => .ok (.implicit, "bytes")
  | .declared qualified =>
    match containerLabel qualified with
    | some _ => .error .noSuchElement
    | none => .ok (mapClass qualified)
  | .generic qualified argument =>
    match containerLabel qualified with
    | some label =>
      match mapType location argument with
      | .ok type => withLabel label type
      | .error error => .error error
    | none => .ok (mapClass qualified)
  | type => .error (.unsupported location type)

/-! ### Kotlin -/

/-- A `KSType`, as far as `protoType` looks at it. A local declaration has no qualified
name. -/
inductive KotlinType where
  /-- without an argument, or with several, or with a star -/
  | plain (qualified : Option (List String)) (isNullable : Bool)
  /-- with one argument that is a type -/
  | applied (qualified : Option (List String)) (argument : KotlinType) (isNullable : Bool)
  deriving DecidableEq, Repr

inductive KotlinTypeError where
  /-- `unsupported Kotlin type for <location>: <type>` -/
  | unsupported (location : String) (type : KotlinType)
  /-- `collection type for <location> needs one argument` -/
  | noArgument (location : String)
  deriving DecidableEq, Repr

def isCollection (qualified : List String) : Bool :=
  qualified = ["kotlin", "collections", "List"] ∨
    qualified = ["kotlin", "collections", "Collection"]

/-- The label and the name of a class that is no collection. -/
def protoClass (qualified : List String) (isNullable : Bool) : Label × String :=
  let scalar :=
    if qualified = ["kotlin", "String"] then "string"
    else if qualified = ["kotlin", "Boolean"] then "bool"
    else if qualified = ["kotlin", "Int"] then "int32"
    else if qualified = ["kotlin", "Long"] then "int64"
    else if qualified = ["kotlin", "Float"] then "float"
    else if qualified = ["kotlin", "Double"] then "double"
    else if qualified = ["kotlin", "ByteArray"] then "bytes"
    else simpleName qualified
  (if isNullable then .optional else .implicit, scalar)

def KotlinType.protoType (location : String) :
    KotlinType → Except KotlinTypeError (Label × String)
  | .plain (some qualified) isNullable =>
    if isCollection qualified then .error (.noArgument location)
    else .ok (protoClass qualified isNullable)
  | .applied (some qualified) argument isNullable =>
    if isCollection qualified then
      -- the label of the argument is not looked at, and neither is a `?` of the collection
      match argument.protoType location with
      | .ok (_, name) => .ok (.repeated, name)
      | .error error => .error error
    else .ok (protoClass qualified isNullable)
  | type => .error (.unsupported location type)

/-- `T?` -/
def KotlinType.nullable : KotlinType → KotlinType
  | .plain qualified _ => .plain qualified true
  | .applied qualified argument _ => .applied qualified argument true

/-! ### Types of a contract -/

/-- The scalars that all three languages have. -/
inductive Scalar where
  | string
  | bool
  | int32
  | int64
  | float
  | double
  deriving DecidableEq, Repr

/-- A message of the contract. Its class is none of the libraries'. -/
structure Message where
  /-- the package and the enclosing classes -/
  scope : List String
  name : String
  notLibrary : scope.head? ∉ [some "java", some "kotlin"]

def Message.qualified (message : Message) : List String := message.scope ++ [message.name]

inductive Leaf where
  | scalar (scalar : Scalar)
  | bytes
  | message (message : Message)

inductive FieldType where
  | leaf (leaf : Leaf)
  | list (element : FieldType)
  | optional (element : FieldType)

namespace Scalar

def rust : Scalar → RustType
  | .string => .path false "String"
  | .bool => .path false "bool"
  | .int32 => .path false "i32"
  | .int64 => .path false "i64"
  | .float => .path false "f32"
  | .double => .path false "f64"

/-- The class of a string, or of a boxed value. -/
def boxed : Scalar → JavaType
  | .string => .declared ["java", "lang", "String"]
  | .bool => .declared ["java", "lang", "Boolean"]
  | .int32 => .declared ["java", "lang", "Integer"]
  | .int64 => .declared ["java", "lang", "Long"]
  | .float => .declared ["java", "lang", "Float"]
  | .double => .declared ["java", "lang", "Double"]

def java : Scalar → JavaType
  | .string => .declared ["java", "lang", "String"]
  | .bool => .primitive .boolean
  | .int32 => .primitive .int
  | .int64 => .primitive .long
  | .float => .primitive .float
  | .double => .primitive .double

def kotlin : Scalar → KotlinType
  | .string => .plain (some ["kotlin", "String"]) false
  | .bool => .plain (some ["kotlin", "Boolean"]) false
  | .int32 => .plain (some ["kotlin", "Int"]) false
  | .int64 => .plain (some ["kotlin", "Long"]) false
  | .float => .plain (some ["kotlin", "Float"]) false
  | .double => .plain (some ["kotlin", "Double"]) false

/-- The name of the scalar in Protobuf. -/
def protobuf : Scalar → String
  | .string => "string"
  | .bool => "bool"
  | .int32 => "int32"
  | .int64 => "int64"
  | .float => "float"
  | .double => "double"

end Scalar

namespace Leaf

def rust : Leaf → RustType
  | .scalar kind => kind.rust
  | .bytes => .generic false "Vec" (.path false "u8")
  | .message type => .path false type.name

/-- As a type argument, which is no primitive type. -/
def boxed : Leaf → JavaType
  | .scalar kind => kind.boxed
  | .bytes => .array (.primitive .byte)
  | .message type => .declared type.qualified

def java : Leaf → JavaType
  | .scalar kind => kind.java
  | leaf => leaf.boxed

def kotlin : Leaf → KotlinType
  | .scalar kind => kind.kotlin
  | .bytes => .plain (some ["kotlin", "ByteArray"]) false
  | .message type => .plain (some type.qualified) false

/-- The name of the type in Protobuf. -/
def protobuf : Leaf → String
  | .scalar kind => kind.protobuf
  | .bytes => "bytes"
  | .message type => type.name

end Leaf

/-- The layers that a label stands for. -/
def labelLayers : Label → List Label
  | .implicit => []
  | .repeated => [.repeated]
  | .optional => [.optional]

/-- The names that `proto_type` translates to others, or refuses. -/
def rustNames : List String :=
  ["String", "str", "i32", "i64", "u32", "u64", "f32", "f64", "Vec", "Option"]

namespace Leaf

/-- A message does not have the name of a Rust type. -/
def IsApart : Leaf → Prop
  | .message type => type.name ∉ rustNames
  | _ => True

/-- The values are objects in Java, and `u8` is no message. -/
def IsElement : Leaf → Prop
  | .scalar kind => kind = .string
  | .bytes => True
  | .message type => type.name ≠ "u8"

end Leaf

namespace FieldType

/-- With `Vec` and `Option`. -/
def rust : FieldType → RustType
  | .leaf inner => inner.rust
  | .list element => .generic false "Vec" element.rust
  | .optional element => .generic false "Option" element.rust

/-- An optional type: a boxed scalar, or `Optional` of the type. -/
def optionalOf (element : FieldType) (boxed : JavaType) : JavaType :=
  match element with
  | .leaf (.scalar .string) => .generic ["java", "util", "Optional"] boxed
  | .leaf (.scalar _) => boxed
  | _ => .generic ["java", "util", "Optional"] boxed

/-- With `List` and `Optional`, as a type argument. -/
def boxed : FieldType → JavaType
  | .leaf inner => inner.boxed
  | .list element => .generic ["java", "util", "List"] element.boxed
  | .optional element => optionalOf element element.boxed

def java : FieldType → JavaType
  | .leaf inner => inner.java
  | type => type.boxed

/-- With `List` and `?`. -/
def kotlin : FieldType → KotlinType
  | .leaf inner => inner.kotlin
  | .list element => .applied (some ["kotlin", "collections", "List"]) element.kotlin false
  | .optional element => element.kotlin.nullable

/-- The layers of a type, from the outermost on. -/
def layers : FieldType → List Label
  | .leaf _ => []
  | .list element => .repeated :: element.layers
  | .optional element => .optional :: element.layers

/-- What the layers are around. -/
def innermost : FieldType → Leaf
  | .leaf inner => inner
  | .list element | .optional element => element.innermost

/-- What a frontend returns, unless it refuses the type. -/
def rustVerdict (type : FieldType) : Option (Label × String) :=
  (protoType type.rust).toOption

def javaVerdict (location : String) (type : FieldType) : Option (Label × String) :=
  (type.java.mapType location).toOption

def kotlinVerdict (location : String) (type : FieldType) : Option (Label × String) :=
  (type.kotlin.protoType location).toOption

/-- The type is refused, or the label that is returned stands for all its layers. -/
def IsWhole (type : FieldType) (verdict : Option (Label × String)) : Prop :=
  ∀ returned ∈ verdict, type.layers = labelLayers returned.1

/-- No frontend accepts the type without one of its layers. -/
def KeepsLayers (location : String) (type : FieldType) : Prop :=
  type.IsWhole type.rustVerdict ∧ type.IsWhole (type.javaVerdict location) ∧
    type.IsWhole (type.kotlinVerdict location)

/-- All refuse the type, or all return the same. -/
def Agrees (location : String) (type : FieldType) : Prop :=
  type.rustVerdict = type.javaVerdict location ∧
    type.javaVerdict location = type.kotlinVerdict location

/-- One label at most, and in a list nothing that Java boxes. -/
def IsPlain : FieldType → Prop
  | .leaf inner | .optional (.leaf inner) => inner.IsApart
  | .list (.leaf inner) => inner.IsApart ∧ inner.IsElement
  | _ => False

end FieldType

/-! ### Leaves -/

section Leaves

variable {location : String}

theorem Message.qualified_ne (message : Message) {first : String} {rest : List String}
    (hfirst : some first ∈ [some "java", some "kotlin"]) (hrest : rest ≠ []) :
    message.qualified ≠ first :: rest := by
  intro heq
  have hscope := message.notLibrary
  unfold Message.qualified at heq
  cases hcase : message.scope with
  | nil =>
    rw [hcase] at heq
    exact hrest (List.cons.inj heq).2.symm
  | cons part parts =>
    rw [hcase] at heq hscope
    rw [List.cons_append] at heq
    obtain rfl := (List.cons.inj heq).1
    exact hscope hfirst

theorem Message.simpleName_qualified (message : Message) :
    simpleName message.qualified = message.name := by
  rw [simpleName, Message.qualified, List.getLastD_concat]

theorem Message.isJavaLang_qualified (message : Message) :
    isJavaLang message.qualified = false := by
  unfold isJavaLang
  rw [decide_eq_false_iff_not]
  rintro ⟨htake, hlength⟩
  have hqualified : message.qualified = "java" :: "lang" :: message.qualified.drop 2 := by
    conv_lhs => rw [← List.take_append_drop 2 message.qualified, htake]
    rfl
  exact message.qualified_ne (by simp) (List.cons_ne_nil _ _) hqualified

theorem Message.containerLabel_qualified (message : Message) :
    containerLabel message.qualified = none := by
  unfold containerLabel
  rw [if_neg, if_neg]
  · exact message.qualified_ne (by simp) (by simp)
  · rintro (heq | heq)
    · exact message.qualified_ne (by simp) (by simp) heq
    · exact message.qualified_ne (by simp) (by simp) heq

theorem Message.mapClass_qualified (message : Message) :
    mapClass message.qualified = (.implicit, message.name) := by
  have hne : ∀ name : String, message.qualified ≠ ["java", "lang", name] := fun name =>
    message.qualified_ne (by simp) (List.cons_ne_nil _ _)
  simp only [mapClass, message.isJavaLang_qualified, hne, message.simpleName_qualified,
    Bool.false_eq_true, false_and, if_false]

theorem Message.isCollection_qualified (message : Message) :
    isCollection message.qualified = false := by
  unfold isCollection
  rw [decide_eq_false_iff_not]
  rintro (heq | heq)
  · exact message.qualified_ne (by simp) (by simp) heq
  · exact message.qualified_ne (by simp) (by simp) heq

theorem Message.protoClass_qualified (message : Message) (isNullable : Bool) :
    protoClass message.qualified isNullable =
      (if isNullable then .optional else .implicit, message.name) := by
  have hne : ∀ name : String, message.qualified ≠ ["kotlin", name] := fun name =>
    message.qualified_ne (by simp) (List.cons_ne_nil _ _)
  simp only [protoClass, hne, message.simpleName_qualified, if_false]

namespace Leaf

theorem protoType_rust {leaf : Leaf} (h : leaf.IsApart) :
    Source.protoType leaf.rust = .ok (.implicit, leaf.protobuf) := by
  cases leaf with
  | scalar kind => cases kind <;> rfl
  | bytes => rfl
  | message type =>
    have hne : ∀ name ∈ rustNames, type.name ≠ name := fun name hname heq => h (heq ▸ hname)
    simp only [rustNames, List.forall_mem_cons] at hne
    by_cases hbool : type.name = "bool"
    · simp [rust, Source.protoType, mappedName, protobuf, hbool]
    · simp [rust, Source.protoType, mappedName, protobuf, hne, hbool]

theorem mapType_java (leaf : Leaf) :
    leaf.java.mapType location = .ok (.implicit, leaf.protobuf) := by
  cases leaf with
  | scalar kind => cases kind <;> rfl
  | bytes => rfl
  | message type =>
    simp [java, boxed, JavaType.mapType, type.containerLabel_qualified,
      type.mapClass_qualified, protobuf]

/-- A boxed scalar has a label. -/
theorem mapType_boxed (location : String) (leaf : Leaf) :
    leaf.boxed.mapType location =
      .ok (match leaf with
        | .scalar .string | .bytes | .message _ => .implicit
        | _ => .optional, leaf.protobuf) := by
  cases leaf with
  | scalar kind => cases kind <;> rfl
  | bytes => rfl
  | message type =>
    simp [boxed, JavaType.mapType, type.containerLabel_qualified, type.mapClass_qualified,
      protobuf]

theorem protoType_kotlin (leaf : Leaf) :
    leaf.kotlin.protoType location = .ok (.implicit, leaf.protobuf) := by
  cases leaf with
  | scalar kind => cases kind <;> rfl
  | bytes => rfl
  | message type =>
    simp [kotlin, KotlinType.protoType, type.isCollection_qualified,
      type.protoClass_qualified, protobuf]

theorem protoType_nullable (leaf : Leaf) :
    leaf.kotlin.nullable.protoType location = .ok (.optional, leaf.protobuf) := by
  cases leaf with
  | scalar kind => cases kind <;> rfl
  | bytes => rfl
  | message type =>
    simp [kotlin, KotlinType.nullable, KotlinType.protoType, type.isCollection_qualified,
      type.protoClass_qualified, protobuf]

end Leaf

end Leaves

/-! ### Types with layers -/

namespace FieldType

section Verdicts

variable {location : String} {leaf : Leaf}

theorem rustVerdict_optional (element : FieldType) :
    (FieldType.optional element).rustVerdict =
      element.rustVerdict.map fun returned => (.optional, returned.2) := by
  simp only [rustVerdict, rust, Source.protoType]
  cases Source.protoType element.rust <;> rfl

theorem rustVerdict_list (element : FieldType) (h : simpleTypeName element.rust ≠ some "u8") :
    (FieldType.list element).rustVerdict =
      element.rustVerdict.map fun returned => (.repeated, returned.2) := by
  simp only [rustVerdict, rust, Source.protoType, h]
  cases Source.protoType element.rust <;> rfl

theorem rustVerdict_leaf (h : leaf.IsApart) :
    (FieldType.leaf leaf).rustVerdict = some (.implicit, leaf.protobuf) := by
  rw [rustVerdict, rust, Leaf.protoType_rust h]
  rfl

/-- A byte string is a `Vec`, too, but `u8` is no element. -/
theorem simpleTypeName_rust_ne (h : leaf.IsElement) : simpleTypeName leaf.rust ≠ some "u8" := by
  cases leaf with
  | scalar kind => cases kind <;> simp [Leaf.rust, Scalar.rust, simpleTypeName]
  | bytes => simp [Leaf.rust, simpleTypeName]
  | message type => exact fun heq => h (Option.some.inj heq)

theorem javaVerdict_leaf : (FieldType.leaf leaf).javaVerdict location =
    some (.implicit, leaf.protobuf) := by
  rw [javaVerdict, java, Leaf.mapType_java]
  rfl

theorem javaVerdict_optional : (FieldType.optional (.leaf leaf)).javaVerdict location =
    some (.optional, leaf.protobuf) := by
  have hboxed := leaf.mapType_boxed location
  cases leaf with
  | scalar kind => cases kind <;> rfl
  | bytes => rfl
  | message type =>
    simp [javaVerdict, java, boxed, optionalOf, JavaType.mapType, containerLabel, hboxed,
      withLabel, Except.toOption]

theorem javaVerdict_list : (FieldType.list (.leaf leaf)).javaVerdict location =
    match leaf with
    | .scalar .string | .bytes | .message _ => some (.repeated, leaf.protobuf)
    | _ => none := by
  have hboxed := leaf.mapType_boxed location
  cases leaf with
  | scalar kind => cases kind <;> rfl
  | bytes => rfl
  | message type =>
    simp [javaVerdict, java, boxed, JavaType.mapType, containerLabel, hboxed, withLabel,
      Except.toOption]

theorem kotlinVerdict_leaf : (FieldType.leaf leaf).kotlinVerdict location =
    some (.implicit, leaf.protobuf) := by
  rw [kotlinVerdict, kotlin, Leaf.protoType_kotlin]
  rfl

theorem kotlinVerdict_optional : (FieldType.optional (.leaf leaf)).kotlinVerdict location =
    some (.optional, leaf.protobuf) := by
  rw [kotlinVerdict, kotlin, kotlin, Leaf.protoType_nullable]
  rfl

theorem kotlinVerdict_list : (FieldType.list (.leaf leaf)).kotlinVerdict location =
    some (.repeated, leaf.protobuf) := by
  simp [kotlinVerdict, kotlin, KotlinType.protoType, isCollection, Leaf.protoType_kotlin,
    Except.toOption]

/-- One label, whatever the layers are. -/
theorem exists_protoType_kotlin (location : String) (type : FieldType) :
    (∃ label, type.kotlin.protoType location = .ok (label, type.innermost.protobuf)) ∧
      ∃ label, type.kotlin.nullable.protoType location = .ok (label, type.innermost.protobuf) := by
  induction type with
  | leaf inner => exact ⟨⟨_, inner.protoType_kotlin⟩, _, inner.protoType_nullable⟩
  | list element ih =>
    obtain ⟨⟨label, helement⟩, -⟩ := ih
    refine ⟨⟨.repeated, ?_⟩, .repeated, ?_⟩
    · simp [kotlin, KotlinType.protoType, isCollection, helement, innermost]
    · simp [kotlin, KotlinType.nullable, KotlinType.protoType, isCollection, helement, innermost]
  | optional element ih =>
    obtain ⟨-, label, helement⟩ := ih
    refine ⟨⟨label, helement⟩, label, ?_⟩
    have htwice : element.kotlin.nullable.nullable = element.kotlin.nullable := by
      cases element.kotlin <;> rfl
    rw [kotlin, htwice]
    exact helement

/-- Kotlin refuses nothing, so what it keeps are types of one layer. -/
theorem length_layers_le (type : FieldType)
    (h : type.IsWhole (type.kotlinVerdict location)) : type.layers.length ≤ 1 := by
  obtain ⟨⟨label, hlabel⟩, -⟩ := type.exists_protoType_kotlin location
  have hverdict : type.kotlinVerdict location = some (label, type.innermost.protobuf) := by
    rw [kotlinVerdict, hlabel]
    rfl
  rw [h (label, type.innermost.protobuf) hverdict]
  cases label <;> simp [labelLayers]

/-- Rust has got another name of a message that has the name of a Rust type. -/
theorem isApart_of_rustVerdict {label : Label}
    (h : (FieldType.leaf leaf).rustVerdict = some (label, leaf.protobuf)) : leaf.IsApart := by
  cases leaf with
  | scalar kind => trivial
  | bytes => trivial
  | message type =>
    obtain ⟨scope, name, hlibrary⟩ := type
    intro hname
    revert h
    simp only [rustNames, List.mem_cons, List.not_mem_nil, or_false] at hname
    rcases hname with rfl | rfl | rfl | rfl | rfl | rfl | rfl | rfl | rfl | rfl <;>
      simp [rustVerdict, rust, Leaf.rust, Source.protoType, mappedName, Leaf.protobuf,
        Except.toOption]

/-- The frontends agree about a plain type, and keep its layer. -/
theorem IsPlain.verdicts (location : String) {type : FieldType} (h : type.IsPlain) :
    ∃ label name, type.layers = labelLayers label ∧ type.rustVerdict = some (label, name) ∧
      type.javaVerdict location = some (label, name) ∧
      type.kotlinVerdict location = some (label, name) := by
  cases type with
  | leaf inner =>
    exact ⟨.implicit, inner.protobuf, rfl, rustVerdict_leaf h, javaVerdict_leaf,
      kotlinVerdict_leaf⟩
  | optional element =>
    cases element with
    | leaf inner =>
      refine ⟨.optional, inner.protobuf, rfl, ?_, javaVerdict_optional, kotlinVerdict_optional⟩
      rw [rustVerdict_optional, rustVerdict_leaf h]
      rfl
    | list _ | optional _ => exact h.elim
  | list element =>
    cases element with
    | leaf inner =>
      obtain ⟨hapart, helement⟩ := h
      refine ⟨.repeated, inner.protobuf, rfl, ?_, ?_, kotlinVerdict_list⟩
      · rw [rustVerdict_list (.leaf inner) (simpleTypeName_rust_ne helement),
          rustVerdict_leaf hapart]
        rfl
      · rw [javaVerdict_list]
        cases inner with
        | scalar kind =>
          obtain rfl : kind = .string := helement
          rfl
        | bytes => rfl
        | message _ => rfl
    | list _ | optional _ => exact h.elim

end Verdicts

end FieldType

/-- The condition cannot be weakened. -/
theorem isPlain_of_alike {location : String} {type : FieldType}
    (hagrees : type.Agrees location) (hkeeps : type.KeepsLayers location) : type.IsPlain := by
  have hlength := type.length_layers_le hkeeps.2.2
  have hrust : type.rustVerdict = type.kotlinVerdict location := hagrees.1.trans hagrees.2
  cases type with
  | leaf inner =>
    exact FieldType.isApart_of_rustVerdict (hrust.trans FieldType.kotlinVerdict_leaf)
  | optional element =>
    cases element with
    | leaf inner =>
      rw [FieldType.kotlinVerdict_optional, FieldType.rustVerdict_optional] at hrust
      obtain ⟨⟨label, name⟩, hinner, hname⟩ := Option.map_eq_some_iff.mp hrust
      obtain rfl := (Prod.mk.inj hname).2
      exact FieldType.isApart_of_rustVerdict hinner
    | list _ | optional _ => simp [FieldType.layers] at hlength
  | list element =>
    cases element with
    | leaf inner =>
      have hjava := hagrees.2
      rw [FieldType.kotlinVerdict_list] at hrust hjava
      have helement : simpleTypeName inner.rust ≠ some "u8" := by
        intro hbytes
        simp [FieldType.rustVerdict, FieldType.rust, Source.protoType, hbytes,
          Except.toOption] at hrust
      rw [FieldType.rustVerdict_list (.leaf inner) helement] at hrust
      obtain ⟨⟨label, name⟩, hinner, hname⟩ := Option.map_eq_some_iff.mp hrust
      obtain rfl := (Prod.mk.inj hname).2
      refine ⟨FieldType.isApart_of_rustVerdict hinner, ?_⟩
      rw [FieldType.javaVerdict_list] at hjava
      cases inner with
      | scalar kind => cases kind <;> first | rfl | cases hjava
      | bytes => trivial
      | message type => exact fun heq => helement (congrArg some heq)
    | list _ | optional _ => simp [FieldType.layers] at hlength

theorem isPlain_of_alike_bytes : (FieldType.leaf .bytes).IsPlain := by
  refine isPlain_of_alike (show FieldType.Agrees "Lobby.key" _ from ⟨rfl, rfl⟩) ⟨?_, ?_, ?_⟩ <;>
    rintro _ ⟨⟩ <;> rfl

end MoonLightBridge.Codegen.Frontends
