import MoonLightBridge.Codegen.Schema

/-!
# The ids of methods and events

Methods and events are told apart on the wire by 32-bit hashes of their names.
`validate_method_ids` rejects a set of descriptors in which two hashes collide, or in which
that of an event is zero. What is generated from the set relies on both: a router asserts that
no id is registered twice, an event hub asserts that an event is not zero, and a call of the
Java client requires that its method is not. For methods the last is not checked.
-/

namespace MoonLightBridge.Codegen.WireIds

open Schema

structure MethodDescriptorProto where
  name : Option String
  serverStreaming : Option Bool
  deriving DecidableEq, Repr

structure ServiceDescriptorProto where
  name : Option String
  method : List MethodDescriptorProto
  deriving DecidableEq, Repr

/-- `FileDescriptorProto`, with the names of its messages. -/
structure FileDescriptorProto where
  package : Option String
  service : List ServiceDescriptorProto
  messageType : List (Option String)
  deriving DecidableEq, Repr

/-- `method_id`, the FNV-1a hash of the name. -/
def methodId (name : String) : UInt32 :=
  name.toUTF8.toList.foldl (fun hash byte => (hash ^^^ byte.toUInt32) * 0x01000193) 0x811C9DC5

def canonicalMethod (file : FileDescriptorProto) (service method : String) : String :=
  let package := file.package.getD ""
  if package = "" then service ++ "/" ++ method else package ++ "." ++ service ++ "/" ++ method

def canonicalEvent (file : FileDescriptorProto) (message : String) : String :=
  "event:" ++ file.package.getD "" ++ "." ++ message

/-- The id as `{:08X}` prints it. -/
def upperHex (id : UInt32) : String :=
  .ofList ((List.range 8).map fun place =>
    (Nat.digitChar (id.toNat / 16 ^ (7 - place) % 16)).toUpper)

/-- The body of the loop over the methods of a service. -/
def insertMethod (file : FileDescriptorProto) (service : String) (ids : List UInt32)
    (method : MethodDescriptorProto) : Except String (List UInt32) := do
  let name ← required method.name "method name"
  let canonical := canonicalMethod file service name
  let id := methodId canonical
  if id ∈ ids then .error ("method ID collision at " ++ canonical ++ ": 0x" ++ upperHex id)
  else .ok (id :: ids)

def insertService (file : FileDescriptorProto) (ids : List UInt32)
    (service : ServiceDescriptorProto) : Except String (List UInt32) := do
  let name ← required service.name "service name"
  service.method.foldlM (insertMethod file name) ids

/-- The body of the loop over the messages of a file. -/
def insertEvent (file : FileDescriptorProto) (ids : List UInt32) (message : Option String) :
    Except String (List UInt32) := do
  let name ← required message "message name"
  if name.endsWith "Event" then
    let canonical := canonicalEvent file name
    let id := methodId canonical
    if id = 0 ∨ id ∈ ids then
      .error ("event ID collision at " ++ canonical ++ ": 0x" ++ upperHex id)
    else .ok (id :: ids)
  else .ok ids

def insertFile (ids : List UInt32) (file : FileDescriptorProto) :
    Except String (List UInt32) := do
  let ids ← file.service.foldlM (insertService file) ids
  file.messageType.foldlM (insertEvent file) ids

def validateMethodIds (descriptor : List FileDescriptorProto) : Except String Unit := do
  let _ ← descriptor.foldlM insertFile []
  return ()

/-! ### What is generated -/

inductive Kind where
  | unary
  | serverStream
  | event
  deriving DecidableEq, Repr

/-- What is given an id, and the id. -/
abbrev WireId := Kind × UInt32

def methodWireId (file : FileDescriptorProto) (service : Option String)
    (method : MethodDescriptorProto) : WireId :=
  (if method.serverStreaming.getD false then .serverStream else .unary,
    methodId (canonicalMethod file (service.getD "") (method.name.getD "")))

def eventWireIds (file : FileDescriptorProto) (message : Option String) : List WireId :=
  if (message.getD "").endsWith "Event" then
    [(.event, methodId (canonicalEvent file (message.getD "")))]
  else []

def fileWireIds (file : FileDescriptorProto) : List WireId :=
  file.service.flatMap (fun service => service.method.map (methodWireId file service.name)) ++
    file.messageType.flatMap (eventWireIds file)

/-- The methods and the events of a set of descriptors. -/
def wireIds (descriptor : List FileDescriptorProto) : List WireId := descriptor.flatMap fileWireIds

/-- The ids a router has handlers for. -/
structure RouterBuilder where
  handlers : List UInt32 := []
  streamHandlers : List UInt32 := []
  deriving DecidableEq, Repr

/-- `route_scoped` and `route_stream_scoped`, as the generated code calls them for a method. -/
def RouterBuilder.register (builder : RouterBuilder) (wireId : WireId) :
    Except String RouterBuilder :=
  if wireId.1 = .event then .ok builder
  else if wireId.2 ∈ builder.handlers ∨ wireId.2 ∈ builder.streamHandlers then
    .error ("duplicate MoonLightBridge method ID registered: 0x" ++ upperHex wireId.2)
  else if wireId.1 = .unary then .ok { builder with handlers := wireId.2 :: builder.handlers }
  else .ok { builder with streamHandlers := wireId.2 :: builder.streamHandlers }

/-- `EventHub::publish`, as far as its assertion. -/
def EventHub.publish (eventId : UInt32) : Except String UInt32 :=
  if eventId = 0 then .error "MoonLightBridge event ID must not be zero" else .ok eventId

/-- The first check of `MoonLightCallContext`. -/
def callContext (methodId : UInt32) : Except String UInt32 :=
  if methodId = 0 then .error "methodId must not be zero" else .ok methodId

/-! ### What is accepted -/

section Accepted

variable {ids ids' : List UInt32} {new : List WireId} {file : FileDescriptorProto}

/-- A loop has inserted the given ids, none of which was there. -/
structure Inserts (ids : List UInt32) (new : List WireId) (ids' : List UInt32) : Prop where
  perm : ids'.Perm (new.map Prod.snd ++ ids)
  nodup : ids.Nodup → ids'.Nodup
  event_ne_zero : ∀ wireId ∈ new, wireId.1 = .event → wireId.2 ≠ 0

theorem Inserts.nil (ids : List UInt32) : Inserts ids [] ids :=
  ⟨.refl _, id, List.forall_mem_nil _⟩

theorem Inserts.append {ids'' : List UInt32} {new' : List WireId} (h : Inserts ids new ids')
    (h' : Inserts ids' new' ids'') : Inserts ids (new ++ new') ids'' := by
  refine ⟨?_, h'.nodup ∘ h.nodup, List.forall_mem_append.mpr ⟨h.event_ne_zero, h'.event_ne_zero⟩⟩
  rw [List.map_append, List.append_assoc]
  exact (h'.perm.trans (h.perm.append_left _)).trans (List.perm_append_comm_assoc _ _ _)

theorem inserts_singleton {wireId : WireId} (hid : wireId.2 ∉ ids)
    (hzero : wireId.1 = .event → wireId.2 ≠ 0) : Inserts ids [wireId] (wireId.2 :: ids) :=
  ⟨.refl _, fun hnodup => List.nodup_cons.mpr ⟨hid, hnodup⟩, List.forall_mem_singleton.mpr hzero⟩

/-- What a loop inserts, if its body does. -/
theorem inserts_of_foldlM {α : Type*} {insert : List UInt32 → α → Except String (List UInt32)}
    {new : α → List WireId}
    (hbody : ∀ {ids x ids'}, insert ids x = .ok ids' → Inserts ids (new x) ids') {xs : List α}
    (h : xs.foldlM insert ids = .ok ids') : Inserts ids (xs.flatMap new) ids' := by
  induction xs generalizing ids with
  | nil =>
    cases h
    exact .nil _
  | cons x xs ih =>
    rw [List.foldlM_cons] at h
    cases hx : insert ids x with
    | error error =>
      rw [hx] at h
      cases h
    | ok next =>
      rw [hx] at h
      exact (hbody hx).append (ih h)

theorem inserts_of_insertMethod {service : String} {method : MethodDescriptorProto}
    (h : insertMethod file service ids method = .ok ids') :
    Inserts ids [methodWireId file (some service) method] ids' := by
  unfold insertMethod at h
  cases hname : method.name with
  | none =>
    rw [hname] at h
    cases h
  | some name =>
    rw [hname] at h
    change (if methodId (canonicalMethod file service name) ∈ ids then _ else _) = _ at h
    split_ifs at h with hmem
    cases h
    have hid : (methodWireId file (some service) method).2 =
        methodId (canonicalMethod file service name) := by
      rw [methodWireId, hname]
      rfl
    rw [← hid] at hmem ⊢
    refine inserts_singleton hmem fun hevent => ?_
    unfold methodWireId at hevent
    split_ifs at hevent

theorem inserts_of_insertService {service : ServiceDescriptorProto}
    (h : insertService file ids service = .ok ids') :
    Inserts ids (service.method.map (methodWireId file service.name)) ids' := by
  unfold insertService at h
  cases hname : service.name with
  | none =>
    rw [hname] at h
    cases h
  | some name =>
    rw [hname] at h
    rw [List.map_eq_flatMap]
    exact inserts_of_foldlM (fun hmethod => inserts_of_insertMethod hmethod) h

theorem inserts_of_insertEvent {message : Option String}
    (h : insertEvent file ids message = .ok ids') :
    Inserts ids (eventWireIds file message) ids' := by
  unfold insertEvent at h
  cases message with
  | none => cases h
  | some name =>
    change (if name.endsWith "Event" = true then
      if methodId (canonicalEvent file name) = 0 ∨ methodId (canonicalEvent file name) ∈ ids then _
      else _ else _) = _ at h
    rw [eventWireIds, Option.getD_some]
    split_ifs at h ⊢ with hevent hbad
    · cases h
      obtain ⟨hzero, hmem⟩ := not_or.mp hbad
      exact inserts_singleton hmem fun _ => hzero
    · cases h
      exact .nil _

theorem inserts_of_insertFile (h : insertFile ids file = .ok ids') :
    Inserts ids (fileWireIds file) ids' := by
  unfold insertFile at h
  cases hservices : file.service.foldlM (insertService file) ids with
  | error error =>
    rw [hservices] at h
    cases h
  | ok next =>
    rw [hservices] at h
    exact (inserts_of_foldlM (fun h => inserts_of_insertService h) hservices).append
      (inserts_of_foldlM (fun h => inserts_of_insertEvent h) h)

end Accepted

theorem exists_registered {routes : List WireId} {builder : RouterBuilder}
    (hnodup : (routes.map Prod.snd).Nodup)
    (hfresh : ∀ route ∈ routes, route.2 ∉ builder.handlers ∧ route.2 ∉ builder.streamHandlers) :
    ∃ builder', routes.foldlM RouterBuilder.register builder = .ok builder' := by
  induction routes generalizing builder with
  | nil => exact ⟨builder, rfl⟩
  | cons route routes ih =>
    rw [List.map_cons, List.nodup_cons] at hnodup
    obtain ⟨hroute, hroutes⟩ := List.forall_mem_cons.mp hfresh
    have hother : ∀ other ∈ routes, other.2 ≠ route.2 := fun other hmem heq =>
      hnodup.1 (heq ▸ List.mem_map_of_mem hmem)
    rw [List.foldlM_cons, RouterBuilder.register]
    split_ifs with hevent hdup hunary
    · exact ih hnodup.2 hroutes
    · exact absurd hdup (not_or.mpr hroute)
    · refine ih hnodup.2 fun other hmem => ⟨?_, (hroutes other hmem).2⟩
      exact List.not_mem_cons_of_ne_of_not_mem (hother other hmem) (hroutes other hmem).1
    · refine ih hnodup.2 fun other hmem => ⟨(hroutes other hmem).1, ?_⟩
      exact List.not_mem_cons_of_ne_of_not_mem (hother other hmem) (hroutes other hmem).2

/-- If a set of descriptors is accepted and no method in it has the id zero, the ids of its
methods and events are distinct and not zero, and so are accepted by all that use them. -/
theorem wireIds_usable (descriptor : List FileDescriptorProto)
    (haccepted : validateMethodIds descriptor = .ok ())
    (hmethods : ∀ wireId ∈ wireIds descriptor, wireId.1 ≠ .event → wireId.2 ≠ 0) :
    ((wireIds descriptor).map Prod.snd).Nodup ∧ (∀ wireId ∈ wireIds descriptor, wireId.2 ≠ 0) ∧
      (∀ routes : List WireId, routes.Subperm (wireIds descriptor) →
        ∃ builder, routes.foldlM RouterBuilder.register {} = .ok builder) ∧
      ∀ wireId ∈ wireIds descriptor, EventHub.publish wireId.2 = .ok wireId.2 ∧
        callContext wireId.2 = .ok wireId.2 := by
  have hinserts : ∃ ids, Inserts [] (wireIds descriptor) ids := by
    unfold validateMethodIds at haccepted
    cases hids : descriptor.foldlM insertFile [] with
    | error error =>
      rw [hids] at haccepted
      cases haccepted
    | ok ids => exact ⟨ids, inserts_of_foldlM (fun h => inserts_of_insertFile h) hids⟩
  obtain ⟨ids, hinserts⟩ := hinserts
  have hnodup : ((wireIds descriptor).map Prod.snd).Nodup := by
    have hperm := hinserts.perm
    rw [List.append_nil] at hperm
    exact hperm.nodup_iff.mp (hinserts.nodup List.nodup_nil)
  have hzero : ∀ wireId ∈ wireIds descriptor, wireId.2 ≠ 0 := by
    intro wireId hmem
    by_cases hevent : wireId.1 = .event
    · exact hinserts.event_ne_zero wireId hmem hevent
    · exact hmethods wireId hmem hevent
  refine ⟨hnodup, hzero, ?_, fun wireId hmem => ?_⟩
  · rintro routes ⟨chosen, hperm, hsub⟩
    refine exists_registered ((hperm.map _).nodup_iff.mp ((hsub.map _).nodup hnodup)) ?_
    exact fun _ _ => ⟨List.not_mem_nil, List.not_mem_nil⟩
  · exact ⟨if_neg (hzero wireId hmem), if_neg (hzero wireId hmem)⟩

/-- A service with one method of the given name, and an event. -/
def echoDescriptor (method : String) : List FileDescriptorProto :=
  [⟨some "example.v1", [⟨some "Echo", [⟨some method, none⟩]⟩], [some "JoinedEvent", some "Reply"]⟩]

theorem wireIds_usable_echo :
    ∃ builder, (wireIds (echoDescriptor "Send")).foldlM RouterBuilder.register {} = .ok builder :=
  (wireIds_usable (echoDescriptor "Send") (by decide +kernel) (by decide +kernel)).2.2.1 _
    (.refl _)

/-- A method is accepted and can be registered, but not be called. -/
theorem zero_methodId_accepted :
    validateMethodIds (echoDescriptor "Getnexqbmg") = .ok () ∧
      ∃ wireId ∈ wireIds (echoDescriptor "Getnexqbmg"),
        callContext wireId.2 = .error "methodId must not be zero" := by
  decide +kernel

end MoonLightBridge.Codegen.WireIds
