import MoonLightBridge.Client.Inbound

/-!
# Requests in the Java client

How the client puts a REQUEST on the wire, written from its source: the builder of
user metadata, the request prefix in which generated and user entries are merged
(`MoonLightMetadata.requestPrefixLength` and `writeRequestPrefix`), and
`MoonLightClient.enqueueRequestFrame`.
-/

namespace MoonLightBridge.Client

open Protocol

/-! ### User metadata -/

/-- `MoonLightMetadata`: the entries of its tree map. User names were checked by
the builder or by the decoder. -/
structure MoonLightMetadata where
  entries : SortedMap WireKey Bytes
  validUserKeys : ∀ name, .user name ∈ entries.keys → validateUserKey name = .ok ()

/-- `MoonLightMetadata.Builder`: a linked hash map, in insertion order. -/
structure Builder where
  entries : List (WireKey × Bytes)
  nodup : (entries.map Prod.fst).Nodup
  validUserKeys : ∀ name, .user name ∈ entries.map Prod.fst → validateUserKey name = .ok ()

variable {metadata : MoonLightMetadata}

namespace Builder

/-- `MoonLightMetadata.builder()` -/
def new : Builder where
  entries := []
  nodup := List.nodup_nil
  validUserKeys _ h := absurd h List.not_mem_nil

/-- The private `put`; a duplicate is an `IllegalArgumentException`. -/
def putIfAbsent (builder : Builder) (key : WireKey) (value : Bytes)
    (hkey : ∀ name, key = .user name → validateUserKey name = .ok ()) : Except String Builder :=
  if hmem : key ∈ builder.entries.map Prod.fst then .error "duplicate singleton metadata key"
  else .ok {
    entries := builder.entries ++ [(key, value)]
    nodup := by
      rw [List.map_append, List.map_singleton]
      exact builder.nodup.append (List.nodup_singleton _)
        (List.disjoint_singleton.mpr hmem)
    validUserKeys := by
      intro name h
      rw [List.map_append, List.mem_append] at h
      rcases h with hold | hnew
      · exact builder.validUserKeys name hold
      · exact hkey name (List.mem_singleton.mp hnew).symm }

/-- The calls that fill a builder: the public `put`, and `putReserved`, which is
visible to the client's own package only. -/
inductive Call
  | put (name : JString) (value : Bytes)
  | putReserved (key : ReservedKey) (value : Bytes)
  deriving DecidableEq, Repr

/-- The entry a call adds. -/
def Call.entry : Call → WireKey × Bytes
  | .put name value => (.user name, value)
  | .putReserved key value => (.reserved key, value)

/-- One call; an error is the message of its `IllegalArgumentException`. -/
def call (builder : Builder) : Call → Except String Builder
  | .put name value =>
    match h : validateUserKey name with
    | .error message => .error message
    | .ok () => builder.putIfAbsent (.user name) value (by
        intro name' hname
        cases hname
        exact h)
  | .putReserved key value =>
    builder.putIfAbsent (.reserved key) value (by
      intro name hname
      cases hname)

variable {builder builder' : Builder}

theorem entries_of_putIfAbsent {key : WireKey} {value : Bytes}
    {hkey : ∀ name, key = .user name → validateUserKey name = .ok ()}
    (h : builder.putIfAbsent key value hkey = .ok builder') :
    builder'.entries = builder.entries ++ [(key, value)] := by
  unfold putIfAbsent at h
  split_ifs at h
  exact Except.ok.inj h ▸ rfl

theorem entries_of_call {c : Call} (h : builder.call c = .ok builder') :
    builder'.entries = builder.entries ++ [c.entry] := by
  cases c with
  | put name value =>
    unfold call at h
    dsimp only at h
    split at h
    · cases h
    · exact entries_of_putIfAbsent h
  | putReserved key value =>
    unfold call at h
    exact entries_of_putIfAbsent h

/-- The tree map the entries are copied into. -/
def toMap (entries : List (WireKey × Bytes)) (m : SortedMap WireKey Bytes) :
    SortedMap WireKey Bytes :=
  entries.foldl (fun m entry => m.insert entry.1 entry.2) m

theorem toList_toMap_perm {entries : List (WireKey × Bytes)} {m : SortedMap WireKey Bytes}
    (h : (entries.map Prod.fst).Nodup) (hdisjoint : ∀ key ∈ entries.map Prod.fst, key ∉ m.keys) :
    (toMap entries m).toList.Perm (m.toList ++ entries) := by
  induction entries generalizing m with
  | nil => rw [List.append_nil]; exact List.Perm.refl _
  | cons entry entries ih =>
    obtain ⟨key, value⟩ := entry
    rw [List.map_cons, List.nodup_cons] at h
    rw [List.map_cons, List.forall_mem_cons] at hdisjoint
    have hinsert : (m.insert key value).toList.Perm ((key, value) :: m.toList) :=
      SortedMap.insertEntry_perm hdisjoint.1
    -- the keys that are still to come are new to the map with this one, too
    have hrest : ∀ key' ∈ entries.map Prod.fst, key' ∉ (m.insert key value).keys := by
      intro key' hmem hkeys
      rcases SortedMap.mem_keys_insert.mp hkeys with rfl | hold
      · exact h.1 hmem
      · exact hdisjoint.2 key' hmem hold
    refine (ih h.2 hrest).trans ?_
    exact (hinsert.append_right entries).trans List.perm_middle.symm

theorem toList_toMap_empty_perm (builder : Builder) :
    (toMap builder.entries .empty).toList.Perm builder.entries :=
  toList_toMap_perm builder.nodup fun _ _ => List.not_mem_nil

/-- `build()` -/
def build (builder : Builder) : MoonLightMetadata where
  entries := toMap builder.entries .empty
  validUserKeys name h := by
    apply builder.validUserKeys name
    exact (builder.toList_toMap_empty_perm.map Prod.fst).mem_iff.mp h

/-- A builder, the calls that fill it, and `build()`. -/
def run (calls : List Call) : Except String MoonLightMetadata :=
  match calls.foldlM call new with
  | .error message => .error message
  | .ok builder => .ok builder.build

theorem entries_of_foldlM {calls : List Call} (h : calls.foldlM call builder = .ok builder') :
    builder'.entries = builder.entries ++ calls.map Call.entry := by
  induction calls generalizing builder with
  | nil =>
    cases h
    simp
  | cons c calls ih =>
    rw [List.foldlM_cons] at h
    cases hcall : builder.call c with
    | error message =>
      rw [hcall] at h
      cases h
    | ok next =>
      rw [hcall] at h
      rw [ih h, entries_of_call hcall, List.map_cons, List.append_assoc, List.singleton_append]

/-- The metadata holds exactly what the calls put into the builder. -/
theorem toList_run_perm {calls : List Call} (h : run calls = .ok metadata) :
    metadata.entries.toList.Perm (calls.map Call.entry) := by
  unfold run at h
  split at h
  · cases h
  · rename_i builder hbuilder
    cases h
    have hentries := entries_of_foldlM hbuilder
    rw [show new.entries = [] from rfl, List.nil_append] at hentries
    rw [← hentries]
    exact builder.toList_toMap_empty_perm

end Builder

/-! ### The request prefix -/

/-- `MoonLightTraceContext`; its constructor checks the two lengths. -/
structure MoonLightTraceContext where
  traceId : Bytes
  parentSpanId : Bytes
  sampled : Bool
  length_traceId : traceId.length = 16
  length_parentSpanId : parentSpanId.length = 8

/-- `MoonLightTraceContext.WIRE_LENGTH` -/
def MoonLightTraceContext.wireLength : ℕ := 25

def MoonLightTraceContext.writeTo (context : MoonLightTraceContext) : Bytes :=
  context.traceId ++ context.parentSpanId ++ [if context.sampled then 1 else 0]

/-- What a request says about itself in generated entries. -/
structure RequestContext where
  timeoutMillis : Int32
  traceContext : Option MoonLightTraceContext
  compressionCodec : Codec
  originalLength : ℕ

/-- `REQUEST_KEYS` -/
def requestKeys : List ReservedKey :=
  [.deadlineMillis, .traceContext, .compressionCodec, .originalLength]

variable {key : ReservedKey}

namespace RequestContext

/-- `requestValueLength`; zero where the entry is not written. -/
def valueLength (context : RequestContext) : ReservedKey → ℕ
  | .deadlineMillis => 4
  | .originalLength => if context.compressionCodec = .zstd then 4 else 0
  | .traceContext =>
    match context.traceContext with
    | none => 0
    | some _ => MoonLightTraceContext.wireLength
  | .compressionCodec => if context.compressionCodec = .zstd then 1 else 0
  | _ => 0

/-- `writeRequestValue`. It throws for keys other than the four, and is called
with those of them that have a length. -/
def writeValue (context : RequestContext) : ReservedKey → Bytes
  | .deadlineMillis => context.timeoutMillis.toUInt32.toBeBytes
  | .traceContext =>
    match context.traceContext with
    | none => []
    | some trace => trace.writeTo
  | .compressionCodec => [context.compressionCodec.wireValue]
  | .originalLength => (UInt32.ofNat context.originalLength).toBeBytes
  | _ => []

theorem length_writeValue {context : RequestContext} (h : context.valueLength key ≠ 0) :
    (context.writeValue key).length = context.valueLength key := by
  cases key with
  | deadlineMillis => exact UInt32.length_toBeBytes _
  | traceContext =>
    unfold valueLength writeValue at *
    cases htrace : context.traceContext with
    | none => simp [htrace] at h
    | some trace =>
      simp [MoonLightTraceContext.writeTo, MoonLightTraceContext.wireLength, trace.length_traceId,
        trace.length_parentSpanId]
  | compressionCodec =>
    unfold valueLength writeValue at *
    split_ifs at h ⊢ with hzstd
    · rfl
    · exact absurd rfl h
  | originalLength =>
    unfold valueLength writeValue at *
    split_ifs at h ⊢ with hzstd
    · exact UInt32.length_toBeBytes _
    · exact absurd rfl h
  | _ => exact absurd rfl h

end RequestContext

/-- `Math.addExact`; `none` is an `ArithmeticException`. -/
def addExact (a b : ℕ) : Option ℕ := if a + b < 2 ^ 31 then some (a + b) else none

/-- `key.name` -/
def WireKey.name : WireKey → JString
  | .reserved _ => []
  | .user name => name

/-- `name.getBytes(US_ASCII)`, on the code units of ASCII; no other passes the
check of user names. -/
def asciiBytes (name : JString) : Bytes := name.map UInt16.toUInt8

/-- The identifier a key is written with. -/
def WireKey.taggedId : WireKey → UInt16
  | .reserved key => criticalBit ||| UInt16.ofNat key.wireId
  | .user _ => userKeyId

/-- `entryId`, by which the loop decides what comes first. -/
def WireKey.entryId : WireKey → ℕ
  | .reserved key => key.wireId
  | .user _ => userKeyId.toNat

/-- `writeEntryHeader` -/
def writeEntryHeader (taggedId : UInt16) (nameLength valueLength : ℕ) : Bytes :=
  taggedId.toBeBytes ++ [UInt8.ofNat nameLength] ++ (UInt32.ofNat valueLength).toBeBytes

/-- `writeEntry` -/
def writeEntry (entry : WireKey × Bytes) : Bytes :=
  let name := asciiBytes entry.1.name
  writeEntryHeader entry.1.taggedId name.length entry.2.length ++ name ++ entry.2

/-- The header and the value of a generated entry. -/
def writeGenerated (context : RequestContext) (key : ReservedKey) : Bytes :=
  writeEntryHeader (WireKey.reserved key).taggedId 0 (context.valueLength key) ++
    context.writeValue key

/-- The loop of `writeRequestPrefix`: the user entries that are left, and the
generated keys that are. -/
def writeMerged (context : RequestContext) :
    List (WireKey × Bytes) → List ReservedKey → Bytes
  | [], [] => []
  | entry :: entries, [] => writeEntry entry ++ writeMerged context entries []
  | [], key :: keys =>
    if context.valueLength key = 0 then writeMerged context [] keys
    else writeGenerated context key ++ writeMerged context [] keys
  | entry :: entries, key :: keys =>
    if context.valueLength key = 0 then writeMerged context (entry :: entries) keys
    else if key.wireId ≥ entry.1.entryId then
      writeEntry entry ++ writeMerged context entries (key :: keys)
    else writeGenerated context key ++ writeMerged context (entry :: entries) keys
termination_by entries keys => entries.length + keys.length

namespace MoonLightMetadata

/-- The generated keys of `requestPrefixLength`: a key that the user metadata
has as well is an `IllegalArgumentException`. -/
def generatedLength (metadata : MoonLightMetadata) (context : RequestContext) :
    List ReservedKey → ℕ → Except String ℕ
  | [], length => .ok length
  | key :: keys, length =>
    if context.valueLength key = 0 then generatedLength metadata context keys length
    else if .reserved key ∈ metadata.entries.keys then .error "duplicate singleton metadata key"
    else
      match addExact length (entryHeaderLen + context.valueLength key) with
      | none => .error "integer overflow"
      | some length => generatedLength metadata context keys length

/-- The user entries of `requestPrefixLength`. -/
def entriesLength : List (WireKey × Bytes) → ℕ → Option ℕ
  | [], length => some length
  | (key, value) :: entries, length =>
    ((addExact length entryHeaderLen).bind fun length =>
      (addExact length key.name.length).bind fun length =>
        addExact length value.length).bind (entriesLength entries)

/-- `requestPrefixLength` -/
def requestPrefixLength (metadata : MoonLightMetadata) (context : RequestContext) :
    Except String ℕ :=
  if metadata.entries.toList.isEmpty then
    .ok (4 + entryHeaderLen + 4 +
      (if context.traceContext.isSome then entryHeaderLen + MoonLightTraceContext.wireLength
        else 0) +
      (if context.compressionCodec = .zstd then entryHeaderLen + 1 + (entryHeaderLen + 4) else 0))
  else
    match metadata.generatedLength context requestKeys 0 with
    | .error message => .error message
    | .ok generated =>
      match (entriesLength metadata.entries.toList generated).bind (addExact 4) with
      | none => .error "integer overflow"
      | some length => .ok length

/-- `writeRequestPrefix` -/
def writeRequestPrefix (metadata : MoonLightMetadata) (prefixLength : ℕ)
    (context : RequestContext) : Bytes :=
  (UInt32.ofNat (prefixLength - 4)).toBeBytes ++
    if metadata.entries.toList.isEmpty then
      -- without user entries nothing has to be merged
      writeGenerated context .deadlineMillis ++
        (if context.traceContext.isSome then writeGenerated context .traceContext else []) ++
        (if context.compressionCodec = .zstd then
          writeGenerated context .compressionCodec ++ writeGenerated context .originalLength
          else [])
    else writeMerged context metadata.entries.toList requestKeys

end MoonLightMetadata

/-! ### The prefix as a merge -/

/-- The generated entries of a request. -/
def RequestContext.generated (context : RequestContext) (keys : List ReservedKey) :
    List (WireKey × Bytes) :=
  (keys.filter fun key => context.valueLength key ≠ 0).map fun key =>
    (.reserved key, context.writeValue key)

/-- Generated and user entries in the order of their keys. -/
def mergeEntries (entries generated : List (WireKey × Bytes)) : List (WireKey × Bytes) :=
  entries.merge generated fun entry entry' => decide (entry.1 ≤ entry'.1)

theorem writeGenerated_eq {context : RequestContext} (h : context.valueLength key ≠ 0) :
    writeGenerated context key = writeEntry (.reserved key, context.writeValue key) := by
  rw [writeGenerated, writeEntry, RequestContext.length_writeValue h]
  exact congrArg (· ++ _) (List.append_nil _).symm

/-- The loop compares identifiers, and so compares keys. -/
theorem entryId_le_iff (key : WireKey) (generated : ReservedKey) :
    key.entryId ≤ generated.wireId ↔ key ≤ .reserved generated := by
  have hle : key ≤ .reserved generated ↔ key.rank ≤ (WireKey.reserved generated).rank := Iff.rfl
  rw [hle]
  cases key with
  | reserved key =>
    simp only [WireKey.entryId, WireKey.rank, Prod.Lex.toLex_le_toLex, le_refl, and_true]
    exact le_iff_lt_or_eq
  | user name =>
    have := WireKey.reserved_wireId_lt generated
    simp only [WireKey.entryId, WireKey.rank, Prod.Lex.toLex_le_toLex]
    omega

theorem generated_cons_of_eq {context : RequestContext} (h : context.valueLength key = 0)
    (keys : List ReservedKey) : context.generated (key :: keys) = context.generated keys := by
  rw [RequestContext.generated, List.filter_cons_of_neg (by simp [h])]
  rfl

theorem generated_cons_of_ne {context : RequestContext} (h : context.valueLength key ≠ 0)
    (keys : List ReservedKey) :
    context.generated (key :: keys) =
      (.reserved key, context.writeValue key) :: context.generated keys := by
  rw [RequestContext.generated, List.filter_cons_of_pos (by simp [h])]
  rfl

/-- The loop writes the merge of the user entries and the generated ones. -/
theorem writeMerged_eq (context : RequestContext) (entries : List (WireKey × Bytes))
    (keys : List ReservedKey) :
    writeMerged context entries keys =
      (mergeEntries entries (context.generated keys)).flatMap writeEntry := by
  -- along the recursion of the loop: in every iteration one of the lists gets shorter
  induction entries, keys using writeMerged.induct context with
  | case1 => simp [writeMerged, mergeEntries, RequestContext.generated]
  | case2 entry entries ih =>
    rw [writeMerged, ih]
    simp [mergeEntries, RequestContext.generated]
  | case3 key keys hzero ih =>
    rw [writeMerged, if_pos hzero, ih, generated_cons_of_eq hzero]
  | case4 key keys hne ih =>
    rw [writeMerged, if_neg hne, ih, writeGenerated_eq hne, generated_cons_of_ne hne]
    simp [mergeEntries]
  | case5 entry entries key keys hzero ih =>
    rw [writeMerged, if_pos hzero, ih, generated_cons_of_eq hzero]
  | case6 entry entries key keys hne hge ih =>
    have hle : entry.1 ≤ .reserved key := (entryId_le_iff entry.1 key).mp hge
    rw [writeMerged, if_neg hne, if_pos hge, ih, generated_cons_of_ne hne, mergeEntries,
      mergeEntries, List.cons_merge_cons, if_pos (decide_eq_true hle), List.flatMap_cons]
  | case7 entry entries key keys hne hlt ih =>
    have hle : ¬ entry.1 ≤ .reserved key := mt (entryId_le_iff entry.1 key).mpr hlt
    rw [writeMerged, if_neg hne, if_neg hlt, ih, writeGenerated_eq hne, generated_cons_of_ne hne,
      mergeEntries, mergeEntries, List.cons_merge_cons, if_neg (by simpa using hle),
      List.flatMap_cons]

section ValueLength

variable (context : RequestContext)

theorem valueLength_deadlineMillis_ne : context.valueLength .deadlineMillis ≠ 0 :=
  Nat.succ_ne_zero 3

theorem valueLength_traceContext_ne_iff :
    context.valueLength .traceContext ≠ 0 ↔ context.traceContext.isSome := by
  unfold RequestContext.valueLength
  cases context.traceContext <;> simp [MoonLightTraceContext.wireLength]

theorem valueLength_compressionCodec_ne_iff :
    context.valueLength .compressionCodec ≠ 0 ↔ context.compressionCodec = .zstd := by
  simp [RequestContext.valueLength]

theorem valueLength_originalLength_ne_iff :
    context.valueLength .originalLength ≠ 0 ↔ context.compressionCodec = .zstd := by
  simp [RequestContext.valueLength]

/-- The two compression entries come together or not at all. -/
theorem generated_compression :
    context.generated [.compressionCodec, .originalLength] =
      if context.compressionCodec = .zstd then
        [(.reserved .compressionCodec, context.writeValue .compressionCodec),
          (.reserved .originalLength, context.writeValue .originalLength)] else [] := by
  have hcodec := valueLength_compressionCodec_ne_iff context
  have horiginal := valueLength_originalLength_ne_iff context
  split_ifs with hzstd
  · rw [generated_cons_of_ne (hcodec.mpr hzstd), generated_cons_of_ne (horiginal.mpr hzstd)]
    rfl
  · rw [generated_cons_of_eq (not_not.mp (mt hcodec.mp hzstd)),
      generated_cons_of_eq (not_not.mp (mt horiginal.mp hzstd))]
    rfl

/-- The deadline always, the trace context and the codec if there are any. -/
theorem generated_requestKeys :
    context.generated requestKeys =
      [(.reserved .deadlineMillis, context.writeValue .deadlineMillis)] ++
        (if context.traceContext.isSome then
          [(.reserved .traceContext, context.writeValue .traceContext)] else []) ++
        (if context.compressionCodec = .zstd then
          [(.reserved .compressionCodec, context.writeValue .compressionCodec),
            (.reserved .originalLength, context.writeValue .originalLength)] else []) := by
  have htrace := valueLength_traceContext_ne_iff context
  rw [requestKeys, generated_cons_of_ne (valueLength_deadlineMillis_ne context),
    ← generated_compression]
  by_cases hsome : context.traceContext.isSome = true
  · rw [generated_cons_of_ne (htrace.mpr hsome), if_pos hsome]
    rfl
  · rw [generated_cons_of_eq (not_not.mp (mt htrace.mp hsome)), if_neg hsome]
    rfl

end ValueLength

/-- With or without user entries, the prefix is the length and the merge. -/
theorem writeRequestPrefix_eq (metadata : MoonLightMetadata) (prefixLength : ℕ)
    (context : RequestContext) :
    metadata.writeRequestPrefix prefixLength context =
      (UInt32.ofNat (prefixLength - 4)).toBeBytes ++
        (mergeEntries metadata.entries.toList (context.generated requestKeys)).flatMap
          writeEntry := by
  unfold MoonLightMetadata.writeRequestPrefix
  split
  · rename_i hempty
    rw [List.isEmpty_iff.mp hempty, mergeEntries, List.nil_merge, generated_requestKeys,
      writeGenerated_eq (valueLength_deadlineMillis_ne context)]
    congr 1
    by_cases hsome : context.traceContext.isSome = true <;>
      by_cases hzstd : context.compressionCodec = .zstd <;>
        simp [hsome, hzstd, writeGenerated_eq, valueLength_traceContext_ne_iff,
          valueLength_compressionCodec_ne_iff, valueLength_originalLength_ne_iff]
  · rw [writeMerged_eq]

/-! ### The length of the prefix -/

/-- The bytes an entry takes. -/
def entryLength (entry : WireKey × Bytes) : ℕ :=
  entryHeaderLen + entry.1.name.length + entry.2.length

theorem entryLength_generated {context : RequestContext} (h : context.valueLength key ≠ 0) :
    entryLength (.reserved key, context.writeValue key) =
      entryHeaderLen + context.valueLength key := by
  rw [entryLength, RequestContext.length_writeValue h]
  rfl

theorem addExact_eq_some {a b c : ℕ} (h : addExact a b = some c) : c = a + b := by
  unfold addExact at h
  split_ifs at h
  exact (Option.some_inj.mp h).symm

theorem entriesLength_eq_some {entries : List (WireKey × Bytes)} {length total : ℕ}
    (h : MoonLightMetadata.entriesLength entries length = some total) :
    total = length + (entries.map entryLength).sum := by
  induction entries generalizing length with
  | nil => exact (Option.some_inj.mp h).symm
  | cons entry entries ih =>
    obtain ⟨key, value⟩ := entry
    simp only [MoonLightMetadata.entriesLength, Option.bind_eq_some_iff] at h
    obtain ⟨next, ⟨header, hheader, name, hname, hvalue⟩, hrest⟩ := h
    rw [ih hrest, addExact_eq_some hvalue, addExact_eq_some hname, addExact_eq_some hheader,
      List.map_cons, List.sum_cons]
    simp only [entryLength]
    omega

theorem generatedLength_eq_ok {context : RequestContext} {keys : List ReservedKey}
    {length total : ℕ} (h : metadata.generatedLength context keys length = .ok total) :
    total = length + ((context.generated keys).map entryLength).sum ∧
      ∀ entry ∈ context.generated keys, entry.1 ∉ metadata.entries.keys := by
  induction keys generalizing length with
  | nil => exact ⟨(Except.ok.inj h).symm, by simp [RequestContext.generated]⟩
  | cons key keys ih =>
    unfold MoonLightMetadata.generatedLength at h
    by_cases hzero : context.valueLength key = 0
    · rw [if_pos hzero] at h
      rw [generated_cons_of_eq hzero]
      exact ih h
    · rw [if_neg hzero] at h
      split_ifs at h with hmem
      split at h
      · cases h
      · rename_i next hnext
        obtain ⟨htotal, hdisjoint⟩ := ih h
        rw [generated_cons_of_ne hzero, List.map_cons, List.sum_cons]
        refine ⟨?_, List.forall_mem_cons.mpr ⟨hmem, hdisjoint⟩⟩
        rw [htotal, addExact_eq_some hnext, entryLength_generated hzero, Nat.add_assoc]

theorem sum_entryLength_traceContext (context : RequestContext) :
    ((if context.traceContext.isSome then
      [(WireKey.reserved .traceContext, context.writeValue .traceContext)] else []).map
        entryLength).sum =
      if context.traceContext.isSome then entryHeaderLen + MoonLightTraceContext.wireLength
      else 0 := by
  split_ifs with hsome
  · rw [List.map_singleton, List.sum_singleton,
      entryLength_generated ((valueLength_traceContext_ne_iff context).mpr hsome)]
    obtain ⟨trace, htrace⟩ := Option.isSome_iff_exists.mp hsome
    simp only [RequestContext.valueLength, htrace]
  · rfl

theorem sum_entryLength_compression (context : RequestContext) :
    ((if context.compressionCodec = .zstd then
      [(WireKey.reserved .compressionCodec, context.writeValue .compressionCodec),
        (WireKey.reserved .originalLength, context.writeValue .originalLength)] else []).map
          entryLength).sum =
      if context.compressionCodec = .zstd then entryHeaderLen + 1 + (entryHeaderLen + 4)
      else 0 := by
  split_ifs with hzstd
  · rw [List.map_cons, List.sum_cons, List.map_singleton, List.sum_singleton,
      entryLength_generated ((valueLength_compressionCodec_ne_iff context).mpr hzstd),
      entryLength_generated ((valueLength_originalLength_ne_iff context).mpr hzstd)]
    simp only [RequestContext.valueLength, hzstd, if_true]
  · rfl

/-- A prefix length that was computed is that of the entries, and then no generated
key is one of the user's. -/
theorem requestPrefixLength_eq_ok {context : RequestContext} {prefixLength : ℕ}
    (h : metadata.requestPrefixLength context = .ok prefixLength) :
    prefixLength = 4 + ((metadata.entries.toList.map entryLength).sum +
        ((context.generated requestKeys).map entryLength).sum) ∧
      ∀ entry ∈ context.generated requestKeys, entry.1 ∉ metadata.entries.keys := by
  unfold MoonLightMetadata.requestPrefixLength at h
  split at h
  · rename_i hempty
    have hnil := List.isEmpty_iff.mp hempty
    refine ⟨?_, fun entry _ => by simp [SortedMap.keys, hnil]⟩
    have hdeadline := entryLength_generated (valueLength_deadlineMillis_ne context)
    rw [← Except.ok.inj h, hnil, generated_requestKeys, List.map_append, List.map_append,
      List.sum_append, List.sum_append, List.map_singleton, List.sum_singleton, hdeadline,
      List.map_nil, List.sum_nil, sum_entryLength_traceContext, sum_entryLength_compression]
    simp only [RequestContext.valueLength]
    omega
  · split at h
    · cases h
    · rename_i generated hgenerated
      split at h
      · cases h
      · rename_i length hlength
        cases h
        obtain ⟨total, htotal, hsum⟩ := Option.bind_eq_some_iff.mp hlength
        obtain ⟨hlen, hdisjoint⟩ := generatedLength_eq_ok hgenerated
        refine ⟨?_, hdisjoint⟩
        rw [addExact_eq_some hsum, entriesLength_eq_some htotal, hlen]
        omega

/-! ### Enqueueing -/

/-- `RpcPolicy.Compression` -/
inductive RpcCompression
  | default
  | disabled
  | prefer
  | required
  deriving DecidableEq, Repr

/-- The arguments of `enqueueRequestFrame`. -/
structure Request where
  methodId : Int32
  requestId : Int64
  timeoutMillis : Int32
  traceContext : Option MoonLightTraceContext
  body : Bytes
  compression : RpcCompression
  userMetadata : MoonLightMetadata
  unary : Bool

/-- The outcomes of `tryWriteDirect`. -/
inductive DirectWrite
  | written
  | declined
  | failed
  deriving DecidableEq, Repr

/-- What the request meets on its way out: the permits of `outgoingRequestBytes`
that are free, and the answers of the socket and of the writer's queue. -/
structure Outgoing where
  availableBytes : ℕ
  directWrite : DirectWrite
  offered : Bool

/-- The exceptions of `enqueueRequestFrame`. -/
inductive EnqueueException
  | compressionRequired
  | compression (error : CompressionException)
  | metadata (message : String)
  | metadataLimit
  | overflow
  | bodyLimit
  /-- `tryAcquire` refuses a negative number of permits -/
  | negativePermits
  | queueFull
  | writeFailed
  deriving DecidableEq, Repr

/-- `null` where the exception comes from the socket or has no message; the
message of a full queue names its capacity. -/
def EnqueueException.getMessage (capacity : ℕ) : EnqueueException → Option String
  | .compressionRequired => some "generated RPC policy requires zstd compression"
  | .compression error => some error.getMessage
  | .metadata message => some message
  | .metadataLimit => some "request metadata exceeds negotiated limit"
  | .overflow => some "integer overflow"
  | .bodyLimit => some "request body exceeds negotiated limit"
  | .negativePermits => none
  | .queueFull =>
    some ("MoonLightBridge outgoing queue is full (capacity=" ++ toString capacity ++ ")")
  | .writeFailed => none

/-- `compressed`, and with it `encodedBody`, `wireCodec` and the announced length. -/
def Request.encodeBody (zstd : Zstd) (settings : Settings) (request : Request) :
    Except EnqueueException Encoded :=
  if request.compression = .required ∧ settings.zstdNegotiated = false then
    .error .compressionRequired
  else if settings.zstdNegotiated = true ∧ request.compression ≠ .disabled then
    match CompressionOptions.encode zstd request.body .zstd settings.compressionOptions with
    | .error error => .error (.compression error)
    | .ok encoded => .ok encoded
  else .ok ⟨.none, request.body.length, request.body⟩

/-- The generated part of a request whose body was encoded. -/
def Request.context (request : Request) (encoded : Encoded) : RequestContext where
  timeoutMillis := request.timeoutMillis
  traceContext := request.traceContext
  compressionCodec := encoded.codec
  originalLength := encoded.originalLength

/-- `REQUEST` -/
def requestKind : UInt8 := 1

/-- The bytes put into the request's buffer. -/
def Request.frameBytes (request : Request) (encoded : Encoded) (prefixLength bodyLength : ℕ) :
    Bytes :=
  frameMagic.toUInt32.toBeBytes ++ [frameVersion] ++ [requestKind] ++ frameHasMetadata.toBeBytes ++
    (UInt32.ofNat bodyLength).toBeBytes ++ request.methodId.toUInt32.toBeBytes ++
    request.requestId.toUInt64.toBeBytes ++
    request.userMetadata.writeRequestPrefix prefixLength (request.context encoded) ++ encoded.bytes

/-- Write the frame on the calling thread if the connection is idle, or leave it
to the writer. -/
def Outgoing.handOver (outgoing : Outgoing) (unary : Bool) (frame : Bytes) :
    Except EnqueueException Bytes :=
  if unary = true ∧ outgoing.directWrite = .failed then .error .writeFailed
  else if unary = true ∧ outgoing.directWrite = .written then .ok frame
  else if outgoing.offered then .ok frame
  else .error .queueFull

/-- `MoonLightClient.enqueueRequestFrame`: the frame, if it was written or queued. -/
def enqueueRequestFrame (zstd : Zstd) (settings : Settings) (outgoing : Outgoing)
    (request : Request) : Except EnqueueException Bytes :=
  match request.encodeBody zstd settings with
  | .error error => .error error
  | .ok encoded =>
    match request.userMetadata.requestPrefixLength (request.context encoded) with
    | .error message => .error (.metadata message)
    | .ok prefixLength =>
      if settings.maxMetadataLength < prefixLength - 4 then .error .metadataLimit
      else
        match addExact encoded.bytes.length prefixLength with
        | none => .error .overflow
        | some bodyLength =>
          if settings.maxBodyLength < bodyLength then .error .bodyLimit
          -- `24 + bodyLength` wraps around close to the maximum
          else if 2 ^ 31 ≤ 24 + bodyLength then .error .negativePermits
          else if outgoing.availableBytes < 24 + bodyLength then .error .queueFull
          else
            outgoing.handOver request.unary (request.frameBytes encoded prefixLength bodyLength)

section Enqueue

variable {zstd : Zstd} {settings : Settings} {outgoing : Outgoing} {request : Request}

/-- The body goes out as it is, or compressed within the ratio. -/
theorem encodeBody_eq_ok {encoded : Encoded}
    (h : request.encodeBody zstd settings = .ok encoded) :
    encoded.originalLength = request.body.length ∧
      ((encoded.codec = .none ∧ encoded.bytes = request.body) ∨
        (encoded.codec = .zstd ∧ settings.zstdNegotiated = true ∧
          request.body.length ≤ settings.maxDecodedBodyLength ∧
          zstd.compress 1 request.body = some encoded.bytes ∧
          request.body.length ≤ encoded.bytes.length * 64)) := by
  unfold Request.encodeBody at h
  split_ifs at h with hrequired hcompress
  · split at h
    · cases h
    · rename_i result hresult
      cases h
      obtain ⟨hmax, horiginal, hforms⟩ := CompressionOptions.encode_eq_ok hresult
      refine ⟨horiginal, hforms.imp_right ?_⟩
      rintro ⟨hcodec, -, hbytes, hratio⟩
      exact ⟨hcodec, hcompress.1, hmax, hbytes, hratio⟩
  · cases h
    exact ⟨rfl, Or.inl ⟨rfl, rfl⟩⟩

theorem handOver_eq_ok {unary : Bool} {frame frame' : Bytes}
    (h : outgoing.handOver unary frame = .ok frame') : frame' = frame := by
  unfold Outgoing.handOver at h
  split_ifs at h <;> exact (Except.ok.inj h).symm

/-- A request that was accepted passed both limits, and its frame is the one that
was built for it. -/
theorem enqueueRequestFrame_eq_ok {frame : Bytes}
    (h : enqueueRequestFrame zstd settings outgoing request = .ok frame) :
    ∃ encoded prefixLength,
      request.encodeBody zstd settings = .ok encoded ∧
      request.userMetadata.requestPrefixLength (request.context encoded) = .ok prefixLength ∧
      prefixLength - 4 ≤ settings.maxMetadataLength ∧
      encoded.bytes.length + prefixLength ≤ settings.maxBodyLength ∧
      frame = request.frameBytes encoded prefixLength (encoded.bytes.length + prefixLength) := by
  unfold enqueueRequestFrame at h
  split at h
  · cases h
  rename_i encoded hencoded
  split at h
  · cases h
  rename_i prefixLength hprefixed
  split_ifs at h with hmetadata
  split at h
  · cases h
  rename_i bodyLength hbody
  obtain rfl := addExact_eq_some hbody
  split_ifs at h with hlimit hnegative hfull
  exact ⟨encoded, prefixLength, hencoded, hprefixed, not_lt.mp hmetadata, not_lt.mp hlimit,
    handOver_eq_ok h⟩

end Enqueue

end MoonLightBridge.Client
