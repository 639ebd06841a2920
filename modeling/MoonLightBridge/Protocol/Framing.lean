import MoonLightBridge.Protocol.Frame

/-!
# Framing: a byte stream has one reading as a list of frames

A peer that keeps calling `read_frame` cuts the stream it receives into frames.
Each header announces where the next one starts, so everything rests on one
fact about the header: the fields `decode_header` returns determine the 24 bytes
they were read from.
-/

namespace MoonLightBridge.Protocol

/-! ### Accepted headers -/

theorem FrameKind.tryFrom_eq_ok_iff {value : UInt8} {kind : FrameKind} :
    FrameKind.tryFrom value = .ok kind ↔ value = kind.toU8 := by
  constructor
  · intro h
    unfold FrameKind.tryFrom at h
    apply UInt8.toNat_inj.mp
    split at h <;> first
      | (cases h; assumption)
      | exact absurd h (by simp)
  · rintro rfl
    exact FrameKind.tryFrom_toU8 kind

namespace DecodedHeader

/-- The frame this header announces once `body` has been read. -/
def frame (decoded : DecodedHeader) (body : Bytes) : Frame :=
  (Frame.new decoded.kind decoded.methodId decoded.requestId body).withFlags decoded.flags

/-- The header bytes these fields are encoded as. -/
def bytes (decoded : DecodedHeader) : Bytes :=
  (decoded.frame []).headerBytes decoded.bodyLen

@[simp] theorem body_frame (decoded : DecodedHeader) (body : Bytes) :
    (decoded.frame body).body = body :=
  rfl

theorem headerBytes_frame (decoded : DecodedHeader) (body : Bytes) (bodyLen : UInt32) :
    (decoded.frame body).headerBytes bodyLen = (decoded.frame []).headerBytes bodyLen :=
  rfl

/-- A frame whose body has the announced length is encoded as the header
followed by the body. -/
theorem wire_frame (decoded : DecodedHeader) {body : Bytes}
    (h : body.length = decoded.bodyLen.toNat) :
    (decoded.frame body).wire = decoded.bytes ++ body := by
  rw [Frame.wire, headerBytes_frame, body_frame, h, UInt32.ofNat_toNat, bytes]

end DecodedHeader

/-- A header is the concatenation of its seven fields. -/
theorem Header.eq_append_slices (header : Header) :
    header.1 = slice header.1 0 4 ++ [header.1.getD 4 0] ++ [header.1.getD 5 0] ++
      slice header.1 6 8 ++ slice header.1 8 12 ++ slice header.1 12 16 ++
      slice header.1 16 24 := by
  obtain ⟨bytes, hbytes⟩ := header
  have hlen : bytes.length = 24 := hbytes
  have hbyte : ∀ i, i < 24 → [bytes.getD i 0] ++ bytes.drop (i + 1) = bytes.drop i := by
    intro i hi
    rw [List.getD_eq_getElem _ _ (by omega), List.singleton_append,
      List.getElem_cons_drop]
  have hlast : slice bytes 16 24 = bytes.drop 16 := by
    rw [slice, List.take_of_length_le]
    rw [List.length_drop, hlen]
  -- from the right, every field is put in front of what follows it
  simp only [List.append_assoc]
  rw [hlast, slice_append_drop (by decide), slice_append_drop (by decide),
    slice_append_drop (by decide), hbyte 5 (by decide), hbyte 4 (by decide),
    slice_append_drop (by decide), List.drop_zero]

variable {decoded : DecodedHeader} {header : Header} {maxBodyLen : UInt32}

/-- What `decode_header` checks, field by field. -/
theorem decodeHeader_eq_ok_iff_fields :
    decodeHeader header maxBodyLen = .ok decoded ↔
      (UInt32.fromBeBytes (slice header.1 0 4) = magic ∧ header.1.getD 4 0 = version ∧
        FrameKind.tryFrom (header.1.getD 5 0) = .ok decoded.kind ∧
        decoded.flags &&& ~~~knownFlags = 0 ∧ decoded.bodyLen ≤ maxBodyLen) ∧
      UInt16.fromBeBytes (slice header.1 6 8) = decoded.flags ∧
      UInt32.fromBeBytes (slice header.1 8 12) = decoded.bodyLen ∧
      UInt32.fromBeBytes (slice header.1 12 16) = decoded.methodId ∧
      UInt64.fromBeBytes (slice header.1 16 24) = decoded.requestId := by
  obtain ⟨kind, flags, bodyLen, methodId, requestId⟩ := decoded
  unfold decodeHeader
  dsimp only
  by_cases hmagic : UInt32.fromBeBytes (slice header.1 0 4) = magic
  swap; · simp [hmagic]
  by_cases hversion : header.1.getD 4 0 = version
  swap; · simp only [hmagic, hversion, ne_eq, not_true, not_false_eq_true, if_true, if_false,
      false_and, and_false, reduceCtorEq]
  cases hkind : FrameKind.tryFrom (header.1.getD 5 0) with
  | error error =>
    simp only [hmagic, hversion, ne_eq, not_true, if_false, bind, Except.bind, reduceCtorEq,
      false_and, and_false]
  | ok received =>
    simp only [hmagic, hversion, ne_eq, not_true, if_false, bind, Except.bind, true_and,
      Except.ok.injEq]
    by_cases hflags : UInt16.fromBeBytes (slice header.1 6 8) &&& ~~~knownFlags = 0
    · by_cases hlimit : maxBodyLen < UInt32.fromBeBytes (slice header.1 8 12)
      · simp [hflags, hlimit, throw, throwThe, MonadExceptOf.throw]
        grind
      · simp [hflags, hlimit, pure, Except.pure]
        grind
    · simp [hflags, throw, throwThe, MonadExceptOf.throw]
      grind

/-- The accepted headers are exactly those `encode_into` writes for fields with
known flags and a body length within the limit. -/
theorem decodeHeader_eq_ok_iff :
    decodeHeader header maxBodyLen = .ok decoded ↔
      header.1 = decoded.bytes ∧ decoded.flags &&& ~~~knownFlags = 0 ∧
        decoded.bodyLen ≤ maxBodyLen := by
  constructor
  · intro h
    obtain ⟨⟨hmagic, hversion, hkind, hknown, hlimit⟩, hflags, hbodyLen, hmethodId, hrequestId⟩ :=
      decodeHeader_eq_ok_iff_fields.mp h
    have hlen : header.1.length = 24 := header.2
    refine ⟨?_, hknown, hlimit⟩
    -- each decoded field encodes to the bytes it was read from
    change header.1 = magic.toBeBytes ++ [version] ++ [decoded.kind.toU8] ++
      decoded.flags.toBeBytes ++ decoded.bodyLen.toBeBytes ++ decoded.methodId.toBeBytes ++
      decoded.requestId.toBeBytes
    rw [← hmagic, ← hversion, ← FrameKind.tryFrom_eq_ok_iff.mp hkind, ← hflags, ← hbodyLen,
      ← hmethodId, ← hrequestId,
      UInt32.toBeBytes_fromBeBytes (length_slice (by omega)),
      UInt16.toBeBytes_fromBeBytes (length_slice (by omega)),
      UInt32.toBeBytes_fromBeBytes (length_slice (by omega)),
      UInt32.toBeBytes_fromBeBytes (length_slice (by omega)),
      UInt64.toBeBytes_fromBeBytes (length_slice (by omega))]
    exact header.eq_append_slices
  · rintro ⟨hbytes, hknown, hlimit⟩
    have hheader : header = ⟨decoded.bytes, Frame.length_headerBytes _ _⟩ := Subtype.ext hbytes
    rw [hheader]
    exact decodeHeader_headerBytes _ _ _ hknown (UInt32.not_lt.mpr hlimit)

/-- The decoded fields determine the header, whatever limits it was checked
against. -/
theorem decodeHeader_injective {header' : Header} {limit limit' : UInt32}
    (h : decodeHeader header limit = .ok decoded) (h' : decodeHeader header' limit' = .ok decoded) :
    header = header' :=
  Subtype.ext ((decodeHeader_eq_ok_iff.mp h).1.trans (decodeHeader_eq_ok_iff.mp h').1.symm)

variable {frame : Frame}

theorem Frame.encode_eq_ok_iff {bytes : Bytes} :
    frame.encode = .ok bytes ↔ frame.Encodable ∧ frame.wire = bytes := by
  by_cases hflags : frame.flags &&& ~~~knownFlags = 0
  · by_cases hbody : frame.body.length < 2 ^ 32
    · rw [Frame.encode, Frame.encodeInto_of_hasKnownFlags hflags hbody, List.nil_append,
        Except.ok.injEq]
      exact ⟨fun h => ⟨⟨hflags, hbody⟩, h⟩, fun h => h.2⟩
    · rw [Frame.encode, Frame.encodeInto, if_neg (not_not.mpr hflags), if_neg hbody]
      exact iff_of_false (by simp) fun h => hbody h.1.2
  · simp [Frame.encode, Frame.encodeInto, Frame.Encodable, Frame.HasKnownFlags, hflags]

/-- The decoded fields, encoded again with a body of the announced length, give
back the header they were read from. -/
theorem encode_frame_of_decodeHeader {body : Bytes}
    (h : decodeHeader header maxBodyLen = .ok decoded)
    (hbody : body.length = decoded.bodyLen.toNat) :
    (decoded.frame body).encode = .ok (header.1 ++ body) := by
  obtain ⟨hbytes, hflags, _⟩ := decodeHeader_eq_ok_iff.mp h
  apply Frame.encode_eq_ok_iff.mpr
  refine ⟨⟨hflags, hbody ▸ decoded.bodyLen.toNat_lt⟩, ?_⟩
  rw [decoded.wire_frame hbody, hbytes]

/-- Only headers that `encode_into` writes for some frame are accepted. -/
theorem decodeHeader_isOk_iff :
    (∃ decoded, decodeHeader header maxBodyLen = .ok decoded) ↔
      ∃ frame : Frame, frame.body.length ≤ maxBodyLen.toNat ∧
        frame.encode = .ok (header.1 ++ frame.body) := by
  constructor
  · rintro ⟨decoded, hdecoded⟩
    -- any body of the announced length will do
    obtain ⟨_, _, hlimit⟩ := decodeHeader_eq_ok_iff.mp hdecoded
    have hlen : (List.replicate decoded.bodyLen.toNat (0 : UInt8)).length =
        decoded.bodyLen.toNat := List.length_replicate
    refine ⟨decoded.frame (List.replicate decoded.bodyLen.toNat 0), ?_,
      encode_frame_of_decodeHeader hdecoded hlen⟩
    rw [decoded.body_frame, hlen]
    exact UInt32.le_iff_toNat_le.mp hlimit
  · rintro ⟨frame, hbody, hframe⟩
    obtain ⟨⟨hflags, hlt⟩, hwire⟩ := Frame.encode_eq_ok_iff.mp hframe
    have hheader : header.1 = frame.headerBytes (UInt32.ofNat frame.body.length) :=
      (List.append_cancel_right hwire).symm
    refine ⟨⟨frame.kind, frame.flags, UInt32.ofNat frame.body.length, frame.methodId,
      frame.requestId⟩, decodeHeader_eq_ok_iff.mpr ⟨hheader, hflags, ?_⟩⟩
    rw [UInt32.le_iff_toNat_le, UInt32.toNat_ofNat_of_lt' hlt]
    exact hbody

/-! ### Reading a stream -/

variable {input rest : Bytes}

/-- What `read_frame` returns is what stood encoded at the front of the input. -/
theorem readFrame_eq_ok_iff :
    readFrame maxBodyLen input = .ok (frame, rest) ↔
      input = frame.wire ++ rest ∧ frame.HasKnownFlags ∧
        frame.body.length ≤ maxBodyLen.toNat := by
  constructor
  · intro h
    unfold readFrame at h
    split at h
    · rename_i hheader
      split at h
      · exact absurd h (by simp)
      · rename_i decoded hdecoded
        obtain ⟨hbytes, hflags, hlimit⟩ := decodeHeader_eq_ok_iff.mp hdecoded
        dsimp only at h
        split_ifs at h with hbody
        obtain ⟨rfl, rfl⟩ := Prod.mk.inj (Except.ok.inj h)
        have hlen : ((input.drop headerLen).take decoded.bodyLen.toNat).length =
            decoded.bodyLen.toNat := List.length_take_of_le hbody
        refine ⟨?_, hflags, ?_⟩
        · change input = (decoded.frame _).wire ++ _
          rw [decoded.wire_frame hlen, ← hbytes, List.append_assoc, List.take_append_drop,
            List.take_append_drop]
        · change ((input.drop headerLen).take decoded.bodyLen.toNat).length ≤ _
          rw [hlen]
          exact UInt32.le_iff_toNat_le.mp hlimit
    · exact absurd h (by simp)
  · rintro ⟨rfl, hflags, hbody⟩
    exact readFrame_wire frame rest maxBodyLen hflags hbody

/-- Every call consumes at least a header. -/
theorem length_lt_of_readFrame (h : readFrame maxBodyLen input = .ok (frame, rest)) :
    rest.length < input.length := by
  rw [(readFrame_eq_ok_iff.mp h).1, List.length_append, frame.length_wire, headerLen]
  omega

/-- `read_frame` again and again until no byte of the stream is left. -/
def readAll (maxBodyLen : UInt32) (input : Bytes) : Except ReadError (List Frame) :=
  if input = [] then .ok []
  else
    match _h : readFrame maxBodyLen input with
    | .error error => .error error
    | .ok (frame, rest) => (readAll maxBodyLen rest).map (frame :: ·)
termination_by input.length
decreasing_by exact length_lt_of_readFrame _h

theorem readAll_nil (maxBodyLen : UInt32) : readAll maxBodyLen [] = .ok [] := by
  rw [readAll, if_pos rfl]

theorem readAll_of_readFrame (h : readFrame maxBodyLen input = .ok (frame, rest)) :
    readAll maxBodyLen input = (readAll maxBodyLen rest).map (frame :: ·) := by
  have hne : input ≠ [] := by
    rintro rfl
    exact absurd (length_lt_of_readFrame h) (Nat.not_lt_zero _)
  rw [readAll, if_neg hne]
  split
  · rename_i error herror
    exact absurd (herror.symm.trans h) (by simp)
  · rename_i frame' rest' hframe'
    obtain ⟨rfl, rfl⟩ := Prod.mk.inj (Except.ok.inj (hframe'.symm.trans h))
    rfl

/-- A stream is read as `frames` exactly when it is their encodings, one after
the other, and each of them is acceptable. -/
theorem readAll_eq_ok_iff {frames : List Frame} :
    readAll maxBodyLen input = .ok frames ↔
      input = frames.flatMap Frame.wire ∧
        ∀ frame ∈ frames, frame.HasKnownFlags ∧ frame.body.length ≤ maxBodyLen.toNat := by
  constructor
  · intro h
    -- along the recursion of `readAll`: one frame is cut off the front each time
    induction input using readAll.induct maxBodyLen generalizing frames with
    | case1 =>
      rw [readAll_nil] at h
      cases h
      exact ⟨rfl, by simp⟩
    | case2 input hne error herror =>
      rw [readAll, if_neg hne] at h
      split at h
      · exact absurd h (by simp)
      · rename_i hok
        exact absurd (herror.symm.trans hok) (by simp)
    | case3 input hne frame rest hframe ih =>
      rw [readAll_of_readFrame hframe] at h
      cases hrest : readAll maxBodyLen rest with
      | error error => rw [hrest] at h; exact absurd h (by simp [Except.map])
      | ok tail =>
        rw [hrest] at h
        cases h
        obtain ⟨rfl, htail⟩ := ih hrest
        obtain ⟨rfl, hvalid⟩ := readFrame_eq_ok_iff.mp hframe
        exact ⟨rfl, List.forall_mem_cons.mpr ⟨hvalid, htail⟩⟩
  · rintro ⟨rfl, hframes⟩
    induction frames with
    | nil => exact readAll_nil maxBodyLen
    | cons frame frames ih =>
      obtain ⟨hframe, hrest⟩ := List.forall_mem_cons.mp hframes
      rw [List.flatMap_cons,
        readAll_of_readFrame (readFrame_wire frame _ maxBodyLen hframe.1 hframe.2), ih hrest]
      rfl

/-- Framing is uniquely decodable. A stream of encoded frames is read back as
those frames with no byte left over; an accepted header is what its own fields
encode to, so that it is determined by them; and nothing but the headers
`encode_into` writes is accepted. -/
theorem framing_uniquely_decodable (maxBodyLen : UInt32) :
    (∀ frames : List Frame,
      (∀ frame ∈ frames, frame.HasKnownFlags ∧ frame.body.length ≤ maxBodyLen.toNat) →
        ∃ stream, Frame.encodeAll frames = .ok stream ∧
          readAll maxBodyLen stream = .ok frames) ∧
    (∀ (header : Header) (decoded : DecodedHeader) (body : Bytes),
      decodeHeader header maxBodyLen = .ok decoded →
        body.length = decoded.bodyLen.toNat →
          (decoded.frame body).encode = .ok (header.1 ++ body)) ∧
    (∀ (header header' : Header) (decoded : DecodedHeader),
      decodeHeader header maxBodyLen = .ok decoded →
        decodeHeader header' maxBodyLen = .ok decoded → header = header') ∧
    (∀ header : Header,
      (∃ decoded, decodeHeader header maxBodyLen = .ok decoded) ↔
        ∃ frame : Frame, frame.body.length ≤ maxBodyLen.toNat ∧
          frame.encode = .ok (header.1 ++ frame.body)) := by
  refine ⟨?_, fun _ _ _ => encode_frame_of_decodeHeader,
    fun _ _ _ => decodeHeader_injective, fun _ => decodeHeader_isOk_iff⟩
  intro frames hframes
  refine ⟨frames.flatMap Frame.wire, ?_, readAll_eq_ok_iff.mpr ⟨rfl, hframes⟩⟩
  apply Frame.encodeAll_eq
  intro frame hframe
  obtain ⟨hflags, hbody⟩ := hframes frame hframe
  exact ⟨hflags, lt_of_le_of_lt hbody maxBodyLen.toNat_lt⟩

/-- Two frames sent back to back come out as those two frames. -/
theorem framing_uniquely_decodable_pair :
    ∃ stream,
      Frame.encodeAll [Frame.new .ping 0 7 [], Frame.new .request 3 8 [1, 2]] = .ok stream ∧
        readAll 16 stream = .ok [Frame.new .ping 0 7 [], Frame.new .request 3 8 [1, 2]] :=
  (framing_uniquely_decodable 16).1 _ (by decide)

end MoonLightBridge.Protocol
