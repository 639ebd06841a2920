import MoonLightBridge.Client.Inbound
import MoonLightBridge.Server.Writer
import MoonLightBridge.System.FrameAgreement
import MoonLightBridge.System.MetadataAgreement

/-!
# From the server's writer to the client's subscriber

The server fits, compresses and fits again what it sends; the client checks the
header, takes the metadata off and decompresses. This module composes the two:
a payload that leaves the server under its own kind arrives as it was.
-/

namespace MoonLightBridge.OutboundPath

open Protocol Server

section Sender

variable {zstd : Zstd} {negotiated : Negotiated} {frame : Frame}

/-- `sent` carries the payload of `frame` compressed, behind the two entries that
announce it. -/
structure CompressedAs (zstd : Zstd) (negotiated : Negotiated) (frame sent : Frame)
    (metadata : Metadata) (compressed : Bytes) : Prop where
  zstdNegotiated : negotiated.compressionCodecs &&& compressionCodecZstd ≠ 0
  compress : zstd.compress 1 frame.body = some compressed
  withinRatio : frame.body.length ≤ compressed.length * 64
  entries : metadata.entries.toList =
    [(.reserved .compressionCodec, [1]),
      (.reserved .originalLength, (UInt32.ofNat frame.body.length).toBeBytes)]
  withinLimit : metadata.blockLen ≤ negotiated.maxMetadataLen.toNat
  flags : sent.flags = frame.flags ||| flagHasMetadata
  body : ∃ hlen, sent.body = metadata.block hlen ++ compressed

/-- Metadata that announces a compressed payload and nothing else. -/
theorem announceCompression_new {result : CompressedPayload} (hcodec : result.codec = .zstd) :
    ∃ metadata, announceCompression Metadata.new result = .ok metadata ∧
      metadata.entries.toList =
        [(.reserved .compressionCodec, [1]),
          (.reserved .originalLength, result.originalLen.toBeBytes)] := by
  obtain ⟨codec, originalLen, bytes⟩ := result
  obtain rfl : codec = .zstd := hcodec
  exact ⟨_, rfl, rfl⟩

theorem outboundMetadata_of_not_flagged (h : frame.flags &&& flagHasMetadata = 0) (limit : UInt32) :
    outboundMetadata frame limit = some (Metadata.new, frame.body) :=
  if_neg (not_not.mpr h)

/-- The compressor of a connection on a payload without metadata. -/
theorem compressFor_of_kind_ne_error (hmeta : frame.flags &&& flagHasMetadata = 0)
    (hne : (compressFor zstd negotiated frame).kind ≠ .error) :
    ((compressFor zstd negotiated frame).flags &&& flagHasMetadata = 0 ∧
      (compressFor zstd negotiated frame).body = frame.body) ∨
    ∃ metadata compressed,
      CompressedAs zstd negotiated frame (compressFor zstd negotiated frame) metadata
        compressed := by
  by_cases heligible : Eligible negotiated frame
  swap
  · rw [compressFor_of_not_eligible heligible]
    exact Or.inl ⟨hmeta, rfl⟩
  have hparts := outboundMetadata_of_not_flagged hmeta negotiated.maxMetadataLen
  cases hresult : (connectionCompressionPolicy negotiated).encode zstd frame.body .zstd with
  | error error =>
    simp only [compressFor_of_eligible heligible, hparts, hresult] at hne
    exact absurd rfl hne
  | ok result =>
    rcases CompressionPolicy.encode_eq_ok hresult with
      ⟨hcodec, hbytes⟩ | ⟨hcodec, -, hcompress, haccept⟩
    · -- kept as it was: no metadata is put in front
      left
      rw [compressFor_eq_reassemble heligible hparts hresult (announceCompression_of_none hcodec),
        reassemble_new, hbytes]
      exact ⟨by simp only [UInt16.and_assoc, UInt16.not_and_self, UInt16.and_zero], rfl⟩
    · right
      obtain ⟨metadata, hmetadata, hentries⟩ := announceCompression_new hcodec
      have heq := compressFor_eq_reassemble heligible hparts hresult hmetadata
      have hnew : metadata ≠ Metadata.new := by
        rintro rfl
        exact absurd hentries (by simp [Metadata.new, SortedMap.empty])
      have hlimit : metadata.blockLen ≤ negotiated.maxMetadataLen.toNat := by
        apply blockLen_le_of_reassemble_ne hnew
        intro hlarge
        rw [heq, hlarge] at hne
        exact hne rfl
      have hlen := lt_of_le_of_lt hlimit negotiated.maxMetadataLen.toNat_lt
      rw [heq, reassemble_of_le hnew hlen hlimit]
      refine ⟨metadata, result.bytes, heligible.1, hcompress, ?_, ?_, hlimit, rfl, hlen, rfl⟩
      · exact (CompressionPolicy.isAcceptable_iff.mp haccept).2.2
      · rw [hentries, CompressionPolicy.originalLen_of_encode hresult]

/-- A frame that is not turned into an ERROR passed both limits untouched. -/
theorem outbound_of_kind_ne_error (hne : (outbound zstd negotiated frame).kind ≠ .error) :
    frame.body.length ≤ negotiated.maxDecodedBodyLen.toNat ∧
      outbound zstd negotiated frame = compressFor zstd negotiated frame := by
  have hdecoded : frame.body.length ≤ negotiated.maxDecodedBodyLen.toNat := by
    by_contra hlarge
    -- an ERROR made by the first limit passes the compressor and the second limit
    have hkind := kind_fitOutboundFrame_of_lt (not_le.mp hlarge)
    apply hne
    rw [outbound, (@compressFor_of_kind_error zstd negotiated _ hkind).1]
    exact kind_fitOutboundFrame_of_error hkind
  refine ⟨hdecoded, ?_⟩
  rw [outbound, fitOutboundFrame_of_le hdecoded] at hne ⊢
  apply fitOutboundFrame_of_le
  by_contra hlarge
  exact hne (kind_fitOutboundFrame_of_lt (not_le.mp hlarge))

/-- Every ERROR that stands for another frame goes out without flags. -/
def UnflaggedError (frame : Frame) : Prop := frame.kind = .error → frame.flags = 0

theorem UnflaggedError.fitOutboundFrame (h : UnflaggedError frame) (limit : UInt32) :
    UnflaggedError (fitOutboundFrame frame limit) := by
  unfold Server.fitOutboundFrame
  split_ifs
  · exact h
  all_goals exact fun _ => rfl

theorem UnflaggedError.compressFor (h : UnflaggedError frame) :
    UnflaggedError (compressFor zstd negotiated frame) := by
  by_cases heligible : Eligible negotiated frame
  swap
  · rw [compressFor_of_not_eligible heligible]
    exact h
  have hkind : frame.kind ≠ .error := by
    intro herror
    have := heligible.2
    rw [herror] at this
    exact absurd this (by decide)
  rw [compressFor_of_eligible heligible]
  split
  · exact h
  split
  · exact fun _ => rfl
  split
  · exact fun _ => rfl
  unfold reassemble
  split
  · exact fun herror => absurd herror hkind
  split
  · exact fun _ => rfl
  split
  · exact fun _ => rfl
  · exact fun herror => absurd herror hkind

theorem UnflaggedError.outbound (h : UnflaggedError frame) :
    UnflaggedError (outbound zstd negotiated frame) :=
  ((h.fitOutboundFrame _).compressFor).fitOutboundFrame _

/-- Metadata that the writer put in front of a payload is within its limit. -/
theorem metadata_outbound_le (hkind : frame.kind ≠ .error)
    (hmeta : frame.flags &&& flagHasMetadata = 0)
    (hflag : (outbound zstd negotiated frame).flags &&& flagHasMetadata ≠ 0) :
    ∃ block payload, (outbound zstd negotiated frame).body =
        (UInt32.ofNat block.length).toBeBytes ++ block ++ payload ∧
      block.length ≤ negotiated.maxMetadataLen.toNat := by
  have hne : (outbound zstd negotiated frame).kind ≠ .error := by
    intro herror
    have hunflagged : UnflaggedError frame := fun h => absurd h hkind
    rw [hunflagged.outbound herror] at hflag
    exact hflag UInt16.zero_and
  obtain ⟨-, heq⟩ := outbound_of_kind_ne_error hne
  rw [heq] at hne hflag ⊢
  rcases compressFor_of_kind_ne_error hmeta hne with ⟨hunflagged, -⟩ | ⟨metadata, compressed, h⟩
  · exact absurd hunflagged hflag
  · obtain ⟨hlen, hbody⟩ := h.body
    have hlength := Metadata.length_flatMap_wireEntries metadata.entries.toList
      (Metadata.encodable_of_blockLen_lt hlen)
    refine ⟨_, compressed, ?_, hlength.trans_le h.withinLimit⟩
    rw [hbody, hlength]
    rfl

end Sender

section Receiver

variable {zstd : Zstd} {negotiated : Negotiated} {frame sent : Frame} {metadata : Metadata}
  {compressed : Bytes} {settings : Client.Settings} {budget : Client.DecodedByteBudget}

theorem decodeApplicationFrame_of_not_flagged {received : Client.WireFrame}
    (h : received.flags &&& Client.frameHasMetadata = 0) :
    settings.decodeApplicationFrame zstd budget received = .ok received :=
  if_pos h

/-- The client reads metadata under the limits the server wrote it for. -/
theorem matches_metadataLimits (h : settings.Matches negotiated.toPeerSettings) :
    settings.metadataLimits.Matches
      { MetadataLimits.default with maxBytes := negotiated.maxMetadataLen } where
  maxBytes := h.maxMetadataLength.symm
  maxEntries := rfl
  maxValueBytes := rfl

/-- The client finds the two entries of a compressed frame, and its payload. -/
theorem decode_compressedAs (hsettings : settings.Matches negotiated.toPeerSettings)
    (h : CompressedAs zstd negotiated frame sent metadata compressed) :
    ∃ decoded, Client.decode sent.body settings.metadataLimits = .ok (decoded, compressed) ∧
      decoded.get? (.reserved .compressionCodec) = some [1] ∧
      decoded.get? (.reserved .originalLength) =
        some (UInt32.ofNat frame.body.length).toBeBytes := by
  obtain ⟨hlen, hbody⟩ := h.body
  have hadmitted : metadata.Admitted
      { MetadataLimits.default with maxBytes := negotiated.maxMetadataLen } := by
    refine ⟨h.withinLimit, ?_, ?_⟩
    · rw [h.entries]
      exact (by decide : 2 ≤ 64)
    · rw [h.entries]
      simp [MetadataLimits.default]
  have hnames : ∀ name, .user name ∈ metadata.entries.keys → ¬ namespaceBytes <+: name := by
    intro name hmem
    rw [SortedMap.keys, h.entries] at hmem
    simp at hmem
  obtain ⟨decoded, hdecode, hlist⟩ := Client.decode_block hlen
    (matches_metadataLimits hsettings) hadmitted hnames compressed
  rw [h.entries] at hlist
  refine ⟨decoded, hbody ▸ hdecode, ?_, ?_⟩
  · rw [SortedMap.get?, hlist]
    rfl
  · rw [SortedMap.get?, hlist]
    rfl

/-- The client decompresses what the server compressed. -/
theorem decodeApplicationFrame_of_compressedAs
    (hsettings : settings.Matches negotiated.toPeerSettings)
    (h : CompressedAs zstd negotiated frame sent metadata compressed)
    (hlength : frame.body.length ≤ negotiated.maxDecodedBodyLen.toNat)
    (hbudget : frame.body.length ≤ budget.available) :
    settings.decodeApplicationFrame zstd budget (Client.WireFrame.ofFrame sent) =
      .ok { Client.WireFrame.ofFrame sent with flags := 0, body := frame.body } := by
  obtain ⟨decoded, hdecode, hcodec, horiginal⟩ := decode_compressedAs hsettings h
  have hflag : (Client.WireFrame.ofFrame sent).flags &&& Client.frameHasMetadata ≠ 0 := by
    change sent.flags &&& flagHasMetadata ≠ 0
    rw [h.flags, UInt16.or_and_distrib, ne_eq, UInt16.or_eq_zero_iff, UInt16.and_self]
    exact fun h => absurd h.2 (by decide)
  -- the announced length is a Java `int` that is not negative
  have hmax : frame.body.length ≤ settings.maxDecodedBodyLength := by
    rw [hsettings.maxDecodedBodyLength]
    exact hlength
  have hint : frame.body.length < 2 ^ 31 := lt_of_le_of_lt hmax settings.bounded.2.1
  have hnat : (UInt32.ofNat frame.body.length).toNat = frame.body.length :=
    UInt32.toNat_ofNat_of_lt' (by simp only [UInt32.size]; omega)
  have hnonneg : (0 : Int32) ≤ (UInt32.ofNat frame.body.length).toInt32 := by
    rw [Int32.le_iff_toInt_le, UInt32.toInt_toInt32, hnat, if_pos hint]
    exact Int.natCast_nonneg _
  have hzstd : settings.zstdNegotiated = true := by
    rw [Client.Settings.zstdNegotiated, hsettings.compressionCodecs]
    exact bne_iff_ne.mpr h.zstdNegotiated
  have hdecompress : settings.decompress zstd budget 1
      (UInt32.ofNat frame.body.length).toBeBytes compressed = .ok frame.body := by
    unfold Client.Settings.decompress
    simp only [show Client.Codec.fromWire 1 = some .zstd from rfl, hzstd, ne_eq, not_true,
      Bool.true_eq_false, or_self, if_false, UInt32.fromBeBytes_toBeBytes,
      Int32.not_lt.mpr hnonneg, UInt32.toNat_toInt_toInt32 hnonneg, hnat]
    rw [Client.CompressionOptions.decode_of_compress h.compress hmax h.withinRatio hbudget]
  unfold Client.Settings.decodeApplicationFrame
  rw [if_neg hflag]
  have hbody : (Client.WireFrame.ofFrame sent).body = sent.body := rfl
  simp only [hbody, hdecode, hcodec, horiginal, UInt32.length_toBeBytes, ne_eq, not_true, if_false,
    hdecompress]

theorem ofFrame_of_answers (hanswers : Answers frame sent) (hsame : sent.kind = frame.kind) :
    Client.WireFrame.ofFrame sent =
      ⟨frame.kind.toU8, sent.flags, frame.methodId.toInt32, frame.requestId.toInt64,
        sent.body⟩ := by
  rw [Client.WireFrame.ofFrame, hsame, hanswers.methodId, hanswers.requestId]

/-- A payload that was sent for `frame`, as it is or compressed, is what the
client hands on. -/
theorem decodeApplicationFrame_of_answers
    (hsettings : settings.Matches negotiated.toPeerSettings) (hanswers : Answers frame sent)
    (hsame : sent.kind = frame.kind) (hknown : sent.HasKnownFlags)
    (hlength : frame.body.length ≤ negotiated.maxDecodedBodyLen.toNat)
    (hbudget : frame.body.length ≤ budget.available)
    (h : (sent.flags &&& flagHasMetadata = 0 ∧ sent.body = frame.body) ∨
      ∃ metadata compressed, CompressedAs zstd negotiated frame sent metadata compressed) :
    settings.decodeApplicationFrame zstd budget (Client.WireFrame.ofFrame sent) =
      .ok ⟨frame.kind.toU8, 0, frame.methodId.toInt32, frame.requestId.toInt64, frame.body⟩ := by
  have hreceived := ofFrame_of_answers hanswers hsame
  rcases h with ⟨hunflagged, hbody⟩ | ⟨metadata, compressed, hcompressed⟩
  · -- no flag is left, and the frame is handed on as it was received
    have hzero : sent.flags = 0 := UInt16.eq_zero_of_and_of_and_not hunflagged hknown
    rw [decodeApplicationFrame_of_not_flagged hunflagged, hreceived, hzero, hbody]
  · rw [decodeApplicationFrame_of_compressedAs hsettings hcompressed hlength hbudget, hreceived]

end Receiver

/-- What the writer makes of an application payload is within the negotiated
limits, metadata included; and if it goes out under its own kind, the client
reads the frame off the stream and decodes it to exactly the payload, for the
same method and request. -/
theorem client_decodes_outbound (zstd : Zstd) (negotiated : Negotiated)
    (settings : Client.Settings) (hsettings : settings.Matches negotiated.toPeerSettings)
    (frame : Frame) (hkind : carriesPayload frame.kind = true)
    (hmeta : frame.flags &&& flagHasMetadata = 0) :
    let sent := outbound zstd negotiated frame
    sent.body.length ≤ negotiated.maxBodyLen.toNat ∧
    (sent.flags &&& flagHasMetadata ≠ 0 →
      ∃ block payload, sent.body = (UInt32.ofNat block.length).toBeBytes ++ block ++ payload ∧
        block.length ≤ negotiated.maxMetadataLen.toNat) ∧
    (frame.HasKnownFlags → ∃ wire, sent.encode = .ok wire) ∧
    (sent.kind = frame.kind → ∀ wire, sent.encode = .ok wire →
      ∀ (rest : Bytes) (budget : Client.DecodedByteBudget),
        frame.body.length ≤ budget.available →
          ∃ received, Client.readFrame settings.bodyLimit (wire ++ rest) = .ok (received, rest) ∧
            settings.decodeApplicationFrame zstd budget received =
              .ok ⟨frame.kind.toU8, 0, frame.methodId.toInt32, frame.requestId.toInt64,
                frame.body⟩) := by
  intro sent
  have hne : frame.kind ≠ .error := by
    intro herror
    rw [herror] at hkind
    exact absurd hkind (by decide)
  have hlength : sent.body.length ≤ negotiated.maxBodyLen.toNat := length_fitOutboundFrame_le _ _
  refine ⟨hlength, metadata_outbound_le hne hmeta, ?_, ?_⟩
  · intro hflags
    exact ⟨_, Frame.encode_eq_ok_iff.mpr ⟨encodable_outbound zstd negotiated hflags, rfl⟩⟩
  · intro hsame wire hwire rest budget hbudget
    obtain ⟨hencodable, rfl⟩ := Frame.encode_eq_ok_iff.mp hwire
    have hanswers := answers_outbound zstd negotiated frame
    refine ⟨Client.WireFrame.ofFrame sent, ?_, ?_⟩
    · apply Client.readFrame_wire rest settings.one_le_bodyLimit hencodable.1
      rw [settings.toNat_bodyLimit, hsettings.maxBodyLength]
      exact hlength
    · have hsent : sent.kind ≠ .error := hsame ▸ hne
      obtain ⟨hdecoded, heq⟩ := outbound_of_kind_ne_error hsent
      have hcompressor : (compressFor zstd negotiated frame).kind ≠ .error := heq ▸ hsent
      have hforms := compressFor_of_kind_ne_error hmeta hcompressor
      rw [← heq] at hforms
      exact decodeApplicationFrame_of_answers hsettings hanswers hsame hencodable.1 hdecoded
        hbudget hforms

/-- The client's settings after a handshake that negotiated the defaults. -/
def defaultSettings : Client.Settings where
  maxBodyLength := 8 * 1024 * 1024
  maxDecodedBodyLength := 16 * 1024 * 1024
  maxMetadataLength := 16 * 1024
  negotiatedCompressionCodecs := 3
  positive := by decide
  bounded := by decide

/-- The budget of a client that has nothing reserved. -/
def idleBudget : Client.DecodedByteBudget where
  capacity := 64 * 1024 * 1024
  used := 0
  used_le := Nat.zero_le _

/-- A response that goes out compressed arrives as it was. -/
theorem client_decodes_outbound_zerosResponse :
    ∃ wire received,
      (outbound Writer.halvingZstd Writer.defaultNegotiated Writer.zerosResponse).encode =
        .ok wire ∧
      Client.readFrame defaultSettings.bodyLimit (wire ++ []) = .ok (received, []) ∧
      defaultSettings.decodeApplicationFrame Writer.halvingZstd idleBudget received =
        .ok ⟨2, 0, 7, 2, List.replicate (2 * 2048) 0⟩ := by
  obtain ⟨-, -, hencode, hdecode⟩ := client_decodes_outbound Writer.halvingZstd
    Writer.defaultNegotiated defaultSettings ⟨rfl, rfl, rfl, rfl⟩ Writer.zerosResponse rfl rfl
  obtain ⟨wire, hwire⟩ := hencode rfl
  have hkind : (outbound Writer.halvingZstd Writer.defaultNegotiated Writer.zerosResponse).kind =
      Writer.zerosResponse.kind :=
    (congrArg Frame.kind Writer.outbound_zerosResponse).trans rfl
  have hbudget : Writer.zerosResponse.body.length ≤ idleBudget.available :=
    List.length_replicate.trans_le (by decide)
  obtain ⟨received, hread, happlication⟩ := hdecode hkind wire hwire [] idleBudget hbudget
  exact ⟨wire, received, hwire, hread, happlication⟩

end MoonLightBridge.OutboundPath
