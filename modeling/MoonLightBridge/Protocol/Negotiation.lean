import MoonLightBridge.Protocol.Settings

/-!
# Negotiation is a meet

A settings body is accepted exactly if it is the encoding of valid settings. Below
two peers' settings, those that the server negotiates are the largest: each limit is
the smaller of the two, each mask the common bits.
-/

namespace MoonLightBridge.Protocol

namespace PeerSettings

/-! ### The codec -/

/-- The fields of a settings body, whatever their values. -/
def read (body : Bytes) : PeerSettings where
  maxBodyLen := UInt32.fromBeBytes (slice body 0 4)
  maxDecodedBodyLen := UInt32.fromBeBytes (slice body 4 8)
  maxMetadataLen := UInt32.fromBeBytes (slice body 8 12)
  maxInFlight := UInt32.fromBeBytes (slice body 12 16)
  maxConcurrentStreams := UInt32.fromBeBytes (slice body 16 20)
  initialStreamCredit := UInt32.fromBeBytes (slice body 20 24)
  compressionCodecs := UInt32.fromBeBytes (slice body 24 28)
  features := UInt64.fromBeBytes (slice body 28 36)
  diagnosticFeatures := UInt64.fromBeBytes (slice body 36 44)

variable {body : Bytes} {settings : PeerSettings}

theorem decode_eq_ok_iff_read :
    decode body = .ok settings ↔ body.length = bodyLen ∧ settings.Valid ∧ read body = settings := by
  have hdecode : decode body =
      if body.length ≠ bodyLen then .error (.invalidSettingsLength body.length)
      else if (read body).Valid then .ok (read body) else .error .invalidSettingsValue := rfl
  rw [hdecode]
  by_cases hlength : body.length = bodyLen
  · rw [if_neg (not_not.mpr hlength)]
    by_cases hvalid : (read body).Valid
    · rw [if_pos hvalid, Except.ok.injEq]
      exact ⟨fun h => ⟨hlength, h ▸ hvalid, h⟩, fun h => h.2.2⟩
    · rw [if_neg hvalid]
      exact ⟨fun h => (by cases h), fun h => absurd (h.2.2 ▸ h.2.1) hvalid⟩
  · rw [if_pos hlength]
    exact ⟨fun h => (by cases h), fun h => absurd h.1 hlength⟩

@[simp] theorem length_encode (settings : PeerSettings) : settings.encode.length = bodyLen := by
  simp [encode, bodyLen]

theorem read_encode (settings : PeerSettings) : read settings.encode = settings := by
  simp [read, encode, slice, List.drop_append, List.drop_eq_nil_of_le, List.take_of_length_le]

/-- The nine fields are all there is in a body of the exact length. -/
theorem encode_read (h : body.length = bodyLen) : (read body).encode = body := by
  have hlength : body.length = 44 := h
  have hjoin {start stop : ℕ} (hle : start ≤ stop) :
      slice body start stop ++ body.drop stop = body.drop start := slice_append_drop hle
  have hlast : slice body 36 44 = body.drop 36 := by
    rw [← hjoin (by decide : 36 ≤ 44), List.drop_eq_nil_of_le hlength.le, List.append_nil]
  have h32 {start stop : ℕ} (hstop : stop ≤ 44) (hwidth : stop - start = 4) :
      (UInt32.fromBeBytes (slice body start stop)).toBeBytes = slice body start stop :=
    UInt32.toBeBytes_fromBeBytes ((length_slice (hlength ▸ hstop)).trans hwidth)
  have h64 {start stop : ℕ} (hstop : stop ≤ 44) (hwidth : stop - start = 8) :
      (UInt64.fromBeBytes (slice body start stop)).toBeBytes = slice body start stop :=
    UInt64.toBeBytes_fromBeBytes ((length_slice (hlength ▸ hstop)).trans hwidth)
  simp only [read, encode, List.append_assoc]
  rw [h32 (by decide) rfl, h32 (by decide) rfl, h32 (by decide) rfl, h32 (by decide) rfl,
    h32 (by decide) rfl, h32 (by decide) rfl, h32 (by decide) rfl, h64 (by decide) rfl,
    h64 (by decide) rfl, hlast, hjoin (by decide), hjoin (by decide), hjoin (by decide),
    hjoin (by decide), hjoin (by decide), hjoin (by decide), hjoin (by decide), hjoin (by decide),
    List.drop_zero]

/-- A body is decoded to the settings that it encodes, if they are valid. -/
theorem decode_eq_ok_iff :
    decode body = .ok settings ↔ settings.Valid ∧ body = settings.encode := by
  rw [decode_eq_ok_iff_read]
  constructor
  · rintro ⟨hlength, hvalid, rfl⟩
    exact ⟨hvalid, (encode_read hlength).symm⟩
  · rintro ⟨hvalid, rfl⟩
    exact ⟨settings.length_encode, hvalid, settings.read_encode⟩

/-! ### The order of settings -/

/-- Limits that are not larger, and masks without further bits. -/
structure Within (settings bound : PeerSettings) : Prop where
  maxBodyLen : settings.maxBodyLen ≤ bound.maxBodyLen
  maxDecodedBodyLen : settings.maxDecodedBodyLen ≤ bound.maxDecodedBodyLen
  maxMetadataLen : settings.maxMetadataLen ≤ bound.maxMetadataLen
  maxInFlight : settings.maxInFlight ≤ bound.maxInFlight
  maxConcurrentStreams : settings.maxConcurrentStreams ≤ bound.maxConcurrentStreams
  initialStreamCredit : settings.initialStreamCredit ≤ bound.initialStreamCredit
  compressionCodecs :
    settings.compressionCodecs &&& bound.compressionCodecs = settings.compressionCodecs
  features : settings.features &&& bound.features = settings.features
  diagnosticFeatures :
    settings.diagnosticFeatures &&& bound.diagnosticFeatures = settings.diagnosticFeatures

section Words

variable {a b c : UInt32}

theorem min_le_left : min a b ≤ a := by
  change (if a ≤ b then a else b) ≤ a
  split_ifs with h
  · exact UInt32.le_refl a
  · exact UInt32.le_of_lt (UInt32.not_le.mp h)

theorem min_le_right : min a b ≤ b := UInt32.le_iff_toNat_le.mpr (toNat_min_le_right a b)

theorem le_min (ha : c ≤ a) (hb : c ≤ b) : c ≤ min a b := by
  change c ≤ if a ≤ b then a else b
  split_ifs
  · exact ha
  · exact hb

theorem and_and_left : a &&& b &&& a = a &&& b := by
  rw [UInt32.and_comm a b, UInt32.and_assoc, UInt32.and_self]

theorem and_and_right : a &&& b &&& b = a &&& b := by
  rw [UInt32.and_assoc, UInt32.and_self]

theorem and_and_of_and_eq (ha : c &&& a = c) (hb : c &&& b = c) : c &&& (a &&& b) = c := by
  rw [← UInt32.and_assoc, ha, hb]

variable {x y z : UInt64}

theorem and_and_left' : x &&& y &&& x = x &&& y := by
  rw [UInt64.and_comm x y, UInt64.and_assoc, UInt64.and_self]

theorem and_and_right' : x &&& y &&& y = x &&& y := by
  rw [UInt64.and_assoc, UInt64.and_self]

theorem and_and_of_and_eq' (hx : z &&& x = z) (hy : z &&& y = z) : z &&& (x &&& y) = z := by
  rw [← UInt64.and_assoc, hx, hy]

end Words

variable (client server : PeerSettings)

theorem negotiate_within_left : (client.negotiate server).Within client :=
  ⟨min_le_left, min_le_left, min_le_left, min_le_left, min_le_left, min_le_left, and_and_left,
    and_and_left', and_and_left'⟩

theorem negotiate_within_right : (client.negotiate server).Within server :=
  ⟨min_le_right, min_le_right, min_le_right, min_le_right, min_le_right, min_le_right,
    and_and_right, and_and_right', and_and_right'⟩

/-- Settings that both peers can serve are within the negotiated ones. -/
theorem Within.negotiate {client server : PeerSettings} (hclient : settings.Within client)
    (hserver : settings.Within server) : settings.Within (client.negotiate server) where
  maxBodyLen := le_min hclient.maxBodyLen hserver.maxBodyLen
  maxDecodedBodyLen := le_min hclient.maxDecodedBodyLen hserver.maxDecodedBodyLen
  maxMetadataLen := le_min hclient.maxMetadataLen hserver.maxMetadataLen
  maxInFlight := le_min hclient.maxInFlight hserver.maxInFlight
  maxConcurrentStreams := le_min hclient.maxConcurrentStreams hserver.maxConcurrentStreams
  initialStreamCredit := le_min hclient.initialStreamCredit hserver.initialStreamCredit
  compressionCodecs := and_and_of_and_eq hclient.compressionCodecs hserver.compressionCodecs
  features := and_and_of_and_eq' hclient.features hserver.features
  diagnosticFeatures := and_and_of_and_eq' hclient.diagnosticFeatures hserver.diagnosticFeatures

end PeerSettings

end MoonLightBridge.Protocol
