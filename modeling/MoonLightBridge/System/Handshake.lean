import MoonLightBridge.Client.Handshake
import MoonLightBridge.System.FrameAgreement

/-!
# The handshake

The beginning of the server's `serve_connection`, and with it the whole handshake:
the HELLO of one side, the negotiated settings in a WELCOME of the other, and the
checks of the Java client.
-/

namespace MoonLightBridge

open Protocol

/-- Why a connection ends before it was served; a HELLO that does not come in time
ends it, too. -/
inductive Server.HelloError
  | read (error : ReadError)
  /-- "HELLO must be the first frame" -/
  | notFirst
  | invalidSettings (error : ProtocolError)

/-- The first frame of a connection: the negotiated settings and the rest of the input. -/
def Server.acceptHello (server : PeerSettings) (input : Bytes) :
    Except Server.HelloError (PeerSettings × Bytes) :=
  match readFrame (UInt32.ofNat PeerSettings.bodyLen) input with
  | .error error => .error (.read error)
  | .ok (hello, rest) =>
    if hello.kind ≠ .hello ∨ hello.requestId ≠ 0 then .error .notFirst
    else
      match PeerSettings.decode hello.body with
      | .error error => .error (.invalidSettings error)
      | .ok client => .ok (client.negotiate server, rest)

/-- The frame that announces the negotiated settings. -/
def Server.welcome (negotiated : PeerSettings) : Frame := .new .welcome 0 0 negotiated.encode

theorem valid_default : PeerSettings.default.Valid := by decide

/-- The server reads the settings of a HELLO as they were announced. -/
theorem acceptHello_wire {client : PeerSettings} (hclient : client.Valid) (server : PeerSettings)
    (rest : Bytes) :
    Server.acceptHello server ((Frame.new .hello 0 0 client.encode).wire ++ rest) =
      .ok (client.negotiate server, rest) := by
  have hread : readFrame (UInt32.ofNat PeerSettings.bodyLen)
      ((Frame.new .hello 0 0 client.encode).wire ++ rest) =
        .ok (Frame.new .hello 0 0 client.encode, rest) := by
    apply readFrame_wire
    · exact UInt16.zero_and
    · exact client.length_encode.le
  have hdecode : PeerSettings.decode client.encode = .ok client :=
    PeerSettings.decode_eq_ok_iff.mpr ⟨hclient, rfl⟩
  unfold Server.acceptHello
  rw [hread]
  simp only [Frame.new, hdecode, ne_eq, not_true_eq_false, or_self, if_false]

/-- The Java client accepts settings that are valid and within what it announced. -/
theorem handshake_welcome {negotiated : PeerSettings} (hvalid : negotiated.Valid)
    (hwithin : negotiated.Within PeerSettings.default) (rest : Bytes) :
    Client.handshake ((Server.welcome negotiated).wire ++ rest) =
      .ok (.ofSettings negotiated, rest) := by
  have hread : Client.readFrame 44 ((Server.welcome negotiated).wire ++ rest) =
      .ok (Client.WireFrame.ofFrame (Server.welcome negotiated), rest) := by
    apply Client.readFrame_wire
    · decide
    · exact UInt16.zero_and
    · exact negotiated.length_encode.le
  have hwelcome : Client.Welcome.read negotiated.encode = .ofSettings negotiated := by
    rw [Client.Welcome.read_eq, PeerSettings.read_encode]
  have haccept := Client.isValid_ofSettings_iff.mpr ⟨hvalid, hwithin⟩
  have hlength : negotiated.encode.length = 44 := negotiated.length_encode
  unfold Client.handshake
  rw [hread]
  simp only [Client.WireFrame.ofFrame, Server.welcome, Frame.new, hwelcome, haccept, hlength]
  rfl

/-- Negotiated settings are valid, are decoded from their encoding, and are the greatest that are
within those of both peers, still with the mandatory codec; a body is accepted exactly if it
encodes valid settings. With the Java client's HELLO the server negotiates settings that the
client accepts when it reads the WELCOME. -/
theorem negotiation_is_meet (client server : PeerSettings) (hclient : client.Valid)
    (hserver : server.Valid) :
    ((client.negotiate server).Valid ∧
      PeerSettings.decode (client.negotiate server).encode = .ok (client.negotiate server) ∧
      (client.negotiate server).Within client ∧ (client.negotiate server).Within server ∧
      (∀ settings : PeerSettings, settings.Within client → settings.Within server →
        settings.Within (client.negotiate server)) ∧
      (client.negotiate server).compressionCodecs &&& compressionCodecNone ≠ 0) ∧
    (∀ body, (∃ settings, PeerSettings.decode body = .ok settings) ↔
      ∃ settings : PeerSettings, settings.Valid ∧ body = settings.encode) ∧
    ∀ rest rest', ∃ negotiated,
      Server.acceptHello server (Client.hello ++ rest) = .ok (negotiated, rest) ∧
      Client.handshake ((Server.welcome negotiated).wire ++ rest') =
        .ok (.ofSettings negotiated, rest') := by
  have hvalid := hclient.negotiate hserver
  refine ⟨⟨hvalid, PeerSettings.decode_eq_ok_iff.mpr ⟨hvalid, rfl⟩,
    client.negotiate_within_left server, client.negotiate_within_right server,
    fun settings => PeerSettings.Within.negotiate, hvalid.2.2.2.2.2.2⟩, ?_, ?_⟩
  · intro body
    simp only [PeerSettings.decode_eq_ok_iff]
  · intro rest rest'
    refine ⟨PeerSettings.default.negotiate server, ?_, ?_⟩
    · rw [Client.hello_eq]
      exact acceptHello_wire valid_default server rest
    · exact handshake_welcome (valid_default.negotiate hserver)
        (PeerSettings.default.negotiate_within_left server) rest'

/-- A server with larger limits than any Java `int`, and every codec. -/
def unboundedSettings : PeerSettings where
  maxBodyLen := 0xFFFFFFFF
  maxDecodedBodyLen := 0xFFFFFFFF
  maxMetadataLen := 0xFFFFFFFF
  maxInFlight := 0xFFFFFFFF
  maxConcurrentStreams := 0xFFFFFFFF
  initialStreamCredit := 0xFFFFFFFF
  compressionCodecs := 0xFFFFFFFF
  features := 0xFFFFFFFFFFFFFFFF
  diagnosticFeatures := 0xFFFFFFFFFFFFFFFF

theorem negotiation_is_meet_unboundedSettings :
    unboundedSettings.Valid ∧ (PeerSettings.default.negotiate unboundedSettings).Valid ∧
      ∃ negotiated, Server.acceptHello unboundedSettings (Client.hello ++ []) =
        .ok (negotiated, []) := by
  have hmeet := negotiation_is_meet PeerSettings.default unboundedSettings (by decide) (by decide)
  obtain ⟨negotiated, haccept, -⟩ := hmeet.2.2 [] []
  exact ⟨by decide, hmeet.1.1, negotiated, haccept⟩

end MoonLightBridge
