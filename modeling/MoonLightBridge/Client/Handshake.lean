import MoonLightBridge.Client.Inbound
import MoonLightBridge.Protocol.Negotiation

/-!
# The handshake of the Java client

The constructor of `MoonLightClient`, written from its source: a HELLO that is the
same for every connection, and the checks of the WELCOME that answers it. The client
reads the settings as signed `int`s and `long`s, and compares them with what it
announced.
-/

namespace MoonLightBridge.Client

open Protocol

def defaultMaxBodyLength : Int32 := 8 * 1024 * 1024

def defaultMaxDecodedBodyLength : Int32 := 16 * 1024 * 1024

def defaultMaxMetadataLength : Int32 := 16 * 1024

def defaultMaxInFlight : Int32 := 256

def defaultMaxConcurrentStreams : Int32 := 64

def defaultInitialStreamCredit : Int32 := 32

/-- `FEATURES`; the first three bits have no name in the client. -/
def clientFeatures : Int64 :=
  (1 : Int64) ||| (1 : Int64) <<< 1 ||| (1 : Int64) <<< 2 ||| (1 : Int64) <<< 3 |||
    (1 : Int64) <<< 4 ||| (1 : Int64) <<< 5 ||| (1 : Int64) <<< 6

/-- `HELLO` -/
def helloKind : UInt8 := 16

/-- `WELCOME` -/
def welcomeKind : UInt8 := 17

/-- The settings that the client announces. -/
def helloBody : Bytes :=
  defaultMaxBodyLength.toUInt32.toBeBytes ++ defaultMaxDecodedBodyLength.toUInt32.toBeBytes ++
    defaultMaxMetadataLength.toUInt32.toBeBytes ++ defaultMaxInFlight.toUInt32.toBeBytes ++
    defaultMaxConcurrentStreams.toUInt32.toBeBytes ++
    defaultInitialStreamCredit.toUInt32.toBeBytes ++ (3 : Int32).toUInt32.toBeBytes ++
    clientFeatures.toUInt64.toBeBytes ++ (0 : Int64).toUInt64.toBeBytes

/-- `writeFrameDirect`: the bytes it writes. -/
def writeFrameDirect (kind : UInt8) (flags : UInt16) (methodId : Int32) (requestId : Int64)
    (body : Bytes) : Bytes :=
  frameMagic.toUInt32.toBeBytes ++ [frameVersion] ++ [kind] ++ flags.toBeBytes ++
    (UInt32.ofNat body.length).toBeBytes ++ methodId.toUInt32.toBeBytes ++
    requestId.toUInt64.toBeBytes ++ body

/-- The HELLO frame, as the client writes it. -/
def hello : Bytes := writeFrameDirect helloKind 0 0 0 helloBody

/-- The variables a WELCOME body is read into. -/
structure Welcome where
  maxBodyLength : Int32
  maxDecodedBodyLength : Int32
  maxMetadataLength : Int32
  maxInFlight : Int32
  maxConcurrentStreams : Int32
  initialStreamCredit : Int32
  compressionCodecs : Int32
  negotiatedFeatures : Int64
  diagnosticFeatures : Int64
  deriving DecidableEq, Repr

namespace Welcome

/-- `getInt` and `getLong` along the buffer. -/
def read (body : Bytes) : Welcome where
  maxBodyLength := (UInt32.fromBeBytes (slice body 0 4)).toInt32
  maxDecodedBodyLength := (UInt32.fromBeBytes (slice body 4 8)).toInt32
  maxMetadataLength := (UInt32.fromBeBytes (slice body 8 12)).toInt32
  maxInFlight := (UInt32.fromBeBytes (slice body 12 16)).toInt32
  maxConcurrentStreams := (UInt32.fromBeBytes (slice body 16 20)).toInt32
  initialStreamCredit := (UInt32.fromBeBytes (slice body 20 24)).toInt32
  compressionCodecs := (UInt32.fromBeBytes (slice body 24 28)).toInt32
  negotiatedFeatures := (UInt64.fromBeBytes (slice body 28 36)).toInt64
  diagnosticFeatures := (UInt64.fromBeBytes (slice body 36 44)).toInt64

/-- The condition under which the client refuses a limit. -/
def refuses (limit default : Int32) : Bool := limit ≤ 0 || limit > default

/-- The settings are not refused. -/
def isValid (welcome : Welcome) : Bool :=
  !(refuses welcome.maxBodyLength defaultMaxBodyLength ||
    refuses welcome.maxDecodedBodyLength defaultMaxDecodedBodyLength ||
    refuses welcome.maxMetadataLength defaultMaxMetadataLength ||
    refuses welcome.maxInFlight defaultMaxInFlight ||
    refuses welcome.maxConcurrentStreams defaultMaxConcurrentStreams ||
    refuses welcome.initialStreamCredit defaultInitialStreamCredit ||
    welcome.compressionCodecs &&& 1 == 0 || welcome.compressionCodecs &&& ~~~3 != 0 ||
    welcome.negotiatedFeatures &&& ~~~clientFeatures != 0 || welcome.diagnosticFeatures != 0)

end Welcome

/-- The `IOException`s of the handshake. -/
inductive HandshakeException
  | read (error : ReadException)
  | notCompleted
  | invalidSettings
  deriving DecidableEq, Repr

def HandshakeException.getMessage : HandshakeException → Option String
  | .read error => error.getMessage
  | .notCompleted => some "server did not complete the MoonLightBridge handshake"
  | .invalidSettings => some "server returned invalid MoonLightBridge settings"

/-- The part of the constructor that waits for the WELCOME. Also returns the unread
rest of the stream. -/
def handshake (input : Bytes) : Except HandshakeException (Welcome × Bytes) :=
  match readFrame 44 input with
  | .error error => .error (.read error)
  | .ok (welcome, rest) =>
    if welcome.kind ≠ welcomeKind ∨ welcome.requestId ≠ 0 ∨ welcome.methodId ≠ 0 ∨
        welcome.flags ≠ 0 ∨ welcome.body.length ≠ 44 then .error .notCompleted
    else if (Welcome.read welcome.body).isValid then .ok (Welcome.read welcome.body, rest)
    else .error .invalidSettings

/-! ### The HELLO -/

theorem hello_eq : hello = (Frame.new .hello 0 0 PeerSettings.default.encode).wire := by
  decide

/-! ### The WELCOME -/

/-- A limit is accepted if it is positive and not above the announced one, as an unsigned word. -/
theorem refuses_eq_false_iff {limit : UInt32} {default : Int32} (hdefault : 0 ≤ default) :
    Welcome.refuses limit.toInt32 default = false ↔ limit ≠ 0 ∧ limit ≤ default.toUInt32 := by
  have hrange := UInt32.toInt32_range_iff (x := limit) hdefault
  have hzero : limit ≠ 0 ↔ limit.toInt32.toInt ≠ 0 := by
    rw [not_iff_not]
    constructor
    · rintro rfl
      rfl
    · intro h
      exact congrArg Int32.toUInt32 (Int32.toInt_inj.mp (h.trans Int32.toInt_zero.symm))
  rw [Welcome.refuses, Bool.or_eq_false_iff, decide_eq_false_iff_not, decide_eq_false_iff_not,
    Int32.not_le, gt_iff_lt, Int32.not_lt, ← hrange, hzero, Int32.lt_iff_toInt_lt,
    Int32.le_iff_toInt_le, Int32.le_iff_toInt_le, Int32.toInt_zero]
  omega

/-- A mask has no bits but the given ones. -/
theorem and_not_eq_zero_iff {w : ℕ} {x mask : BitVec w} : x &&& ~~~mask = 0#w ↔ x &&& mask = x := by
  constructor
  · intro h
    calc x &&& mask
      _ = x &&& mask ||| x &&& ~~~mask := by rw [h, BitVec.or_zero]
      _ = x &&& (mask ||| ~~~mask) := BitVec.and_or_distrib_left.symm
      _ = x := by rw [BitVec.or_not_self, BitVec.and_allOnes]
  · intro h
    rw [← h, BitVec.and_assoc, BitVec.and_not_self]
    exact BitVec.and_zero

theorem codecs_iff {codecs : UInt32} :
    codecs.toInt32 &&& ~~~3 = 0 ↔ codecs &&& 3 = codecs := by
  rw [← Int32.toBitVec_inj, ← UInt32.toBitVec_inj]
  exact and_not_eq_zero_iff

theorem features_iff {features : UInt64} :
    features.toInt64 &&& ~~~clientFeatures = 0 ↔ features &&& serverFeatures = features := by
  rw [← Int64.toBitVec_inj, ← UInt64.toBitVec_inj]
  exact and_not_eq_zero_iff

/-- Settings as the client reads them. -/
def Welcome.ofSettings (settings : PeerSettings) : Welcome where
  maxBodyLength := settings.maxBodyLen.toInt32
  maxDecodedBodyLength := settings.maxDecodedBodyLen.toInt32
  maxMetadataLength := settings.maxMetadataLen.toInt32
  maxInFlight := settings.maxInFlight.toInt32
  maxConcurrentStreams := settings.maxConcurrentStreams.toInt32
  initialStreamCredit := settings.initialStreamCredit.toInt32
  compressionCodecs := settings.compressionCodecs.toInt32
  negotiatedFeatures := settings.features.toInt64
  diagnosticFeatures := settings.diagnosticFeatures.toInt64

theorem Welcome.read_eq (body : Bytes) :
    Welcome.read body = .ofSettings (PeerSettings.read body) :=
  rfl

/-- The client accepts the settings that are valid and within what it announced. -/
theorem isValid_ofSettings_iff {settings : PeerSettings} :
    (Welcome.ofSettings settings).isValid = true ↔
      settings.Valid ∧ settings.Within PeerSettings.default := by
  have hcodec : settings.compressionCodecs.toInt32 &&& 1 = 0 ↔
      settings.compressionCodecs &&& 1 = 0 :=
    ⟨fun h => congrArg Int32.toUInt32 h, fun h => congrArg UInt32.toInt32 h⟩
  have hdiagnostic : settings.diagnosticFeatures.toInt64 = 0 ↔
      settings.diagnosticFeatures &&& 0 = settings.diagnosticFeatures := by
    rw [UInt64.and_zero]
    exact ⟨fun h => (congrArg Int64.toUInt64 h).symm, fun h => (congrArg UInt64.toInt64 h).symm⟩
  simp only [Welcome.isValid, Welcome.ofSettings, Bool.not_eq_true', Bool.or_eq_false_iff,
    beq_eq_false_iff_ne, bne_eq_false_iff_eq, ne_eq, hcodec, hdiagnostic, codecs_iff, features_iff]
  rw [refuses_eq_false_iff (by decide), refuses_eq_false_iff (by decide),
    refuses_eq_false_iff (by decide), refuses_eq_false_iff (by decide),
    refuses_eq_false_iff (by decide), refuses_eq_false_iff (by decide)]
  constructor
  · rintro ⟨⟨⟨⟨⟨⟨⟨⟨⟨⟨h₁, k₁⟩, h₂, k₂⟩, h₃, k₃⟩, h₄, k₄⟩, h₅, k₅⟩, h₆, k₆⟩, h₇⟩, k₇⟩, k₈⟩, k₉⟩
    exact ⟨⟨h₁, h₂, h₃, h₄, h₅, h₆, h₇⟩, ⟨k₁, k₂, k₃, k₄, k₅, k₆, k₇, k₈, k₉⟩⟩
  · rintro ⟨⟨h₁, h₂, h₃, h₄, h₅, h₆, h₇⟩, ⟨k₁, k₂, k₃, k₄, k₅, k₆, k₇, k₈, k₉⟩⟩
    exact ⟨⟨⟨⟨⟨⟨⟨⟨⟨⟨h₁, k₁⟩, h₂, k₂⟩, h₃, k₃⟩, h₄, k₄⟩, h₅, k₅⟩, h₆, k₆⟩, h₇⟩, k₇⟩, k₈⟩, k₉⟩

end MoonLightBridge.Client
