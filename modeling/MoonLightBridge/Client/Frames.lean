import MoonLightBridge.Protocol.Frame

/-!
# Frames in the Java client

`MoonLightClient.readFrame`, written from its source: the fields are read off the
stream with the primitive reads of `DataInputStream`, as signed numbers where
Java has no unsigned type, and checked in one condition.
-/

namespace MoonLightBridge.Client

open Protocol

/-- `MAGIC` -/
def frameMagic : Int32 := 0x4D4C4252

/-- `VERSION` -/
def frameVersion : UInt8 := 2

/-- `FLAG_HAS_METADATA` -/
def frameHasMetadata : UInt16 := 1

/-- The local variables `readFrame` reads a header into. -/
structure FrameHeader where
  magic : Int32
  version : UInt8
  kind : UInt8
  flags : UInt16
  bodyLength : Int32
  methodId : Int32
  requestId : Int64
  deriving DecidableEq, Repr

/-- `readInt`, two times `readUnsignedByte`, `readUnsignedShort`, two times
`readInt`, `readLong`. -/
def readHeader (header : Header) : FrameHeader where
  magic := (UInt32.fromBeBytes (slice header.1 0 4)).toInt32
  version := header.1.getD 4 0
  kind := header.1.getD 5 0
  flags := UInt16.fromBeBytes (slice header.1 6 8)
  bodyLength := (UInt32.fromBeBytes (slice header.1 8 12)).toInt32
  methodId := (UInt32.fromBeBytes (slice header.1 12 16)).toInt32
  requestId := (UInt64.fromBeBytes (slice header.1 16 24)).toInt64

/-- The condition of `readFrame`, negated. It does not look at the kind. -/
def FrameHeader.isValid (header : FrameHeader) (bodyLimit : Int32) : Bool :=
  !(header.magic != frameMagic || header.version != frameVersion ||
    header.flags &&& ~~~frameHasMetadata != 0 ||
    header.bodyLength < 0 || header.bodyLength > bodyLimit)

/-- `record Frame` of the client; the kind is whatever byte was received. -/
structure WireFrame where
  kind : UInt8
  flags : UInt16
  methodId : Int32
  requestId : Int64
  body : Bytes
  deriving DecidableEq, Repr

/-- The exceptions of `readFrame`. -/
inductive ReadException
  /-- an `EOFException` of a primitive read -/
  | endOfStream
  | invalidHeader
  | truncatedBody
  deriving DecidableEq, Repr

/-- `null` for the exception `DataInputStream` throws. -/
def ReadException.getMessage : ReadException → Option String
  | .endOfStream => none
  | .invalidHeader => some "invalid MoonLightBridge frame header"
  | .truncatedBody => some "truncated MoonLightBridge frame body"

/-- `MoonLightClient.readFrame`. Also returns the unread rest of the stream. -/
def readFrame (bodyLimit : Int32) (input : Bytes) : Except ReadException (WireFrame × Bytes) :=
  if hheader : headerLen ≤ input.length then
    let header := readHeader ⟨input.take headerLen, List.length_take_of_le hheader⟩
    if header.isValid bodyLimit then
      let rest := input.drop headerLen
      -- the length is not negative here, and `readNBytes` stops at the end of the stream
      let bodyLength := header.bodyLength.toInt.toNat
      let body := rest.take bodyLength
      if body.length ≠ bodyLength then .error .truncatedBody
      else
        .ok (⟨header.kind, header.flags, header.methodId, header.requestId, body⟩,
          rest.drop bodyLength)
    else .error .invalidHeader
  else .error .endOfStream

end MoonLightBridge.Client
