import MoonLightBridge.Client.BufferPool
import MoonLightBridge.Protocol.Frame
import MoonLightBridge.Semantics.Ownership

/-!
# How the client writes frames

A frame is encoded into a pooled array by the thread that sends it. A unary request may then
be written by this thread itself, if the connection is idle. All other frames are put into the
queue of the writer thread, which takes them out in batches, drops requests that nobody waits
for any more, and writes a batch at once. Both paths hold the lock `writeLock` while they
write, and give the arrays back to the pool when they are done with them.

Writing an array is not one step. Its bytes enter the buffer of the output stream, and leave
it for the socket, a few at a time. A write that fails leaves the socket unusable.
-/

namespace MoonLightBridge.Client

open Protocol Transition Threads

/-- A frame that is to be written. The calls that send frames are numbered. -/
structure OutboundFrame where
  ticket : ℕ
  frame : Frame
  bytes : Buffer
  /-- the request of a unary call -/
  isUnary : Bool
  deriving DecidableEq, Repr

namespace OutboundFrame

def length (out : OutboundFrame) : ℕ := out.frame.wire.length

/-- The bytes of frames that follow one another. -/
def wire (frames : List OutboundFrame) : Bytes := frames.flatMap fun out => out.frame.wire

theorem wire_append (frames frames' : List OutboundFrame) :
    wire (frames ++ frames') = wire frames ++ wire frames' := List.flatMap_append

theorem wire_singleton (out : OutboundFrame) : wire [out] = out.frame.wire := by simp [wire]

end OutboundFrame

namespace WritePaths

/-- What the environment decides. -/
inductive Choice where
  /-- Something is not possible: the connection is not idle, the time of a request is over, or
  the writer is interrupted. An array that is given back is kept by the pool. -/
  | plain (refuses keeps : Bool)
  /-- bytes of the array enter the output stream -/
  | moves (count : ℕ)
  /-- bytes of the output stream reach the socket -/
  | passes (count : ℕ)
  /-- an `IOException` -/
  | fails
  deriving DecidableEq, Repr

namespace Choice

def refuses : Choice → Bool
  | .plain refuses _ => refuses
  | _ => false

def keeps : Choice → Bool
  | .plain _ keeps => keeps
  | _ => false

end Choice

/-! ### The output stream -/

/-- The output stream and the socket behind it. -/
structure Output where
  /-- the buffer of the output stream -/
  stream : Bytes
  /-- what was written to the socket since the handshake -/
  socket : Bytes
  /-- the frames that entered the output stream in full -/
  written : List OutboundFrame
  /-- the frames of a write that failed; the socket does not take any bytes after it -/
  torn : Option (List OutboundFrame)
  deriving DecidableEq, Repr

/-- How far a write has come. -/
inductive Progress where
  | going (sent : ℕ)
  | done
  | failed
  deriving DecidableEq, Repr

namespace Output

/-- Some bytes leave the stream for the socket. -/
def pass (output : Output) (count : ℕ) : Output :=
  { output with
    socket := output.socket ++ output.stream.take count
    stream := output.stream.drop count }

def fail (output : Output) (frames : List OutboundFrame) : Output :=
  { output with torn := some (output.torn.getD frames) }

/-- A step of `output.write(source, 0, length)`, of which `sent` bytes are done. -/
def write (output : Output) (choice : Choice) (source : Bytes) (frames : List OutboundFrame)
    (length sent : ℕ) : Option (Output × Progress) :=
  match choice with
  | .fails => some (output.fail frames, .failed)
  | .moves count =>
    if output.torn = none ∧ sent + count ≤ length then
      some ({ output with stream := output.stream ++ slice source sent (sent + count) },
        .going (sent + count))
    else none
  | .passes count => if output.torn = none then some (output.pass count, .going sent) else none
  | .plain _ _ =>
    if output.torn = none ∧ sent = length then
      some ({ output with written := output.written ++ frames }, .done)
    else none

/-- A step of `output.flush()`. -/
def flush (output : Output) (choice : Choice) : Option (Output × Progress) :=
  match choice with
  | .fails => some (output.fail [], .failed)
  | .moves _ => none
  | .passes count => if output.torn = none then some (output.pass count, .going 0) else none
  | .plain _ _ => if output.torn = none ∧ output.stream = [] then some (output, .done) else none

/-- The frames that are on the socket, some of them perhaps not in full. -/
def frames (output : Output) : List OutboundFrame := output.written ++ output.torn.getD []

end Output

section Output

variable {output output' : Output} {choice : Choice} {source : Bytes}
  {frames : List OutboundFrame} {length sent : ℕ} {progress : Progress}

/-- The steps of a write. -/
inductive WriteSteps (output : Output) (source : Bytes) (frames : List OutboundFrame)
    (length sent : ℕ) : Output → Progress → Prop where
  | failed : WriteSteps output source frames length sent (output.fail frames) .failed
  | moved {count : ℕ} : output.torn = none → sent + count ≤ length →
      WriteSteps output source frames length sent
        { output with stream := output.stream ++ slice source sent (sent + count) }
        (.going (sent + count))
  | passed {count : ℕ} : output.torn = none →
      WriteSteps output source frames length sent (output.pass count) (.going sent)
  | done : output.torn = none → sent = length →
      WriteSteps output source frames length sent
        { output with written := output.written ++ frames } .done

/-- The steps of a flush. -/
inductive FlushSteps (output : Output) : Output → Progress → Prop where
  | failed : FlushSteps output (output.fail []) .failed
  | passed {count : ℕ} : output.torn = none → FlushSteps output (output.pass count) (.going 0)
  | done : output.torn = none → output.stream = [] → FlushSteps output output .done

theorem writeSteps_of_write
    (h : output.write choice source frames length sent = some (output', progress)) :
    WriteSteps output source frames length sent output' progress := by
  cases choice with
  | fails =>
    cases h
    exact .failed
  | moves count =>
    simp only [Output.write] at h
    split_ifs at h with hguard
    cases h
    exact .moved hguard.1 hguard.2
  | passes count =>
    simp only [Output.write] at h
    split_ifs at h with htorn
    cases h
    exact .passed htorn
  | plain refuses keeps =>
    simp only [Output.write] at h
    split_ifs at h with hguard
    cases h
    exact .done hguard.1 hguard.2

theorem flushSteps_of_flush (h : output.flush choice = some (output', progress)) :
    FlushSteps output output' progress := by
  cases choice with
  | fails =>
    cases h
    exact .failed
  | moves count => cases h
  | passes count =>
    simp only [Output.flush] at h
    split_ifs at h with htorn
    cases h
    exact .passed htorn
  | plain refuses keeps =>
    simp only [Output.flush] at h
    split_ifs at h with hguard
    cases h
    exact .done hguard.1 hguard.2

theorem Output.frames_of_torn_eq_none (h : output.torn = none) :
    output.frames = output.written := by
  rw [Output.frames, h, Option.getD_none, List.append_nil]

/-- After a failure no frames are added. -/
theorem Output.frames_fail (output : Output) (frames : List OutboundFrame) :
    (output.fail frames).frames = output.frames ∨
      (output.fail frames).frames = output.frames ++ frames := by
  cases htorn : output.torn with
  | some torn => exact .inl (by simp [Output.frames, Output.fail, htorn])
  | none => exact .inr (by simp [Output.frames, Output.fail, htorn])

/-- The frames of a write count when it is over. -/
theorem Output.frames_of_write (h : WriteSteps output source frames length sent output' progress) :
    output'.frames = output.frames ∨
      (∀ sent, progress ≠ .going sent) ∧ output'.frames = output.frames ++ frames := by
  cases h with
  | failed =>
    rcases output.frames_fail frames with hframes | hframes
    · exact .inl hframes
    · exact .inr ⟨by simp, hframes⟩
  | moved | passed => exact .inl rfl
  | done htorn =>
    refine .inr ⟨by simp, ?_⟩
    rw [frames_of_torn_eq_none htorn]
    exact frames_of_torn_eq_none htorn

theorem Output.frames_of_flush (h : FlushSteps output output' progress) :
    output'.frames = output.frames := by
  cases h with
  | failed =>
    rcases output.frames_fail [] with hframes | hframes
    · exact hframes
    · rw [hframes, List.append_nil]
  | passed | done => rfl

end Output

/-! ### The threads -/

/-- What the client knows about a request id. Ids are not used again. -/
structure RequestEntry where
  isUsed : Bool
  isUnary : Bool
  /-- it is in `pending` or in `streams` -/
  isRegistered : Bool
  /-- `enqueueRequestFrame` has returned, or has thrown -/
  hasReturned : Bool
  deriving DecidableEq, Repr

/-- Where the writer thread is. -/
inductive WriterPhase where
  /-- `outgoing.take` -/
  | take
  /-- `isExpired` -/
  | judge (out : OutboundFrame)
  /-- `outgoing.peek` and `outgoing.poll` -/
  | gather
  /-- `writeLock.lock` -/
  | lock
  /-- `writeBatch` of several frames -/
  | combine
  | copy (combined : Buffer) (copied : ℕ)
  | write (combined : Option Buffer) (sent : ℕ)
  /-- the `finally` of `writeBatch` -/
  | releaseCombined (combined : Option Buffer) (isWritten : Bool)
  | flush
  | unlock (isWritten : Bool)
  /-- `releaseOutbound` for the frames of the batch -/
  | release (isWritten : Bool)
  /-- the `finally` of `writeLoop` -/
  | stopped
  deriving DecidableEq, Repr

/-- Where a thread that sends a frame is. -/
inductive Stage where
  | encode
  | tryWriteDirect
  /-- the look at the queue with the lock held -/
  | isEmpty
  | write (sent : ℕ)
  | flush
  /-- `writeLock.unlock`; a frame that was refused has to be queued -/
  | unlock (isRefused : Bool)
  | offer
  | release
  deriving DecidableEq, Repr

inductive Instruction where
  /-- `sendRequest` or `serverStream`, from where the call is registered -/
  | call (frame : Frame) (isUnary : Bool)
  /-- a call leaves its table -/
  | unregister (requestId : UInt64)
  /-- `writeFrame`, or the GOODBYE of `close` -/
  | control (frame : Frame)
  /-- `bufferPool.acquire` -/
  | acquire (frame : Frame) (isUnary : Bool)
  | send (stage : Stage) (out : OutboundFrame)
  | writeLoop
  deriving DecidableEq, Repr

structure Shared where
  /-- the contents of the arrays -/
  memory : ℕ → Bytes
  pool : ByteArrayPool
  /-- the frames of all calls so far -/
  issued : List Frame
  outgoing : List OutboundFrame
  /-- `writeLock` -/
  isLocked : Bool
  output : Output
  requests : UInt64 → RequestEntry
  phase : WriterPhase
  batch : List OutboundFrame

structure WriteOptions where
  outgoingQueueCapacity : ℕ
  maxBatchFrames : ℕ
  maxBatchBytes : ℕ

/-- `MAX_DIRECT_WRITE_BYTES` -/
def maxDirectWriteBytes : ℕ := 16 * 1024

/-- The contents of an array after bytes were stored in it. -/
def overlay (content : Bytes) (offset : ℕ) (bytes : Bytes) : Bytes :=
  content.take offset ++ bytes ++ content.drop (offset + bytes.length)

/-- Bytes are stored in an array. -/
def store (memory : ℕ → Bytes) (array : Buffer) (offset : ℕ) (bytes : Bytes) : ℕ → Bytes :=
  Function.update memory array.id (overlay (memory array.id) offset bytes)

/-- A call is put into its table. -/
def register (requests : UInt64 → RequestEntry) (requestId : UInt64) (isUnary : Bool) :
    UInt64 → RequestEntry :=
  Function.update requests requestId ⟨true, isUnary, true, false⟩

def unregister (requests : UInt64 → RequestEntry) (requestId : UInt64) : UInt64 → RequestEntry :=
  Function.update requests requestId { requests requestId with isRegistered := false }

/-- `enqueueRequestFrame` returns. -/
def returned (requests : UInt64 → RequestEntry) (frame : Frame) : UInt64 → RequestEntry :=
  if frame.kind = .request then
    Function.update requests frame.requestId
      { requests frame.requestId with hasReturned := true }
  else requests

namespace Shared

/-- The call has handed out what its user and its deadline can cancel it with. Before that,
only the reader of the connection cancels it, for an item of a stream that it did not expect,
and the call has left its table then. -/
def IsOpen (s : Shared) (requestId : UInt64) : Prop :=
  (s.requests requestId).isUsed = true ∧ ((s.requests requestId).hasReturned = true ∨
    (s.requests requestId).isUnary = false ∧ (s.requests requestId).isRegistered = false)

instance decidableIsOpen (s : Shared) (requestId : UInt64) : Decidable (s.IsOpen requestId) :=
  inferInstanceAs (Decidable (_ ∧ _))

/-- The frames other than requests that the client may send. -/
def maySend (s : Shared) (frame : Frame) : Bool :=
  match frame.kind with
  | .streamCredit | .cancel => s.IsOpen frame.requestId
  | .ping | .health | .goodbye => true
  | _ => false

/-- `isExpired` -/
def isExpired (s : Shared) (out : OutboundFrame) (isLate : Bool) : Bool :=
  out.frame.kind = .request && (isLate || !(s.requests out.frame.requestId).isRegistered)

/-- The array that `writeBatch` writes. -/
def source (s : Shared) (combined : Option Buffer) : Bytes :=
  match combined, s.batch with
  | some array, _ => s.memory array.id
  | none, out :: _ => s.memory out.bytes.id
  | none, [] => []

end Shared

def WriterPhase.afterWrite (combined : Option Buffer) : Progress → WriterPhase
  | .going sent => .write combined sent
  | .done => .releaseCombined combined true
  | .failed => .releaseCombined combined false

def WriterPhase.afterFlush : Progress → WriterPhase
  | .going _ => .flush
  | .done => .unlock true
  | .failed => .unlock false

/-- A step of the writer thread. -/
def writeLoop (options : WriteOptions) (choice : Choice) (s : Shared) : Option Shared :=
  match s.phase with
  | .take =>
    if choice.refuses then some { s with phase := .stopped }
    else
      match s.outgoing with
      | out :: rest => some { s with outgoing := rest, phase := .judge out }
      | [] => none
  | .judge out =>
    if s.isExpired out choice.refuses then
      some { s with
        pool := s.pool.release choice.keeps out.bytes
        phase := if s.batch = [] then .take else .gather }
    else some { s with batch := s.batch ++ [out], phase := .gather }
  | .gather =>
    match s.outgoing with
    | out :: rest =>
      if s.batch.length < options.maxBatchFrames ∧
          (OutboundFrame.wire s.batch).length + out.length ≤ options.maxBatchBytes then
        some { s with outgoing := rest, phase := .judge out }
      else some { s with phase := .lock }
    | [] => some { s with phase := .lock }
  | .lock =>
    if s.isLocked then none
    else
      some { s with
        isLocked := true
        phase := if s.batch.length = 1 then .write none 0 else .combine }
  | .combine =>
    let acquired := s.pool.acquire (OutboundFrame.wire s.batch).length
    some { s with pool := acquired.2, phase := .copy acquired.1 0 }
  | .copy combined copied =>
    match s.batch[copied]? with
    | some out =>
      some { s with
        memory := store s.memory combined (OutboundFrame.wire (s.batch.take copied)).length
          ((s.memory out.bytes.id).take out.length)
        phase := .copy combined (copied + 1) }
    | none => some { s with phase := .write (some combined) 0 }
  | .write combined sent =>
    (s.output.write choice (s.source combined) s.batch (OutboundFrame.wire s.batch).length
      sent).map fun result =>
        { s with output := result.1, phase := .afterWrite combined result.2 }
  | .releaseCombined combined isWritten =>
    match combined with
    | some array =>
      some { s with
        pool := s.pool.release choice.keeps array
        phase := if isWritten then .flush else .unlock false }
    | none => some { s with phase := if isWritten then .flush else .unlock false }
  | .flush =>
    (s.output.flush choice).map fun result =>
      { s with output := result.1, phase := .afterFlush result.2 }
  | .unlock isWritten => some { s with isLocked := false, phase := .release isWritten }
  | .release isWritten =>
    match s.batch with
    | out :: rest =>
      some { s with pool := s.pool.release choice.keeps out.bytes, batch := rest }
    | [] => some { s with phase := if isWritten then .take else .stopped }
  | .stopped =>
    match s.outgoing with
    | out :: rest =>
      some { s with pool := s.pool.release choice.keeps out.bytes, outgoing := rest }
    | [] => none

def Stage.afterWrite : Progress → Stage
  | .going sent => .write sent
  | .done => .flush
  | .failed => .unlock false

def Stage.afterFlush : Progress → Stage
  | .going _ => .flush
  | _ => .unlock false

/-- A step of a thread that sends a frame. -/
def sendStep (options : WriteOptions) (choice : Choice) (s : Shared) (out : OutboundFrame) :
    Stage → Option (Shared × Option Stage)
  | .encode =>
    some ({ s with memory := store s.memory out.bytes 0 out.frame.wire },
      some (if out.frame.kind = .request ∧ out.isUnary then .tryWriteDirect else .offer))
  | .tryWriteDirect =>
    if choice.refuses ∨ maxDirectWriteBytes < out.length ∨ s.isLocked then some (s, some .offer)
    else some ({ s with isLocked := true }, some .isEmpty)
  | .isEmpty => some (s, some (if s.outgoing = [] then .write 0 else .unlock true))
  | .write sent =>
    (s.output.write choice (s.memory out.bytes.id) [out] out.length sent).map fun result =>
      ({ s with output := result.1 }, some (.afterWrite result.2))
  | .flush =>
    (s.output.flush choice).map fun result =>
      ({ s with output := result.1 }, some (.afterFlush result.2))
  | .unlock isRefused =>
    some ({ s with isLocked := false }, some (if isRefused then .offer else .release))
  | .offer =>
    if s.outgoing.length < options.outgoingQueueCapacity then
      some ({ s with
        requests := returned s.requests out.frame
        outgoing := s.outgoing ++ [out] }, none)
    else some (s, some .release)
  | .release =>
    some ({ s with
      requests := returned s.requests out.frame
      pool := s.pool.release choice.keeps out.bytes }, none)

/-- What an instruction does, or `none` if it blocks. -/
def exec (options : WriteOptions) (_thread : ℕ) (choice : Choice) (s : Shared) :
    Instruction → Option (Effect Shared Instruction)
  | .call frame isUnary =>
    if frame.kind = .request ∧ (s.requests frame.requestId).isUsed = false then
      some { shared := { s with requests := register s.requests frame.requestId isUnary }
             next := [.acquire frame isUnary] }
    else none
  | .unregister requestId =>
    some { shared := { s with requests := unregister s.requests requestId } }
  | .control frame =>
    if s.maySend frame then some { shared := s, next := [.acquire frame false] } else none
  | .acquire frame isUnary =>
    let acquired := s.pool.acquire frame.wire.length
    some { shared := { s with pool := acquired.2, issued := s.issued ++ [frame] }
           next := [.send .encode ⟨s.issued.length, frame, acquired.1, isUnary⟩] }
  | .send stage out =>
    (sendStep options choice s out stage).map fun result =>
      { shared := result.1, next := (result.2.map fun stage => .send stage out).toList }
  | .writeLoop =>
    (writeLoop options choice s).map fun t => { shared := t, next := [.writeLoop] }

/-- What threads besides the writer may do. -/
inductive Call where
  | request (frame : Frame) (isUnary : Bool)
  | unregister (requestId : UInt64)
  | control (frame : Frame)
  deriving DecidableEq, Repr

def Call.program : Call → List Instruction
  | .request frame isUnary => [.call frame isUnary]
  | .unregister requestId => [.unregister requestId]
  | .control frame => [.control frame]

abbrev Writing := System Shared Instruction

def step (options : WriteOptions) : Writing → Label Call Choice → Option Writing :=
  Threads.step Call.program (exec options)

/-- After the handshake. What is in the memory does not matter. -/
def init (memory : ℕ → Bytes) (bufferPooling : Bool) : Writing where
  shared :=
    { memory, pool := ⟨bufferPooling, [], 0⟩, issued := [], outgoing := [], isLocked := false
      output := ⟨[], [], [], none⟩, requests := fun _ => ⟨false, false, false, false⟩
      phase := .take, batch := [] }
  threads := [[.writeLoop]]

/-! ### What each step does -/

/-- The steps of the writer thread. -/
inductive WriterSteps (options : WriteOptions) (choice : Choice) (s : Shared) : Shared → Prop where
  | interrupted : s.phase = .take → WriterSteps options choice s { s with phase := .stopped }
  | taken {out : OutboundFrame} {rest : List OutboundFrame} :
      s.phase = .take ∨ s.phase = .gather → s.outgoing = out :: rest →
      WriterSteps options choice s { s with outgoing := rest, phase := .judge out }
  | dropped {out : OutboundFrame} : s.phase = .judge out →
      WriterSteps options choice s { s with
        pool := s.pool.release choice.keeps out.bytes
        phase := if s.batch = [] then .take else .gather }
  | kept {out : OutboundFrame} : s.phase = .judge out → s.isExpired out choice.refuses = false →
      WriterSteps options choice s { s with batch := s.batch ++ [out], phase := .gather }
  | gathered : s.phase = .gather → WriterSteps options choice s { s with phase := .lock }
  | locked : s.phase = .lock → s.isLocked = false →
      WriterSteps options choice s { s with
        isLocked := true
        phase := if s.batch.length = 1 then .write none 0 else .combine }
  | combined : s.phase = .combine →
      WriterSteps options choice s { s with
        pool := (s.pool.acquire (OutboundFrame.wire s.batch).length).2
        phase := .copy (s.pool.acquire (OutboundFrame.wire s.batch).length).1 0 }
  | copied {array : Buffer} {count : ℕ} {out : OutboundFrame} :
      s.phase = .copy array count → s.batch[count]? = some out →
      WriterSteps options choice s { s with
        memory := store s.memory array (OutboundFrame.wire (s.batch.take count)).length
          ((s.memory out.bytes.id).take out.length)
        phase := .copy array (count + 1) }
  | copiedAll {array : Buffer} {count : ℕ} : s.phase = .copy array count →
      s.batch[count]? = none →
      WriterSteps options choice s { s with phase := .write (some array) 0 }
  | wrote {combined : Option Buffer} {sent : ℕ} {output : Output} {progress : Progress} :
      s.phase = .write combined sent →
      WriteSteps s.output (s.source combined) s.batch (OutboundFrame.wire s.batch).length sent
        output progress →
      WriterSteps options choice s { s with output, phase := .afterWrite combined progress }
  | releasedCombined {array : Buffer} {isWritten : Bool} :
      s.phase = .releaseCombined (some array) isWritten →
      WriterSteps options choice s { s with
        pool := s.pool.release choice.keeps array
        phase := if isWritten then .flush else .unlock false }
  | notCombined {isWritten : Bool} : s.phase = .releaseCombined none isWritten →
      WriterSteps options choice s
        { s with phase := if isWritten then .flush else .unlock false }
  | flushed {output : Output} {progress : Progress} : s.phase = .flush →
      FlushSteps s.output output progress →
      WriterSteps options choice s { s with output, phase := .afterFlush progress }
  | unlocked {isWritten : Bool} : s.phase = .unlock isWritten →
      WriterSteps options choice s { s with isLocked := false, phase := .release isWritten }
  | released {isWritten : Bool} {out : OutboundFrame} {rest : List OutboundFrame} :
      s.phase = .release isWritten → s.batch = out :: rest →
      WriterSteps options choice s
        { s with pool := s.pool.release choice.keeps out.bytes, batch := rest }
  | finished {isWritten : Bool} : s.phase = .release isWritten → s.batch = [] →
      WriterSteps options choice s { s with phase := if isWritten then .take else .stopped }
  | drained {out : OutboundFrame} {rest : List OutboundFrame} : s.phase = .stopped →
      s.outgoing = out :: rest →
      WriterSteps options choice s
        { s with pool := s.pool.release choice.keeps out.bytes, outgoing := rest }

/-- The steps of a thread that sends a frame. -/
inductive SendSteps (options : WriteOptions) (choice : Choice) (s : Shared) (out : OutboundFrame) :
    Stage → Shared → Option Stage → Prop where
  | encoded : SendSteps options choice s out .encode
      { s with memory := store s.memory out.bytes 0 out.frame.wire }
      (some (if out.frame.kind = .request ∧ out.isUnary then .tryWriteDirect else .offer))
  | refused : SendSteps options choice s out .tryWriteDirect s (some .offer)
  | locked : s.isLocked = false →
      SendSteps options choice s out .tryWriteDirect { s with isLocked := true } (some .isEmpty)
  | looked : SendSteps options choice s out .isEmpty s
      (some (if s.outgoing = [] then .write 0 else .unlock true))
  | wrote {sent : ℕ} {output : Output} {progress : Progress} :
      WriteSteps s.output (s.memory out.bytes.id) [out] out.length sent output progress →
      SendSteps options choice s out (.write sent) { s with output }
        (some (.afterWrite progress))
  | flushed {output : Output} {progress : Progress} :
      FlushSteps s.output output progress →
      SendSteps options choice s out .flush { s with output } (some (.afterFlush progress))
  | unlocked {isRefused : Bool} : SendSteps options choice s out (.unlock isRefused)
      { s with isLocked := false } (some (if isRefused then .offer else .release))
  | queued : SendSteps options choice s out .offer
      { s with requests := returned s.requests out.frame, outgoing := s.outgoing ++ [out] } none
  | full : SendSteps options choice s out .offer s (some .release)
  | released : SendSteps options choice s out .release
      { s with
        requests := returned s.requests out.frame
        pool := s.pool.release choice.keeps out.bytes } none

/-- The effects of an instruction. -/
inductive Steps (options : WriteOptions) (choice : Choice) (s : Shared) :
    Instruction → Effect Shared Instruction → Prop where
  | called {frame : Frame} {isUnary : Bool} : frame.kind = .request →
      (s.requests frame.requestId).isUsed = false →
      Steps options choice s (.call frame isUnary)
        { shared := { s with requests := register s.requests frame.requestId isUnary }
          next := [.acquire frame isUnary] }
  | unregistered {requestId : UInt64} : Steps options choice s (.unregister requestId)
      { shared := { s with requests := unregister s.requests requestId } }
  | allowed {frame : Frame} : s.maySend frame = true →
      Steps options choice s (.control frame) { shared := s, next := [.acquire frame false] }
  | acquired {frame : Frame} {isUnary : Bool} : Steps options choice s (.acquire frame isUnary)
      { shared := { s with
          pool := (s.pool.acquire frame.wire.length).2
          issued := s.issued ++ [frame] }
        next := [.send .encode
          ⟨s.issued.length, frame, (s.pool.acquire frame.wire.length).1, isUnary⟩] }
  | sent {stage : Stage} {out : OutboundFrame} {t : Shared} {next : Option Stage} :
      SendSteps options choice s out stage t next →
      Steps options choice s (.send stage out)
        { shared := t, next := (next.map fun stage => .send stage out).toList }
  | wrote {t : Shared} : WriterSteps options choice s t →
      Steps options choice s .writeLoop { shared := t, next := [.writeLoop] }

section Inversion

variable {options : WriteOptions} {choice : Choice} {s t : Shared} {out : OutboundFrame}
  {stage : Stage} {next : Option Stage}

theorem writerSteps_of_writeLoop (h : writeLoop options choice s = some t) :
    WriterSteps options choice s t := by
  unfold writeLoop at h
  split at h
  case h_1 hphase =>
    split_ifs at h
    · cases h
      exact .interrupted hphase
    · split at h
      · rename_i houtgoing
        cases h
        exact .taken (.inl hphase) houtgoing
      · cases h
  case h_2 out hphase =>
    by_cases hexpired : s.isExpired out choice.refuses = true
    · rw [if_pos hexpired] at h
      cases h
      exact .dropped hphase
    · rw [if_neg hexpired] at h
      cases h
      exact .kept hphase (Bool.eq_false_iff.mpr hexpired)
  case h_3 hphase =>
    split at h
    · rename_i houtgoing
      split_ifs at h
      · cases h
        exact .taken (.inr hphase) houtgoing
      · cases h
        exact .gathered hphase
    · cases h
      exact .gathered hphase
  case h_4 hphase =>
    by_cases hlocked : s.isLocked = true
    · rw [if_pos hlocked] at h
      cases h
    · rw [if_neg hlocked] at h
      cases h
      exact .locked hphase (Bool.eq_false_iff.mpr hlocked)
  case h_5 hphase =>
    cases h
    exact .combined hphase
  case h_6 hphase =>
    split at h
    · rename_i hbatch
      cases h
      exact .copied hphase hbatch
    · rename_i hbatch
      cases h
      exact .copiedAll hphase hbatch
  case h_7 hphase =>
    obtain ⟨result, hwrite, rfl⟩ := Option.map_eq_some_iff.mp h
    exact .wrote hphase (writeSteps_of_write hwrite)
  case h_8 hphase =>
    split at h
    · cases h
      exact .releasedCombined hphase
    · cases h
      exact .notCombined hphase
  case h_9 hphase =>
    obtain ⟨result, hflush, rfl⟩ := Option.map_eq_some_iff.mp h
    exact .flushed hphase (flushSteps_of_flush hflush)
  case h_10 hphase =>
    cases h
    exact .unlocked hphase
  case h_11 hphase =>
    split at h
    · rename_i hbatch
      cases h
      exact .released hphase hbatch
    · rename_i hbatch
      cases h
      exact .finished hphase hbatch
  case h_12 hphase =>
    split at h
    · rename_i houtgoing
      cases h
      exact .drained hphase houtgoing
    · cases h

theorem sendSteps_of_sendStep (h : sendStep options choice s out stage = some (t, next)) :
    SendSteps options choice s out stage t next := by
  cases stage with
  | encode =>
    cases h
    exact .encoded
  | tryWriteDirect =>
    simp only [sendStep] at h
    split_ifs at h with hrefused
    · cases h
      exact .refused
    · cases h
      rw [not_or, not_or] at hrefused
      exact .locked (Bool.eq_false_iff.mpr hrefused.2.2)
  | isEmpty =>
    cases h
    exact .looked
  | write sent =>
    obtain ⟨result, hwrite, hresult⟩ := Option.map_eq_some_iff.mp h
    cases hresult
    exact .wrote (writeSteps_of_write hwrite)
  | flush =>
    obtain ⟨result, hflush, hresult⟩ := Option.map_eq_some_iff.mp h
    cases hresult
    exact .flushed (flushSteps_of_flush hflush)
  | unlock isRefused =>
    cases h
    exact .unlocked
  | offer =>
    simp only [sendStep] at h
    split_ifs at h
    · cases h
      exact .queued
    · cases h
      exact .full
  | release =>
    cases h
    exact .released

theorem steps_of_exec {thread : ℕ} {instruction : Instruction}
    {effect : Effect Shared Instruction}
    (h : exec options thread choice s instruction = some effect) :
    Steps options choice s instruction effect := by
  cases instruction with
  | call frame isUnary =>
    simp only [exec] at h
    split_ifs at h with hcall
    cases h
    exact .called hcall.1 hcall.2
  | unregister requestId =>
    cases h
    exact .unregistered
  | control frame =>
    simp only [exec] at h
    split_ifs at h with hmay
    cases h
    exact .allowed hmay
  | acquire frame isUnary =>
    cases h
    exact .acquired
  | send stage out =>
    obtain ⟨result, hsend, rfl⟩ := Option.map_eq_some_iff.mp h
    exact .sent (sendSteps_of_sendStep hsend)
  | writeLoop =>
    obtain ⟨t, hwriter, rfl⟩ := Option.map_eq_some_iff.mp h
    exact .wrote (writerSteps_of_writeLoop hwriter)

theorem started_of_steps {instruction : Instruction} {effect : Effect Shared Instruction}
    (h : Steps options choice s instruction effect) : effect.started = [] := by
  cases h <;> rfl

end Inversion

end WritePaths

end MoonLightBridge.Client
