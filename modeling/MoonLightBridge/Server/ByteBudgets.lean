import MoonLightBridge.Data.Update
import MoonLightBridge.Protocol.Framing
import MoonLightBridge.Server.ResponseQueue

/-!
# The byte budgets of the server

The bytes the server buffers are bounded by three semaphores: one for the bodies of
received frames and one for queued responses, each shared by all connections, and one
for the queued responses of each connection. A permit is never returned explicitly. It
travels with the value it was taken for, through channels, tasks and the writer's batch,
and comes back when that value is dropped, on whatever path.

The model follows the permits of any number of connections: the reader of each, its
channel to the loop, the frame the loop is handling, the request tasks, every call of
`send`, and the writer. What the frames say plays no part in it, so which task sends
which frame is left open. Tasks, sends and the reader can be dropped at any time.

A semaphore assigns permits to a waiting acquisition one by one as they come in. The
permits an acquisition has got so far are neither free nor held by a frame; they come
back if it is dropped.
-/

namespace MoonLightBridge.Server

open Protocol Transition

/-- `ServerLimits`: the byte budgets. -/
structure ServerLimits where
  maxBufferedRequestBytes : ℕ
  maxBufferedResponseBytes : ℕ
  maxBufferedResponseBytesPerConnection : ℕ

/-! ### Received frames -/

/-- A frame with the permits of its body. -/
structure BufferedFrame where
  frame : Frame
  permit : Option ℕ

/-- The bytes a permit stands for. -/
def permitted (permit : Option ℕ) : ℕ := permit.getD 0

/-- Where `read_frame_buffered`, and the task that calls it, stands. -/
inductive ReaderPhase where
  | readingHeader
  /-- it waits for the permits of the body and was assigned some of them -/
  | acquiring (decoded : DecodedHeader) (assigned : ℕ)
  | readingBody (decoded : DecodedHeader)
  /-- the frame is complete; the channel may have no room yet -/
  | delivering (buffered : BufferedFrame)
  | stopped

/-- The permits the reader holds. -/
def ReaderPhase.held : ReaderPhase → ℕ
  | .acquiring _ assigned => assigned
  | .readingBody decoded => decoded.bodyLen.toNat
  | .delivering buffered => permitted buffered.permit
  | _ => 0

/-- What the loop of a connection does with received frames. -/
inductive HandlingPhase where
  | selecting
  | handling (permit : Option ℕ)
  | left
  deriving DecidableEq, Repr

def HandlingPhase.held : HandlingPhase → ℕ
  | .handling permit => permitted permit
  | _ => 0

/-! ### Responses -/

/-- A call of `send`, with the permits its waiting acquisition was assigned. -/
structure PendingSend where
  send : Sending
  assigned : ℕ

namespace PendingSend

/-- The assigned permits, in the budget they are of. -/
def assignedBytes (pending : PendingSend) : Budgets :=
  match pending.send with
  | .acquireConnection _ => ⟨pending.assigned, 0⟩
  | .acquireGlobal _ => ⟨0, pending.assigned⟩
  | _ => ⟨0, 0⟩

/-- All permits released if the call is dropped. -/
def held (pending : PendingSend) : Budgets :=
  ⟨pending.send.held.connection + pending.assignedBytes.connection,
    pending.send.held.global + pending.assignedBytes.global⟩

end PendingSend

/-- What a connection buffers. -/
structure ConnectionBuffers where
  negotiated : Negotiated
  reader : ReaderPhase
  /-- the channel from the reader to the loop -/
  frames : List BufferedFrame
  loop : HandlingPhase
  /-- the permits of the request tasks that were not dropped -/
  tasks : List (Option ℕ)
  /-- free permits of the connection's response budget -/
  free : ℕ
  sends : List PendingSend
  delivery : Delivery

/-- Free permits of the budgets all connections share. -/
structure SharedBytes where
  request : ℕ
  response : ℕ
  deriving DecidableEq, Repr

/-- What happens to the reader. -/
inductive ReaderLabel where
  | header (header : Header)
  /-- the semaphore assigns permits to the waiting acquisition -/
  | assign (bytes : ℕ)
  | acquire
  | body (bytes : Bytes)
  /-- the channel takes the frame -/
  | deliver
  /-- a read fails or times out, or the reader is aborted -/
  | stop

/-- What happens to the loop and to the request tasks. -/
inductive HandlingLabel where
  | take
  /-- the frame is a REQUEST, and its task is spawned -/
  | spawn
  /-- the frame is dealt with -/
  | finish
  /-- the loop ends -/
  | leave
  /-- the connection ends, with what is left in the channel -/
  | dropFrames
  /-- a task returns, panics or is dropped after an abort -/
  | endTask (index : ℕ)

/-- What happens to the calls of `send`, and behind the channel to the writer. -/
inductive SendLabel where
  | send (frame : Frame)
  | assign (index bytes : ℕ)
  | advance (index : ℕ)
  /-- the channel takes the response -/
  | push (index : ℕ)
  /-- the channel is closed -/
  | pushFailed (index : ℕ)
  /-- a call of `send` is dropped with its task -/
  | dropSend (index : ℕ)
  | writer (label : WriterLabel)

inductive BufferLabel where
  | reader (label : ReaderLabel)
  | handling (label : HandlingLabel)
  | sending (label : SendLabel)

namespace ConnectionBuffers

/-- A connection after its handshake. -/
def init (limits : ServerLimits) (negotiated : Negotiated) : ConnectionBuffers where
  negotiated
  reader := .readingHeader
  frames := []
  loop := .selecting
  tasks := []
  free := limits.maxBufferedResponseBytesPerConnection
  sends := []
  delivery := .init

/-- Both channels have one place for each request in flight. -/
def capacity (connection : ConnectionBuffers) : ℕ := connection.negotiated.maxInFlight.toNat

/-- The free permits a call of `send` can use: those of its own acquisition, too. -/
def usable (shared : SharedBytes) (connection : ConnectionBuffers) (pending : PendingSend) :
    Budgets :=
  ⟨connection.free + pending.assignedBytes.connection,
    shared.response + pending.assignedBytes.global⟩

/-- The list of sends after one of them went on. -/
def proceed (sends : List PendingSend) (i : ℕ) : SendProgress → List PendingSend
  | .sending send => sends.set i ⟨send, 0⟩
  | .returned _ => sends.eraseIdx i

section Step

variable (zstd : Zstd) (shared : SharedBytes) (connection : ConnectionBuffers)

/-- A step of the reader. -/
def readerStep : ReaderLabel → Option (SharedBytes × ConnectionBuffers)
  | .header header =>
    match connection.reader with
    | .readingHeader =>
      match decodeHeader header connection.negotiated.maxBodyLen with
      -- the reader ends with the error it hands to the loop
      | .error _ => some (shared, { connection with reader := .stopped })
      | .ok decoded =>
        -- a frame without a body takes no permit
        if decoded.bodyLen = 0 then
          some (shared, { connection with reader := .delivering ⟨decoded.frame [], none⟩ })
        else some (shared, { connection with reader := .acquiring decoded 0 })
    | _ => none
  | .assign bytes =>
    match connection.reader with
    | .acquiring decoded assigned =>
      -- the semaphore gives to the first in its queue whatever comes free
      if bytes ≤ shared.request ∧ assigned + bytes ≤ decoded.bodyLen.toNat then
        some ({ shared with request := shared.request - bytes },
          { connection with reader := .acquiring decoded (assigned + bytes) })
      else none
    | _ => none
  | .acquire =>
    match connection.reader with
    | .acquiring decoded assigned =>
      if assigned = decoded.bodyLen.toNat then
        some (shared, { connection with reader := .readingBody decoded })
      else none
    | _ => none
  | .body bytes =>
    match connection.reader with
    | .readingBody decoded =>
      if bytes.length = decoded.bodyLen.toNat then
        some (shared, { connection with
          reader := .delivering ⟨decoded.frame bytes, some decoded.bodyLen.toNat⟩ })
      else none
    | _ => none
  | .deliver =>
    match connection.reader with
    | .delivering buffered =>
      if connection.frames.length < connection.capacity then
        some (shared, { connection with
          reader := .readingHeader, frames := connection.frames ++ [buffered] })
      else none
    | _ => none
  | .stop =>
    -- what it acquired, or was assigned while it waited, is dropped with it
    some ({ shared with request := shared.request + connection.reader.held },
      { connection with reader := .stopped })

/-- A step of the loop or of a request task. -/
def handlingStep : HandlingLabel → Option (SharedBytes × ConnectionBuffers)
  | .take =>
    match connection.loop, connection.frames with
    | .selecting, buffered :: frames =>
      some (shared, { connection with loop := .handling buffered.permit, frames })
    | _, _ => none
  | .spawn =>
    match connection.loop with
    | .handling permit =>
      -- the permit of the body moves into the task
      some (shared, { connection with
        loop := .selecting, tasks := connection.tasks ++ [permit] })
    | _ => none
  | .finish =>
    match connection.loop with
    | .handling permit =>
      some ({ shared with request := shared.request + permitted permit },
        { connection with loop := .selecting })
    | _ => none
  | .leave =>
    some ({ shared with request := shared.request + connection.loop.held },
      { connection with loop := .left })
  | .dropFrames =>
    match connection.loop with
    | .left =>
      some ({ shared with request := shared.request +
          (connection.frames.map fun buffered => permitted buffered.permit).sum },
        { connection with frames := [] })
    | _ => none
  | .endTask i =>
    match connection.tasks[i]? with
    | some permit =>
      some ({ shared with request := shared.request + permitted permit },
        { connection with tasks := connection.tasks.eraseIdx i })
    | none => none

/-- A step of a call of `send`. -/
def sendStep : SendLabel → Option (SharedBytes × ConnectionBuffers)
  | .send frame =>
    some (shared, { connection with
      sends := connection.sends ++ [⟨.tryConnection frame, 0⟩] })
  | .assign i bytes =>
    match connection.sends[i]? with
    | some ⟨.acquireConnection frame, assigned⟩ =>
      if bytes ≤ connection.free then
        some (shared, { connection with
          free := connection.free - bytes
          sends := connection.sends.set i ⟨.acquireConnection frame, assigned + bytes⟩ })
      else none
    | some ⟨.acquireGlobal frame, assigned⟩ =>
      if bytes ≤ shared.response then
        some ({ shared with response := shared.response - bytes },
          { connection with
            sends := connection.sends.set i ⟨.acquireGlobal frame, assigned + bytes⟩ })
      else none
    | _ => none
  | .advance i =>
    match connection.sends[i]? with
    | some pending =>
      -- what was assigned to a waiting acquisition is free for nobody else
      match pending.send.advance (usable shared connection pending) with
      | some (free, progress) =>
        some ({ shared with response := free.global },
          { connection with
            free := free.connection, sends := proceed connection.sends i progress })
      | none => none
    | none => none
  | .push i =>
    match connection.sends[i]? with
    | some ⟨.enqueue response, _⟩ =>
      match connection.delivery.push connection.capacity response with
      | some delivery =>
        some (shared, { connection with delivery, sends := connection.sends.eraseIdx i })
      | none => none
    | _ => none
  | .pushFailed i =>
    match connection.sends[i]? with
    | some ⟨.enqueue response, _⟩ =>
      if connection.delivery.isRunning then none
      else
        some ({ shared with response := shared.response + response.bytes },
          { connection with
            free := connection.free + response.bytes
            sends := connection.sends.eraseIdx i })
    | _ => none
  | .dropSend i =>
    match connection.sends[i]? with
    | some pending =>
      some ({ shared with response := shared.response + pending.held.global },
        { connection with
          free := connection.free + pending.held.connection
          sends := connection.sends.eraseIdx i })
    | none => none
  | .writer label =>
    match connection.delivery.writerStep zstd connection.negotiated label with
    | some (delivery, dropped) =>
      let bytes := (dropped.map QueuedResponse.bytes).sum
      some ({ shared with response := shared.response + bytes },
        { connection with delivery, free := connection.free + bytes })
    | none => none

/-- A step of a connection. -/
def step : BufferLabel → Option (SharedBytes × ConnectionBuffers)
  | .reader label => readerStep shared connection label
  | .handling label => handlingStep shared connection label
  | .sending label => sendStep zstd shared connection label

end Step

/-! ### Permits move -/

/-- Bytes of received frames. -/
def requestHeld (connection : ConnectionBuffers) : ℕ :=
  connection.reader.held +
    (connection.frames.map fun buffered => permitted buffered.permit).sum +
    connection.loop.held + (connection.tasks.map permitted).sum

/-- Bytes of responses behind the channel to the writer. -/
def queuedBytes (connection : ConnectionBuffers) : ℕ :=
  (connection.delivery.live.map QueuedResponse.bytes).sum

/-- Bytes of responses, in the budget of the connection and in that of the server. -/
def responseHeld (connection : ConnectionBuffers) : Budgets :=
  ⟨(connection.sends.map fun pending => pending.held.connection).sum + connection.queuedBytes,
    (connection.sends.map fun pending => pending.held.global).sum + connection.queuedBytes⟩

/-- A step that moves permits and neither loses nor makes any. -/
structure Conserves (shared shared' : SharedBytes) (connection connection' : ConnectionBuffers) :
    Prop where
  request : shared'.request + connection'.requestHeld = shared.request + connection.requestHeld
  perConnection : connection'.free + connection'.responseHeld.connection =
    connection.free + connection.responseHeld.connection
  response : shared'.response + connection'.responseHeld.global =
    shared.response + connection.responseHeld.global

end ConnectionBuffers

/-- The permits a call of `send` holds after a step. -/
def SendProgress.held : SendProgress → Budgets
  | .sending send => send.held
  | .returned _ => ⟨0, 0⟩

theorem held_rejected (frame : Frame) : (rejected frame).held = ⟨0, 0⟩ := by
  unfold rejected
  split <;> rfl

/-- A step of `send` takes permits, or returns those it holds. In particular, if the
server's budget refuses, those of the connection are returned. -/
theorem Sending.conserves_advance {send : Sending} {free free' : Budgets}
    {progress : SendProgress} (h : send.advance free = some (free', progress)) :
    free'.connection + progress.held.connection = free.connection + send.held.connection ∧
      free'.global + progress.held.global = free.global + send.held.global := by
  cases send with
  | tryConnection frame =>
    simp only [advance] at h
    split_ifs at h with hroom <;> cases h
    · simp only [SendProgress.held, held, and_true]
      omega
    · simp only [held_rejected, held, and_self]
  | tryGlobal frame =>
    simp only [advance] at h
    split_ifs at h with hroom <;> cases h
    · simp only [SendProgress.held, held, true_and]
      omega
    · simp only [held_rejected, held, add_zero, and_self]
  | acquireConnection frame =>
    simp only [advance] at h
    split_ifs at h with hlarge hroom <;> cases h
    · simp only [SendProgress.held, held, and_self]
    · simp only [SendProgress.held, held, and_true]
      omega
  | acquireGlobal frame =>
    simp only [advance] at h
    split_ifs at h with hroom
    cases h
    simp only [SendProgress.held, held, true_and]
    omega
  | enqueue response => cases h

/-- The writer drops responses, and loses none. -/
theorem Delivery.conserves_writerStep {zstd : Zstd} {negotiated : Negotiated} {d d' : Delivery}
    {label : WriterLabel} {dropped : List QueuedResponse}
    (h : d.writerStep zstd negotiated label = some (d', dropped)) :
    (d'.live.map QueuedResponse.bytes).sum + (dropped.map QueuedResponse.bytes).sum =
      (d.live.map QueuedResponse.bytes).sum := by
  obtain ⟨queue, batch, deferred, isRunning, enqueued, written⟩ := d
  cases label with
  | take =>
    simp only [writerStep] at h
    split at h
    · cases h
      simp [live, held, transform]
    · cases h
      simp [live, held, transform]
    · cases h
  | fill =>
    simp only [writerStep] at h
    split at h
    · split_ifs at h <;> obtain ⟨rfl, rfl⟩ := Prod.mk.inj (Option.some.inj h) <;>
        simp [live, held, transform]
    · cases h
  | leave =>
    simp only [writerStep] at h
    split at h
    · split_ifs at h
      cases h
      simp [live, held]
    · cases h
  | flush =>
    simp only [writerStep] at h
    split at h
    · split_ifs at h
      cases h
      simp [live, held]
      omega
    · cases h
  | fail =>
    simp only [writerStep] at h
    split_ifs at h
    cases h
    simp [live, held]

variable {i : ℕ}

namespace ConnectionBuffers

section Conserves

variable {zstd : Zstd} {shared shared' : SharedBytes} {connection connection' : ConnectionBuffers}

/-- Only received frames are concerned. -/
theorem conserves_of_request {request : ℕ}
    (hrequest : request + connection'.requestHeld = shared.request + connection.requestHeld)
    (hfree : connection'.free = connection.free) (hsends : connection'.sends = connection.sends)
    (hdelivery : connection'.delivery = connection.delivery) :
    Conserves shared { shared with request } connection connection' where
  request := hrequest
  perConnection := by simp only [responseHeld, queuedBytes, hfree, hsends, hdelivery]
  response := by simp only [responseHeld, queuedBytes, hsends, hdelivery]

theorem conserves_readerStep {label : ReaderLabel}
    (h : readerStep shared connection label = some (shared', connection')) :
    Conserves shared shared' connection connection' := by
  cases label with
  | header header =>
    simp only [readerStep] at h
    split at h
    · rename_i hreader
      split at h
      -- refused, without a body, or about to acquire: the reader holds nothing yet
      · cases h
        exact conserves_of_request (by simp [requestHeld, hreader, ReaderPhase.held]) rfl rfl rfl
      · split_ifs at h <;> obtain ⟨rfl, rfl⟩ := Prod.mk.inj (Option.some.inj h) <;>
          exact conserves_of_request
            (by simp [requestHeld, hreader, ReaderPhase.held, permitted]) rfl rfl rfl
    · cases h
  | assign bytes =>
    simp only [readerStep] at h
    split at h
    · rename_i decoded assigned hreader
      split_ifs at h with hroom
      cases h
      refine conserves_of_request ?_ rfl rfl rfl
      simp only [requestHeld, hreader, ReaderPhase.held]
      omega
    · cases h
  | acquire =>
    simp only [readerStep] at h
    split at h
    · rename_i decoded assigned hreader
      split_ifs at h with hall
      cases h
      refine conserves_of_request ?_ rfl rfl rfl
      simp only [requestHeld, hreader, ReaderPhase.held, hall]
    · cases h
  | body bytes =>
    simp only [readerStep] at h
    split at h
    · rename_i decoded hreader
      split_ifs at h
      cases h
      refine conserves_of_request ?_ rfl rfl rfl
      simp only [requestHeld, hreader, ReaderPhase.held, permitted, Option.getD_some]
    · cases h
  | deliver =>
    simp only [readerStep] at h
    split at h
    · rename_i buffered hreader
      split_ifs at h
      cases h
      -- from the reader into the channel
      refine conserves_of_request ?_ rfl rfl rfl
      simp only [requestHeld, hreader, ReaderPhase.held, List.map_append, List.sum_append,
        List.map_singleton, List.sum_singleton]
      omega
    · cases h
  | stop =>
    cases h
    refine conserves_of_request ?_ rfl rfl rfl
    simp only [requestHeld, ReaderPhase.held]
    omega

theorem conserves_handlingStep {label : HandlingLabel}
    (h : handlingStep shared connection label = some (shared', connection')) :
    Conserves shared shared' connection connection' := by
  cases label with
  | take =>
    simp only [handlingStep] at h
    split at h
    · rename_i buffered frames hloop hframes
      cases h
      -- from the channel to the loop
      refine conserves_of_request ?_ rfl rfl rfl
      simp only [requestHeld, hloop, hframes, HandlingPhase.held, List.map_cons, List.sum_cons]
      omega
    · cases h
  | spawn =>
    simp only [handlingStep] at h
    split at h
    · rename_i permit hloop
      cases h
      -- from the loop to the task
      refine conserves_of_request ?_ rfl rfl rfl
      simp only [requestHeld, hloop, HandlingPhase.held, List.map_append, List.sum_append,
        List.map_singleton, List.sum_singleton]
      omega
    · cases h
  | finish =>
    simp only [handlingStep] at h
    split at h
    · rename_i permit hloop
      cases h
      refine conserves_of_request ?_ rfl rfl rfl
      simp only [requestHeld, hloop, HandlingPhase.held]
      omega
    · cases h
  | leave =>
    cases h
    refine conserves_of_request ?_ rfl rfl rfl
    simp only [requestHeld, HandlingPhase.held]
    omega
  | dropFrames =>
    simp only [handlingStep] at h
    split at h
    · cases h
      refine conserves_of_request ?_ rfl rfl rfl
      simp only [requestHeld, List.map_nil, List.sum_nil]
      omega
    · cases h
  | endTask i =>
    simp only [handlingStep] at h
    split at h
    · rename_i permit hi
      cases h
      refine conserves_of_request ?_ rfl rfl rfl
      have hsum := List.sum_map_eraseIdx_add permitted hi
      simp only [requestHeld]
      omega
    · cases h

variable {response : ℕ}

/-- Only responses are concerned. -/
theorem conserves_of_response
    (hconnection : connection'.free + connection'.responseHeld.connection =
      connection.free + connection.responseHeld.connection)
    (hresponse : response + connection'.responseHeld.global =
      shared.response + connection.responseHeld.global)
    (hrequest : connection'.requestHeld = connection.requestHeld) :
    Conserves shared { shared with response } connection connection' :=
  ⟨congrArg _ hrequest, hconnection, hresponse⟩

variable {pending : PendingSend}

/-- What a call of `send` holds is exchanged for what it holds after its step. -/
theorem sum_proceed {sends : List PendingSend} (hi : sends[i]? = some pending)
    (progress : SendProgress) :
    ((proceed sends i progress).map fun pending => pending.held.connection).sum +
        pending.held.connection =
      (sends.map fun pending => pending.held.connection).sum + progress.held.connection ∧
    ((proceed sends i progress).map fun pending => pending.held.global).sum +
        pending.held.global =
      (sends.map fun pending => pending.held.global).sum + progress.held.global := by
  cases progress with
  | sending send =>
    -- an acquisition that has just begun was assigned nothing
    have hheld : (PendingSend.mk send 0).held = send.held := by
      cases send <;> rfl
    have hconnection := List.sum_map_set_add (fun pending : PendingSend => pending.held.connection)
      hi ⟨send, 0⟩
    have hglobal := List.sum_map_set_add (fun pending : PendingSend => pending.held.global)
      hi ⟨send, 0⟩
    rw [hheld] at hconnection hglobal
    exact ⟨hconnection, hglobal⟩
  | returned ok =>
    exact ⟨List.sum_map_eraseIdx_add (fun pending : PendingSend => pending.held.connection) hi,
      List.sum_map_eraseIdx_add (fun pending : PendingSend => pending.held.global) hi⟩

section

variable (hi : connection.sends[i]? = some pending)

include hi

/-- A call of `send` goes on. -/
theorem conserves_advance {free : Budgets} {progress : SendProgress}
    (hadvance : pending.send.advance (usable shared connection pending) = some (free, progress)) :
    Conserves shared { shared with response := free.global } connection
      { connection with
        free := free.connection, sends := proceed connection.sends i progress } := by
  obtain ⟨hconnection, hglobal⟩ := Sending.conserves_advance hadvance
  obtain ⟨hsum, hsum'⟩ := sum_proceed hi progress
  simp only [usable, PendingSend.held] at hconnection hglobal hsum hsum'
  refine conserves_of_response ?_ ?_ rfl <;>
    simp only [responseHeld, queuedBytes, PendingSend.held] <;> omega

/-- A call of `send` waits, with other permits than before. -/
theorem conserves_set {pending' : PendingSend} {free : ℕ}
    (hconnection : free + pending'.held.connection = connection.free + pending.held.connection)
    (hglobal : response + pending'.held.global = shared.response + pending.held.global) :
    Conserves shared { shared with response } connection
      { connection with free, sends := connection.sends.set i pending' } := by
  have hsum := List.sum_map_set_add
    (fun pending : PendingSend => pending.held.connection) hi pending'
  have hsum' := List.sum_map_set_add (fun pending : PendingSend => pending.held.global) hi pending'
  refine conserves_of_response ?_ ?_ rfl
  · simp only [responseHeld, queuedBytes] at *
    omega
  · simp only [responseHeld, queuedBytes] at *
    omega

/-- A call of `send` is over, and its permits are somewhere else. -/
theorem conserves_eraseIdx {free : ℕ} {delivery : Delivery}
    (hconnection : free + (delivery.live.map QueuedResponse.bytes).sum =
      connection.free + connection.queuedBytes + pending.held.connection)
    (hglobal : response + (delivery.live.map QueuedResponse.bytes).sum =
      shared.response + connection.queuedBytes + pending.held.global) :
    Conserves shared { shared with response } connection
      { connection with free, delivery, sends := connection.sends.eraseIdx i } := by
  have hsum := List.sum_map_eraseIdx_add
    (fun pending : PendingSend => pending.held.connection) hi
  have hsum' := List.sum_map_eraseIdx_add (fun pending : PendingSend => pending.held.global) hi
  refine conserves_of_response ?_ ?_ rfl
  · simp only [responseHeld, queuedBytes] at *
    omega
  · simp only [responseHeld, queuedBytes] at *
    omega

end

theorem live_push {capacity : ℕ} {d d' : Delivery} {response : QueuedResponse}
    (h : d.push capacity response = some d') : d'.live = d.live ++ [response] := by
  unfold Delivery.push at h
  split_ifs at h
  cases h
  simp [Delivery.live, Delivery.held]

theorem conserves_sendStep {label : SendLabel}
    (h : sendStep zstd shared connection label = some (shared', connection')) :
    Conserves shared shared' connection connection' := by
  cases label with
  | send frame =>
    cases h
    refine conserves_of_response ?_ ?_ rfl <;>
      simp [responseHeld, queuedBytes, PendingSend.held, PendingSend.assignedBytes, Sending.held]
  | assign i bytes =>
    simp only [sendStep] at h
    split at h
    · rename_i frame assigned hi
      split_ifs at h
      cases h
      refine conserves_set hi ?_ ?_ <;>
        simp only [PendingSend.held, PendingSend.assignedBytes, Sending.held]
      omega
    · rename_i frame assigned hi
      split_ifs at h
      cases h
      refine conserves_set hi ?_ ?_ <;>
        simp only [PendingSend.held, PendingSend.assignedBytes, Sending.held]
      omega
    · cases h
  | advance i =>
    simp only [sendStep] at h
    split at h
    · rename_i pending hi
      split at h
      · rename_i free progress hadvance
        cases h
        exact conserves_advance hi hadvance
      · cases h
    · cases h
  | push i =>
    simp only [sendStep] at h
    split at h
    · rename_i response assigned hi
      split at h
      · rename_i delivery hpush
        cases h
        -- the permits go with the response behind the channel
        have hlive : (delivery.live.map QueuedResponse.bytes).sum =
            connection.queuedBytes + response.bytes := by
          rw [live_push hpush, List.map_append, List.sum_append, queuedBytes]
          simp
        refine conserves_eraseIdx hi ?_ ?_ <;>
          simp only [hlive, PendingSend.held, PendingSend.assignedBytes, Sending.held] <;> omega
      · cases h
    · cases h
  | pushFailed i =>
    simp only [sendStep] at h
    split at h
    · rename_i response assigned hi
      split_ifs at h
      cases h
      refine conserves_eraseIdx hi ?_ ?_ <;>
        simp only [queuedBytes, PendingSend.held, PendingSend.assignedBytes, Sending.held] <;>
        omega
    · cases h
  | dropSend i =>
    simp only [sendStep] at h
    split at h
    · rename_i pending hi
      cases h
      refine conserves_eraseIdx hi ?_ ?_ <;> simp only [queuedBytes] <;> omega
    · cases h
  | writer label =>
    simp only [sendStep] at h
    split at h
    · rename_i delivery dropped hwriter
      cases h
      have hbytes := Delivery.conserves_writerStep hwriter
      refine conserves_of_response ?_ ?_ rfl <;> simp only [responseHeld, queuedBytes] <;> omega
    · cases h

theorem conserves_step {label : BufferLabel}
    (h : step zstd shared connection label = some (shared', connection')) :
    Conserves shared shared' connection connection' := by
  cases label with
  | reader label => exact conserves_readerStep h
  | handling label => exact conserves_handlingStep h
  | sending label => exact conserves_sendStep h

end Conserves

/-- A connection that has ended, with all its tasks. -/
structure HasEnded (connection : ConnectionBuffers) : Prop where
  reader : connection.reader = .stopped
  frames : connection.frames = []
  loop : connection.loop = .left
  tasks : connection.tasks = []
  sends : connection.sends = []
  delivery : connection.delivery.live = []

theorem HasEnded.requestHeld_eq {connection : ConnectionBuffers} (h : connection.HasEnded) :
    connection.requestHeld = 0 := by
  rw [requestHeld, h.reader, h.frames, h.loop, h.tasks]
  rfl

theorem HasEnded.responseHeld_eq {connection : ConnectionBuffers} (h : connection.HasEnded) :
    connection.responseHeld = ⟨0, 0⟩ := by
  rw [responseHeld, queuedBytes, h.sends, h.delivery]
  rfl

end ConnectionBuffers

/-! ### All connections -/

structure BufferState where
  shared : SharedBytes
  /-- all connections ever accepted -/
  connections : List ConnectionBuffers

inductive ServerBufferLabel where
  /-- a connection completes its handshake -/
  | connect (negotiated : Negotiated)
  | step (index : ℕ) (label : BufferLabel)

namespace Buffers

def init (limits : ServerLimits) : BufferState where
  shared := ⟨limits.maxBufferedRequestBytes, limits.maxBufferedResponseBytes⟩
  connections := []

def step (limits : ServerLimits) (zstd : Zstd) (s : BufferState) :
    ServerBufferLabel → Option BufferState
  | .connect negotiated =>
    some { s with connections := s.connections ++ [.init limits negotiated] }
  | .step i label =>
    match s.connections[i]? with
    | some connection =>
      match connection.step zstd s.shared label with
      | some (shared, connection) => some ⟨shared, s.connections.set i connection⟩
      | none => none
    | none => none

/-- What is free and what is held add up to the capacity of each budget. -/
structure Conserved (limits : ServerLimits) (s : BufferState) : Prop where
  request : s.shared.request + (s.connections.map ConnectionBuffers.requestHeld).sum =
    limits.maxBufferedRequestBytes
  response : s.shared.response +
      (s.connections.map fun connection => connection.responseHeld.global).sum =
    limits.maxBufferedResponseBytes
  perConnection : ∀ connection ∈ s.connections,
    connection.free + connection.responseHeld.connection =
      limits.maxBufferedResponseBytesPerConnection

section Conserved

variable {limits : ServerLimits} {zstd : Zstd} {s t : BufferState}

theorem conserved_init (limits : ServerLimits) : Conserved limits (init limits) where
  request := rfl
  response := rfl
  perConnection _ h := absurd h List.not_mem_nil

theorem conserved_connect (hs : Conserved limits s) (negotiated : Negotiated) :
    Conserved limits
      { s with connections := s.connections ++ [.init limits negotiated] } := by
  refine ⟨?_, ?_, ?_⟩
  · rw [List.map_append, List.sum_append]
    exact hs.request
  · rw [List.map_append, List.sum_append]
    exact hs.response
  · exact List.forall_mem_concat hs.perConnection rfl

/-- What a step moves within one connection, or between it and the shared budgets, is not
lost to any of them. -/
theorem conserved_set (hs : Conserved limits s) {connection connection' : ConnectionBuffers}
    {shared' : SharedBytes} (hi : s.connections[i]? = some connection)
    (h : ConnectionBuffers.Conserves s.shared shared' connection connection') :
    Conserved limits ⟨shared', s.connections.set i connection'⟩ := by
  have hrequest := List.sum_map_set_add ConnectionBuffers.requestHeld hi connection'
  have hresponse := List.sum_map_set_add
    (fun connection : ConnectionBuffers => connection.responseHeld.global) hi connection'
  refine ⟨?_, ?_, ?_⟩
  · have := hs.request
    have := h.request
    dsimp only
    omega
  · have := hs.response
    have := h.response
    dsimp only
    omega
  · apply List.forall_mem_set hs.perConnection
    exact h.perConnection.trans (hs.perConnection connection (List.mem_of_getElem? hi))

theorem conserved_step {label : ServerBufferLabel} (hs : Conserved limits s)
    (h : step limits zstd s label = some t) : Conserved limits t := by
  cases label with
  | connect negotiated =>
    cases h
    exact conserved_connect hs negotiated
  | step i label =>
    simp only [step] at h
    split at h
    · rename_i connection hi
      split at h
      · rename_i shared' connection' hstep
        cases h
        exact conserved_set hs hi (ConnectionBuffers.conserves_step hstep)
      · cases h
    · cases h

end Conserved

/-- In every state of every run, the free and the held permits of each of the three
budgets add up to its capacity; what is held never exceeds it; and when all connections
have ended, everything is free again. -/
theorem budgets_conserved (limits : ServerLimits) (zstd : Zstd) (w : List ServerBufferLabel)
    (t : BufferState) (hrun : run (step limits zstd) (init limits) w = some t) :
    Conserved limits t ∧
    (t.connections.map ConnectionBuffers.requestHeld).sum ≤ limits.maxBufferedRequestBytes ∧
    (t.connections.map fun connection => connection.responseHeld.global).sum ≤
      limits.maxBufferedResponseBytes ∧
    (∀ connection ∈ t.connections,
      connection.responseHeld.connection ≤ limits.maxBufferedResponseBytesPerConnection) ∧
    ((∀ connection ∈ t.connections, connection.HasEnded) →
      t.shared = ⟨limits.maxBufferedRequestBytes, limits.maxBufferedResponseBytes⟩) := by
  have hconserved : Conserved limits t :=
    run_invariant (I := Conserved limits) conserved_step hrun (conserved_init limits)
  have hrequest := hconserved.request
  have hresponse := hconserved.response
  refine ⟨hconserved, by omega, by omega, fun connection hconnection => ?_, fun hended => ?_⟩
  · have := hconserved.perConnection connection hconnection
    omega
  · -- a connection that has ended holds nothing
    have hzero : (t.connections.map ConnectionBuffers.requestHeld).sum = 0 :=
      List.sum_eq_zero (by
        simpa using fun connection hconnection => (hended connection hconnection).requestHeld_eq)
    have hzero' : (t.connections.map fun connection => connection.responseHeld.global).sum = 0 :=
      List.sum_eq_zero (by
        simpa using fun connection hconnection =>
          congrArg Budgets.global (hended connection hconnection).responseHeld_eq)
    rw [hzero] at hrequest
    rw [hzero'] at hresponse
    obtain ⟨shared, connections⟩ := t
    obtain ⟨request, response⟩ := shared
    simp only [SharedBytes.mk.injEq]
    exact ⟨hrequest, hresponse⟩

/-- Budgets that hold one response of the server, and hardly more. -/
def tightLimits : ServerLimits := ⟨100, 60, 50⟩

/-- Two connections each send a response. The second finds room in its own budget and
none in that of the server. -/
def refusedRun : List ServerBufferLabel :=
  [.connect Writer.defaultNegotiated, .connect Writer.defaultNegotiated] ++
    [.send (Frame.new .response 7 1 (List.replicate 20 0)), .advance 0, .advance 0, .push 0].map
      (fun label => .step 0 (.sending label)) ++
    [.send (Frame.new .response 7 1 (List.replicate 20 0)), .advance 0, .advance 0].map
      (fun label => .step 1 (.sending label))

theorem budgets_conserved_refusedRun :
    ∃ t, run (step tightLimits Writer.halvingZstd) (init tightLimits) refusedRun = some t ∧
      t.shared = ⟨100, 16⟩ ∧ t.connections.map ConnectionBuffers.free = [6, 50] ∧
      Conserved tightLimits t :=
  ⟨_, rfl, rfl, rfl,
    (budgets_conserved tightLimits Writer.halvingZstd refusedRun _ rfl).1⟩

end Buffers

end MoonLightBridge.Server
