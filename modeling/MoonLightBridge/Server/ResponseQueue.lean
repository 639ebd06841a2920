import MoonLightBridge.Server.Writer

/-!
# The response queue

`ResponseQueue::send` reserves the bytes of a frame in two budgets, that of the
connection and that of the whole server, before it puts the frame into the channel
to the writer. A frame that finds a budget exhausted waits, is dropped, or is
replaced by an ERROR, depending on its kind.

Sending is a little machine of its own, since a task can be interrupted between any
two of its steps. The writer appears here step by step as well: what it does in one
iteration is interleaved with the tasks that fill its queue.
-/

namespace MoonLightBridge.Server

open Protocol

/-! ### Reserving bytes -/

/-- Permits of the two response byte budgets. -/
structure Budgets where
  connection : ℕ
  global : ℕ
  deriving DecidableEq, Repr

/-- The permits a frame needs, in each of the budgets. -/
def permitBytes (frame : Frame) : ℕ := headerLen + frame.body.length

/-- A response in the channel or in the writer's hands, with the permits it took
from each budget. -/
structure QueuedResponse where
  frame : Frame
  bytes : ℕ
  deriving DecidableEq, Repr

/-- How far a call of `ResponseQueue::send` has come. -/
inductive Sending where
  /-- `try_reserve` is about to try the connection's budget -/
  | tryConnection (frame : Frame)
  /-- `try_reserve` holds permits of the connection and is about to try the server's -/
  | tryGlobal (frame : Frame)
  /-- `reserve` waits for the connection's budget -/
  | acquireConnection (frame : Frame)
  /-- `reserve` holds permits of the connection and waits for the server's budget -/
  | acquireGlobal (frame : Frame)
  /-- all permits are held; the channel may have no room yet -/
  | enqueue (response : QueuedResponse)
  deriving DecidableEq, Repr

/-- What a step of `send` leads to. -/
inductive SendProgress where
  | sending (send : Sending)
  /-- `send` returned: `false` for an error -/
  | returned (ok : Bool)

/-- What `send` does with a frame for which `try_reserve` found no room. -/
def rejected (frame : Frame) : SendProgress :=
  match frame.kind with
  -- a dropped event is not an error: its subscriber finds the gap
  | .event => .returned true
  | .response | .streamItem =>
    .sending (.acquireConnection
      (errorFrame frame .resourceExhausted "response byte budget exhausted"))
  | _ => .sending (.acquireConnection frame)

/-- The next step of `send` before the channel. `none` where it waits for permits,
or for the channel. -/
def Sending.advance (free : Budgets) : Sending → Option (Budgets × SendProgress)
  | .tryConnection frame =>
    -- the permit count is a u32
    if permitBytes frame < 2 ^ 32 ∧ permitBytes frame ≤ free.connection then
      some ({ free with connection := free.connection - permitBytes frame },
        .sending (.tryGlobal frame))
    else some (free, rejected frame)
  | .tryGlobal frame =>
    if permitBytes frame ≤ free.global then
      some ({ free with global := free.global - permitBytes frame },
        .sending (.enqueue ⟨frame, permitBytes frame⟩))
    else
      -- returning drops the permits of the connection again
      some ({ free with connection := free.connection + permitBytes frame }, rejected frame)
  | .acquireConnection frame =>
    if 2 ^ 32 ≤ permitBytes frame then some (free, .returned false)
    else if permitBytes frame ≤ free.connection then
      some ({ free with connection := free.connection - permitBytes frame },
        .sending (.acquireGlobal frame))
    else none
  | .acquireGlobal frame =>
    if permitBytes frame ≤ free.global then
      some ({ free with global := free.global - permitBytes frame },
        .sending (.enqueue ⟨frame, permitBytes frame⟩))
    else none
  | .enqueue _ => none

/-- The permits a call of `send` holds, which are released if it is dropped. -/
def Sending.held : Sending → Budgets
  | .tryConnection _ | .acquireConnection _ => ⟨0, 0⟩
  | .tryGlobal frame | .acquireGlobal frame => ⟨permitBytes frame, 0⟩
  | .enqueue response => ⟨response.bytes, response.bytes⟩

/-- The frame that is going to be sent. -/
def Sending.frame : Sending → Frame
  | .tryConnection frame | .tryGlobal frame | .acquireConnection frame
  | .acquireGlobal frame => frame
  | .enqueue response => response.frame

/-- The budgets have room for the frame of the next attempt of `try_reserve`. -/
def Sending.Admits (free : Budgets) : Sending → Prop
  | .tryConnection frame => permitBytes frame < 2 ^ 32 ∧ permitBytes frame ≤ free.connection
  | .tryGlobal frame => permitBytes frame ≤ free.global
  | _ => True

/-! ### The channel and the writer -/

/-- The batch the writer is working on. -/
structure OpenBatch where
  held : List QueuedResponse
  /-- the inner loop was left, the batch is going to be written -/
  isSealed : Bool

/-- The number of bytes encoded so far. -/
def OpenBatch.encodedLen (batch : OpenBatch) : ℕ :=
  (batch.held.map fun response => headerLen + response.frame.body.length).sum

/-- The channel of a connection and its writer. -/
structure Delivery where
  queue : List QueuedResponse
  batch : Option OpenBatch
  deferred : Option QueuedResponse
  /-- the writer task runs; the channel is closed when it ends -/
  isRunning : Bool
  /-- every frame that was put into the channel, in order -/
  enqueued : List Frame
  /-- every frame that was written to the socket, in order -/
  written : List Frame

/-- The steps of the writer task. -/
inductive WriterLabel where
  /-- take the deferred response, or receive one, and open a batch with it -/
  | take
  /-- `try_recv` finds another response -/
  | fill
  /-- the inner loop ends -/
  | leave
  /-- the batch is written and flushed -/
  | flush
  /-- the writer ends, because a write failed or the connection is torn down -/
  | fail

namespace Delivery

/-- A fresh connection. -/
def init : Delivery where
  queue := []
  batch := none
  deferred := none
  isRunning := true
  enqueued := []
  written := []

/-- Put a response into the channel. `none` if it has no room or is closed. -/
def push (capacity : ℕ) (d : Delivery) (response : QueuedResponse) : Option Delivery :=
  if d.isRunning ∧ d.queue.length < capacity then
    some { d with
      queue := d.queue ++ [response]
      enqueued := d.enqueued ++ [response.frame] }
  else none

/-- The batch as a list. -/
def held (d : Delivery) : List QueuedResponse :=
  match d.batch with
  | none => []
  | some batch => batch.held

/-- The responses the writer has not dropped yet, in the order of the channel. -/
def live (d : Delivery) : List QueuedResponse := d.held ++ d.deferred.toList ++ d.queue

/-- All frames of the connection that were not lost, in the order of the channel. -/
def pipeline (d : Delivery) : List Frame :=
  d.written ++ d.live.map QueuedResponse.frame

/-- The response that the writer receives, and transforms, in a step. -/
def received (d : Delivery) : WriterLabel → Option QueuedResponse
  | .take => d.deferred <|> d.queue.head?
  | .fill => d.queue.head?
  | _ => none

section Writer

variable (zstd : Zstd) (negotiated : Negotiated)

/-- The response with its frame transformed; it keeps its permits. -/
def transform (response : QueuedResponse) : QueuedResponse :=
  { response with frame := outbound zstd negotiated response.frame }

/-- A step of the writer, and the responses it drops, whose permits are released. -/
def writerStep (d : Delivery) : WriterLabel → Option (Delivery × List QueuedResponse)
  | .take =>
    match d.isRunning, d.batch, d.deferred, d.queue with
    -- the deferred response goes through the same transformation once more
    | true, none, some response, _ =>
      some ({ d with
        batch := some ⟨[transform zstd negotiated response], false⟩
        deferred := none }, [])
    | true, none, none, response :: queue =>
      some ({ d with
        batch := some ⟨[transform zstd negotiated response], false⟩
        queue }, [])
    | _, _, _, _ => none
  | .fill =>
    match d.isRunning, d.batch, d.deferred, d.queue with
    | true, some batch, none, response :: queue =>
      if batch.isSealed ∨ maxBatchFrames ≤ batch.held.length then none
      else
        let next := transform zstd negotiated response
        if writerBatchBytes < batch.encodedLen + (headerLen + next.frame.body.length) then
          -- keeping a response for the next batch leaves the inner loop
          some ({ d with
            batch := some { batch with isSealed := true }
            deferred := some next
            queue }, [])
        else
          some ({ d with
            batch := some { batch with held := batch.held ++ [next] }
            queue }, [])
    | _, _, _, _ => none
  | .leave =>
    match d.isRunning, d.batch with
    | true, some batch =>
      -- `try_recv` finds nothing, or the batch is full
      if d.queue = [] ∨ maxBatchFrames ≤ batch.held.length then
        some ({ d with batch := some { batch with isSealed := true } }, [])
      else none
    | _, _ => none
  | .flush =>
    match d.isRunning, d.batch with
    | true, some batch =>
      if batch.isSealed then
        some ({ d with
          batch := none
          written := d.written ++ batch.held.map QueuedResponse.frame }, batch.held)
      else none
    | _, _ => none
  | .fail =>
    if d.isRunning then
      some ({ d with isRunning := false, batch := none, deferred := none, queue := [] }, d.live)
    else none

end Writer

section Pipeline

variable {zstd : Zstd} {negotiated : Negotiated} {d d' : Delivery}

/-- What a response put into the channel adds. -/
theorem pipeline_push {capacity : ℕ} {response : QueuedResponse}
    (h : d.push capacity response = some d') :
    d.isRunning ∧ d'.isRunning ∧ d'.enqueued = d.enqueued ++ [response.frame] ∧
      d'.written = d.written ∧ d'.pipeline = d.pipeline ++ [response.frame] := by
  unfold push at h
  split_ifs at h with hroom
  cases h
  refine ⟨hroom.1, hroom.1, rfl, rfl, ?_⟩
  simp [pipeline, live, held]

variable {dropped : List QueuedResponse} {label : WriterLabel}

/-- The writer puts nothing into the channel. -/
theorem enqueued_of_writerStep (h : d.writerStep zstd negotiated label = some (d', dropped)) :
    d'.enqueued = d.enqueued := by
  cases label <;> simp only [writerStep] at h <;> split at h <;> grind

/-- Only a running writer does anything. -/
theorem isRunning_of_writerStep (h : d.writerStep zstd negotiated label = some (d', dropped)) :
    d.isRunning := by
  cases label <;> simp only [writerStep] at h <;> split at h <;> simp_all

/-- A writer that fails loses what it had not written. -/
theorem pipeline_of_fail (h : d.writerStep zstd negotiated .fail = some (d', dropped)) :
    d'.isRunning = false ∧ d'.written = d.written ∧ d'.pipeline = d.written := by
  simp only [writerStep] at h
  split_ifs at h
  cases h
  simp [pipeline, live, held]

/-- A step of a running writer transforms the response it receives, in its place,
and leaves all others alone. -/
theorem pipeline_of_writerStep (h : d.writerStep zstd negotiated label = some (d', dropped))
    (hlabel : label ≠ .fail) :
    d'.isRunning ∧ d.written <+: d'.written ∧
      (d'.pipeline = d.pipeline ∨
        ∃ before response after, d.received label = some response ∧
          d.written.length ≤ before.length ∧ d.pipeline = before ++ response.frame :: after ∧
          d'.pipeline = before ++ outbound zstd negotiated response.frame :: after) := by
  obtain ⟨queue, batch, deferred, isRunning, enqueued, written⟩ := d
  cases label with
  | take =>
    simp only [writerStep] at h
    split at h
    · -- the deferred response is taken up again
      rename_i _ _ _ _ response
      cases h
      refine ⟨rfl, List.prefix_rfl, .inr ⟨written, response, queue.map QueuedResponse.frame, rfl,
        le_rfl, ?_, ?_⟩⟩ <;> simp [pipeline, live, held, transform]
    · rename_i _ _ _ _ response queue
      cases h
      refine ⟨rfl, List.prefix_rfl, .inr ⟨written, response, queue.map QueuedResponse.frame, rfl,
        le_rfl, ?_, ?_⟩⟩ <;> simp [pipeline, live, held, transform]
    · cases h
  | fill =>
    simp only [writerStep] at h
    split at h
    · rename_i _ _ _ _ batch response queue
      split_ifs at h
      -- kept for the next batch or added to this one, it stays behind the batch
      all_goals
        cases h
        refine ⟨rfl, List.prefix_rfl, .inr ⟨written ++ batch.held.map QueuedResponse.frame,
          response, queue.map QueuedResponse.frame, rfl, ?_, ?_, ?_⟩⟩ <;>
        simp [pipeline, live, held, transform]
    · cases h
  | leave =>
    simp only [writerStep] at h
    split at h
    · rename_i _ _ batch
      split_ifs at h
      cases h
      exact ⟨rfl, List.prefix_rfl, .inl rfl⟩
    · cases h
  | flush =>
    simp only [writerStep] at h
    split at h
    · rename_i _ _ batch
      split_ifs at h
      cases h
      -- the batch moves from what is held to what is written
      refine ⟨rfl, List.prefix_append _ _, .inl ?_⟩
      simp [pipeline, live, held]
    · cases h
  | fail => exact absurd rfl hlabel

end Pipeline

end Delivery

end MoonLightBridge.Server
