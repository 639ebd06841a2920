import MoonLightBridge.Data.Update
import MoonLightBridge.Server.StreamTask

/-!
# The active requests of a connection

The loop of a connection admits a REQUEST if a permit is free, spawns a task for it
and registers the task in the table `active` under the request's id. A task that is
done removes the entry of its id. CANCEL, and the end of the connection, remove
entries and abort their tasks.

A permit belongs to its task and is released when the task is dropped. A table entry
is found by request id only, whoever looks for it.

An aborted task is dropped at the next point where it yields. Until then it runs, so
it may still send its answer and remove the entry of its id.

PONG and HEALTH_STATUS answers do not touch the table and are not recorded.
-/

namespace MoonLightBridge.Server

open Protocol Transition

/-- What the loop of a connection reads and never changes. -/
structure ConnectionConfig where
  negotiated : Negotiated
  /-- `Router::is_streaming`, by method id -/
  isStreaming : UInt32 → Bool

inductive TaskPhase where
  /-- dispatching the request and sending what answers it -/
  | running
  /-- the answer was sent; the entry is removed next -/
  | answered
  /-- the entry was removed; the task is about to return -/
  | deregistered
  /-- dropped: it returned, was cancelled or panicked -/
  | ended
  deriving DecidableEq, Repr

/-- The task of a request. -/
structure RequestTask where
  requestId : UInt64
  phase : TaskPhase
  /-- `abort` was called -/
  isAborted : Bool
  /-- the permits of its credit semaphore, if it is a stream -/
  credits : ℕ
  deriving DecidableEq, Repr

/-- The task works on its request: it is not done, and nobody told it to stop. -/
def RequestTask.IsOpen (task : RequestTask) : Prop :=
  (task.phase = .running ∨ task.phase = .answered) ∧ task.isAborted = false

instance (task : RequestTask) : Decidable task.IsOpen := inferInstanceAs (Decidable (_ ∧ _))

def RequestTask.abort (task : RequestTask) : RequestTask := { task with isAborted := true }

/-- An entry of the table: the handle of a task, and whether it has credits. -/
structure ActiveRequest where
  task : ℕ
  isStreaming : Bool
  deriving DecidableEq, Repr

/-- Where the loop of the connection is. -/
inductive LoopPhase where
  | reading
  /-- it holds a permit for a REQUEST and waits for the table -/
  | registering (frame : Frame)
  | closed
  deriving DecidableEq, Repr

structure ConnectionState where
  loop : LoopPhase
  isDraining : Bool
  /-- free permits of the in-flight semaphore -/
  permits : ℕ
  active : AList fun _ : UInt64 => ActiveRequest
  /-- all tasks ever spawned; a handle is a position in this list -/
  tasks : List RequestTask
  /-- the ERROR frames with which the loop itself answered a REQUEST -/
  refused : List Frame
  /-- all frames that answered a REQUEST, in the order of the response queue -/
  sent : List Frame

/-- What happens to a request task. -/
inductive RequestEvent where
  | acquireCredit
  /-- dispatch ends, with the last frame sent, if any -/
  | answer (frame : Option Frame)
  /-- `active.remove(&request_id)` -/
  | deregister
  /-- the task returns, or is dropped because it was aborted -/
  | drop
  | panic
  deriving DecidableEq, Repr

inductive ConnectionLabel where
  /-- the loop takes a frame from the reader -/
  | receive (frame : Frame)
  /-- the loop gets hold of the table for the REQUEST it admitted -/
  | register
  | drain
  /-- the loop ends: end of input, a failed send, or the end of draining -/
  | hangUp
  | task (index : ℕ) (event : RequestEvent)
  deriving DecidableEq, Repr

namespace Connection

def maxInFlight (cfg : ConnectionConfig) : ℕ := cfg.negotiated.maxInFlight.toNat

def init (cfg : ConnectionConfig) : ConnectionState where
  loop := .reading
  isDraining := false
  permits := maxInFlight cfg
  active := ∅
  tasks := []
  refused := []
  sent := []

/-- Leave the loop. Every entry is taken from the table and its task aborted. -/
def close (s : ConnectionState) : ConnectionState :=
  { s with
    loop := .closed
    active := ∅
    tasks := s.tasks.mapIdx fun i task =>
      if ∃ entry ∈ s.active.entries, entry.2.task = i then task.abort else task }

/-- Answer a REQUEST with an ERROR and go on reading. -/
def refuse (s : ConnectionState) (request : Frame) (code : ErrorCode) (message : String) :
    ConnectionState :=
  { s with
    loop := .reading
    refused := s.refused ++ [errorFrame request code message]
    sent := s.sent ++ [errorFrame request code message] }

/-- Change one task. -/
def setTask (s : ConnectionState) (i : ℕ) (task : RequestTask) : ConnectionState :=
  { s with tasks := s.tasks.set i task }

/-- CANCEL: take the entry from the table and abort its task. -/
def cancel (s : ConnectionState) (requestId : UInt64) : ConnectionState :=
  match s.active.lookup requestId with
  | none => s
  | some entry =>
    { s with
      active := s.active.erase requestId
      tasks := s.tasks.modify entry.task RequestTask.abort }

/-- STREAM_CREDIT. -/
def streamCredit (s : ConnectionState) (frame : Frame) : ConnectionState :=
  if frame.methodId ≠ 0 ∨ frame.requestId = 0 ∨ frame.body.length ≠ 8 then close s
  else
    let count := (UInt64.fromBeBytes frame.body).toNat
    if count = 0 then close s
    else
      match s.active.lookup frame.requestId with
      | none => s
      | some entry =>
        -- credits target a unary request
        if entry.isStreaming = false then close s
        else { s with tasks := s.tasks.modify entry.task fun task =>
            { task with credits := addCredits task.credits count } }

section Model

variable (cfg : ConnectionConfig)

/-- What the loop does with a frame. -/
def receive (s : ConnectionState) (frame : Frame) : ConnectionState :=
  match frame.kind with
  | .request =>
    if s.isDraining then refuse s frame .unavailable "server connection is draining"
    else if frame.requestId = 0 then close s
    else if s.permits = 0 then refuse s frame .resourceExhausted "too many active requests"
    -- the permit is taken before the table is locked
    else { s with loop := .registering frame, permits := s.permits - 1 }
  | .cancel => cancel s frame.requestId
  | .streamCredit => streamCredit s frame
  | .ping => if frame.requestId = 0 then close s else s
  | .health =>
    if frame.requestId = 0 ∨ frame.methodId ≠ 0 ∨ frame.body ≠ [] then close s else s
  -- GOODBYE ends the connection, and so does a frame no client sends
  | _ => close s

/-- Spawn and register the task of an admitted REQUEST. -/
def register (s : ConnectionState) (frame : Frame) : ConnectionState :=
  if cfg.isStreaming frame.methodId ∧ cfg.negotiated.features &&& featureServerStreaming = 0 then
    -- the permit is dropped with the frame
    refuse { s with permits := s.permits + 1 } frame .invalidRequest
      "server streaming was not negotiated"
  else if frame.requestId ∈ s.active then close { s with permits := s.permits + 1 }
  else
    { s with
      loop := .reading
      active := s.active.insert frame.requestId
        ⟨s.tasks.length, cfg.isStreaming frame.methodId⟩
      tasks := s.tasks ++ [⟨frame.requestId, .running, false, 0⟩] }

/-- A step of the task at position `i`. -/
def taskStep (s : ConnectionState) (i : ℕ) (task : RequestTask) :
    RequestEvent → Option ConnectionState
  | .acquireCredit =>
    if task.phase = .running ∧ 0 < task.credits then
      some (setTask s i { task with credits := task.credits - 1 })
    else none
  | .answer frame =>
    if task.phase = .running ∧ ∀ answer ∈ frame, answer.requestId = task.requestId then
      some { setTask s i { task with phase := .answered } with sent := s.sent ++ frame.toList }
    else none
  | .deregister =>
    if task.phase = .answered then
      some { setTask s i { task with phase := .deregistered } with
        active := s.active.erase task.requestId }
    else none
  | .drop =>
    -- an aborted task is dropped wherever it yields
    if task.phase = .deregistered ∨ task.isAborted ∧ task.phase ≠ .ended then
      some { setTask s i { task with phase := .ended } with permits := s.permits + 1 }
    else none
  | .panic =>
    -- unwinding drops the permit, and nothing else
    if task.phase = .running then
      some { setTask s i { task with phase := .ended } with permits := s.permits + 1 }
    else none

def step (s : ConnectionState) : ConnectionLabel → Option ConnectionState
  | .receive frame =>
    match s.loop with
    | .reading => some (receive s frame)
    | _ => none
  | .register =>
    match s.loop with
    | .registering frame => some (register cfg s frame)
    | _ => none
  | .drain =>
    match s.loop with
    | .reading => some { s with isDraining := true }
    | _ => none
  | .hangUp =>
    match s.loop with
    | .reading => some (close s)
    | _ => none
  | .task i event =>
    match s.tasks[i]? with
    | some task => taskStep s i task event
    | none => none

end Model

/-! ### What a step does -/

/-- What a task does when it meets with an event. -/
inductive TaskMoves (s : ConnectionState) (i : ℕ) (task : RequestTask) :
    RequestEvent → ConnectionState → Prop where
  | acquireCredit : task.phase = .running → TaskMoves s i task .acquireCredit
      (setTask s i { task with credits := task.credits - 1 })
  | answer {frame : Option Frame} : task.phase = .running →
      (∀ answer ∈ frame, answer.requestId = task.requestId) → TaskMoves s i task (.answer frame)
      { setTask s i { task with phase := .answered } with sent := s.sent ++ frame.toList }
  | deregister : task.phase = .answered → TaskMoves s i task .deregister
      { setTask s i { task with phase := .deregistered } with
        active := s.active.erase task.requestId }
  | drop : task.phase = .deregistered ∨ task.isAborted ∧ task.phase ≠ .ended →
      TaskMoves s i task .drop
      { setTask s i { task with phase := .ended } with permits := s.permits + 1 }
  | panic : task.phase = .running → TaskMoves s i task .panic
      { setTask s i { task with phase := .ended } with permits := s.permits + 1 }

/-- What the loop does with a frame. -/
inductive Receives (s : ConnectionState) (frame : Frame) : ConnectionState → Prop where
  | refuseDraining : frame.kind = .request → s.isDraining = true →
      Receives s frame (refuse s frame .unavailable "server connection is draining")
  | refuseFull : frame.kind = .request → s.isDraining = false → s.permits = 0 →
      Receives s frame (refuse s frame .resourceExhausted "too many active requests")
  | accept : frame.kind = .request → s.isDraining = false → 0 < s.permits →
      Receives s frame { s with loop := .registering frame, permits := s.permits - 1 }
  | cancel {entry : ActiveRequest} : frame.kind = .cancel →
      s.active.lookup frame.requestId = some entry →
      Receives s frame { s with
        active := s.active.erase frame.requestId
        tasks := s.tasks.modify entry.task RequestTask.abort }
  | credit (i count : ℕ) : frame.kind = .streamCredit →
      Receives s frame { s with tasks := s.tasks.modify i fun task =>
        { task with credits := addCredits task.credits count } }
  | ignore : frame.kind ≠ .request →
      (frame.kind = .cancel → s.active.lookup frame.requestId = none) → Receives s frame s
  | close : (frame.kind = .request → s.isDraining = false) → frame.kind ≠ .cancel →
      Receives s frame (close s)

/-- What becomes of an admitted REQUEST. -/
inductive Registers (cfg : ConnectionConfig) (s : ConnectionState) (frame : Frame) :
    ConnectionState → Prop where
  | refuse : Registers cfg s frame (refuse { s with permits := s.permits + 1 } frame
      .invalidRequest "server streaming was not negotiated")
  | duplicate : Registers cfg s frame (close { s with permits := s.permits + 1 })
  | register : frame.requestId ∉ s.active → Registers cfg s frame { s with
      loop := .reading
      active := s.active.insert frame.requestId
        ⟨s.tasks.length, cfg.isStreaming frame.methodId⟩
      tasks := s.tasks ++ [⟨frame.requestId, .running, false, 0⟩] }

/-- What the loop of the connection, or one of its tasks, does in a step. -/
inductive Steps (cfg : ConnectionConfig) (s : ConnectionState) :
    ConnectionLabel → ConnectionState → Prop where
  | receive {frame : Frame} : s.loop = .reading → Steps cfg s (.receive frame) (receive s frame)
  | register {frame : Frame} : s.loop = .registering frame →
      Steps cfg s .register (register cfg s frame)
  | drain : s.loop = .reading → Steps cfg s .drain { s with isDraining := true }
  | hangUp : s.loop = .reading → Steps cfg s .hangUp (close s)
  | task {i : ℕ} {task : RequestTask} {event : RequestEvent} {t : ConnectionState} :
      s.tasks[i]? = some task → TaskMoves s i task event t → Steps cfg s (.task i event) t

variable {event : RequestEvent} {frame : Frame} {label : ConnectionLabel}

section Inversion

variable {cfg : ConnectionConfig} {s t : ConnectionState}

theorem taskMoves_of_taskStep {i : ℕ} {task : RequestTask} (h : taskStep s i task event = some t) :
    TaskMoves s i task event t := by
  cases event <;> simp only [taskStep] at h <;> split_ifs at h with hphase <;>
    cases h
  · exact .acquireCredit hphase.1
  · exact .answer hphase.1 hphase.2
  · exact .deregister hphase
  · exact .drop hphase
  · exact .panic hphase

/-- A frame that is neither REQUEST nor CANCEL closes the connection or is ignored. -/
theorem receives_other {p : Prop} [Decidable p] (hrequest : frame.kind ≠ .request)
    (hcancel : frame.kind ≠ .cancel) : Receives s frame (if p then close s else s) := by
  split_ifs
  · exact .close (fun hkind => absurd hkind hrequest) hcancel
  · exact .ignore hrequest fun hkind => absurd hkind hcancel

theorem receives_streamCredit (hkind : frame.kind = .streamCredit) :
    Receives s frame (streamCredit s frame) := by
  have hclose : Receives s frame (close s) := .close (by simp [hkind]) (by simp [hkind])
  unfold streamCredit
  split_ifs
  · exact hclose
  dsimp only
  split_ifs
  · exact hclose
  split
  · exact .ignore (by simp [hkind]) (by simp [hkind])
  split_ifs
  · exact hclose
  · exact .credit _ _ hkind

theorem receives_receive (s : ConnectionState) (frame : Frame) :
    Receives s frame (receive s frame) := by
  unfold receive
  split
  · rename_i hkind
    split_ifs with hdraining hzero hfull
    · exact .refuseDraining hkind hdraining
    · exact .close (fun _ => by simpa using hdraining) (by simp [hkind])
    · exact .refuseFull hkind (by simpa using hdraining) hfull
    · exact .accept hkind (by simpa using hdraining) (Nat.pos_of_ne_zero hfull)
  · rename_i hkind
    unfold cancel
    split
    · rename_i hnone
      exact .ignore (by simp [hkind]) fun _ => hnone
    · rename_i hentry
      exact .cancel hkind hentry
  · rename_i hkind
    exact receives_streamCredit hkind
  · rename_i hkind
    exact receives_other (by simp [hkind]) (by simp [hkind])
  · rename_i hkind
    exact receives_other (by simp [hkind]) (by simp [hkind])
  · rename_i hrequest hcancel _ _ _
    exact .close (fun hkind => absurd hkind hrequest) hcancel

theorem registers_register (cfg : ConnectionConfig) (s : ConnectionState) (frame : Frame) :
    Registers cfg s frame (register cfg s frame) := by
  unfold register
  split_ifs with hstreaming hduplicate
  · exact .refuse
  · exact .duplicate
  · exact .register hduplicate

theorem steps_of_step (h : step cfg s label = some t) : Steps cfg s label t := by
  cases label <;> simp only [step] at h <;> split at h <;> try cases h
  · rename_i hloop
    exact .receive hloop
  · rename_i hloop
    exact .register hloop
  · rename_i hloop
    exact .drain hloop
  · rename_i hloop
    exact .hangUp hloop
  · rename_i task hi
    exact .task hi (taskMoves_of_taskStep h)

theorem map_modify_of_forall_eq {α β : Type*} (l : List α) (i : ℕ) {f : α → α} {g : α → β}
    (h : ∀ a, g (f a) = g a) : (l.modify i f).map g = l.map g := by
  apply List.ext_getElem?
  intro j
  rw [List.getElem?_map, List.getElem?_map, List.getElem?_modify]
  cases l[j]? with
  | none => rfl
  | some a =>
    simp only [Option.map_eq_map, Option.map_some, Option.some.injEq]
    split_ifs
    · exact h a
    · rfl

/-- Closing changes nothing of a task but that it is aborted. -/
theorem map_tasks_close {β : Type*} {g : RequestTask → β} (h : ∀ task, g task.abort = g task) :
    (close s).tasks.map g = s.tasks.map g := by
  apply List.ext_getElem?
  intro j
  simp only [close, List.getElem?_map, List.getElem?_mapIdx, Option.map_map]
  congr 1
  funext task
  simp only [Function.comp_apply]
  split_ifs
  · exact h task
  · rfl

end Inversion

/-! ### Permits -/

/-- The permit the loop itself holds. -/
def loopPermits : LoopPhase → ℕ
  | .registering _ => 1
  | _ => 0

/-- The tasks that have not been dropped. -/
def liveCount (tasks : List RequestTask) : ℕ := tasks.countP fun task => task.phase ≠ .ended

/-- Every permit is free, with the loop, or with a task. -/
def PermitsConserved (cfg : ConnectionConfig) (s : ConnectionState) : Prop :=
  s.permits + loopPermits s.loop + liveCount s.tasks = maxInFlight cfg

section Permits

variable {cfg : ConnectionConfig} {s t : ConnectionState} {tasks tasks' : List RequestTask}

theorem liveCount_congr (h : tasks'.map RequestTask.phase = tasks.map RequestTask.phase) :
    liveCount tasks' = liveCount tasks := by
  have hcount : ∀ l : List RequestTask,
      liveCount l = (l.map RequestTask.phase).countP fun phase => phase ≠ .ended := by
    intro l
    rw [List.countP_map]
    rfl
  rw [hcount, hcount, h]

theorem liveCount_modify (i : ℕ) {f : RequestTask → RequestTask}
    (hf : ∀ task, (f task).phase = task.phase) :
    liveCount (tasks.modify i f) = liveCount tasks :=
  liveCount_congr (map_modify_of_forall_eq tasks i hf)

theorem liveCount_close : liveCount (close s).tasks = liveCount s.tasks :=
  liveCount_congr (map_tasks_close fun _ => rfl)

/-- A task that keeps its permit, or drops it. -/
theorem liveCount_set {i : ℕ} {task task' : RequestTask} (hi : tasks[i]? = some task)
    (hlive : task.phase ≠ .ended) :
    liveCount (tasks.set i task') + (if task'.phase = .ended then 1 else 0) =
      liveCount tasks := by
  have hcount : liveCount (tasks.set i task') + 1 =
      liveCount tasks + if task'.phase = .ended then 0 else 1 := by
    simpa [liveCount, hlive] using
      List.countP_set_add (fun task => decide (task.phase ≠ .ended)) hi task'
  split_ifs at hcount ⊢ <;> omega

theorem permitsConserved_init (cfg : ConnectionConfig) : PermitsConserved cfg (init cfg) := rfl

theorem permitsConserved_close (h : s.permits + liveCount s.tasks = maxInFlight cfg) :
    PermitsConserved cfg (close s) := by
  unfold PermitsConserved
  rw [liveCount_close]
  exact h

section

variable (h : PermitsConserved cfg s)

include h

theorem permitsConserved_receives (hloop : s.loop = .reading) (hreceives : Receives s frame t) :
    PermitsConserved cfg t := by
  have hfree : s.permits + liveCount s.tasks = maxInFlight cfg := by
    simpa [PermitsConserved, hloop, loopPermits] using h
  cases hreceives with
  | refuseDraining | refuseFull => exact hfree
  | accept _ _ hpermit =>
    -- a permit moves to the loop
    change s.permits - 1 + 1 + liveCount s.tasks = maxInFlight cfg
    omega
  | cancel | credit =>
    -- tasks change, but none of them ends
    change s.permits + loopPermits s.loop + liveCount (s.tasks.modify _ _) = maxInFlight cfg
    rw [liveCount_modify]
    · exact h
    · exact fun _ => rfl
  | ignore => exact h
  | close => exact permitsConserved_close hfree

theorem permitsConserved_registers (hloop : s.loop = .registering frame)
    (hregisters : Registers cfg s frame t) : PermitsConserved cfg t := by
  have hheld : s.permits + 1 + liveCount s.tasks = maxInFlight cfg := by
    simpa [PermitsConserved, hloop, loopPermits] using h
  cases hregisters with
  | refuse => exact hheld
  | duplicate => exact permitsConserved_close hheld
  | register =>
    -- the permit moves from the loop to the new task
    change s.permits + liveCount (s.tasks ++ [_]) = maxInFlight cfg
    have hnew : liveCount (s.tasks ++ [⟨frame.requestId, .running, false, 0⟩]) =
        liveCount s.tasks + 1 := by
      simp [liveCount, List.countP_append]
    omega

theorem permitsConserved_taskMoves {i : ℕ} {task : RequestTask} (hi : s.tasks[i]? = some task)
    (hmoves : TaskMoves s i task event t) : PermitsConserved cfg t := by
  -- a task that was not dropped holds its permit, and keeps it until it is
  have hset : ∀ task', task.phase ≠ .ended →
      liveCount (s.tasks.set i task') + (if task'.phase = .ended then 1 else 0) =
        liveCount s.tasks := fun task' hlive => liveCount_set hi hlive
  unfold PermitsConserved at *
  cases hmoves with
  | acquireCredit hphase =>
    have hcount := hset { task with credits := task.credits - 1 } (by simp [hphase])
    simp only [hphase, reduceCtorEq, if_false] at hcount
    simp only [setTask, hphase] at *
    omega
  | answer hphase =>
    have hcount := hset { task with phase := .answered } (by simp [hphase])
    simp only [reduceCtorEq, if_false] at hcount
    simp only [setTask] at *
    omega
  | deregister hphase =>
    have hcount := hset { task with phase := .deregistered } (by simp [hphase])
    simp only [reduceCtorEq, if_false] at hcount
    simp only [setTask] at *
    omega
  | drop hphase =>
    have hcount := hset { task with phase := .ended }
      (hphase.elim (fun hdone => by simp [hdone]) And.right)
    simp only [if_true] at hcount
    simp only [setTask] at *
    omega
  | panic hphase =>
    have hcount := hset { task with phase := .ended } (by simp [hphase])
    simp only [if_true] at hcount
    simp only [setTask] at *
    omega

/-- No step loses a permit or makes one up. -/
theorem permitsConserved_step (hstep : step cfg s label = some t) : PermitsConserved cfg t := by
  cases steps_of_step hstep with
  | receive hloop => exact permitsConserved_receives h hloop (receives_receive s _)
  | register hloop => exact permitsConserved_registers h hloop (registers_register cfg s _)
  | drain => exact h
  | hangUp hloop =>
    exact permitsConserved_close (by simpa [PermitsConserved, hloop, loopPermits] using h)
  | task hi hmoves => exact permitsConserved_taskMoves h hi hmoves

end

end Permits

/-! ### The table -/

/-- The table leads from the id to the task at position `i`. -/
def EntryAt (active : AList fun _ : UInt64 => ActiveRequest) (id : UInt64) (i : ℕ) : Prop :=
  ∃ entry, active.lookup id = some entry ∧ entry.task = i

/-- The task at position `i` is open and belongs to the request with this id. -/
def OpenAt (tasks : List RequestTask) (id : UInt64) (i : ℕ) : Prop :=
  ∃ task, tasks[i]? = some task ∧ task.requestId = id ∧ task.IsOpen

/-- The keys of the table are the ids of the open requests, and each leads to the task
that was registered under it. -/
def Table (s : ConnectionState) : Prop := ∀ id i, EntryAt s.active id i ↔ OpenAt s.tasks id i

/-- The table as it should be: exact, and no larger than the negotiated limit. -/
structure TableExact (cfg : ConnectionConfig) (s : ConnectionState) : Prop where
  table : Table s
  bounded : s.active.keys.length ≤ maxInFlight cfg

/-- A step that does not spoil the table: a task that panics was aborted before, and a
task that removes the entry of its id finds its own there, or none. -/
def Orderly (s : ConnectionState) : ConnectionLabel → Prop
  | .task i .panic => ∀ task ∈ s.tasks[i]?, task.isAborted = true
  | .task i .deregister => ∀ task ∈ s.tasks[i]?, ∀ entry ∈ s.active.lookup task.requestId,
      entry.task = i
  | _ => True

section Table

variable {cfg : ConnectionConfig} {s t : ConnectionState} {id id' : UInt64} {i j : ℕ}
  {active : AList fun _ : UInt64 => ActiveRequest} {tasks : List RequestTask}
  {task task' : RequestTask}

theorem EntryAt.unique (hi : EntryAt active id i) (hj : EntryAt active id j) : i = j := by
  obtain ⟨entry, hentry, rfl⟩ := hi
  obtain ⟨entry', hentry', rfl⟩ := hj
  rw [Option.mem_unique hentry hentry']

theorem OpenAt.unique (h : OpenAt tasks id i) (h' : OpenAt tasks id' i) : id = id' := by
  obtain ⟨task, htask, rfl, -⟩ := h
  obtain ⟨task', htask', rfl, -⟩ := h'
  rw [Option.mem_unique htask htask']

theorem entryAt_erase : EntryAt (active.erase id') id i ↔ id ≠ id' ∧ EntryAt active id i := by
  by_cases h : id = id'
  · subst h
    simp [EntryAt]
  · simp [EntryAt, AList.lookup_erase_ne h, h]

theorem entryAt_insert {entry : ActiveRequest} : EntryAt (active.insert id' entry) id i ↔
    id = id' ∧ entry.task = i ∨ id ≠ id' ∧ EntryAt active id i := by
  by_cases h : id = id'
  · subst h
    simp [EntryAt]
  · simp [EntryAt, AList.lookup_insert_ne h, h]

/-- Only the task that changed can have become open, or stopped being so. -/
theorem openAt_set (hi : tasks[i]? = some task) :
    OpenAt (tasks.set i task') id j ↔
      j = i ∧ task'.requestId = id ∧ task'.IsOpen ∨ j ≠ i ∧ OpenAt tasks id j := by
  obtain ⟨hlt, -⟩ := List.getElem?_eq_some_iff.mp hi
  by_cases h : j = i
  · subst h
    simp [OpenAt, hlt]
  · simp [OpenAt, List.getElem?_set_ne (Ne.symm h), h]

theorem openAt_set_iff (hi : tasks[i]? = some task) (hid : task'.requestId = task.requestId)
    (hopen : task'.IsOpen ↔ task.IsOpen) : OpenAt (tasks.set i task') id j ↔ OpenAt tasks id j := by
  rw [openAt_set hi, hid, hopen]
  by_cases h : j = i
  · subst h
    simp [OpenAt, hi]
  · simp [h]

/-- A task that is done, or aborted, is no longer open; the others are as before. -/
theorem openAt_set_of_not_isOpen (hi : tasks[i]? = some task) (hopen : ¬ task'.IsOpen) :
    OpenAt (tasks.set i task') id j ↔ j ≠ i ∧ OpenAt tasks id j := by
  rw [openAt_set hi]
  simp [hopen]

theorem openAt_modify_credits (f : ℕ → ℕ) :
    OpenAt (tasks.modify i fun task => { task with credits := f task.credits }) id j ↔
      OpenAt tasks id j := by
  unfold OpenAt
  rw [List.getElem?_modify]
  by_cases h : i = j
  · subst h
    cases htask : tasks[i]? <;> simp [RequestTask.IsOpen]
  · simp [h]

theorem openAt_modify_abort :
    OpenAt (tasks.modify i RequestTask.abort) id j ↔ j ≠ i ∧ OpenAt tasks id j := by
  unfold OpenAt
  rw [List.getElem?_modify]
  by_cases h : i = j
  · subst h
    cases htask : tasks[i]? <;> simp [RequestTask.IsOpen, RequestTask.abort]
  · simp [h, Ne.symm h]

theorem openAt_append : OpenAt (tasks ++ [task]) id i ↔
    OpenAt tasks id i ∨ i = tasks.length ∧ task.requestId = id ∧ task.IsOpen := by
  unfold OpenAt
  constructor
  · rintro ⟨other, hother, hrest⟩
    rcases List.getElem?_concat_eq_some.mp hother with hold | ⟨rfl, rfl⟩
    · exact .inl ⟨other, hold, hrest⟩
    · exact .inr ⟨rfl, hrest⟩
  · rintro (⟨other, hold, hrest⟩ | ⟨rfl, hrest⟩)
    · exact ⟨other, List.getElem?_concat_eq_some.mpr (.inl hold), hrest⟩
    · exact ⟨task, List.getElem?_concat_eq_some.mpr (.inr ⟨rfl, rfl⟩), hrest⟩

theorem Table.init (cfg : ConnectionConfig) : Table (init cfg) := by
  intro id i
  simp [EntryAt, OpenAt, Connection.init]

/-- A step that changes neither the table nor who is open. -/
theorem Table.congr (h : Table s) (hactive : t.active = s.active)
    (hopen : ∀ id j, OpenAt t.tasks id j ↔ OpenAt s.tasks id j) : Table t := by
  intro id j
  rw [hactive, hopen]
  exact h id j

/-- The request with this id is no longer open, and its entry is gone. -/
theorem Table.remove (h : Table s) (hentry : EntryAt s.active id i)
    (hactive : t.active = s.active.erase id)
    (hopen : ∀ id' j, OpenAt t.tasks id' j ↔ j ≠ i ∧ OpenAt s.tasks id' j) : Table t := by
  intro id' j
  rw [hactive, entryAt_erase, hopen, ← h]
  constructor
  · -- one entry per id and one id per task, so the two exclusions agree
    rintro ⟨hne, hentry'⟩
    refine ⟨?_, hentry'⟩
    rintro rfl
    exact hne (((h id' j).mp hentry').unique ((h id j).mp hentry))
  · rintro ⟨hne, hentry'⟩
    refine ⟨?_, hentry'⟩
    rintro rfl
    exact hne (hentry'.unique hentry)

/-- If every open task has an entry, closing aborts them all. -/
theorem not_openAt_close (h : ∀ id i, OpenAt s.tasks id i → EntryAt s.active id i) :
    ¬ OpenAt (close s).tasks id i := by
  rintro ⟨task, htask, rfl, hopen⟩
  simp only [Connection.close, List.getElem?_mapIdx, Option.map_eq_some_iff] at htask
  obtain ⟨old, hold, rfl⟩ := htask
  split_ifs at hopen with habort
  · exact nomatch hopen.2
  · refine habort ?_
    obtain ⟨entry, hentry, hi⟩ := h _ i ⟨old, hold, rfl, hopen⟩
    exact ⟨⟨_, entry⟩, AList.mem_lookup_iff.mp hentry, hi⟩

theorem Table.close (h : Table s) : Table (close s) := by
  intro id i
  refine iff_of_false ?_ (not_openAt_close fun id i => (h id i).mpr)
  rintro ⟨entry, hentry, -⟩
  exact nomatch hentry

theorem Table.receives (h : Table s) (hreceives : Receives s frame t) : Table t := by
  cases hreceives with
  | refuseDraining | refuseFull | accept | ignore => exact h
  | cancel _ hentry => exact h.remove ⟨_, hentry, rfl⟩ rfl fun _ _ => openAt_modify_abort
  | credit i count =>
    exact h.congr rfl fun _ _ => openAt_modify_credits fun credits => addCredits credits count
  | close => exact h.close

theorem Table.registers (h : Table s) (hregisters : Registers cfg s frame t) : Table t := by
  cases hregisters with
  | refuse => exact h
  | duplicate => exact Table.close (s := { s with permits := s.permits + 1 }) h
  | register hfresh =>
    intro id i
    -- the id was checked to be unused, so the new entry displaces none
    have hfree : ¬ EntryAt s.active frame.requestId i := by
      rintro ⟨entry, hentry, -⟩
      exact hfresh (AList.lookup_isSome.mp (by simp [hentry]))
    simp only [entryAt_insert, openAt_append]
    rw [← h]
    constructor
    · rintro (⟨rfl, rfl⟩ | ⟨-, hentry⟩)
      · exact .inr ⟨rfl, rfl, .inl rfl, rfl⟩
      · exact .inl hentry
    · rintro (hentry | ⟨rfl, rfl, -⟩)
      · refine .inr ⟨?_, hentry⟩
        rintro rfl
        exact hfree hentry
      · exact .inl ⟨rfl, rfl⟩

theorem Table.taskMoves (h : Table s) (hi : s.tasks[i]? = some task)
    (horderly : Orderly s (.task i event)) (hmoves : TaskMoves s i task event t) : Table t := by
  cases hmoves with
  | acquireCredit => exact h.congr rfl fun _ _ => openAt_set_iff hi rfl Iff.rfl
  | answer hphase =>
    refine h.congr rfl fun _ _ => openAt_set_iff hi rfl ?_
    simp [RequestTask.IsOpen, hphase]
  | deregister hphase =>
    have hclosed : ¬ ({ task with phase := .deregistered } : RequestTask).IsOpen := by
      simp [RequestTask.IsOpen]
    by_cases hopen : task.IsOpen
    · -- its entry is its own
      exact h.remove ((h _ i).mpr ⟨task, hi, rfl, hopen⟩) rfl fun _ _ =>
        openAt_set_of_not_isOpen hi hclosed
    · -- it was aborted, so its entry is gone, and no other is under its id
      have hnone : ∀ j, ¬ EntryAt s.active task.requestId j := by
        rintro j ⟨entry, hentry, -⟩
        obtain ⟨task', htask', -, hopen'⟩ :=
          (h _ _).mp ⟨entry, hentry, horderly task hi entry hentry⟩
        exact hopen (Option.mem_unique hi htask' ▸ hopen')
      intro id j
      have hsame : OpenAt (s.tasks.set i { task with phase := .deregistered }) id j ↔
          OpenAt s.tasks id j := openAt_set_iff hi rfl (iff_of_false hclosed hopen)
      change EntryAt (s.active.erase task.requestId) id j ↔ OpenAt (s.tasks.set i _) id j
      rw [entryAt_erase, hsame, ← h]
      refine ⟨And.right, fun hentry => ⟨?_, hentry⟩⟩
      rintro rfl
      exact hnone j hentry
  | drop hphase =>
    refine h.congr rfl fun _ _ => openAt_set_iff hi rfl (iff_of_false ?_ ?_)
    · simp [RequestTask.IsOpen]
    · -- a task that may be dropped was not open
      rintro ⟨hphase', haborted⟩
      rcases hphase with hdone | ⟨haborted', -⟩
      · simp [hdone] at hphase'
      · simp [haborted] at haborted'
  | panic hphase =>
    refine h.congr rfl fun _ _ => openAt_set_iff hi rfl (iff_of_false ?_ ?_)
    · simp [RequestTask.IsOpen]
    · intro hopen
      exact Bool.false_ne_true (hopen.2.symm.trans (horderly task hi))

/-- An orderly step keeps the table exact. -/
theorem Table.step (horderly : Orderly s label) (h : Table s) (hstep : step cfg s label = some t) :
    Table t := by
  cases steps_of_step hstep with
  | receive => exact h.receives (receives_receive s _)
  | register => exact h.registers (registers_register cfg s _)
  | drain => exact h
  | hangUp => exact h.close
  | task hi hmoves => exact h.taskMoves hi horderly hmoves

/-- A step that is not orderly spoils an exact table. -/
theorem not_table_of_not_orderly (h : Table s) (hstep : step cfg s label = some t)
    (hnot : ¬ Orderly s label) : ¬ Table t := by
  intro ht
  cases steps_of_step hstep with
  | receive | register | drain | hangUp => exact hnot trivial
  | @task i task event t hi hmoves =>
    cases hmoves with
    | acquireCredit | answer | drop => exact hnot trivial
    | panic hphase =>
      have hopen : task.IsOpen := by
        refine ⟨.inl hphase, ?_⟩
        by_contra haborted
        refine hnot fun task' htask' => ?_
        rw [← Option.mem_unique hi htask']
        simpa using haborted
      -- the entry is still there, and the task it leads to is not open
      have hentry : EntryAt s.active task.requestId i := (h _ i).mpr ⟨task, hi, rfl, hopen⟩
      have hgone :=
        (openAt_set_of_not_isOpen hi (by simp [RequestTask.IsOpen])).mp ((ht _ i).mp hentry)
      exact hgone.1 rfl
    | deregister hphase =>
      refine hnot fun task' htask' entry hentry => ?_
      obtain rfl := Option.mem_unique hi htask'
      by_contra hother
      -- the other task is still open, but its entry was removed
      have hopen : OpenAt s.tasks task.requestId entry.task := (h _ _).mp ⟨entry, hentry, rfl⟩
      have hentry' := (ht task.requestId entry.task).mpr
        ((openAt_set_of_not_isOpen hi (by simp [RequestTask.IsOpen])).mpr ⟨hother, hopen⟩)
      exact (entryAt_erase.mp hentry').1 rfl

/-- An exact table has at most one entry for each task that was not dropped. -/
theorem Table.bounded (h : Table s) (hpermits : PermitsConserved cfg s) :
    s.active.keys.length ≤ maxInFlight cfg := by
  -- every entry leads to a task that holds a permit
  have hsubset : s.active.keys ⊆
      (s.tasks.filter fun task => task.phase ≠ .ended).map RequestTask.requestId := by
    intro id hid
    obtain ⟨entry, hentry⟩ := Option.isSome_iff_exists.mp
      (AList.lookup_isSome.mpr (AList.mem_keys.mpr hid))
    obtain ⟨task, htask, rfl, hopen⟩ := (h id entry.task).mp ⟨entry, hentry, rfl⟩
    refine List.mem_map_of_mem (List.mem_filter.mpr ⟨List.mem_of_getElem? htask, ?_⟩)
    rcases hopen.1 with hphase | hphase <;> simp [hphase]
  calc s.active.keys.length
      ≤ ((s.tasks.filter fun task => task.phase ≠ .ended).map RequestTask.requestId).length :=
        (List.subperm_of_subset s.active.keys_nodup hsubset).length_le
    _ = liveCount s.tasks := by rw [List.length_map, liveCount, List.countP_eq_length_filter]
    _ ≤ maxInFlight cfg := by
        rw [← hpermits]
        exact Nat.le_add_left _ _

end Table

theorem tableExact_iff_table {cfg : ConnectionConfig} {s : ConnectionState}
    (hpermits : PermitsConserved cfg s) : TableExact cfg s ↔ Table s :=
  ⟨TableExact.table, fun h => ⟨h, h.bounded hpermits⟩⟩

/-- The table is exact and bounded in every state of a run if and only if every step is
orderly: no registered task panics, and no task removes the entry of another. -/
theorem tableExact_iff_orderly (cfg : ConnectionConfig) (labels : List ConnectionLabel)
    (s : ConnectionState) (hrun : run (step cfg) (init cfg) labels = some s) :
    (∀ before t, before <+: labels → run (step cfg) (init cfg) before = some t →
        TableExact cfg t) ↔
      MeetsGuard (step cfg) Orderly (init cfg) labels := by
  rw [meetsGuard_iff_always Table.step not_table_of_not_orderly (Table.init cfg) hrun]
  -- the bound follows from the exact table, since permits are never lost
  have hpermits : ∀ before t, run (step cfg) (init cfg) before = some t →
      PermitsConserved cfg t := fun _ _ ht =>
    run_invariant (I := PermitsConserved cfg) permitsConserved_step ht (permitsConserved_init cfg)
  exact forall_congr' fun before => forall_congr' fun t => imp_congr_right fun _ =>
    forall_congr' fun ht => tableExact_iff_table (hpermits before t ht)

/-- A connection that negotiated one request in flight. -/
def oneInFlight : ConnectionConfig where
  negotiated := ⟨{ PeerSettings.default with maxInFlight := 1 }, by decide⟩
  isStreaming _ := false

instance (s : ConnectionState) : (label : ConnectionLabel) → Decidable (Orderly s label)
  | .task i .panic => inferInstanceAs (Decidable (∀ task ∈ s.tasks[i]?, task.isAborted = true))
  | .task i .deregister => inferInstanceAs (Decidable (∀ task ∈ s.tasks[i]?,
      ∀ entry ∈ s.active.lookup task.requestId, entry.task = i))
  | .task _ .acquireCredit | .task _ (.answer _) | .task _ .drop => isTrue trivial
  | .receive _ | .register | .drain | .hangUp => isTrue trivial

/-- A request is admitted, answered and cleaned up. -/
def answeredRun : List ConnectionLabel :=
  [.receive (Frame.new .request 7 1 []), .register,
    .task 0 (.answer (some (Frame.new .response 7 1 []))), .task 0 .deregister, .task 0 .drop]

theorem tableExact_answeredRun :
    ∃ s, run (step oneInFlight) (init oneInFlight) answeredRun = some s ∧
      ∀ before t, before <+: answeredRun →
        run (step oneInFlight) (init oneInFlight) before = some t → TableExact oneInFlight t := by
  obtain ⟨s, hrun⟩ : ∃ s, run (step oneInFlight) (init oneInFlight) answeredRun = some s :=
    Option.isSome_iff_exists.mp (by decide +kernel)
  exact ⟨s, hrun, (tableExact_iff_orderly oneInFlight answeredRun s hrun).mpr (by decide +kernel)⟩

/-! ### A handler that panics, and an id that is used again -/

/-- The handler of the first request panics. Its permit is released, its entry stays. -/
def panicRun : List ConnectionLabel :=
  [.receive (Frame.new .request 7 1 []), .register, .task 0 .panic,
    .receive (Frame.new .request 7 2 []), .register]

/-- The client cancels a request that is about to finish and uses its id again. The
first task removes the entry of the second. -/
def reusedIdRun : List ConnectionLabel :=
  [.receive (Frame.new .request 7 1 []), .register, .task 0 (.answer none),
    .receive (Frame.new .cancel 0 1 []), .receive (Frame.new .request 7 1 []), .register,
    .task 0 .deregister]

/-- With one request in flight negotiated, the table has two entries; and a table has
lost the entry of a request that is open. -/
theorem not_tableExact_panicRun_reusedIdRun :
    (∃ s, run (step oneInFlight) (init oneInFlight) panicRun = some s ∧
      s.active.keys.length = 2 ∧ ¬ TableExact oneInFlight s) ∧
    (∃ s, run (step ⟨Writer.defaultNegotiated, fun _ => false⟩)
        (init ⟨Writer.defaultNegotiated, fun _ => false⟩) reusedIdRun = some s ∧
      OpenAt s.tasks 1 1 ∧ ¬ TableExact ⟨Writer.defaultNegotiated, fun _ => false⟩ s) := by
  constructor
  · have hlength : (run (step oneInFlight) (init oneInFlight) panicRun).map
        (fun s => s.active.keys.length) = some 2 := by
      decide +kernel
    obtain ⟨s, hrun, hlength⟩ := Option.map_eq_some_iff.mp hlength
    refine ⟨s, hrun, hlength, fun h => ?_⟩
    exact absurd (hlength ▸ h.bounded) (by decide)
  · have hstate : (run (step ⟨Writer.defaultNegotiated, fun _ => false⟩)
        (init ⟨Writer.defaultNegotiated, fun _ => false⟩) reusedIdRun).map
          (fun s => (s.active.lookup 1, s.tasks[1]?)) =
        some (none, some ⟨1, .running, false, 0⟩) := by
      decide +kernel
    obtain ⟨s, hrun, hstate⟩ := Option.map_eq_some_iff.mp hstate
    obtain ⟨hnone, htask⟩ := Prod.mk.inj hstate
    have hopen : OpenAt s.tasks 1 1 := ⟨_, htask, rfl, .inl rfl, rfl⟩
    refine ⟨s, hrun, hopen, fun h => ?_⟩
    obtain ⟨entry, hentry, -⟩ := (h.table 1 1).mpr hopen
    exact nomatch hnone.symm.trans hentry

end Connection

end MoonLightBridge.Server
