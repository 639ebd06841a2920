import MoonLightBridge.Client.ServerStream
import MoonLightBridge.Semantics.Threads

/-!
# The callbacks of a stream

`MoonLightServerStream` runs the callbacks of its subscriber one after another: they are
put into a queue, and the thread that sets the flag `drainingCallbacks` hands a task to the
client's executor that empties it. The executor is shared with the listeners of events and
with other streams, and is shut down when the connection ends. Tasks that it has not begun
by then are discarded, and with such a task the flag stays set and no later callback is run.

Every thread is modelled with the calls it is in. The monitor `callbacks` is reentrant, and
the subscriber may call back into the stream from within its callbacks.
-/

namespace MoonLightBridge.Client.StreamCallbacks

open Transition Threads

/-- The elements of `callbackQueue`. -/
inductive Callback where
  /-- an item is delivered -/
  | item
  /-- `onComplete` or `onError` -/
  | terminal
  /-- the empty callback of `drainCallbacks` -/
  | nothing
  deriving DecidableEq, Repr

/-- The tasks of the client's `callbackExecutor`. -/
inductive CallbackTask where
  | drainCallbacks
  /-- of an event or of another stream -/
  | other
  deriving DecidableEq, Repr

/-- The calls that a thread may make, from outside or within a callback. -/
inductive Call where
  | subscribe
  /-- `Subscription.request` -/
  | request (count : ℤ)
  /-- `Subscription.cancel`, or `close` of the stream -/
  | cancel
  /-- STREAM_ITEM -/
  | emit
  /-- `complete` or `fail`: STREAM_END, ERROR, or the request could not be sent -/
  | finish
  /-- the deadline of the stream -/
  | deadline
  /-- `close` or `terminate` of the client -/
  | terminate
  /-- another task for the executor -/
  | submit
  deriving DecidableEq, Repr

inductive Instruction where
  /-- the monitor `callbacks` -/
  | enter
  | exit
  | subscribe
  | onSubscribe
  /-- the `finally` of `subscribe` -/
  | endSubscribe
  | request (count : ℤ)
  | emit
  | grantAvailableCredit
  | grantCredit
  /-- the block of `finish` that holds the lock `this` -/
  | finish (cancel : Bool)
  /-- `terminalCleanup`, and what follows it -/
  | cleanUp (cancel : Bool)
  | cancelRemote
  | signalTerminal
  | dispatchCallback (callback : Callback)
  /-- `drainingCallbacks.compareAndSet` -/
  | compareAndSet
  | execute (task : CallbackTask)
  | startVirtual
  /-- `drainCallbacks`, from `callbackQueue.poll` on -/
  | poll
  | run (callback : Callback)
  | onNext
  /-- other code of the user -/
  | userCode
  /-- the `finally` of the callback of an item -/
  | callbackDone
  /-- the `finally` of `drainCallbacks`: `drainingCallbacks.set(false)` -/
  | reset
  /-- and the look at the queue after it -/
  | recheck
  | terminate
  | shutdownNow
  /-- a worker of the executor takes its next task -/
  | takeTask
  deriving DecidableEq, Repr

/-- What the environment decides. -/
inductive Choice where
  /-- the code of the user returns, a frame can be sent -/
  | returns
  /-- the code of the user throws, a frame cannot be sent -/
  | throws
  /-- the code of the user calls the stream or the client -/
  | calls (call : Call)
  deriving DecidableEq, Repr

/-- The fields of the stream and of the executor. -/
structure Shared where
  /-- `subscriber != null` -/
  isSubscribed : Bool
  subscribing : Bool
  terminalDelivered : Bool
  terminated : Bool
  cancelled : Bool
  demand : ℕ
  outstandingWireCredit : ℕ
  pendingCallbacks : ℕ
  /-- the owner of the monitor, and how often it has entered it again -/
  callbacks : Option (ℕ × ℕ)
  callbackQueue : List Callback
  drainingCallbacks : Bool
  /-- `onComplete` or `onError` has been called -/
  hasRunTerminal : Bool
  /-- `closed` of the client -/
  closed : Bool
  workers : ℕ
  workQueue : List CallbackTask
  isShutdown : Bool
  deriving DecidableEq, Repr

/-- `corePoolSize` of the executor. -/
def corePoolSize : ℕ := 2

/-- `maximumPoolSize` of the executor. -/
def maximumPoolSize : ℕ := 4

/-- The capacity of the executor's queue. -/
def workQueueCapacity : ℕ := 1024

def Call.program : Call → List Instruction
  | .subscribe => [.enter, .subscribe, .exit]
  | .request count => [.enter, .request count, .exit]
  | .cancel => [.finish true]
  | .emit => [.enter, .emit, .exit]
  | .finish => [.finish false]
  | .deadline => [.cancelRemote, .finish false]
  | .terminate => [.terminate]
  | .submit => [.execute .other]

def CallbackTask.program : CallbackTask → List Instruction
  | .drainCallbacks => [.poll]
  | .other => [.userCode]

/-- A callback of an event is dropped, and the stream starts a thread of its own. -/
def CallbackTask.rejected : CallbackTask → List Instruction
  | .drainCallbacks => [.startVirtual]
  | .other => []

namespace Shared

/-- A new worker of the executor begins with the task. -/
def startWorker (s : Shared) (task : CallbackTask) : Effect Shared Instruction :=
  { shared := { s with workers := s.workers + 1 }, started := [task.program ++ [.takeTask]] }

/-- `callbackExecutor.execute`, and the handler of its exception. -/
def execute (s : Shared) (task : CallbackTask) : Effect Shared Instruction :=
  if s.isShutdown then { shared := s, next := task.rejected }
  else if s.workers < corePoolSize then s.startWorker task
  else if s.workQueue.length < workQueueCapacity then
    { shared := { s with workQueue := s.workQueue ++ [task] } }
  else if s.workers < maximumPoolSize then s.startWorker task
  else { shared := s, next := task.rejected }

/-- `grantAvailableCredit` -/
def grantAvailableCredit (s : Shared) : Effect Shared Instruction :=
  let credit := min (s.demand - s.outstandingWireCredit) (maxPendingCallbacks - s.pendingCallbacks)
  if s.terminated ∨ credit = 0 then { shared := s }
  else
    { shared := { s with
        outstandingWireCredit := s.outstandingWireCredit + credit
        pendingCallbacks := s.pendingCallbacks + credit }
      next := [.grantCredit] }

/-- `emit`, within the monitor. -/
def emit (s : Shared) : Effect Shared Instruction :=
  if s.terminated then { shared := s }
  else if s.isSubscribed = false ∨ s.demand = 0 ∨ s.outstandingWireCredit = 0 then
    { shared := s, next := [.finish false, .cancelRemote] }
  else
    { shared := { s with
        outstandingWireCredit := s.outstandingWireCredit - 1
        demand := if s.demand = longMax then s.demand else s.demand - 1 }
      next := [.dispatchCallback .item] }

/-- `Subscription.request`, within the monitor. -/
def request (s : Shared) (count : ℤ) : Effect Shared Instruction :=
  if s.terminated then { shared := s }
  else if count ≤ 0 then { shared := s, next := [.finish false, .cancelRemote] }
  else
    { shared := { s with demand := ServerStream.addDemand s.demand count.toNat }
      next := [.grantAvailableCredit] }

/-- The condition of `signalTerminal`. -/
def Unsignalled (s : Shared) : Prop :=
  s.terminated = true ∧ s.isSubscribed = true ∧ s.cancelled = false ∧ s.subscribing = false ∧
    s.terminalDelivered = false

instance decidableUnsignalled (s : Shared) : Decidable s.Unsignalled :=
  inferInstanceAs (Decidable (s.terminated = true ∧ s.isSubscribed = true ∧
    s.cancelled = false ∧ s.subscribing = false ∧ s.terminalDelivered = false))

end Shared

/-- What an instruction does in the thread `self`, or `none` if it blocks. -/
def exec (self : ℕ) (choice : Choice) (s : Shared) :
    Instruction → Option (Effect Shared Instruction)
  | .enter =>
    match s.callbacks with
    | none => some { shared := { s with callbacks := some (self, 0) } }
    | some (owner, depth) =>
      if owner = self then some { shared := { s with callbacks := some (self, depth + 1) } }
      else none
  | .exit =>
    match s.callbacks with
    | some (owner, depth + 1) => some { shared := { s with callbacks := some (owner, depth) } }
    | _ => some { shared := { s with callbacks := none } }
  | .subscribe =>
    -- a second subscriber is turned away
    if s.isSubscribed then some { shared := s, next := [.userCode] }
    else
      some { shared := { s with isSubscribed := true, subscribing := true }
             next := [.onSubscribe, .endSubscribe] }
  | .onSubscribe =>
    match choice with
    | .returns => some { shared := s }
    | .throws => some { shared := s, next := [.finish true] }
    | .calls call => some { shared := s, next := call.program ++ [.onSubscribe] }
  | .endSubscribe =>
    some { shared := { s with subscribing := false }, next := [.signalTerminal] }
  | .request count => some (s.request count)
  | .emit => some s.emit
  | .grantAvailableCredit => some s.grantAvailableCredit
  | .grantCredit =>
    match choice with
    | .throws => some { shared := s, next := [.finish false] }
    | _ => some { shared := s }
  | .finish cancel =>
    if s.terminated then some { shared := s }
    else
      some { shared := { s with terminated := true, cancelled := cancel }
             next := [.cleanUp cancel] }
  | .cleanUp cancel =>
    some { shared := s
           next := if cancel then [.cancelRemote] else [.enter, .signalTerminal, .exit] }
  | .cancelRemote =>
    match choice with
    | .throws => some { shared := s, next := if s.closed then [] else [.terminate] }
    | _ => some { shared := s }
  | .signalTerminal =>
    if s.Unsignalled then
      some { shared := { s with terminalDelivered := true }
             next := [.dispatchCallback .terminal] }
    else some { shared := s }
  | .dispatchCallback callback =>
    some { shared := { s with callbackQueue := s.callbackQueue ++ [callback] }
           next := [.compareAndSet] }
  | .compareAndSet =>
    if s.drainingCallbacks then some { shared := s }
    else
      some { shared := { s with drainingCallbacks := true }, next := [.execute .drainCallbacks] }
  | .execute task => some (s.execute task)
  | .startVirtual => some { shared := s, started := [CallbackTask.drainCallbacks.program] }
  | .poll =>
    match s.callbackQueue with
    | [] => some { shared := s, next := [.reset] }
    | callback :: rest =>
      some { shared := { s with callbackQueue := rest }, next := [.run callback] }
  | .run .item => some { shared := s, next := [.onNext, .enter, .callbackDone, .exit, .poll] }
  | .run .terminal =>
    some { shared := { s with hasRunTerminal := true }, next := [.userCode, .poll] }
  | .run .nothing => some { shared := s, next := [.poll] }
  | .onNext =>
    match choice with
    | .returns => some { shared := s }
    | .throws => some { shared := s, next := [.finish false, .cancelRemote] }
    | .calls call => some { shared := s, next := call.program ++ [.onNext] }
  | .userCode =>
    match choice with
    | .calls call => some { shared := s, next := call.program ++ [.userCode] }
    | _ => some { shared := s }
  | .callbackDone =>
    some { shared := { s with pendingCallbacks := s.pendingCallbacks - 1 }
           next := [.grantAvailableCredit] }
  | .reset => some { shared := { s with drainingCallbacks := false }, next := [.recheck] }
  | .recheck =>
    some { shared := s
           next := if s.callbackQueue = [] then [] else [.dispatchCallback .nothing] }
  | .terminate =>
    if s.closed then some { shared := s }
    else some { shared := { s with closed := true }, next := [.shutdownNow, .finish false] }
  | .shutdownNow => some { shared := { s with isShutdown := true, workQueue := [] } }
  | .takeTask =>
    if s.isShutdown then some { shared := { s with workers := s.workers - 1 } }
    else
      match s.workQueue with
      | task :: rest =>
        some { shared := { s with workQueue := rest }, next := task.program ++ [.takeTask] }
      | [] =>
        -- a worker beyond the core size goes away when it has been idle for long
        if corePoolSize < s.workers then some { shared := { s with workers := s.workers - 1 } }
        else none

abbrev Callbacks := System Shared Instruction

def step : Callbacks → Label Call Choice → Option Callbacks := Threads.step Call.program exec

def init : Callbacks where
  shared :=
    { isSubscribed := false, subscribing := false, terminalDelivered := false
      terminated := false, cancelled := false, demand := 0, outstandingWireCredit := 0
      pendingCallbacks := 0, callbacks := none, callbackQueue := [], drainingCallbacks := false
      hasRunTerminal := false, closed := false, workers := 0, workQueue := []
      isShutdown := false }
  threads := []

/-! ### What is still to be executed -/

namespace Instruction

/-- The instruction belongs to a run of `drainCallbacks`, or is about to start one. -/
def drains : Instruction → Bool
  | .execute .drainCallbacks | .startVirtual | .poll | .run _ | .reset => true
  | _ => false

/-- The instruction is going to see that the queue is not empty. -/
def dispatches : Instruction → Bool
  | .dispatchCallback _ | .compareAndSet | .recheck => true
  | _ => false

/-- The instruction is going to signal the end of the stream. -/
def signals : Instruction → Bool
  | .cleanUp false | .signalTerminal => true
  | _ => false

/-- `subscribe` has not returned. -/
def endsSubscribe : Instruction → Bool
  | .endSubscribe => true
  | _ => false

/-- The terminal callback is on its way into the queue, or has been taken out of it. -/
def holdsTerminal : Instruction → Bool
  | .dispatchCallback .terminal | .run .terminal => true
  | _ => false

end Instruction

/-- A run of `drainCallbacks` is active or scheduled. -/
def HasDrain (s : Callbacks) : Prop :=
  .drainCallbacks ∈ s.shared.workQueue ∨
    ∃ stack ∈ s.threads, ∃ instruction ∈ stack, instruction.drains = true

/-- A call that is going to schedule one, if necessary, has not returned. -/
def IsDispatching (s : Callbacks) : Prop :=
  ∃ stack ∈ s.threads, ∃ instruction ∈ stack,
    (instruction.dispatches || instruction.signals || instruction.endsSubscribe) = true

/-- If the step shuts down the executor, no task of the stream is in its queue. -/
def Spares (s : Callbacks) : Label Call Choice → Prop
  | .start _ => True
  | .step thread _ =>
    s.threads[thread]?.bind List.head? = some .shutdownNow →
      .drainCallbacks ∉ s.shared.workQueue

instance decidableSpares (s : Callbacks) : (label : Label Call Choice) → Decidable (Spares s label)
  | .start _ => .isTrue trivial
  | .step thread _ =>
    inferInstanceAs (Decidable (s.threads[thread]?.bind List.head? = some .shutdownNow →
      .drainCallbacks ∉ s.shared.workQueue))

namespace Shared

/-- The callbacks in the queue are not being taken care of by a task. -/
def Unattended (s : Shared) : Prop := s.callbackQueue ≠ [] ∧ s.drainingCallbacks = false

/-- The terminal callback has been dispatched and is not in the queue, but has not run. -/
def Undelivered (s : Shared) : Prop :=
  s.terminalDelivered = true ∧ s.hasRunTerminal = false ∧ .terminal ∉ s.callbackQueue

/-- Tasks of the stream in the executor's queue. -/
def drainTasks (s : Shared) : ℕ := s.workQueue.count .drainCallbacks

end Shared

/-- How an instruction accounts for what it changes. -/
structure Accounts (s : Shared) (instruction : Instruction) (effect : Effect Shared Instruction) :
    Prop where
  /-- tasks come and go with the flag -/
  drain : effect.shared.drainTasks + effect.next.countP Instruction.drains +
      effect.started.flatten.countP Instruction.drains + s.drainingCallbacks.toNat =
    s.drainTasks + (if instruction.drains then 1 else 0) + effect.shared.drainingCallbacks.toNat
  /-- only such a task runs callbacks -/
  hasRun : instruction.drains = false → effect.shared.hasRunTerminal = s.hasRunTerminal
  queue : effect.Covers Shared.Unattended Instruction.dispatches s instruction
  subscribing : effect.Covers (·.subscribing = true) Instruction.endsSubscribe s instruction
  signal : effect.Covers Shared.Unsignalled Instruction.signals s instruction
  terminal : effect.Covers Shared.Undelivered Instruction.holdsTerminal s instruction

section Accounts

variable {s : Shared} {self : ℕ} {choice : Choice} {instruction : Instruction}
  {effect : Effect Shared Instruction}

/-- The fields of the stream that have to be accounted for. -/
def Shared.view (s : Shared) : List Callback × List Bool :=
  (s.callbackQueue, [s.drainingCallbacks, s.subscribing, s.terminated, s.isSubscribed,
    s.cancelled, s.terminalDelivered, s.hasRunTerminal])

/-- None of these fields changes, and tasks are only passed on. -/
theorem Accounts.of_view (hview : effect.shared.view = s.view)
    (hkind : (instruction.dispatches || instruction.endsSubscribe || instruction.signals ||
      instruction.holdsTerminal) = false)
    (hdrain : effect.shared.drainTasks + effect.next.countP Instruction.drains +
      effect.started.flatten.countP Instruction.drains =
        s.drainTasks + (if instruction.drains then 1 else 0)) :
    Accounts s instruction effect := by
  simp only [Shared.view, Prod.mk.injEq, List.cons.injEq, and_true] at hview
  obtain ⟨hqueue, hdraining, hsubscribing, hterminated, hsubscribed, hcancelled, hdelivered,
    hran⟩ := hview
  simp only [Bool.or_eq_false_iff] at hkind
  obtain ⟨⟨⟨hdispatches, hends⟩, hsignals⟩, hholds⟩ := hkind
  constructor
  · rw [hdrain, hdraining]
  · exact fun _ => hran
  · apply Effect.Covers.of_imp _ hdispatches
    rw [Shared.Unattended, hqueue, hdraining]
    exact id
  · apply Effect.Covers.of_imp _ hends
    rw [hsubscribing]
    exact id
  · apply Effect.Covers.of_imp _ hsignals
    rw [Shared.Unsignalled, hterminated, hsubscribed, hcancelled, hsubscribing, hdelivered]
    exact id
  · apply Effect.Covers.of_imp _ hholds
    rw [Shared.Undelivered, hdelivered, hran, hqueue]
    exact id

/-- A call starts no task by itself. -/
theorem countP_drains_program (call : Call) : call.program.countP Instruction.drains = 0 := by
  cases call <;> rfl

/-- Code of the user may call the stream or the client. -/
theorem countP_drains_calls (call : Call) (instruction : Instruction) :
    (call.program ++ [instruction]).countP Instruction.drains =
      if instruction.drains then 1 else 0 := by
  rw [List.countP_append, countP_drains_program, Nat.zero_add, List.countP_singleton]

/-! #### The end of the stream -/

theorem accounts_subscribe (h : exec self choice s .subscribe = some effect) :
    Accounts s .subscribe effect := by
  simp only [exec] at h
  split_ifs at h with hsubscribed <;> cases h
  · exact .of_view rfl rfl rfl
  · refine ⟨rfl, fun _ => rfl, .of_imp id rfl, .of_next rfl, .of_not ?_, .of_imp id rfl⟩
    -- while `onSubscribe` runs, no signal is due
    rintro ⟨-, -, -, hsubscribing, -⟩
    cases hsubscribing

theorem accounts_finish {cancel : Bool} (h : exec self choice s (.finish cancel) = some effect) :
    Accounts s (.finish cancel) effect := by
  simp only [exec] at h
  split_ifs at h <;> cases h
  · exact .of_view rfl rfl rfl
  cases cancel with
  | true =>
    refine ⟨rfl, fun _ => rfl, .of_imp id rfl, .of_imp id rfl, .of_not ?_, .of_imp id rfl⟩
    -- a cancelled stream owes no signal
    rintro ⟨-, -, hcancelled, -⟩
    cases hcancelled
  | false => exact ⟨rfl, fun _ => rfl, .of_imp id rfl, .of_imp id rfl, .of_next rfl, .of_imp id rfl⟩

theorem accounts_cleanUp {cancel : Bool} (h : exec self choice s (.cleanUp cancel) = some effect) :
    Accounts s (.cleanUp cancel) effect := by
  cases h
  cases cancel with
  | true => exact .of_view rfl rfl rfl
  | false => exact ⟨rfl, fun _ => rfl, .of_imp id rfl, .of_imp id rfl, .of_next rfl, .of_imp id rfl⟩

theorem accounts_signalTerminal (h : exec self choice s .signalTerminal = some effect) :
    Accounts s .signalTerminal effect := by
  simp only [exec] at h
  split_ifs at h with hsignal <;> cases h
  · refine ⟨rfl, fun _ => rfl, .of_imp id rfl, .of_imp id rfl, .of_not ?_, .of_next rfl⟩
    rintro ⟨-, -, -, -, hdelivered⟩
    cases hdelivered
  · exact ⟨rfl, fun _ => rfl, .of_imp id rfl, .of_imp id rfl, .of_not hsignal, .of_imp id rfl⟩

/-! #### The queue of callbacks -/

theorem accounts_dispatchCallback {callback : Callback}
    (h : exec self choice s (.dispatchCallback callback) = some effect) :
    Accounts s (.dispatchCallback callback) effect := by
  cases h
  refine ⟨rfl, fun _ => rfl, .of_next rfl, .of_imp id rfl, .of_imp id rfl, ?_⟩
  rintro ⟨hdelivered, hran, hqueue⟩
  rw [List.mem_append, not_or, List.mem_singleton] at hqueue
  refine .inr ⟨⟨hdelivered, hran, hqueue.1⟩, ?_⟩
  cases callback with
  | terminal => exact absurd rfl hqueue.2
  | item | nothing => rfl

theorem accounts_compareAndSet (h : exec self choice s .compareAndSet = some effect) :
    Accounts s .compareAndSet effect := by
  simp only [exec] at h
  split_ifs at h with hflag <;> cases h
  · refine ⟨rfl, fun _ => rfl, .of_not ?_, .of_imp id rfl, .of_imp id rfl, .of_imp id rfl⟩
    -- the flag is set, so there is a task that will see the queue
    exact fun hnot => Bool.false_ne_true (hnot.2.symm.trans hflag)
  · refine ⟨?_, fun _ => rfl, .of_not ?_, .of_imp id rfl, .of_imp id rfl, .of_imp id rfl⟩
    · rw [Bool.not_eq_true] at hflag
      simp [hflag, Shared.drainTasks, Instruction.drains]
    · exact fun hnot => Bool.false_ne_true hnot.2.symm

theorem accounts_poll (h : exec self choice s .poll = some effect)
    (hdraining : s.drainingCallbacks = true) : Accounts s .poll effect := by
  simp only [exec] at h
  split at h
  · cases h
    exact .of_view rfl rfl rfl
  · rename_i callback rest hqueue
    cases h
    refine ⟨rfl, fun _ => rfl, .of_not ?_, .of_imp id rfl, .of_imp id rfl, ?_⟩
    · exact fun hnot => Bool.false_ne_true (hnot.2.symm.trans hdraining)
    · rintro ⟨hdelivered, hran, hrest⟩
      cases callback with
      | terminal => exact .inl rfl
      | item | nothing =>
        refine .inr ⟨⟨hdelivered, hran, ?_⟩, rfl⟩
        rw [hqueue, List.mem_cons, not_or]
        exact ⟨by decide, hrest⟩

theorem accounts_run {callback : Callback} (h : exec self choice s (.run callback) = some effect) :
    Accounts s (.run callback) effect := by
  cases callback with
  | item | nothing =>
    cases h
    exact .of_view rfl rfl rfl
  | terminal =>
    cases h
    refine ⟨rfl, ?_, .of_imp id rfl, .of_imp id rfl, .of_imp id rfl, .of_not ?_⟩
    · intro hdrains
      cases hdrains
    · exact fun hnot => Bool.false_ne_true hnot.2.1.symm

theorem accounts_recheck (h : exec self choice s .recheck = some effect) :
    Accounts s .recheck effect := by
  cases h
  by_cases hqueue : s.callbackQueue = []
  · rw [if_pos hqueue]
    refine ⟨rfl, fun _ => rfl, .of_not ?_, .of_imp id rfl, .of_imp id rfl, .of_imp id rfl⟩
    exact fun hnot => hnot.1 hqueue
  · rw [if_neg hqueue]
    exact ⟨rfl, fun _ => rfl, .of_next rfl, .of_imp id rfl, .of_imp id rfl, .of_imp id rfl⟩

/-! #### The executor -/

theorem accounts_execute (s : Shared) (task : CallbackTask) :
    Accounts s (.execute task) (s.execute task) := by
  have hrejected : Accounts s (.execute task) { shared := s, next := task.rejected } := by
    cases task <;> exact .of_view rfl rfl rfl
  have hworker : Accounts s (.execute task) (s.startWorker task) := by
    cases task <;> exact .of_view rfl rfl rfl
  unfold Shared.execute
  split_ifs
  · exact hrejected
  · exact hworker
  · refine .of_view rfl rfl ?_
    cases task <;> simp [Shared.drainTasks, Instruction.drains]
  · exact hworker
  · exact hrejected

theorem accounts_takeTask (h : exec self choice s .takeTask = some effect) :
    Accounts s .takeTask effect := by
  simp only [exec] at h
  by_cases hshutdown : s.isShutdown = true
  · rw [if_pos hshutdown] at h
    cases h
    exact .of_view rfl rfl rfl
  rw [if_neg hshutdown] at h
  split at h
  · rename_i task rest hqueue
    cases h
    refine .of_view rfl rfl ?_
    cases task <;>
      simp [Shared.drainTasks, hqueue, CallbackTask.program, Instruction.drains, List.countP_cons]
  · split_ifs at h
    cases h
    exact .of_view rfl rfl rfl

/-- Every instruction accounts for what it changes, unless it discards a task. -/
theorem accounts_of_exec (h : exec self choice s instruction = some effect)
    (hspares : instruction = .shutdownNow → .drainCallbacks ∉ s.workQueue)
    (hdraining : instruction.drains = true → s.drainingCallbacks = true) :
    Accounts s instruction effect := by
  cases instruction with
  | enter =>
    simp only [exec] at h
    split at h
    · cases h
      exact .of_view rfl rfl rfl
    · split_ifs at h
      cases h
      exact .of_view rfl rfl rfl
  | exit | grantCredit =>
    simp only [exec] at h
    split at h <;> obtain rfl := Option.some.inj h <;> exact .of_view rfl rfl rfl
  | subscribe => exact accounts_subscribe h
  | onSubscribe | onNext | userCode =>
    simp only [exec] at h
    split at h <;> obtain rfl := Option.some.inj h <;> refine .of_view rfl rfl ?_
    all_goals first
      | rfl
      | rw [countP_drains_calls]
        rfl
  | endSubscribe =>
    cases h
    refine ⟨rfl, fun _ => rfl, .of_imp id rfl, .of_not ?_, .of_next rfl, .of_imp id rfl⟩
    exact Bool.false_ne_true
  | request count =>
    cases h
    unfold Shared.request
    split_ifs <;> exact .of_view rfl rfl rfl
  | emit =>
    cases h
    unfold Shared.emit
    split_ifs <;> exact .of_view rfl rfl rfl
  | grantAvailableCredit =>
    cases h
    simp only [Shared.grantAvailableCredit]
    split_ifs <;> exact .of_view rfl rfl rfl
  | finish cancel => exact accounts_finish h
  | cleanUp cancel => exact accounts_cleanUp h
  | cancelRemote =>
    simp only [exec] at h
    split at h <;> cases h
    · by_cases hclosed : s.closed = true
      · rw [if_pos hclosed]
        exact .of_view rfl rfl rfl
      · rw [if_neg hclosed]
        exact .of_view rfl rfl rfl
    · exact .of_view rfl rfl rfl
  | signalTerminal => exact accounts_signalTerminal h
  | dispatchCallback callback => exact accounts_dispatchCallback h
  | compareAndSet => exact accounts_compareAndSet h
  | execute task =>
    cases h
    exact accounts_execute s task
  | poll => exact accounts_poll h (hdraining rfl)
  | run callback => exact accounts_run h
  | startVirtual | callbackDone =>
    cases h
    exact .of_view rfl rfl rfl
  | reset =>
    cases h
    refine ⟨?_, fun _ => rfl, .of_next rfl, .of_imp id rfl, .of_imp id rfl, .of_imp id rfl⟩
    simp [hdraining rfl, Shared.drainTasks, Instruction.drains]
  | recheck => exact accounts_recheck h
  | terminate =>
    simp only [exec] at h
    split_ifs at h <;> obtain rfl := Option.some.inj h <;> exact .of_view rfl rfl rfl
  | shutdownNow =>
    cases h
    refine .of_view rfl rfl ?_
    have hnone : s.workQueue.count .drainCallbacks = 0 := List.count_eq_zero.mpr (hspares rfl)
    simp [hnone, Shared.drainTasks, Instruction.drains]
  | takeTask => exact accounts_takeTask h

end Accounts

/-! ### The terminal signal -/

/-- The flag stands for exactly one task, and whatever the stream has to do, some thread is
going to do it. -/
structure Invariant (s : Callbacks) : Prop where
  drain : s.shared.drainTasks + s.pending Instruction.drains = s.shared.drainingCallbacks.toNat
  queue : s.shared.Unattended → 0 < s.pending Instruction.dispatches
  subscribing : s.shared.subscribing = true → 0 < s.pending Instruction.endsSubscribe
  signal : s.shared.Unsignalled → 0 < s.pending Instruction.signals
  terminal : s.shared.Undelivered → 0 < s.pending Instruction.holdsTerminal

section Runs

variable {s t : Callbacks} {w : List (Label Call Choice)} {label : Label Call Choice}

theorem Invariant.init : Invariant init where
  drain := rfl
  queue h := absurd rfl h.1
  subscribing h := absurd h Bool.false_ne_true
  signal h := absurd h.1 Bool.false_ne_true
  terminal h := absurd h.1 Bool.false_ne_true

theorem Invariant.start (h : Invariant s) (call : Call) :
    Invariant { s with threads := s.threads ++ [call.program] } := by
  constructor <;> rw [pending_start]
  · rw [countP_drains_program]
    exact h.drain
  · exact fun hP => Nat.add_pos_left (h.queue hP) _
  · exact fun hP => Nat.add_pos_left (h.subscribing hP) _
  · exact fun hP => Nat.add_pos_left (h.signal hP) _
  · exact fun hP => Nat.add_pos_left (h.terminal hP) _

/-- Whoever belongs to a run of `drainCallbacks` has set the flag. -/
theorem draining_of_drains {thread : ℕ} {instruction : Instruction} {rest : List Instruction}
    (h : s.shared.drainTasks + s.pending Instruction.drains = s.shared.drainingCallbacks.toNat)
    (hthread : s.threads[thread]? = some (instruction :: rest))
    (hdrains : instruction.drains = true) : s.shared.drainingCallbacks = true := by
  have hpos := pending_pos hthread hdrains
  cases hflag : s.shared.drainingCallbacks with
  | true => rfl
  | false =>
    rw [hflag] at h
    simp only [Bool.toNat_false] at h
    omega

theorem Invariant.step (hspares : Spares s label) (h : Invariant s)
    (hstep : step s label = some t) : Invariant t := by
  cases label with
  | start call =>
    cases hstep
    exact h.start call
  | step thread choice =>
    obtain ⟨instruction, rest, effect, hthread, hexec, rfl⟩ := step_eq_some hstep
    have haccounts : Accounts s.shared instruction effect := by
      apply accounts_of_exec hexec
      · rintro rfl
        apply hspares
        rw [hthread]
        rfl
      · exact draining_of_drains h.drain hthread
    have hpending := pending_advance hthread effect Instruction.drains
    have hdrain := haccounts.drain
    have hbefore := h.drain
    refine ⟨?_, pending_pos_advance hthread haccounts.queue h.queue,
      pending_pos_advance hthread haccounts.subscribing h.subscribing,
      pending_pos_advance hthread haccounts.signal h.signal,
      pending_pos_advance hthread haccounts.terminal h.terminal⟩
    change effect.shared.drainTasks + _ = effect.shared.drainingCallbacks.toNat
    omega

theorem Invariant.hasDrain (h : Invariant s) (hflag : s.shared.drainingCallbacks = true) :
    HasDrain s := by
  have hdrain := h.drain
  rw [hflag, Bool.toNat_true] at hdrain
  rcases Nat.eq_zero_or_pos s.shared.drainTasks with hnone | hpos
  · have hpending : 0 < s.pending Instruction.drains := by omega
    exact .inr (exists_of_pending_pos hpending)
  · exact .inl (List.count_pos_iff.mp hpos)

theorem isDispatching_of_pending_pos {p : Instruction → Bool} (h : 0 < s.pending p)
    (hp : ∀ instruction : Instruction, p instruction = true →
      (instruction.dispatches || instruction.signals || instruction.endsSubscribe) = true) :
    IsDispatching s := by
  obtain ⟨stack, hstack, instruction, hmem, hinstruction⟩ := exists_of_pending_pos h
  exact ⟨stack, hstack, instruction, hmem, hp instruction hinstruction⟩

/-- A callback in the queue is going to be run. -/
theorem Invariant.attended (h : Invariant s) (hqueue : s.shared.callbackQueue ≠ []) :
    HasDrain s ∨ IsDispatching s := by
  by_cases hflag : s.shared.drainingCallbacks = true
  · exact .inl (h.hasDrain hflag)
  · have hpos := h.queue ⟨hqueue, Bool.eq_false_iff.mpr hflag⟩
    exact .inr (isDispatching_of_pending_pos hpos fun _ hp => by simp [hp])

/-- The terminal callback, once it has been dispatched, is going to be run. -/
theorem Invariant.delivered (h : Invariant s) (hdelivered : s.shared.terminalDelivered = true)
    (hran : s.shared.hasRunTerminal = false) : HasDrain s ∨ IsDispatching s := by
  by_cases hqueue : .terminal ∈ s.shared.callbackQueue
  · exact h.attended (List.ne_nil_of_mem hqueue)
  obtain ⟨stack, hstack, instruction, hmem, hholds⟩ :=
    exists_of_pending_pos (h.terminal ⟨hdelivered, hran, hqueue⟩)
  have hkind : instruction.drains = true ∨ instruction.dispatches = true := by
    unfold Instruction.holdsTerminal at hholds
    split at hholds
    · exact .inr rfl
    · exact .inl rfl
    · cases hholds
  rcases hkind with hdrains | hdispatches
  · exact .inl (.inr ⟨stack, hstack, instruction, hmem, hdrains⟩)
  · exact .inr ⟨stack, hstack, instruction, hmem, by simp [hdispatches]⟩

end Runs

/-- The subscriber asks for an item, and two listeners keep the workers of the executor busy. -/
def busyRun : List (Label Call Choice) :=
  [.start .subscribe, .step 0 .returns, .step 0 .returns, .step 0 (.calls (.request 1))] ++
  List.replicate 9 (.step 0 .returns) ++
  [.start .submit, .step 1 .returns, .start .submit, .step 3 .returns]

/-- The item arrives, and the task for it has to wait. -/
def itemRun : List (Label Call Choice) :=
  busyRun ++ .start .emit :: List.replicate 6 (.step 5 .returns)

/-- The stream ends. -/
def endedRun : List (Label Call Choice) :=
  itemRun ++ .start .finish :: List.replicate 7 (.step 6 .returns)

/-- Both callbacks are in the queue, and their task in that of the executor. -/
def ended : Callbacks where
  shared :=
    { isSubscribed := true, subscribing := false, terminalDelivered := true
      terminated := true, cancelled := false, demand := 0, outstandingWireCredit := 0
      pendingCallbacks := 1, callbacks := none, callbackQueue := [.item, .terminal]
      drainingCallbacks := true, hasRunTerminal := false, closed := false, workers := 2
      workQueue := [.drainCallbacks], isShutdown := false }
  threads := [[], [], [.userCode, .takeTask], [], [.userCode, .takeTask], [], []]

section Runs

variable {s t : Callbacks} {w : List (Label Call Choice)} {label : Label Call Choice}

/-- As long as the shutdown of the executor discards no task of the stream, the flag
`drainingCallbacks` stands for a run of `drainCallbacks` that is active or scheduled. Once the
stream has ended, there is such a run until the subscriber has been told, or a call that
schedules it has not returned. -/
theorem terminal_signal_pending (hrun : run step init w = some s)
    (hspares : MeetsGuard step Spares init w) :
    (s.shared.drainingCallbacks = true → HasDrain s) ∧
      (s.shared.terminated = true → s.shared.isSubscribed = true → s.shared.cancelled = false →
        s.shared.hasRunTerminal = false → HasDrain s ∨ IsDispatching s) := by
  have h : Invariant s := hspares.invariant Invariant.step hrun Invariant.init
  refine ⟨h.hasDrain, fun hterminated hsubscribed hcancelled hran => ?_⟩
  by_cases hsubscribing : s.shared.subscribing = true
  · exact .inr (isDispatching_of_pending_pos (h.subscribing hsubscribing) fun _ hp => by simp [hp])
  by_cases hdelivered : s.shared.terminalDelivered = true
  · exact h.delivered hdelivered hran
  · have hpos := h.signal ⟨hterminated, hsubscribed, hcancelled,
      Bool.eq_false_iff.mpr hsubscribing, Bool.eq_false_iff.mpr hdelivered⟩
    exact .inr (isDispatching_of_pending_pos hpos fun _ hp => by simp [hp])

theorem terminal_signal_pending_ended :
    run step init endedRun = some ended ∧ HasDrain ended ∧ (HasDrain ended ∨ IsDispatching ended) :=
  have hrun : run step init endedRun = some ended := by decide
  have hpending := terminal_signal_pending hrun (by decide)
  ⟨hrun, hpending.1 rfl, hpending.2 rfl rfl rfl rfl⟩

/-! ### A discarded task -/

/-- The flag is set, and no task is there to clear it. -/
structure Lost (s : Callbacks) : Prop where
  draining : s.shared.drainingCallbacks = true
  drainTasks : s.shared.drainTasks = 0
  pending : s.pending Instruction.drains = 0
  hasRun : s.shared.hasRunTerminal = false

theorem Lost.step (h : Lost s) (hstep : step s label = some t) : Lost t := by
  cases label with
  | start call =>
    cases hstep
    refine ⟨h.draining, h.drainTasks, ?_, h.hasRun⟩
    rw [pending_start, h.pending, countP_drains_program]
  | step thread choice =>
    obtain ⟨instruction, rest, effect, hthread, hexec, rfl⟩ := step_eq_some hstep
    have hidle : instruction.drains = false := by
      by_contra hdrains
      have hpos := pending_pos hthread (Bool.eq_true_of_not_eq_false hdrains)
      rw [h.pending] at hpos
      exact Nat.lt_irrefl 0 hpos
    have haccounts : Accounts s.shared instruction effect :=
      accounts_of_exec hexec (fun _ => List.count_eq_zero.mp h.drainTasks) fun _ => h.draining
    have hpending := pending_advance hthread effect Instruction.drains
    have hdrain := haccounts.drain
    rw [h.draining, h.drainTasks, hidle] at hdrain
    rw [h.pending, hidle] at hpending
    simp only [Bool.toNat_true, Bool.false_eq_true, if_false] at hdrain hpending
    have hflag : effect.shared.drainingCallbacks = true := by
      cases hflag : effect.shared.drainingCallbacks with
      | true => rfl
      | false =>
        rw [hflag, Bool.toNat_false] at hdrain
        omega
    rw [hflag, Bool.toNat_true] at hdrain
    refine ⟨hflag, ?_, ?_, (haccounts.hasRun hidle).trans h.hasRun⟩
    · change effect.shared.drainTasks = 0
      omega
    · omega

/-- The subscriber is never told. -/
theorem Lost.run (h : Lost s) (hrun : run StreamCallbacks.step s w = some t) :
    t.shared.hasRunTerminal = false :=
  (run_invariant Lost.step hrun h).hasRun

end Runs

/-- The connection ends, and the listeners return. -/
def terminatedRun : List (Label Call Choice) :=
  itemRun ++ .start .terminate :: List.replicate 9 (.step 6 .returns) ++
  List.replicate 2 (.step 2 .returns) ++ List.replicate 2 (.step 4 .returns)

/-- All calls have returned, and both callbacks are still in the queue. -/
def silenced : Callbacks where
  shared := { ended.shared with closed := true, workers := 0, workQueue := [], isShutdown := true }
  threads := List.replicate 7 []

/-- The task of an item is discarded when the connection ends, and `onError` is never called. -/
theorem terminal_signal_discarded :
    run step init terminatedRun = some silenced ∧ silenced.shared.terminated = true ∧
      silenced.shared.isSubscribed = true ∧ silenced.shared.cancelled = false ∧
      silenced.shared.drainingCallbacks = true ∧ ¬ HasDrain silenced ∧ ¬ IsDispatching silenced ∧
      ∀ w t, run step silenced w = some t → t.shared.hasRunTerminal = false := by
  refine ⟨by decide, rfl, rfl, rfl, rfl, ?_, ?_, ?_⟩
  · simp [HasDrain, silenced]
  · simp [IsDispatching, silenced]
  · have hlost : Lost silenced := ⟨rfl, rfl, rfl, rfl⟩
    exact fun w t hrun => hlost.run hrun

end MoonLightBridge.Client.StreamCallbacks
