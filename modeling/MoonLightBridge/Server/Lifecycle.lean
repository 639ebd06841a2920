import MoonLightBridge.Semantics.Watch

/-!
# The life of a server

The parties that start and stop a server, and what they share: `Server::run`, the
calls of `begin_drain` and `drain` on its handles, and the guards with which
connections and requests are counted.

A drain is decided in one place and noticed in others. `begin_drain` writes an atomic
flag, the readiness bit and a watch channel, in this order. `Server::run` reads the
flag, writes the readiness bit and subscribes to the channel, in this order. `drain`
then waits until two counters are zero, which guards count up when they are made and
down when they are dropped, each time followed by a broadcast to those who wait.

Every party appears step by step, since each of these accesses can be interleaved with
those of all others. Any number of calls, connections and requests are under way at
the same time.
-/

namespace MoonLightBridge.Server

/-! ### The parties -/

/-- The two counters of the runtime. -/
inductive Counter where
  | connections
  | requests
  deriving DecidableEq, Repr

/-- `RuntimeState`: the part of it that draining reads and writes. -/
structure RuntimeState where
  ready : Bool
  activeConnections : ℕ
  activeRequests : ℕ
  draining : Bool
  /-- `drain_tx` -/
  drain : Watch Bool
  /-- `force_drain_tx` -/
  forceDrain : Watch Bool
  deriving DecidableEq, Repr

namespace RuntimeState

def count (runtime : RuntimeState) : Counter → ℕ
  | .connections => runtime.activeConnections
  | .requests => runtime.activeRequests

def fetchAdd (runtime : RuntimeState) : Counter → RuntimeState
  | .connections => { runtime with activeConnections := runtime.activeConnections + 1 }
  | .requests => { runtime with activeRequests := runtime.activeRequests + 1 }

def fetchSub (runtime : RuntimeState) : Counter → RuntimeState
  | .connections => { runtime with activeConnections := runtime.activeConnections - 1 }
  | .requests => { runtime with activeRequests := runtime.activeRequests - 1 }

end RuntimeState

/-- Where `Server::run` stands. -/
inductive RunPhase where
  | idle
  /-- `draining` was found to be false -/
  | checked
  /-- `ready` was set; nothing has been subscribed to yet -/
  | opened
  /-- the accept loop, with the number of the drain value it has seen -/
  | accepting (seen : ℕ)
  | returned
  deriving DecidableEq, Repr

/-- The next step of `Server::run`, other than accepting a connection. -/
def RunPhase.next (runtime : RuntimeState) : RunPhase → Option (RuntimeState × RunPhase)
  | .idle => some (runtime, if runtime.draining then .returned else .checked)
  | .checked => some ({ runtime with ready := true }, .opened)
  | .opened =>
    some ({ runtime with drain := runtime.drain.subscribe }, .accepting runtime.drain.version)
  | .accepting seen =>
    if runtime.drain.HasChanged seen then
      if runtime.drain.value then
        some ({ runtime with drain := runtime.drain.unsubscribe }, .returned)
      else some (runtime, .accepting runtime.drain.version)
    else none
  | .returned => none

variable {runtime runtime' : RuntimeState}

theorem RunPhase.count_next {run run' : RunPhase} (h : run.next runtime = some (runtime', run')) :
    runtime'.count = runtime.count := by
  cases run with
  | accepting seen =>
    simp only [next] at h
    split_ifs at h <;> obtain ⟨rfl, -⟩ := Prod.mk.inj (Option.some.inj h) <;> rfl
  | returned => cases h
  | _ =>
    cases h
    rfl

/-- Where the loop of `drain` stands. -/
inductive WaitPhase where
  | loadConnections
  | loadRequests
  /-- a counter was not zero; the future of the wait is created next -/
  | creating
  /-- the future exists and was not polled yet -/
  | created (isNotified : Bool)
  | parked (isNotified : Bool)
  /-- the timeout elapsed -/
  | forcing
  /-- the force-drain value was sent -/
  | forced
  | returned (result : Bool)
  deriving DecidableEq, Repr

variable {notifies : Bool} {wait wait' : WaitPhase}

namespace WaitPhase

/-- What `notify_waiters` does: a future that exists is notified. -/
def notify : WaitPhase → WaitPhase
  | .created _ => .created true
  | .parked _ => .parked true
  | wait => wait

/-- The next step of the loop, and whether it calls `notify_waiters`. -/
def next (runtime : RuntimeState) : WaitPhase → Option (RuntimeState × WaitPhase × Bool)
  | .loadConnections =>
    some (runtime, if runtime.activeConnections = 0 then .loadRequests else .creating, false)
  | .loadRequests =>
    some (runtime, if runtime.activeRequests = 0 then .returned true else .creating, false)
  | .creating => some (runtime, .created false, false)
  | .created isNotified =>
    some (runtime, if isNotified then .loadConnections else .parked false, false)
  | .parked isNotified => if isNotified then some (runtime, .loadConnections, false) else none
  | .forcing => some ({ runtime with forceDrain := runtime.forceDrain.send true }, .forced, false)
  | .forced => some (runtime, .returned false, true)
  | .returned _ => none

/-- The loop of `drain` changes nothing that `begin_drain` or `Server::run` looks at. -/
theorem next_spec (h : wait.next runtime = some (runtime', wait', notifies)) :
    ∃ forceDrain, runtime' = { runtime with forceDrain } := by
  cases wait with
  | parked isNotified =>
    simp only [next] at h
    split_ifs at h
    exact ⟨_, (Prod.mk.inj (Option.some.inj h)).1.symm⟩
  | returned result => cases h
  | _ => exact ⟨_, (Prod.mk.inj (Option.some.inj h)).1.symm⟩

/-- The loop waits, or is going to, and nothing tells it to look again. -/
def awaits : WaitPhase → Bool
  | .creating => true
  | .created isNotified | .parked isNotified => !isNotified
  | _ => false

/-- A broadcast reaches every loop but those that have no future yet. -/
theorem eq_creating_of_awaits_notify (h : wait.notify.awaits = true) : wait = .creating := by
  cases wait with
  | creating => rfl
  | _ => cases h

/-- A loop that comes to wait was about to before, or has seen a counter that is not
zero. -/
theorem awaits_next (h : wait.next runtime = some (runtime', wait', notifies))
    (hawaits : wait'.awaits = true) :
    wait.awaits = true ∨ ∃ counter, runtime.count counter ≠ 0 := by
  cases wait with
  | loadConnections =>
    obtain ⟨-, rfl, -⟩ := Option.some.inj h
    split_ifs at hawaits with hzero
    · cases hawaits
    · exact .inr ⟨.connections, hzero⟩
  | loadRequests =>
    obtain ⟨-, rfl, -⟩ := Option.some.inj h
    split_ifs at hawaits with hzero
    · cases hawaits
    · exact .inr ⟨.requests, hzero⟩
  | creating => exact .inl rfl
  | created isNotified =>
    cases isNotified with
    | false => exact .inl rfl
    | true =>
      obtain ⟨-, rfl, -⟩ := Option.some.inj h
      cases hawaits
  | parked isNotified =>
    cases isNotified with
    | false => exact .inl rfl
    | true =>
      obtain ⟨-, rfl, -⟩ := Option.some.inj h
      cases hawaits
  | forcing | forced =>
    obtain ⟨-, rfl, -⟩ := Option.some.inj h
    cases hawaits
  | returned result => cases h

end WaitPhase

/-- Where a call of `begin_drain` or `drain` stands. -/
inductive DrainPhase where
  | entered
  /-- it set `draining` -/
  | claimed
  /-- it cleared `ready` -/
  | closed
  /-- it sent the drain value -/
  | announced
  /-- `begin_drain` returned -/
  | began (result : Bool) (wait : WaitPhase)
  deriving DecidableEq, Repr

def DrainPhase.notify : DrainPhase → DrainPhase
  | .began result wait => .began result wait.notify
  | phase => phase

/-- A call on a `ServerHandle`. -/
structure HandleCall where
  /-- it is a call of `drain`, which begins with `begin_drain` -/
  waits : Bool
  phase : DrainPhase
  deriving DecidableEq, Repr

variable {call call' : HandleCall}

namespace HandleCall

def start (waits : Bool) : HandleCall := ⟨waits, .entered⟩

def notify (call : HandleCall) : HandleCall := { call with phase := call.phase.notify }

/-- Return from `begin_drain`. -/
def leave (call : HandleCall) (result : Bool) : HandleCall :=
  { call with
    phase := .began result (if call.waits then .loadConnections else .returned result) }

/-- The next step of a call, and whether it calls `notify_waiters`. -/
def next (runtime : RuntimeState) (call : HandleCall) :
    Option (RuntimeState × HandleCall × Bool) :=
  match call.phase with
  | .entered =>
    -- the exchange fails if another call was first
    if runtime.draining then some (runtime, call.leave false, false)
    else some ({ runtime with draining := true }, { call with phase := .claimed }, false)
  | .claimed => some ({ runtime with ready := false }, { call with phase := .closed }, false)
  | .closed =>
    some ({ runtime with drain := runtime.drain.send true }, { call with phase := .announced },
      false)
  | .announced => some (runtime, call.leave true, true)
  | .began result wait =>
    match wait.next runtime with
    | some (runtime, wait, notifies) =>
      some (runtime, { call with phase := .began result wait }, notifies)
    | none => none

theorem next_of_closed (runtime : RuntimeState) (h : call.phase = .closed) :
    call.next runtime = some ({ runtime with drain := runtime.drain.send true },
      { call with phase := .announced }, false) := by
  simp only [next, h]

theorem next_of_announced (runtime : RuntimeState) (h : call.phase = .announced) :
    call.next runtime = some (runtime, call.leave true, true) := by
  simp only [next, h]

theorem next_of_began {result : Bool} (h : call.phase = .began result wait)
    (hwait : wait.next runtime = some (runtime', wait', notifies)) :
    call.next runtime = some (runtime', { call with phase := .began result wait' }, notifies) := by
  simp only [next, h, hwait]

/-- What a call does in a step. -/
inductive Moves (runtime : RuntimeState) (call : HandleCall) :
    RuntimeState → HandleCall → Bool → Prop where
  | lose : call.phase = .entered → runtime.draining = true →
      Moves runtime call runtime (call.leave false) false
  | claim : call.phase = .entered →
      Moves runtime call { runtime with draining := true } { call with phase := .claimed } false
  | close : call.phase = .claimed →
      Moves runtime call { runtime with ready := false } { call with phase := .closed } false
  | announce : call.phase = .closed →
      Moves runtime call { runtime with drain := runtime.drain.send true }
        { call with phase := .announced } false
  | leave : call.phase = .announced → Moves runtime call runtime (call.leave true) true
  | wait {result notifies : Bool} {wait wait' : WaitPhase} {runtime' : RuntimeState} :
      call.phase = .began result wait → wait.next runtime = some (runtime', wait', notifies) →
      Moves runtime call runtime' { call with phase := .began result wait' } notifies

theorem moves_of_next (h : call.next runtime = some (runtime', call', notifies)) :
    call.Moves runtime runtime' call' notifies := by
  unfold next at h
  split at h
  · rename_i hphase
    split_ifs at h with hdraining <;> obtain ⟨rfl, rfl, rfl⟩ := Option.some.inj h
    · exact .lose hphase hdraining
    · exact .claim hphase
  · rename_i hphase
    obtain ⟨rfl, rfl, rfl⟩ := Option.some.inj h
    exact .close hphase
  · rename_i hphase
    obtain ⟨rfl, rfl, rfl⟩ := Option.some.inj h
    exact .announce hphase
  · rename_i hphase
    obtain ⟨rfl, rfl, rfl⟩ := Option.some.inj h
    exact .leave hphase
  · rename_i result wait hphase
    split at h
    · rename_i hwait
      obtain ⟨rfl, rfl, rfl⟩ := Option.some.inj h
      exact .wait hphase hwait
    · cases h

/-- A call subscribes to nothing and counts nothing. -/
theorem Moves.spec (h : call.Moves runtime runtime' call' notifies) :
    runtime'.drain.receivers = runtime.drain.receivers ∧
      runtime.drain.version ≤ runtime'.drain.version ∧ runtime'.count = runtime.count := by
  cases h with
  | announce => exact ⟨Watch.receivers_send _ _, Watch.version_le_send _ _, rfl⟩
  | wait hphase hwait =>
    obtain ⟨forceDrain, rfl⟩ := WaitPhase.next_spec hwait
    exact ⟨rfl, le_rfl, rfl⟩
  | _ => exact ⟨rfl, le_rfl, rfl⟩

end HandleCall

/-- Where a task that holds a `ConnectionGuard` or a `RequestGuard` stands. -/
inductive GuardPhase where
  /-- it has not run yet -/
  | spawned
  | held
  /-- the counter was decremented; the broadcast is next -/
  | dropping
  | dropped
  deriving DecidableEq, Repr

/-- A guard and its task. -/
structure Guard where
  counter : Counter
  phase : GuardPhase
  /-- its connection has subscribed to the two channels -/
  isSubscribed : Bool
  deriving DecidableEq, Repr

namespace Guard

/-- The guard counts, or its drop is not over. -/
def IsLive (guard : Guard) : Prop := guard.phase = .held ∨ guard.phase = .dropping

instance decidableIsLive (guard : Guard) : Decidable guard.IsLive :=
  inferInstanceAs (Decidable (_ ∨ _))

/-- The guard is among those that the counter counts. -/
def countedBy (counter : Counter) (guard : Guard) : Bool :=
  guard.phase = .held ∧ guard.counter = counter

/-- The next step of a guard, and whether it calls `notify_waiters`. The receivers of
a connection are dropped before its guard. -/
def next (runtime : RuntimeState) (guard : Guard) : Option (RuntimeState × Guard × Bool) :=
  match guard.phase with
  | .spawned => some (runtime.fetchAdd guard.counter, { guard with phase := .held }, false)
  | .held =>
    if guard.isSubscribed then none
    else some (runtime.fetchSub guard.counter, { guard with phase := .dropping }, false)
  | .dropping => some (runtime, { guard with phase := .dropped }, true)
  | .dropped => none

variable {guard : Guard}

theorem next_of_dropping (runtime : RuntimeState) (h : guard.phase = .dropping) :
    guard.next runtime = some (runtime, { guard with phase := .dropped }, true) := by
  simp only [next, h]

variable {guard' : Guard} (h : guard.next runtime = some (runtime', guard', notifies))

include h

/-- A guard changes nothing but its counter. -/
theorem next_spec :
    runtime'.ready = runtime.ready ∧ runtime'.draining = runtime.draining ∧
      runtime'.drain = runtime.drain ∧ guard'.isSubscribed = guard.isSubscribed := by
  unfold next at h
  split at h
  · obtain ⟨rfl, rfl, -⟩ := Option.some.inj h
    cases guard.counter <;> exact ⟨rfl, rfl, rfl, rfl⟩
  · split_ifs at h
    obtain ⟨rfl, rfl, -⟩ := Option.some.inj h
    cases guard.counter <;> exact ⟨rfl, rfl, rfl, rfl⟩
  · obtain ⟨rfl, rfl, -⟩ := Option.some.inj h
    exact ⟨rfl, rfl, rfl, rfl⟩
  · cases h

/-- Counters count guards. -/
theorem count_next (counter : Counter)
    (hpos : guard.countedBy counter = true → 0 < runtime.count counter) :
    runtime'.count counter + (if guard.countedBy counter then 1 else 0) =
      runtime.count counter + (if guard'.countedBy counter then 1 else 0) := by
  unfold next at h
  split at h
  · rename_i hphase
    obtain ⟨rfl, rfl, -⟩ := Option.some.inj h
    cases hcounter : guard.counter <;> cases counter <;>
      simp [countedBy, hphase, hcounter, RuntimeState.fetchAdd, RuntimeState.count]
  · rename_i hphase
    split_ifs at h
    obtain ⟨rfl, rfl, -⟩ := Option.some.inj h
    cases hcounter : guard.counter <;> cases counter <;>
      simp_all [countedBy, RuntimeState.fetchSub, RuntimeState.count] <;> omega
  · rename_i hphase
    obtain ⟨rfl, rfl, -⟩ := Option.some.inj h
    simp [countedBy, hphase]
  · cases h

/-- Only the broadcast is the end of a guard. -/
theorem isLive_next :
    notifies = false ∧ guard'.IsLive ∨ notifies = true ∧ guard.phase = .dropping := by
  unfold next at h
  split at h
  · obtain ⟨rfl, rfl, rfl⟩ := Option.some.inj h
    exact .inl ⟨rfl, .inl rfl⟩
  · split_ifs at h
    obtain ⟨rfl, rfl, rfl⟩ := Option.some.inj h
    exact .inl ⟨rfl, .inr rfl⟩
  · rename_i hphase
    obtain ⟨rfl, rfl, rfl⟩ := Option.some.inj h
    exact .inr ⟨rfl, hphase⟩
  · cases h

end Guard

/-! ### The server -/

structure ServerState where
  runtime : RuntimeState
  run : RunPhase
  /-- all calls ever made -/
  calls : List HandleCall
  /-- all guards, from the moment their task is spawned -/
  guards : List Guard
  deriving DecidableEq, Repr

inductive ServerLabel where
  /-- `Server::run` goes on, or its select takes the drain branch -/
  | run
  /-- its select takes the branch of the listener -/
  | accept
  /-- the listener fails -/
  | listenerFails
  | call (waits : Bool)
  | callStep (index : ℕ)
  /-- the timeout of a call of `drain` elapses -/
  | timeout (index : ℕ)
  /-- a connection spawns the task of a request -/
  | admitRequest
  | guardStep (index : ℕ)
  /-- a spawned task is aborted before it has run -/
  | discard (index : ℕ)
  | subscribe (index : ℕ)
  | unsubscribe (index : ℕ)
  deriving DecidableEq, Repr

namespace Lifecycle

/-- A server that was built and not started. -/
def init : ServerState where
  runtime := ⟨false, 0, 0, false, .channel false, .channel false⟩
  run := .idle
  calls := []
  guards := []

/-- `state_changed.notify_waiters()`, if it is called. -/
def notifyWaiters (notifies : Bool) (calls : List HandleCall) : List HandleCall :=
  if notifies then calls.map HandleCall.notify else calls

def step (s : ServerState) : ServerLabel → Option ServerState
  | .run =>
    match s.run.next s.runtime with
    | some (runtime, run) => some { s with runtime, run }
    | none => none
  | .accept =>
    match s.run with
    | .accepting _ => some { s with guards := s.guards ++ [⟨.connections, .spawned, false⟩] }
    | _ => none
  | .listenerFails =>
    match s.run with
    | .accepting _ =>
      some { s with
        runtime := { s.runtime with drain := s.runtime.drain.unsubscribe }
        run := .returned }
    | _ => none
  | .call waits => some { s with calls := s.calls ++ [.start waits] }
  | .callStep i =>
    match s.calls[i]? with
    | some call =>
      match call.next s.runtime with
      | some (runtime, call, notifies) =>
        some { s with runtime, calls := (notifyWaiters notifies s.calls).set i call }
      | none => none
    | none => none
  | .timeout i =>
    match s.calls[i]? with
    -- a future that was notified is polled once more before the time is looked at
    | some ⟨waits, .began result (.parked false)⟩ =>
      some { s with calls := s.calls.set i ⟨waits, .began result .forcing⟩ }
    | _ => none
  | .admitRequest =>
    -- requests are read by a connection, which holds its guard meanwhile
    if ∃ guard ∈ s.guards, guard.countedBy .connections then
      some { s with guards := s.guards ++ [⟨.requests, .spawned, false⟩] }
    else none
  | .guardStep i =>
    match s.guards[i]? with
    | some guard =>
      match guard.next s.runtime with
      | some (runtime, guard, notifies) =>
        some { s with
          runtime
          calls := notifyWaiters notifies s.calls
          guards := s.guards.set i guard }
      | none => none
    | none => none
  | .discard i =>
    match s.guards[i]? with
    | some guard =>
      if guard.phase = .spawned then
        some { s with guards := s.guards.set i { guard with phase := .dropped } }
      else none
    | none => none
  | .subscribe i =>
    match s.guards[i]? with
    | some guard =>
      if guard.countedBy .connections ∧ guard.isSubscribed = false then
        some { s with
          runtime := { s.runtime with
            drain := s.runtime.drain.subscribe
            forceDrain := s.runtime.forceDrain.subscribe }
          guards := s.guards.set i { guard with isSubscribed := true } }
      else none
    | none => none
  | .unsubscribe i =>
    match s.guards[i]? with
    | some guard =>
      if guard.isSubscribed then
        some { s with
          runtime := { s.runtime with
            drain := s.runtime.drain.unsubscribe
            forceDrain := s.runtime.forceDrain.unsubscribe }
          guards := s.guards.set i { guard with isSubscribed := false } }
      else none
    | none => none

/-- What the parties do in a step. -/
inductive Steps (s : ServerState) : ServerLabel → ServerState → Prop where
  | run {runtime : RuntimeState} {run : RunPhase} :
      s.run.next s.runtime = some (runtime, run) → Steps s .run { s with runtime, run }
  | accept {seen : ℕ} : s.run = .accepting seen →
      Steps s .accept { s with guards := s.guards ++ [⟨.connections, .spawned, false⟩] }
  | listenerFails {seen : ℕ} : s.run = .accepting seen →
      Steps s .listenerFails { s with
        runtime := { s.runtime with drain := s.runtime.drain.unsubscribe }
        run := .returned }
  | call {waits : Bool} :
      Steps s (.call waits) { s with calls := s.calls ++ [.start waits] }
  | callStep {i : ℕ} {call call' : HandleCall} {runtime : RuntimeState} {notifies : Bool} :
      s.calls[i]? = some call → call.next s.runtime = some (runtime, call', notifies) →
      Steps s (.callStep i)
        { s with runtime, calls := (notifyWaiters notifies s.calls).set i call' }
  | timeout {i : ℕ} {waits result : Bool} :
      s.calls[i]? = some ⟨waits, .began result (.parked false)⟩ →
      Steps s (.timeout i) { s with calls := s.calls.set i ⟨waits, .began result .forcing⟩ }
  | admitRequest :
      Steps s .admitRequest { s with guards := s.guards ++ [⟨.requests, .spawned, false⟩] }
  | guardStep {i : ℕ} {guard guard' : Guard} {runtime : RuntimeState} {notifies : Bool} :
      s.guards[i]? = some guard → guard.next s.runtime = some (runtime, guard', notifies) →
      Steps s (.guardStep i) { s with
        runtime
        calls := notifyWaiters notifies s.calls
        guards := s.guards.set i guard' }
  | discard {i : ℕ} {guard : Guard} :
      s.guards[i]? = some guard → guard.phase = .spawned →
      Steps s (.discard i) { s with guards := s.guards.set i { guard with phase := .dropped } }
  | subscribe {i : ℕ} {guard : Guard} :
      s.guards[i]? = some guard → guard.countedBy .connections → guard.isSubscribed = false →
      Steps s (.subscribe i) { s with
        runtime := { s.runtime with
          drain := s.runtime.drain.subscribe
          forceDrain := s.runtime.forceDrain.subscribe }
        guards := s.guards.set i { guard with isSubscribed := true } }
  | unsubscribe {i : ℕ} {guard : Guard} :
      s.guards[i]? = some guard → guard.isSubscribed →
      Steps s (.unsubscribe i) { s with
        runtime := { s.runtime with
          drain := s.runtime.drain.unsubscribe
          forceDrain := s.runtime.forceDrain.unsubscribe }
        guards := s.guards.set i { guard with isSubscribed := false } }

section Steps

variable {s t : ServerState} {i : ℕ}

theorem step_run {run : RunPhase} (h : s.run.next s.runtime = some (runtime, run)) :
    step s .run = some { s with runtime, run } := by
  simp only [step, h]

theorem step_callStep (hi : s.calls[i]? = some call)
    (h : call.next s.runtime = some (runtime, call', notifies)) :
    step s (.callStep i) =
      some { s with runtime, calls := (notifyWaiters notifies s.calls).set i call' } := by
  simp only [step, hi, h]

theorem steps_of_step {label : ServerLabel} (h : step s label = some t) :
    Steps s label t := by
  cases label with
  | run =>
    simp only [step] at h
    split at h
    · rename_i hnext
      exact Option.some.inj h ▸ .run hnext
    · cases h
  | accept =>
    simp only [step] at h
    split at h
    · rename_i hrun
      exact Option.some.inj h ▸ .accept hrun
    · cases h
  | listenerFails =>
    simp only [step] at h
    split at h
    · rename_i hrun
      exact Option.some.inj h ▸ .listenerFails hrun
    · cases h
  | call waits => exact Option.some.inj h ▸ .call
  | callStep i =>
    simp only [step] at h
    split at h
    · rename_i call hi
      split at h
      · rename_i hnext
        exact Option.some.inj h ▸ .callStep hi hnext
      · cases h
    · cases h
  | timeout i =>
    simp only [step] at h
    split at h
    · rename_i hi
      exact Option.some.inj h ▸ .timeout hi
    · cases h
  | admitRequest =>
    simp only [step] at h
    split_ifs at h
    exact Option.some.inj h ▸ .admitRequest
  | guardStep i =>
    simp only [step] at h
    split at h
    · rename_i guard hi
      split at h
      · rename_i hnext
        exact Option.some.inj h ▸ .guardStep hi hnext
      · cases h
    · cases h
  | discard i =>
    simp only [step] at h
    split at h
    · rename_i guard hi
      split_ifs at h with hphase
      exact Option.some.inj h ▸ .discard hi hphase
    · cases h
  | subscribe i =>
    simp only [step] at h
    split at h
    · rename_i guard hi
      split_ifs at h with hguard
      exact Option.some.inj h ▸ .subscribe hi hguard.1 hguard.2
    · cases h
  | unsubscribe i =>
    simp only [step] at h
    split at h
    · rename_i guard hi
      split_ifs at h with hguard
      exact Option.some.inj h ▸ .unsubscribe hi hguard
    · cases h

end Steps

end Lifecycle

end MoonLightBridge.Server
