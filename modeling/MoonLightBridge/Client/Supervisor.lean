import MoonLightBridge.Data.Update
import MoonLightBridge.Semantics.Transition

/-!
# The reconnect supervisor

`ReconnectingMoonLightClient` keeps one connection alive. `tryReconnect` runs on a
scheduler with a single thread: it connects, and `install` publishes the new connection
in `active`, subscribes the event listeners again and registers a termination handler.
That handler, or a failed attempt, calls `scheduleReconnect`. Meanwhile any number of
threads may call `close` and `drain`.

Every read or write of a shared field is a step of its own. The exception are the calls
`subscribe` of `install`: for the supervisor it only matters whether one of them throws,
so they are one step.

What the failure was (`lastFailure`), the jitter of a delay and the requests sent over a
connection are left out.
-/

namespace MoonLightBridge.Client

/-- The largest `long`. -/
def maxMillis : ℕ := 2 ^ 63 - 1

/-- `Duration.toMillis`, which throws if the result is no `long`. -/
def toMillis (nanoseconds : ℕ) : Option ℕ :=
  if nanoseconds / 1000000 ≤ maxMillis then some (nanoseconds / 1000000) else none

/-- The delays, in nanoseconds. -/
structure ReconnectPolicy where
  initialDelay : ℕ
  maxDelay : ℕ
  initialDelay_pos : 0 < initialDelay
  initialDelay_le_maxDelay : initialDelay ≤ maxDelay
  /-- a `Duration` counts its seconds in a `long` -/
  maxDelay_lt : maxDelay < 2 ^ 63 * 1000000000

namespace ReconnectPolicy

def defaults : ReconnectPolicy where
  initialDelay := 100000000
  maxDelay := 5000000000
  initialDelay_pos := Nat.le_of_ble_eq_true rfl
  initialDelay_le_maxDelay := Nat.le_of_ble_eq_true rfl
  maxDelay_lt := Nat.le_of_ble_eq_true rfl

/-- The delay of an attempt before jitter, in milliseconds; `none` if computing it throws.
`attempt` is an `int` and the product a `long`. -/
def bounded (policy : ReconnectPolicy) (attempt : ℕ) : Option ℤ := do
  let base ← toMillis policy.initialDelay
  let cap ← toMillis policy.maxDelay
  let shift := (min ((attempt : ℤ).bmod (2 ^ 32)) 20 % 64).toNat
  let exponential := ((base : ℤ) * 2 ^ shift).bmod (2 ^ 64)
  return min cap (if exponential < 0 then cap else exponential)

/-- The delays fit a `long` when counted in milliseconds. -/
def Fits (policy : ReconnectPolicy) : Prop := policy.maxDelay / 1000000 ≤ maxMillis

instance decidableFits (policy : ReconnectPolicy) : Decidable policy.Fits :=
  inferInstanceAs (Decidable (_ ≤ _))

theorem Fits.exists_bounded {policy : ReconnectPolicy} (h : policy.Fits) (attempt : ℕ) :
    ∃ delay, policy.bounded attempt = some delay := by
  have hinitial : policy.initialDelay / 1000000 ≤ maxMillis :=
    (Nat.div_le_div_right policy.initialDelay_le_maxDelay).trans h
  have hbase : toMillis policy.initialDelay = some _ := if_pos hinitial
  have hcap : toMillis policy.maxDelay = some _ := if_pos h
  simp only [bounded, hbase, hcap, Option.bind_eq_bind, Option.bind_some]
  exact ⟨_, rfl⟩

end ReconnectPolicy

/-- Where `scheduleReconnect` is. -/
inductive Reschedule where
  /-- before `reconnectScheduled.compareAndSet(false, true)` -/
  | claim
  /-- before `closed.get()` -/
  | recheck
  /-- before the delay is computed and the task handed to the scheduler -/
  | arm
  deriving DecidableEq, Repr

/-- Where `install` is. -/
inductive Install where
  /-- before `closed.get()` -/
  | check
  /-- it was closed: before `client.close()` -/
  | discard
  /-- before `active.set(client)` -/
  | publish
  | resubscribe
  /-- before `firstConnection.complete(null)` -/
  | announce
  | resetAttempts
  | resetFlag
  /-- before `client.termination().thenAccept(..)` -/
  | register
  deriving DecidableEq, Repr

/-- Where a run of `tryReconnect` is. -/
inductive Attempt where
  /-- before `reconnectScheduled.set(false)` -/
  | clearFlag
  | checkClosed
  | checkActive
  | connecting
  | installing (client : ℕ) (place : Install)
  /-- in the handler of an exception -/
  | rescheduling (place : Reschedule)
  deriving DecidableEq, Repr

/-- The termination handler of a connection. -/
inductive Handler where
  | unregistered
  | registered
  /-- before `active.compareAndSet(client, null)` -/
  | clearing
  /-- before `closed.get()` -/
  | checking
  | rescheduling (place : Reschedule)
  | finished
  deriving DecidableEq, Repr

/-- A `MoonLightClient` the supervisor connected. -/
structure Connection where
  /-- the server negotiated `FEATURE_SERVER_EVENTS` -/
  supportsEvents : Bool
  isOpen : Bool := true
  isDraining : Bool := false
  handler : Handler := .unregistered
  deriving DecidableEq, Repr

/-- Where a call of `close` is. -/
inductive Closing where
  /-- before `closed.compareAndSet(false, true)` -/
  | claim
  | shutDown
  /-- before `firstConnection.completeExceptionally(..)` -/
  | settle
  /-- before `active.getAndSet(null)` -/
  | take
  | closeClient (client : ℕ)
  | returned
  deriving DecidableEq, Repr

/-- Where a call of `drain` is; `client` is what it read from `active`. -/
inductive Draining where
  /-- before `drainHandle.get()` -/
  | lookUp
  | readActive
  /-- before `client.drain(timeout)` -/
  | drainClient (client : ℕ)
  /-- before `drainHandle.compareAndSet(null, ..)` -/
  | claim (client : Option ℕ)
  | setClosed (client : Option ℕ)
  | shutDown (client : Option ℕ)
  /-- returned, with `active.compareAndSet(client, null)` left for the end of the drain -/
  | listening (client : ℕ)
  | returned
  deriving DecidableEq, Repr

/-- The call of `drain` has set `closed`. -/
def Draining.HasClosed : Draining → Prop
  | .shutDown _ | .listening _ => True
  | .lookUp | .readActive | .drainClient _ | .claim _ | .setClosed _ | .returned => False

/-- The call is over, but for a callback `drain` may leave behind. -/
def Draining.HasReturned : Draining → Prop
  | .listening _ | .returned => True
  | .lookUp | .readActive | .drainClient _ | .claim _ | .setClosed _ | .shutDown _ => False

structure Supervisor where
  active : Option ℕ := none
  closed : Bool := false
  reconnectScheduled : Bool := false
  failedAttempts : ℕ := 0
  /-- whether the future is completed, and if so whether normally -/
  firstConnection : Option Bool := none
  /-- how many listeners are in `eventListeners` -/
  listeners : ℕ := 0
  drainHandle : Bool := false
  /-- `scheduler.shutdownNow()` was called -/
  isShutdown : Bool := false
  /-- the runs of `tryReconnect` that wait in the scheduler, with their delays -/
  scheduled : List ℤ := []
  running : Option Attempt := none
  /-- all connections ever made -/
  connections : List Connection := []
  closings : List Closing := []
  drainings : List Draining := []
  deriving DecidableEq, Repr

inductive SupervisorLabel where
  /-- the scheduler starts a run of `tryReconnect` -/
  | start
  /-- the run takes its next step -/
  | attempt
  /-- `MoonLightClient.connect` returns -/
  | connected (supportsEvents : Bool)
  /-- `MoonLightClient.connect` throws -/
  | refused
  /-- a connection ends: it failed, or its drain is over -/
  | terminate (client : ℕ)
  /-- the termination handler of a connection takes its next step -/
  | handler (client : ℕ)
  | subscribe
  | unsubscribe
  | close
  | closing (index : ℕ)
  | drain
  | draining (index : ℕ)
  deriving DecidableEq, Repr

/-- A step of a call of `close` or `drain`. -/
def SupervisorLabel.IsCall : SupervisorLabel → Prop
  | .close | .closing _ | .drain | .draining _ => True
  | .start | .attempt | .connected _ | .refused | .terminate _ | .handler _ | .subscribe
  | .unsubscribe => False

namespace Supervisor

/-- How the supervisor is created. -/
inductive Start where
  /-- `connect`: the constructor has connected, and runs `install` -/
  | immediate (supportsEvents : Bool)
  /-- the first run of `tryReconnect` is left to the scheduler -/
  | deferred
  deriving DecidableEq, Repr

def init : Start → Supervisor
  | .immediate supportsEvents =>
    { running := some (.installing 0 .check), connections := [{ supportsEvents }] }
  | .deferred => { reconnectScheduled := true, scheduled := [0] }

def setConnection (s : Supervisor) (k : ℕ) (c : Connection) : Supervisor :=
  { s with connections := s.connections.set k c }

/-- `scheduler.shutdownNow()`: tasks that have not started are dropped. -/
def shutDownNow (s : Supervisor) : Supervisor := { s with isShutdown := true, scheduled := [] }

/-- A step of `scheduleReconnect`, and where it is afterwards; `none` if it is over. -/
def rescheduleStep (policy : ReconnectPolicy) (s : Supervisor) :
    Reschedule → Supervisor × Option Reschedule
  | .claim =>
    if s.reconnectScheduled then (s, none)
    else ({ s with reconnectScheduled := true }, some .recheck)
  | .recheck => if s.closed then (s, none) else (s, some .arm)
  | .arm =>
    let s' := { s with failedAttempts := s.failedAttempts + 1 }
    match policy.bounded s.failedAttempts with
    | none => (s', none)
    | some delay =>
      -- a scheduler that was shut down rejects the task
      if s.isShutdown then (s', none) else ({ s' with scheduled := s.scheduled ++ [delay] }, none)

/-- A step of `install` for the connection `k`. -/
def installStep (s : Supervisor) (k : ℕ) (c : Connection) : Install → Supervisor
  | .check =>
    { s with running := some (.installing k (if s.closed then .discard else .publish)) }
  | .discard => { s.setConnection k { c with isOpen := false } with running := none }
  | .publish => { s with active := some k, running := some (.installing k .resubscribe) }
  | .resubscribe =>
    -- `client.subscribe` throws if the server does not send events
    if s.listeners = 0 ∨ c.supportsEvents then
      { s with running := some (.installing k .announce) }
    else { s with running := some (.rescheduling .claim) }
  | .announce =>
    { s with
      firstConnection := s.firstConnection.or (some true)
      running := some (.installing k .resetAttempts) }
  | .resetAttempts => { s with failedAttempts := 0, running := some (.installing k .resetFlag) }
  | .resetFlag => { s with reconnectScheduled := false, running := some (.installing k .register) }
  | .register => { s.setConnection k { c with handler := .registered } with running := none }

/-- A step of `tryReconnect`; from `connecting` there is none but the end of `connect`. -/
def attemptStep (policy : ReconnectPolicy) (s : Supervisor) : Attempt → Option Supervisor
  | .clearFlag => some { s with reconnectScheduled := false, running := some .checkClosed }
  | .checkClosed => some { s with running := if s.closed then none else some .checkActive }
  | .checkActive => some { s with running := if s.active.isSome then none else some .connecting }
  | .connecting => none
  | .installing k place => s.connections[k]?.map fun c => installStep s k c place
  | .rescheduling place =>
    let (s', next) := rescheduleStep policy s place
    some { s' with running := next.map .rescheduling }

/-- A step of the termination handler of the connection `k`. -/
def handlerStep (policy : ReconnectPolicy) (s : Supervisor) (k : ℕ) (c : Connection) :
    Handler → Option Supervisor
  | .unregistered => none
  | .registered =>
    if c.isOpen then none else some (s.setConnection k { c with handler := .clearing })
  | .clearing =>
    if s.active = some k then
      some ({ s with active := none }.setConnection k { c with handler := .checking })
    else some (s.setConnection k { c with handler := .finished })
  | .checking =>
    some (s.setConnection k
      { c with handler := if s.closed then .finished else .rescheduling .claim })
  | .rescheduling place =>
    let (s', next) := rescheduleStep policy s place
    some (s'.setConnection k { c with handler := next.elim .finished .rescheduling })
  | .finished => none

theorem handlerStep_rescheduling (policy : ReconnectPolicy) (s : Supervisor) (k : ℕ)
    (c : Connection) (place : Reschedule) :
    handlerStep policy s k c (.rescheduling place) =
      some ((rescheduleStep policy s place).1.setConnection k
        { c with handler := (rescheduleStep policy s place).2.elim .finished .rescheduling }) := rfl

def setClosing (s : Supervisor) (i : ℕ) (place : Closing) : Supervisor :=
  { s with closings := s.closings.set i place }

/-- A step of a call of `close`. -/
def closingStep (s : Supervisor) (i : ℕ) : Closing → Option Supervisor
  | .claim =>
    if s.closed then some (s.setClosing i .returned)
    else some ({ s with closed := true }.setClosing i .shutDown)
  | .shutDown => some (s.shutDownNow.setClosing i .settle)
  | .settle =>
    some ({ s with firstConnection := s.firstConnection.or (some false) }.setClosing i .take)
  | .take =>
    some ({ s with active := none }.setClosing i (s.active.elim .returned .closeClient))
  | .closeClient k =>
    s.connections[k]?.map fun c =>
      (s.setConnection k { c with isOpen := false }).setClosing i .returned
  | .returned => none

def setDraining (s : Supervisor) (i : ℕ) (place : Draining) : Supervisor :=
  { s with drainings := s.drainings.set i place }

/-- A step of a call of `drain`, or of the callback it leaves behind. -/
def drainingStep (s : Supervisor) (i : ℕ) : Draining → Option Supervisor
  | .lookUp => some (s.setDraining i (if s.drainHandle then .returned else .readActive))
  | .readActive => some (s.setDraining i (s.active.elim (.claim none) .drainClient))
  | .drainClient k =>
    s.connections[k]?.map fun c =>
      (s.setConnection k { c with isDraining := true }).setDraining i (.claim (some k))
  | .claim client =>
    if s.drainHandle then some (s.setDraining i .returned)
    else some ({ s with drainHandle := true }.setDraining i (.setClosed client))
  | .setClosed client => some ({ s with closed := true }.setDraining i (.shutDown client))
  | .shutDown client => some (s.shutDownNow.setDraining i (client.elim .returned .listening))
  | .listening k =>
    s.connections[k]?.bind fun c =>
      -- the client's drain is over once it has closed the connection
      if c.isOpen then none
      else some ({ s with active := if s.active = some k then none else s.active }.setDraining i
        .returned)
  | .returned => none

/-- One step of the supervisor, of its connections or of its callers. -/
def step (policy : ReconnectPolicy) (s : Supervisor) : SupervisorLabel → Option Supervisor
  | .start =>
    match s.running, s.scheduled with
    | none, _ :: rest => some { s with scheduled := rest, running := some .clearFlag }
    | _, _ => none
  | .attempt => s.running.bind (attemptStep policy s)
  | .connected supportsEvents =>
    if s.running = some .connecting then
      some { s with
        connections := s.connections ++ [{ supportsEvents }]
        running := some (.installing s.connections.length .check) }
    else none
  | .refused =>
    if s.running = some .connecting then some { s with running := some (.rescheduling .claim) }
    else none
  | .terminate k => s.connections[k]?.map fun c => s.setConnection k { c with isOpen := false }
  | .handler k => s.connections[k]?.bind fun c => handlerStep policy s k c c.handler
  | .subscribe => some { s with listeners := s.listeners + 1 }
  | .unsubscribe => if s.listeners = 0 then none else some { s with listeners := s.listeners - 1 }
  | .close => some { s with closings := s.closings ++ [.claim] }
  | .closing i => s.closings[i]?.bind (closingStep s i)
  | .drain => some { s with drainings := s.drainings ++ [.lookUp] }
  | .draining i => s.drainings[i]?.bind (drainingStep s i)

/-! ### The calls of `close` and `drain` -/

variable {s t : Supervisor} {policy : ReconnectPolicy}

/-- All other parties change nothing of these calls. -/
structure KeepsCallers (s t : Supervisor) : Prop where
  closed : t.closed = s.closed
  isShutdown : t.isShutdown = s.isShutdown
  drainHandle : t.drainHandle = s.drainHandle
  closings : t.closings = s.closings
  drainings : t.drainings = s.drainings

theorem keepsCallers_rescheduleStep (policy : ReconnectPolicy) (place : Reschedule) :
    KeepsCallers s (rescheduleStep policy s place).1 := by
  cases place with
  | claim | recheck => rw [rescheduleStep]; split <;> exact ⟨rfl, rfl, rfl, rfl, rfl⟩
  | arm =>
    rw [rescheduleStep]
    split
    · exact ⟨rfl, rfl, rfl, rfl, rfl⟩
    · split <;> exact ⟨rfl, rfl, rfl, rfl, rfl⟩

theorem keepsCallers_attemptStep {attempt : Attempt}
    (hstep : attemptStep policy s attempt = some t) : KeepsCallers s t := by
  cases attempt with
  | clearFlag | checkClosed | checkActive =>
    cases hstep
    exact ⟨rfl, rfl, rfl, rfl, rfl⟩
  | connecting => cases hstep
  | installing k place =>
    obtain ⟨c, -, rfl⟩ := Option.map_eq_some_iff.mp hstep
    cases place with
    | resubscribe => rw [installStep]; split <;> exact ⟨rfl, rfl, rfl, rfl, rfl⟩
    | check | discard | publish | announce | resetAttempts | resetFlag | register =>
      exact ⟨rfl, rfl, rfl, rfl, rfl⟩
  | rescheduling place =>
    cases hstep
    obtain ⟨h₁, h₂, h₃, h₄, h₅⟩ := keepsCallers_rescheduleStep (s := s) policy place
    exact ⟨h₁, h₂, h₃, h₄, h₅⟩

theorem keepsCallers_handlerStep {k : ℕ} {c : Connection} {handler : Handler}
    (hstep : handlerStep policy s k c handler = some t) : KeepsCallers s t := by
  cases handler with
  | unregistered | finished => cases hstep
  | registered =>
    obtain ⟨-, hstep⟩ := Option.ite_none_left_eq_some.mp hstep
    cases hstep
    exact ⟨rfl, rfl, rfl, rfl, rfl⟩
  | clearing =>
    rw [handlerStep] at hstep
    split at hstep <;>
    · cases hstep
      exact ⟨rfl, rfl, rfl, rfl, rfl⟩
  | checking =>
    cases hstep
    exact ⟨rfl, rfl, rfl, rfl, rfl⟩
  | rescheduling place =>
    cases hstep
    obtain ⟨h₁, h₂, h₃, h₄, h₅⟩ := keepsCallers_rescheduleStep (s := s) policy place
    exact ⟨h₁, h₂, h₃, h₄, h₅⟩

variable {label : SupervisorLabel}

theorem keepsCallers_step (hlabel : ¬ label.IsCall) (hstep : step policy s label = some t) :
    KeepsCallers s t := by
  cases label with
  | start =>
    simp only [step] at hstep
    split at hstep
    · cases hstep
      exact ⟨rfl, rfl, rfl, rfl, rfl⟩
    · cases hstep
  | attempt =>
    obtain ⟨attempt, -, hstep⟩ := Option.bind_eq_some_iff.mp hstep
    exact keepsCallers_attemptStep hstep
  | connected supportsEvents =>
    obtain ⟨-, hstep⟩ := Option.ite_none_right_eq_some.mp hstep
    cases hstep
    exact ⟨rfl, rfl, rfl, rfl, rfl⟩
  | refused =>
    obtain ⟨-, hstep⟩ := Option.ite_none_right_eq_some.mp hstep
    cases hstep
    exact ⟨rfl, rfl, rfl, rfl, rfl⟩
  | terminate k =>
    obtain ⟨c, -, rfl⟩ := Option.map_eq_some_iff.mp hstep
    exact ⟨rfl, rfl, rfl, rfl, rfl⟩
  | handler k =>
    obtain ⟨c, -, hstep⟩ := Option.bind_eq_some_iff.mp hstep
    exact keepsCallers_handlerStep hstep
  | subscribe =>
    cases hstep
    exact ⟨rfl, rfl, rfl, rfl, rfl⟩
  | unsubscribe =>
    obtain ⟨-, hstep⟩ := Option.ite_none_left_eq_some.mp hstep
    cases hstep
    exact ⟨rfl, rfl, rfl, rfl, rfl⟩
  | close | closing i | drain | draining i => exact absurd trivial hlabel

/-- The supervisor is closed, or a call of `drain` is about to close it. -/
def WillBeClosed (s : Supervisor) : Prop :=
  s.closed = true ∨ ∃ client, .setClosed client ∈ s.drainings

/-- The calls of `close` and `drain` are where they can be. -/
structure Announced (s : Supervisor) : Prop where
  isShutdown : s.isShutdown = true → s.closed = true
  closings : ∀ place ∈ s.closings, place ≠ .claim → s.closed = true
  drainings : ∀ place ∈ s.drainings, place.HasClosed → s.closed = true
  drainHandle : s.drainHandle = true → s.WillBeClosed
  returned : .returned ∈ s.drainings → s.WillBeClosed

/-- Once the supervisor is closed, the calls can be anywhere. -/
theorem announced_of_closed (h : s.closed = true) : s.Announced :=
  ⟨fun _ => h, fun _ _ _ => h, fun _ _ _ => h, fun _ => .inl h, fun _ => .inl h⟩

theorem Announced.of_keepsCallers (h : s.Announced) (hkeeps : KeepsCallers s t) :
    t.Announced := by
  obtain ⟨hclosed, hshutdown, hhandle, hclosings, hdrainings⟩ := hkeeps
  constructor
  · rw [hclosed, hshutdown]
    exact h.isShutdown
  · rw [hclosed, hclosings]
    exact h.closings
  · rw [hclosed, hdrainings]
    exact h.drainings
  · rw [hhandle, WillBeClosed, hclosed, hdrainings]
    exact h.drainHandle
  · rw [WillBeClosed, hclosed, hdrainings]
    exact h.returned

variable {i : ℕ}

/-- After any step of a call of `close` the supervisor is closed. -/
theorem Announced.closed_of_closingStep (h : s.Announced) {place : Closing}
    (hplace : s.closings[i]? = some place) (hstep : closingStep s i place = some t) :
    t.closed = true := by
  have hclosed : place ≠ .claim → s.closed = true :=
    h.closings place (List.mem_of_getElem? hplace)
  cases place with
  | claim =>
    rw [closingStep] at hstep
    split at hstep
    · cases hstep
      assumption
    · cases hstep
      rfl
  | shutDown | settle | take =>
    cases hstep
    exact hclosed Closing.noConfusion
  | closeClient k =>
    obtain ⟨c, -, rfl⟩ := Option.map_eq_some_iff.mp hstep
    exact hclosed Closing.noConfusion
  | returned => cases hstep

variable {place : Draining}

theorem WillBeClosed.setDraining (h : s.WillBeClosed) {new : Draining}
    (hplace : s.drainings[i]? = some place) (hnot : ∀ client, place ≠ .setClosed client) :
    (s.setDraining i new).WillBeClosed := by
  rcases h with hclosed | ⟨client, hmem⟩
  · exact .inl hclosed
  · rcases List.eq_or_mem_set hplace hmem with heq | hkept
    · exact absurd heq.symm (hnot client)
    · exact .inr ⟨client, hkept⟩

/-- A call of `drain` moves on without closing the supervisor. -/
theorem Announced.setDraining (h : s.Announced) {new : Draining}
    (hplace : s.drainings[i]? = some place) (hnot : ∀ client, place ≠ .setClosed client)
    (hnew : ¬ new.HasClosed) (hreturned : new = .returned → s.WillBeClosed) :
    (s.setDraining i new).Announced := by
  refine ⟨h.isShutdown, h.closings, fun other hmem hclosed => ?_, fun hhandle => ?_,
    fun hmem => ?_⟩
  · rcases List.mem_or_eq_of_mem_set hmem with hold | rfl
    · exact h.drainings other hold hclosed
    · exact absurd hclosed hnew
  · exact (h.drainHandle hhandle).setDraining hplace hnot
  · rcases List.mem_or_eq_of_mem_set hmem with hold | heq
    · exact (h.returned hold).setDraining hplace hnot
    · exact (hreturned heq.symm).setDraining hplace hnot

theorem Announced.drainingStep (h : s.Announced) (hplace : s.drainings[i]? = some place)
    (hstep : drainingStep s i place = some t) : t.Announced := by
  have hclosed : place.HasClosed → s.closed = true :=
    h.drainings place (List.mem_of_getElem? hplace)
  cases place with
  | lookUp =>
    cases hstep
    refine h.setDraining hplace (fun _ => Draining.noConfusion) ?_ ?_
    · split <;> exact id
    · split
      · rename_i hhandle
        exact fun _ => h.drainHandle hhandle
      · exact Draining.noConfusion
  | readActive =>
    cases hstep
    refine h.setDraining hplace (fun _ => Draining.noConfusion) ?_ ?_
    · cases s.active <;> exact id
    · cases s.active <;> exact Draining.noConfusion
  | drainClient k =>
    obtain ⟨c, hc, rfl⟩ := Option.map_eq_some_iff.mp hstep
    have hkept : (s.setConnection k { c with isDraining := true }).Announced :=
      h.of_keepsCallers ⟨rfl, rfl, rfl, rfl, rfl⟩
    exact hkept.setDraining hplace (fun _ => Draining.noConfusion) id Draining.noConfusion
  | claim client =>
    rw [Supervisor.drainingStep] at hstep
    split at hstep
    · rename_i hhandle
      cases hstep
      exact h.setDraining hplace (fun _ => Draining.noConfusion) id fun _ => h.drainHandle hhandle
    · cases hstep
      -- the call that claims the handle is the one that will set `closed`
      have hwill : ({ s with drainHandle := true }.setDraining i
          (.setClosed client)).WillBeClosed := .inr ⟨client, List.mem_set_self hplace⟩
      refine ⟨h.isShutdown, h.closings, fun other hmem hother => ?_, fun _ => hwill,
        fun _ => hwill⟩
      rcases List.mem_or_eq_of_mem_set hmem with hold | rfl
      · exact h.drainings other hold hother
      · exact hother.elim
  | setClosed client =>
    cases hstep
    exact announced_of_closed rfl
  | shutDown client =>
    cases hstep
    exact announced_of_closed (hclosed trivial)
  | listening k =>
    obtain ⟨c, -, hstep⟩ := Option.bind_eq_some_iff.mp hstep
    obtain ⟨-, hstep⟩ := Option.ite_none_left_eq_some.mp hstep
    cases hstep
    exact announced_of_closed (hclosed trivial)
  | returned => cases hstep

theorem Announced.step (h : s.Announced) (hstep : step policy s label = some t) : t.Announced := by
  cases label with
  | close =>
    cases hstep
    exact ⟨h.isShutdown, List.forall_mem_concat h.closings (absurd rfl), h.drainings,
      h.drainHandle, h.returned⟩
  | closing i =>
    obtain ⟨place, hplace, hstep⟩ := Option.bind_eq_some_iff.mp hstep
    exact announced_of_closed (h.closed_of_closingStep hplace hstep)
  | drain =>
    cases hstep
    have hgrow : s.WillBeClosed →
        { s with drainings := s.drainings ++ [.lookUp] : Supervisor }.WillBeClosed :=
      Or.imp_right (Exists.imp fun _ hmem => List.mem_append_left _ hmem)
    refine ⟨h.isShutdown, h.closings, List.forall_mem_concat h.drainings False.elim,
      fun hhandle => hgrow (h.drainHandle hhandle), fun hmem => ?_⟩
    rcases List.mem_append.mp hmem with hold | hnew
    · exact hgrow (h.returned hold)
    · cases List.mem_singleton.mp hnew
  | draining i =>
    obtain ⟨place, hplace, hstep⟩ := Option.bind_eq_some_iff.mp hstep
    exact h.drainingStep hplace hstep
  | start | attempt | connected | refused | terminate | handler | subscribe | unsubscribe =>
    exact h.of_keepsCallers (keepsCallers_step id hstep)

/-- A closed supervisor stays closed. -/
theorem Announced.closed_of_step (h : s.Announced) (hclosed : s.closed = true)
    (hstep : Supervisor.step policy s label = some t) : t.closed = true := by
  cases label with
  | close | drain =>
    cases hstep
    exact hclosed
  | closing i =>
    obtain ⟨place, hplace, hstep⟩ := Option.bind_eq_some_iff.mp hstep
    exact h.closed_of_closingStep hplace hstep
  | draining i =>
    obtain ⟨place, hplace, hstep⟩ := Option.bind_eq_some_iff.mp hstep
    cases place with
    | lookUp | readActive | setClosed | shutDown =>
      cases hstep
      first | exact hclosed | rfl
    | drainClient k =>
      obtain ⟨c, -, rfl⟩ := Option.map_eq_some_iff.mp hstep
      exact hclosed
    | claim client =>
      rw [Supervisor.drainingStep] at hstep
      split at hstep <;>
      · cases hstep
        exact hclosed
    | listening k =>
      obtain ⟨c, -, hstep⟩ := Option.bind_eq_some_iff.mp hstep
      obtain ⟨-, hstep⟩ := Option.ite_none_left_eq_some.mp hstep
      cases hstep
      exact hclosed
    | returned => cases hstep
  | start | attempt | connected | refused | terminate | handler | subscribe | unsubscribe =>
    rw [(keepsCallers_step id hstep).closed]
    exact hclosed

theorem announced_init (start : Start) : (init start).Announced := by
  cases start with
  | immediate | deferred =>
    exact ⟨Bool.noConfusion, List.forall_mem_nil _, List.forall_mem_nil _, Bool.noConfusion,
      fun h => absurd h List.not_mem_nil⟩

/-- When all calls have returned, and there was one, the supervisor is closed. -/
theorem Announced.closed_of_returned (h : s.Announced)
    (hcalled : s.closings ≠ [] ∨ s.drainings ≠ [])
    (hclosings : ∀ place ∈ s.closings, place = .returned)
    (hdrainings : ∀ place ∈ s.drainings, place.HasReturned) : s.closed = true := by
  rcases hcalled with hne | hne
  · obtain ⟨place, hmem⟩ := List.exists_mem_of_ne_nil _ hne
    refine h.closings place hmem ?_
    rw [hclosings place hmem]
    exact Closing.noConfusion
  · obtain ⟨place, hmem⟩ := List.exists_mem_of_ne_nil _ hne
    cases place with
    | listening k => exact h.drainings _ hmem trivial
    | returned =>
      rcases h.returned hmem with hclosed | ⟨client, hpending⟩
      · exact hclosed
      · exact (hdrainings _ hpending).elim
    | lookUp | readActive | drainClient | claim | setClosed | shutDown =>
      exact (hdrainings _ hmem).elim

end Supervisor

end MoonLightBridge.Client
