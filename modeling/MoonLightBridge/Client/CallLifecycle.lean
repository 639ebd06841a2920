import MoonLightBridge.Client.CallArguments
import MoonLightBridge.Data.Update
import MoonLightBridge.Semantics.Transition

/-!
# The life of a call in the client

`sendRequest` (behind `request` and `call`), `serverStream`, `ping` and `health` take a
permit of `inFlight`, put an entry into `pending` or `streams`, hand a frame to the writer
and arm a timeout. The permit is released and the entry removed by a handler: the one
`whenComplete` attaches at the very end of the method, or the one a stream was built with.
Meanwhile the reader answers calls, callers cancel them, timeouts pass, and `close`,
`terminate` or a drain closes the connection and fails what is left in the two maps.

Every read or write of a field that is shared is a step of its own. Going through a map
(`forEach`) and emptying it (`clear`) are one step for each entry: entries that come in
meanwhile may be met or not, those that were there before and stay are met.

A request id is the position of its call. Frames, credit and the signals of a stream are
left out; so are the timelines, and telemetry as far as it does not throw.
-/

namespace MoonLightBridge.Client

open Protocol

/-! ### Calls -/

/-- What a client was configured with and has negotiated. -/
structure ClientConfig where
  zstd : Zstd
  settings : Settings
  /-- how many interceptors there are -/
  interceptors : ℕ := 0
  streaming : Bool := true
  health : Bool := true
  traceContext : Bool := true

inductive Invocation where
  /-- `request` and `call` -/
  | request (args : CallArguments)
  | serverStream (args : CallArguments)
  /-- a timeout may be `null` -/
  | ping (timeout : Option Duration)
  | health (timeout : Option Duration)

/-- The two maps. -/
inductive Table where
  | pending
  | streams
  deriving DecidableEq, Repr

namespace Invocation

def table : Invocation → Table
  | .request _ | .ping _ | .health _ => .pending
  | .serverStream _ => .streams

/-- The methods that look at `accepting`. -/
def args? : Invocation → Option CallArguments
  | .request args | .serverStream args => some args
  | .ping _ | .health _ => none

/-- `ping` and `health` evaluate their timeout when they arm it. -/
def CanArm : Invocation → Prop
  | .request _ | .serverStream _ => True
  | .ping timeout | .health timeout => (timeout.bind Duration.toMillis).isSome

instance decidableCanArm : (invocation : Invocation) → Decidable invocation.CanArm
  | .request _ | .serverStream _ => isTrue trivial
  | .ping timeout | .health timeout =>
    inferInstanceAs (Decidable ((timeout.bind Duration.toMillis).isSome = true))

/-- The feature the method needs was negotiated. -/
def IsSupported (config : ClientConfig) : Invocation → Prop
  | .request _ | .ping _ => True
  | .serverStream _ => config.streaming = true
  | .health _ => config.health = true

instance decidableIsSupported (config : ClientConfig) :
    (invocation : Invocation) → Decidable (invocation.IsSupported config)
  | .request _ | .ping _ => isTrue trivial
  | .serverStream _ | .health _ => inferInstanceAs (Decidable (_ = true))

end Invocation

/-- Where a thread is before its call has an entry. -/
inductive Prelude where
  /-- before `closed.get()` -/
  | entered
  /-- before `accepting.get()` -/
  | opened
  /-- before the checks of the arguments and `inFlight.tryAcquire()` -/
  | accepted
  /-- before the interceptors -/
  | acquired (deadline : Deadline)
  /-- before telemetry is told -/
  | intercepted (timeoutMillis : Int32) (metadata : MoonLightMetadata)
  /-- before `put`; a `ping` or `health` has no request to encode -/
  | observed (request : Option Request)

/-- Where a thread is once its call has an entry. -/
inductive Progress where
  /-- before the frame is queued -/
  | registered (request : Option Request)
  /-- before the timeout is armed -/
  | queued
  /-- before `whenComplete`, or before a stream looks for its entry again -/
  | armed
  | returned
  /-- an exception left the method -/
  | threw

/-- The timeout was armed and the method has not thrown. -/
def Progress.IsArmed : Progress → Prop
  | .armed | .returned => True
  | .registered _ | .queued | .threw => False

instance decidableIsArmed : (progress : Progress) → Decidable progress.IsArmed
  | .armed | .returned => isTrue trivial
  | .registered _ | .queued | .threw => isFalse id

def Progress.IsReturned : Progress → Prop
  | .returned => True
  | .registered _ | .queued | .armed | .threw => False

instance decidableIsReturned : (progress : Progress) → Decidable progress.IsReturned
  | .returned => isTrue trivial
  | .registered _ | .queued | .armed | .threw => isFalse id

inductive Closer where
  | caller
  /-- `terminate` -/
  | connection
  | drainer
  deriving DecidableEq, Repr

/-- How a future or a stream has ended. -/
inductive Outcome where
  /-- by a response, a remote error or the end of the stream -/
  | answered
  /-- by the `IOException` of its own frame, or by itself -/
  | failed
  | timedOut
  | cancelled
  /-- by `failAll` -/
  | disconnected (closer : Closer)
  deriving DecidableEq, Repr

/-- A future or a stream and its handler. -/
inductive Completion where
  | open
  | completed (outcome : Outcome)
  /-- the handler has removed the entry -/
  | removed (outcome : Outcome)
  /-- the handler has released the permit -/
  | released (outcome : Outcome)
  deriving DecidableEq, Repr

namespace Completion

/-- `complete`, `completeExceptionally` or `finish`: the first outcome stays. -/
def complete (outcome : Outcome) : Completion → Completion
  | .open => .completed outcome
  | .completed first => .completed first
  | .removed first => .removed first
  | .released first => .released first

def outcome? : Completion → Option Outcome
  | .open => none
  | .completed outcome | .removed outcome | .released outcome => some outcome

def IsReleased : Completion → Prop
  | .open | .completed _ | .removed _ => False
  | .released _ => True

instance decidableIsReleased : (completion : Completion) → Decidable completion.IsReleased
  | .open | .completed _ | .removed _ => isFalse id
  | .released _ => isTrue trivial

@[simp] theorem isReleased_complete {completion : Completion} {outcome : Outcome} :
    (completion.complete outcome).IsReleased ↔ completion.IsReleased := by
  cases completion <;> exact Iff.rfl

end Completion

/-- The entry of a call, and what is reached through it. -/
structure CallEntry where
  progress : Progress
  /-- it is in its map -/
  isRegistered : Bool := true
  /-- the reader has found it and is about to end the call -/
  isAnswered : Bool := false
  /-- the deadline task of a stream has found it and is about to end the call -/
  isExpired : Bool := false
  completion : Completion := .open

def CallEntry.complete (entry : CallEntry) (outcome : Outcome) : CallEntry :=
  { entry with completion := entry.completion.complete outcome }

/-- Who may end a call, and how: a stream also fails by itself, when an item comes without
credit or its subscriber misbehaves. -/
def CallEntry.MayEnd (entry : CallEntry) (table : Table) : Outcome → Prop
  | .answered => entry.isAnswered = true
  | .failed => table = .streams ∧ (entry.isAnswered = true ∨ entry.progress.IsReturned)
  | .timedOut => match table with
    | .pending => entry.progress.IsArmed
    | .streams => entry.isExpired = true
  | .cancelled => entry.progress.IsReturned
  | .disconnected _ => False

instance decidableMayEnd (entry : CallEntry) : (table : Table) → (outcome : Outcome) →
    Decidable (entry.MayEnd table outcome)
  | _, .answered => inferInstanceAs (Decidable (_ = true))
  | _, .failed => inferInstanceAs (Decidable (_ ∧ _))
  | .pending, .timedOut => inferInstanceAs (Decidable entry.progress.IsArmed)
  | .streams, .timedOut => inferInstanceAs (Decidable (_ = true))
  | _, .cancelled => inferInstanceAs (Decidable entry.progress.IsReturned)
  | _, .disconnected _ => isFalse id

/-- The handler is attached: to a stream from the beginning, to a future at the end of the
method. -/
def CallEntry.HasHandler (entry : CallEntry) : Table → Prop
  | .pending => entry.progress.IsReturned
  | .streams => True

instance decidableHasHandler (entry : CallEntry) :
    (table : Table) → Decidable (entry.HasHandler table)
  | .pending => inferInstanceAs (Decidable entry.progress.IsReturned)
  | .streams => isTrue trivial

/-- Where a call is. -/
inductive CallPlace where
  | before (place : Prelude)
  /-- over without a permit, or with the permit given back -/
  | refused
  /-- an exception left the method after the permit was taken -/
  | escaped
  | shared (entry : CallEntry)

structure ClientCall where
  invocation : Invocation
  place : CallPlace

def ClientCall.entry? (call : ClientCall) : Option CallEntry :=
  match call.place with
  | .shared entry => some entry
  | .before _ | .refused | .escaped => none

variable {entry : CallEntry}

theorem ClientCall.entry?_eq_some {call : ClientCall} :
    call.entry? = some entry ↔ call.place = .shared entry := by
  obtain ⟨invocation, place⟩ := call
  cases place <;> simp [ClientCall.entry?]

/-- The call has an entry in the map. -/
def ClientCall.IsIn (call : ClientCall) (table : Table) : Prop :=
  call.invocation.table = table ∧ ∃ entry ∈ call.entry?, entry.isRegistered = true

instance decidableIsIn (call : ClientCall) (table : Table) : Decidable (call.IsIn table) :=
  inferInstanceAs (Decidable (_ ∧ _))

/-! ### The state -/

/-- Where `failAll` is, in one map and then in the other. -/
inductive FailAll where
  | idle
  /-- in `forEach`, with the entries it has to meet -/
  | failing (table : Table) (unvisited : List ℕ)
  /-- in `clear`, with the entries it has to remove -/
  | clearing (table : Table) (left : List ℕ)
  | over
  deriving DecidableEq, Repr

/-- Where a drain is. -/
inductive Drainer where
  | absent
  /-- before `accepting.set(false)` -/
  | created
  /-- in the loop, before `pending.isEmpty()` and before `streams.isEmpty()` -/
  | loopPending
  | loopStreams
  /-- the same after the loop -/
  | checkPending
  | checkStreams
  /-- before `close()`, having found both maps empty -/
  | closing
  /-- in `close()`, having closed the connection -/
  | finishing
  /-- before `close()`, having failed the handle -/
  | timedOut
  | succeeded
  | failed
  deriving DecidableEq, Repr

structure ClientCalls where
  /-- the permits that are free -/
  inFlight : ℕ
  accepting : Bool := true
  /-- who has set `closed` -/
  closed : Option Closer := none
  failAll : FailAll := .idle
  drain : Drainer := .absent
  calls : List ClientCall := []

inductive CallStep where
  | checkClosed
  | checkAccepting
  | tryAcquire
  | intercept (answers : List (Option CallContext))
  /-- `none` if telemetry throws an `Error`; its other exceptions are caught -/
  | observe (traceContext : Option (Option MoonLightTraceContext))
  | put
  | enqueue (outgoing : Outgoing)
  | arm
  | attach
  /-- the reader finds the entry; it removes it from `pending` -/
  | answer
  /-- the deadline task of a stream finds the entry -/
  | expire
  | complete (outcome : Outcome)
  /-- the next step of the handler -/
  | handle

inductive FailAllStep where
  | start
  | visit (i : ℕ)
  | startClear
  | clear (i : ℕ)
  | endClear
  deriving DecidableEq, Repr

inductive LifeLabel where
  | invoke (invocation : Invocation)
  | call (i : ℕ) (event : CallStep)
  /-- the first statement of `close` -/
  | refuse
  /-- `closed.compareAndSet(false, true)` of `close` or of `terminate` -/
  | shut (closer : Closer)
  | failAll (event : FailAllStep)
  | drain
  /-- the next step of a drain; whether its time is up, and whether `close` returns normally -/
  | drainer (timeUp succeeds : Bool)

namespace ClientCalls

def init (maxInFlight : ℕ) : ClientCalls := { inFlight := maxInFlight }

/-- The entries of a map. -/
def entries (s : ClientCalls) (table : Table) : List ℕ :=
  (List.range s.calls.length).filter fun i => ∃ call ∈ s.calls[i]?, call.IsIn table

/-! ### Steps of a call -/

/-- The id of a call; `allocateRequestId` skips zero. -/
def requestId (i : ℕ) : Int64 := Int64.ofNat (i % (2 ^ 64 - 1) + 1)

/-- The arguments are checked, and a permit is taken if there is one. -/
def tryAcquire (config : ClientConfig) (s : ClientCalls) (invocation : Invocation) :
    ℕ × CallPlace :=
  match invocation.args? with
  | none =>
    if s.inFlight = 0 then (s.inFlight, .refused)
    else (s.inFlight - 1, .before (.observed none))
  | some args =>
    match args.admit config.settings with
    | none => (s.inFlight, .refused)
    | some deadline =>
      if s.inFlight = 0 then (s.inFlight, .refused)
      else (s.inFlight - 1, .before (.acquired deadline))

/-- The interceptors, and the check of the deadline after them. The context is constructed
before the `try`. -/
def intercept (config : ClientConfig) (s : ClientCalls) (i : ℕ) (args : CallArguments)
    (deadline : Deadline) (answers : List (Option CallContext)) : ℕ × CallPlace :=
  if config.interceptors = 0 then
    (s.inFlight, .before (.intercepted deadline.millis .empty))
  else
    match CallContext.new args.methodId (requestId i) deadline.duration .empty with
    | none => (s.inFlight, .escaped)
    | some context =>
      match (beforeCalls args.methodId (requestId i) context answers).bind fun context =>
        context.deadline.deadline.map fun deadline => (deadline.millis, context.metadata) with
      | none => (s.inFlight + 1, .refused)
      | some (millis, metadata) => (s.inFlight, .before (.intercepted millis metadata))

/-- The arguments of `enqueueRequestFrame`. -/
def toRequest (config : ClientConfig) (i : ℕ) (invocation : Invocation) (args : CallArguments)
    (timeoutMillis : Int32) (metadata : MoonLightMetadata)
    (traceContext : Option MoonLightTraceContext) : Request where
  methodId := args.methodId
  requestId := requestId i
  timeoutMillis := timeoutMillis
  traceContext := if config.traceContext then traceContext else none
  body := args.body
  compression := args.policy.elim .default RpcPolicy.compression
  userMetadata := metadata
  unary := invocation.table = .pending

/-- A step of a thread whose call has no entry yet: the permits that are free afterwards and
the place of the call. -/
def preludeStep (config : ClientConfig) (s : ClientCalls) (i : ℕ) (invocation : Invocation) :
    Prelude → CallStep → Option (ℕ × CallPlace)
  | .entered, .checkClosed =>
    if invocation.IsSupported config ∧ s.closed = none then
      -- `ping` and `health` do not look at `accepting`
      some (s.inFlight, .before (if invocation.args?.isSome then .opened else .accepted))
    else some (s.inFlight, .refused)
  | .opened, .checkAccepting =>
    some (s.inFlight, if s.accepting then .before .accepted else .refused)
  | .accepted, .tryAcquire => some (s.tryAcquire config invocation)
  | .acquired deadline, .intercept answers =>
    invocation.args?.bind fun args =>
      if answers.length = config.interceptors then
        some (s.intercept config i args deadline answers)
      else none
  | .intercepted millis metadata, .observe traceContext =>
    invocation.args?.map fun args =>
      (s.inFlight, traceContext.elim .escaped fun traceContext => .before
        (.observed (some (toRequest config i invocation args millis metadata traceContext))))
  | .observed request, .put => some (s.inFlight, .shared { progress := .registered request })
  | _, _ => none

/-- A frame is handed to the writer. An `IOException` ends the call. -/
def enqueue (config : ClientConfig) (table : Table) (outgoing : Outgoing) (entry : CallEntry) :
    Option Request → CallEntry
  | none =>
    if outgoing.offered then { entry with progress := .queued }
    else { entry.complete .failed with progress := .queued }
  | some request =>
    match enqueueRequestFrame config.zstd config.settings outgoing request with
    | .ok _ => { entry with progress := .queued }
    | .error error =>
      if error.IsIOException then
        { entry.complete .failed with
          progress := match table with
            | .pending => .queued
            | .streams => .returned }
      else { entry with progress := .threw }

/-- The next step of the handler. -/
def handle (s : ClientCalls) (entry : CallEntry) : Option (ℕ × CallPlace) :=
  match entry.completion with
  | .completed outcome =>
    some (s.inFlight,
      .shared { entry with isRegistered := false, completion := .removed outcome })
  | .removed outcome =>
    some (s.inFlight + 1, .shared { entry with completion := .released outcome })
  | .open | .released _ => none

/-- A step of a call that has an entry. -/
def entryStep (config : ClientConfig) (s : ClientCalls) (invocation : Invocation)
    (entry : CallEntry) : CallStep → Option (ℕ × CallPlace)
  | .enqueue outgoing =>
    match entry.progress with
    | .registered request =>
      some (s.inFlight, .shared (enqueue config invocation.table outgoing entry request))
    | .queued | .armed | .returned | .threw => none
  | .arm =>
    match entry.progress with
    | .queued =>
      some (s.inFlight,
        .shared { entry with progress := if invocation.CanArm then .armed else .threw })
    | .registered _ | .armed | .returned | .threw => none
  | .attach =>
    match entry.progress with
    | .armed => some (s.inFlight, .shared { entry with progress := .returned })
    | .registered _ | .queued | .returned | .threw => none
  | .answer =>
    if entry.isRegistered then
      some (s.inFlight, .shared { entry with
        isRegistered := invocation.table = .streams
        isAnswered := true })
    else none
  | .expire =>
    if invocation.table = .streams ∧ entry.isRegistered = true ∧ entry.progress.IsArmed then
      some (s.inFlight, .shared { entry with isExpired := true })
    else none
  | .complete outcome =>
    if entry.MayEnd invocation.table outcome then
      some (s.inFlight, .shared (entry.complete outcome))
    else none
  | .handle => if entry.HasHandler invocation.table then s.handle entry else none
  | .checkClosed | .checkAccepting | .tryAcquire | .intercept _ | .observe _ | .put => none

def callStep (config : ClientConfig) (s : ClientCalls) (i : ℕ) (call : ClientCall)
    (event : CallStep) : Option (ℕ × CallPlace) :=
  match call.place with
  | .before place => s.preludeStep config i call.invocation place event
  | .shared entry => s.entryStep config call.invocation entry event
  | .refused | .escaped => none

/-! ### Steps of the others -/

def setPlace (s : ClientCalls) (i : ℕ) (call : ClientCall) (place : CallPlace) : ClientCalls :=
  { s with calls := s.calls.set i { call with place } }

/-- Change an entry that is in the map. -/
def updateEntry (s : ClientCalls) (table : Table) (i : ℕ) (change : CallEntry → CallEntry) :
    Option ClientCalls :=
  s.calls[i]?.bind fun call =>
    if call.IsIn table then
      call.entry?.map fun entry => s.setPlace i call (.shared (change entry))
    else none

def failAllStep (s : ClientCalls) : FailAllStep → Option ClientCalls
  | .start =>
    if s.closed ≠ none ∧ s.failAll = .idle then
      some { s with failAll := .failing .pending (s.entries .pending) }
    else none
  | .visit i =>
    match s.failAll, s.closed with
    | .failing table unvisited, some closer =>
      { s with failAll := .failing table (unvisited.filter (· ≠ i)) }.updateEntry table i
        (CallEntry.complete · (.disconnected closer))
    | _, _ => none
  | .startClear =>
    match s.failAll with
    | .failing table unvisited =>
      if ∀ i ∈ unvisited, i ∉ s.entries table then
        some { s with failAll := .clearing table (s.entries table) }
      else none
    | .idle | .clearing _ _ | .over => none
  | .clear i =>
    match s.failAll with
    | .clearing table _ => s.updateEntry table i fun entry => { entry with isRegistered := false }
    | .idle | .failing _ _ | .over => none
  | .endClear =>
    match s.failAll with
    | .clearing table left =>
      if ∀ i ∈ left, i ∉ s.entries table then
        some { s with
          failAll := match table with
            | .pending => .failing .streams (s.entries .streams)
            | .streams => .over }
      else none
    | .idle | .failing _ _ | .over => none

/-- The next step of a drain. -/
def drainerStep (s : ClientCalls) (timeUp succeeds : Bool) : Option ClientCalls :=
  match s.drain with
  | .absent | .succeeded | .failed => none
  | .created => some { s with accepting := false, drain := .loopPending }
  | .loopPending => some { s with
      drain := if s.entries .pending = [] then .loopStreams
        else if timeUp then .checkPending else .loopPending }
  | .loopStreams => some { s with
      drain := if s.entries .streams = [] ∨ timeUp then .checkPending else .loopPending }
  | .checkPending =>
    some { s with drain := if s.entries .pending = [] then .checkStreams else .timedOut }
  | .checkStreams =>
    some { s with drain := if s.entries .streams = [] then .closing else .timedOut }
  | .closing =>
    -- `close` does nothing on a connection that is closed
    if s.closed = none then some { s with closed := some .drainer, drain := .finishing }
    else some { s with drain := .succeeded }
  | .finishing =>
    if succeeds then if s.failAll = .over then some { s with drain := .succeeded } else none
    else some { s with drain := .failed }
  | .timedOut => some { s with closed := s.closed.orElse fun _ => some .drainer, drain := .failed }

def step (config : ClientConfig) (s : ClientCalls) : LifeLabel → Option ClientCalls
  | .invoke invocation => some { s with calls := s.calls ++ [⟨invocation, .before .entered⟩] }
  | .call i event =>
    s.calls[i]?.bind fun call => (s.callStep config i call event).map fun next =>
      { s with inFlight := next.1 }.setPlace i call next.2
  | .refuse => some { s with accepting := false }
  | .shut closer =>
    if s.closed = none ∧ (closer = .connection ∨ closer = .caller ∧ s.accepting = false) then
      some { s with closed := some closer }
    else none
  | .failAll event => s.failAllStep event
  | .drain => if s.drain = .absent then some { s with drain := .created } else none
  | .drainer timeUp succeeds => s.drainerStep timeUp succeeds

end ClientCalls

/-! ### What a step of a call does -/

def Prelude.HasPermit : Prelude → Prop
  | .entered | .opened | .accepted => False
  | .acquired _ | .intercepted _ _ | .observed _ => True

instance decidableHasPermit : (place : Prelude) → Decidable place.HasPermit
  | .entered | .opened | .accepted => isFalse id
  | .acquired _ | .intercepted _ _ | .observed _ => isTrue trivial

/-- The thread has found `accepting` set. -/
def Prelude.HasPassed : Prelude → Prop
  | .entered | .opened => False
  | .accepted | .acquired _ | .intercepted _ _ | .observed _ => True

instance decidableHasPassed : (place : Prelude) → Decidable place.HasPassed
  | .entered | .opened => isFalse id
  | .accepted | .acquired _ | .intercepted _ _ | .observed _ => isTrue trivial

def Progress.HasThrown : Progress → Prop
  | .registered _ | .queued | .armed | .returned => False
  | .threw => True

instance decidableHasThrown : (progress : Progress) → Decidable progress.HasThrown
  | .registered _ | .queued | .armed | .returned => isFalse id
  | .threw => isTrue trivial

/-- The request whose frame is to be queued. -/
def Progress.request? : Progress → Option Request
  | .registered request => request
  | .queued | .armed | .returned | .threw => none

/-- The caller of `enqueueRequestFrame` does not catch its exception. -/
def IsUncaught : Except EnqueueException Bytes → Prop
  | .ok _ => False
  | .error error => ¬ error.IsIOException

instance decidableIsUncaught : (result : Except EnqueueException Bytes) →
    Decidable (IsUncaught result)
  | .ok _ => isFalse id
  | .error error => inferInstanceAs (Decidable (¬ error.IsIOException))

/-- The step lets an exception out of a method that holds a permit:

* the constructor of the context refuses a method id of zero,
* telemetry throws an `Error`,
* `enqueueRequestFrame` throws something other than an `IOException`, or
* a timeout is `null` or too long for `toMillis`. -/
def ClientCall.Escapes (config : ClientConfig) (call : ClientCall) : CallStep → Prop
  | .intercept _ => config.interceptors ≠ 0 ∧ ∃ args ∈ call.invocation.args?, args.methodId = 0
  | .observe traceContext => traceContext = none
  | .enqueue outgoing => ∃ entry ∈ call.entry?, ∃ request ∈ entry.progress.request?,
      IsUncaught (enqueueRequestFrame config.zstd config.settings outgoing request)
  | .arm => ¬ call.invocation.CanArm
  | .checkClosed | .checkAccepting | .tryAcquire | .put | .attach | .answer | .expire
  | .complete _ | .handle => False

instance decidableEscapes (config : ClientConfig) (call : ClientCall) :
    (event : CallStep) → Decidable (call.Escapes config event)
  | .intercept _ => inferInstanceAs (Decidable (_ ∧ _))
  | .observe none => isTrue rfl
  | .observe (some traceContext) => isFalse (Option.some_ne_none traceContext)
  | .enqueue _ => inferInstanceAs (Decidable (∃ entry ∈ call.entry?, _))
  | .arm => inferInstanceAs (Decidable (¬ call.invocation.CanArm))
  | .checkClosed | .checkAccepting | .tryAcquire | .put | .attach | .answer | .expire
  | .complete _ | .handle => isFalse id

namespace ClientCalls

/-- What a step does to an entry, and the permits that are free afterwards. -/
inductive EntryMoves (config : ClientConfig) (s : ClientCalls) (call : ClientCall)
    (entry : CallEntry) (event : CallStep) : ℕ → CallEntry → Prop where
  | proceed {progress : Progress} : (progress.HasThrown → call.Escapes config event) →
      EntryMoves config s call entry event s.inFlight { entry with progress }
  | fail {progress : Progress} : ¬ progress.HasThrown →
      EntryMoves config s call entry event s.inFlight { entry.complete .failed with progress }
  | answer : entry.isRegistered = true →
      EntryMoves config s call entry event s.inFlight { entry with
        isRegistered := call.invocation.table = .streams
        isAnswered := true }
  | expire : EntryMoves config s call entry event s.inFlight { entry with isExpired := true }
  | complete {outcome : Outcome} : entry.MayEnd call.invocation.table outcome →
      EntryMoves config s call entry event s.inFlight (entry.complete outcome)
  | remove {outcome : Outcome} : entry.completion = .completed outcome →
      EntryMoves config s call entry event s.inFlight
        { entry with isRegistered := false, completion := .removed outcome }
  | release {outcome : Outcome} : entry.completion = .removed outcome →
      EntryMoves config s call entry event (s.inFlight + 1)
        { entry with completion := .released outcome }

/-- What a step does to a call, and the permits that are free afterwards. -/
inductive CallMoves (config : ClientConfig) (s : ClientCalls) (call : ClientCall)
    (event : CallStep) : ℕ → CallPlace → Prop where
  | refuse {place : Prelude} : call.place = .before place → ¬ place.HasPermit →
      CallMoves config s call event s.inFlight .refused
  | advance {place next : Prelude} : call.place = .before place →
      (next.HasPermit ↔ place.HasPermit) →
      (next.HasPassed → place.HasPassed ∨ s.accepting = true ∨ call.invocation.args? = none) →
      CallMoves config s call event s.inFlight (.before next)
  | acquire {next : Prelude} : call.place = .before .accepted → 0 < s.inFlight →
      next.HasPermit → CallMoves config s call event (s.inFlight - 1) (.before next)
  | giveBack {place : Prelude} : call.place = .before place → place.HasPermit →
      CallMoves config s call event (s.inFlight + 1) .refused
  | escape {place : Prelude} : call.place = .before place → place.HasPermit →
      call.Escapes config event → CallMoves config s call event s.inFlight .escaped
  | put {request : Option Request} : call.place = .before (.observed request) →
      event = .put →
      CallMoves config s call event s.inFlight (.shared { progress := .registered request })
  | entry {entry next : CallEntry} {n : ℕ} : call.place = .shared entry →
      EntryMoves config s call entry event n next →
      CallMoves config s call event n (.shared next)

section Moves

variable {config : ClientConfig} {s : ClientCalls} {i n : ℕ} {call : ClientCall}
  {event : CallStep} {place : CallPlace}

theorem callMoves_of_tryAcquire (hplace : call.place = .before .accepted) :
    CallMoves config s call event (s.tryAcquire config call.invocation).1
      (s.tryAcquire config call.invocation).2 := by
  unfold tryAcquire
  split
  · split_ifs with hzero
    · exact .refuse hplace id
    · exact .acquire hplace (Nat.pos_of_ne_zero hzero) trivial
  · split
    · exact .refuse hplace id
    · split_ifs with hzero
      · exact .refuse hplace id
      · exact .acquire hplace (Nat.pos_of_ne_zero hzero) trivial

theorem requestId_ne_zero (i : ℕ) : requestId i ≠ 0 := by
  intro h
  have hbits : (Int64.ofNat (i % (2 ^ 64 - 1) + 1)).toBitVec = 0 := congrArg Int64.toBitVec h
  rw [Int64.toBitVec_ofNat'] at hbits
  have hnat := congrArg BitVec.toNat hbits
  rw [BitVec.toNat_ofNat, Nat.mod_eq_of_lt (by omega)] at hnat
  cases hnat

theorem callMoves_of_intercept {deadline : Deadline} {args : CallArguments}
    {answers : List (Option CallContext)} (hplace : call.place = .before (.acquired deadline))
    (hargs : call.invocation.args? = some args) :
    CallMoves config s call (.intercept answers) (s.intercept config i args deadline answers).1
      (s.intercept config i args deadline answers).2 := by
  unfold intercept
  split_ifs with hnone
  · exact .advance hplace Iff.rfl fun _ => .inl trivial
  · split
    · rename_i hnew
      refine .escape hplace trivial ⟨hnone, args, hargs, ?_⟩
      by_contra hmethod
      rw [CallContext.new, dif_pos ⟨hmethod, requestId_ne_zero i, deadline.pos⟩] at hnew
      cases hnew
    · split
      · exact .giveBack hplace trivial
      · exact .advance hplace Iff.rfl fun _ => .inl trivial

theorem callMoves_of_preludeStep {place : Prelude} {next : CallPlace}
    (hplace : call.place = .before place)
    (h : s.preludeStep config i call.invocation place event = some (n, next)) :
    CallMoves config s call event n next := by
  unfold preludeStep at h
  split at h
  · split_ifs at h with hopen hargs
    · obtain ⟨rfl, rfl⟩ := Prod.mk.inj (Option.some_inj.mp h)
      exact .advance hplace Iff.rfl False.elim
    · obtain ⟨rfl, rfl⟩ := Prod.mk.inj (Option.some_inj.mp h)
      refine .advance hplace Iff.rfl fun _ => .inr (.inr ?_)
      exact Option.not_isSome_iff_eq_none.mp hargs
    · obtain ⟨rfl, rfl⟩ := Prod.mk.inj (Option.some_inj.mp h)
      exact .refuse hplace id
  · obtain ⟨rfl, rfl⟩ := Prod.mk.inj (Option.some_inj.mp h)
    split_ifs with haccepting
    · exact .advance hplace Iff.rfl fun _ => .inr (.inl haccepting)
    · exact .refuse hplace id
  · obtain ⟨rfl, rfl⟩ := Prod.mk.inj (Option.some_inj.mp h)
    exact callMoves_of_tryAcquire hplace
  · obtain ⟨args, hargs, h⟩ := Option.bind_eq_some_iff.mp h
    obtain ⟨-, h⟩ := Option.ite_none_right_eq_some.mp h
    obtain ⟨rfl, rfl⟩ := Prod.mk.inj (Option.some_inj.mp h)
    exact callMoves_of_intercept hplace hargs
  · rename_i millis metadata traceContext
    obtain ⟨args, hargs, h⟩ := Option.map_eq_some_iff.mp h
    obtain ⟨rfl, rfl⟩ := Prod.mk.inj h
    cases traceContext with
    | none => exact .escape hplace trivial rfl
    | some traceContext => exact .advance hplace Iff.rfl fun _ => .inl trivial
  · obtain ⟨rfl, rfl⟩ := Prod.mk.inj (Option.some_inj.mp h)
    exact .put hplace rfl
  · cases h

theorem entryMoves_of_enqueue {request : Option Request} {outgoing : Outgoing}
    (hentry : call.entry? = some entry) (hprogress : entry.progress = .registered request) :
    EntryMoves config s call entry (.enqueue outgoing) s.inFlight
      (enqueue config call.invocation.table outgoing entry request) := by
  unfold enqueue
  split
  · split_ifs
    · exact .proceed False.elim
    · exact .fail id
  · rename_i request
    split
    · exact .proceed False.elim
    · rename_i error herror
      split_ifs with hio
      · refine .fail ?_
        split
        · exact id
        · exact id
      · refine .proceed fun _ => ⟨entry, hentry, ?_⟩
        rw [hprogress]
        refine ⟨request, rfl, ?_⟩
        rw [herror]
        exact hio

theorem entryMoves_of_entryStep {next : CallPlace} (hentry : call.place = .shared entry)
    (h : s.entryStep config call.invocation entry event = some (n, next)) :
    ∃ entry', next = .shared entry' ∧ EntryMoves config s call entry event n entry' := by
  have hcall : call.entry? = some entry := ClientCall.entry?_eq_some.mpr hentry
  cases event with
  | enqueue outgoing =>
    simp only [entryStep] at h
    split at h
    · rename_i request hprogress
      cases h
      exact ⟨_, rfl, entryMoves_of_enqueue hcall hprogress⟩
    all_goals cases h
  | arm =>
    simp only [entryStep] at h
    split at h
    · cases h
      refine ⟨_, rfl, .proceed fun hthrown => ?_⟩
      split_ifs at hthrown with harm
      · exact hthrown.elim
      · exact harm
    all_goals cases h
  | attach =>
    simp only [entryStep] at h
    split at h
    · cases h
      exact ⟨_, rfl, .proceed False.elim⟩
    all_goals cases h
  | answer =>
    obtain ⟨hregistered, h⟩ := Option.ite_none_right_eq_some.mp h
    cases h
    exact ⟨_, rfl, .answer hregistered⟩
  | expire =>
    obtain ⟨-, h⟩ := Option.ite_none_right_eq_some.mp h
    cases h
    exact ⟨_, rfl, .expire⟩
  | complete outcome =>
    obtain ⟨hmay, h⟩ := Option.ite_none_right_eq_some.mp h
    cases h
    exact ⟨_, rfl, .complete hmay⟩
  | handle =>
    obtain ⟨-, h⟩ := Option.ite_none_right_eq_some.mp h
    unfold handle at h
    split at h
    · rename_i outcome hcompletion
      cases h
      exact ⟨_, rfl, .remove hcompletion⟩
    · rename_i outcome hcompletion
      cases h
      exact ⟨_, rfl, .release hcompletion⟩
    all_goals cases h
  | checkClosed => cases h
  | checkAccepting => cases h
  | tryAcquire => cases h
  | intercept answers => cases h
  | observe traceContext => cases h
  | put => cases h

theorem callMoves_of_callStep (h : s.callStep config i call event = some (n, place)) :
    CallMoves config s call event n place := by
  unfold callStep at h
  split at h
  · rename_i hplace
    exact callMoves_of_preludeStep hplace h
  · rename_i entry hentry
    obtain ⟨next, rfl, hmoves⟩ := entryMoves_of_entryStep hentry h
    exact .entry hentry hmoves
  · cases h
  · cases h

variable {t : ClientCalls}

theorem updateEntry_eq_some {table : Table} {change : CallEntry → CallEntry}
    (h : s.updateEntry table i change = some t) :
    ∃ call entry, s.calls[i]? = some call ∧ call.invocation.table = table ∧
      call.place = .shared entry ∧ entry.isRegistered = true ∧
      t = s.setPlace i call (.shared (change entry)) := by
  obtain ⟨call, hi, h⟩ := Option.bind_eq_some_iff.mp h
  obtain ⟨⟨htable, hentry⟩, h⟩ := Option.ite_none_right_eq_some.mp h
  obtain ⟨entry, hin, rfl⟩ := Option.map_eq_some_iff.mp h
  obtain ⟨entry', hin', hregistered⟩ := hentry
  obtain rfl := Option.mem_unique hin hin'
  exact ⟨call, entry, hi, htable, ClientCall.entry?_eq_some.mp hin, hregistered, rfl⟩

/-- What a step of a drain does. -/
inductive DrainMoves (s : ClientCalls) : ClientCalls → Prop where
  | start : s.drain = .created → DrainMoves s { s with accepting := false, drain := .loopPending }
  | poll {next : Drainer} : s.drain = .loopPending ∨ s.drain = .loopStreams →
      next = .loopPending ∨ next = .loopStreams ∨ next = .checkPending →
      DrainMoves s { s with drain := next }
  | foundPending : s.drain = .checkPending → s.entries .pending = [] →
      DrainMoves s { s with drain := .checkStreams }
  | foundStreams : s.drain = .checkStreams → s.entries .streams = [] →
      DrainMoves s { s with drain := .closing }
  | timeOut : s.drain = .checkPending ∨ s.drain = .checkStreams →
      DrainMoves s { s with drain := .timedOut }
  | close : s.drain = .closing → s.closed = none →
      DrainMoves s { s with closed := some .drainer, drain := .finishing }
  | succeed : s.drain = .closing ∧ s.closed ≠ none ∨ s.drain = .finishing →
      DrainMoves s { s with drain := .succeeded }
  | fail : s.drain = .finishing → DrainMoves s { s with drain := .failed }
  | closeLate : s.drain = .timedOut →
      DrainMoves s { s with closed := s.closed.orElse fun _ => some .drainer, drain := .failed }

theorem drainMoves_of_drainerStep {timeUp succeeds : Bool}
    (h : s.drainerStep timeUp succeeds = some t) : DrainMoves s t := by
  unfold drainerStep at h
  cases hdrain : s.drain <;> simp only [hdrain] at h
  case created => exact Option.some_inj.mp h ▸ .start hdrain
  case loopPending =>
    rw [← Option.some_inj.mp h]
    refine .poll (.inl hdrain) ?_
    split_ifs <;> simp
  case loopStreams =>
    rw [← Option.some_inj.mp h]
    refine .poll (.inr hdrain) ?_
    split_ifs <;> simp
  case checkPending =>
    rw [← Option.some_inj.mp h]
    split_ifs with hempty
    · exact .foundPending hdrain hempty
    · exact .timeOut (.inl hdrain)
  case checkStreams =>
    rw [← Option.some_inj.mp h]
    split_ifs with hempty
    · exact .foundStreams hdrain hempty
    · exact .timeOut (.inr hdrain)
  case closing =>
    split_ifs at h with hopen
    · exact Option.some_inj.mp h ▸ .close hdrain hopen
    · exact Option.some_inj.mp h ▸ .succeed (.inl ⟨hdrain, hopen⟩)
  case finishing =>
    split_ifs at h
    · exact Option.some_inj.mp h ▸ .succeed (.inr hdrain)
    · exact Option.some_inj.mp h ▸ .fail hdrain
  case timedOut => exact Option.some_inj.mp h ▸ .closeLate hdrain
  all_goals cases h

/-- A drain leaves the calls and `failAll` alone. -/
theorem DrainMoves.calls_eq (h : DrainMoves s t) :
    t.inFlight = s.inFlight ∧ t.calls = s.calls ∧ t.failAll = s.failAll := by
  cases h <;> exact ⟨rfl, rfl, rfl⟩

end Moves

end ClientCalls

/-! ### Values for examples -/

def oneSecond : Duration where
  nanoseconds := 10 ^ 9
  bounded := by decide +kernel

/-- The writer's queue takes everything, and nothing is written directly. -/
def idleWriter : Outgoing where
  availableBytes := 1000
  directWrite := .declined
  offered := true

/-- The steps of a request or a stream up to `put`, without interceptors. -/
def untilPut (i : ℕ) : List LifeLabel :=
  [.call i .checkClosed, .call i .checkAccepting, .call i .tryAcquire, .call i (.intercept []),
    .call i (.observe (some none))]

/-- A connection without compression, to a client without interceptors. -/
def plainConfig : ClientConfig where
  zstd := ⟨fun _ _ => none, fun _ _ => none, fun _ _ data h =>
    absurd h (Option.some_ne_none data).symm⟩
  settings := ⟨1000, 1000, 1000, 0, by decide, by decide⟩

end MoonLightBridge.Client
