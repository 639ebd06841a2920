import MoonLightBridge.Semantics.Async
import MoonLightBridge.Server.Middleware
import MoonLightBridge.Server.Outbound
import MoonLightBridge.Server.RequestPayload

/-!
# What the task of a request does

The task of a request is translated as a computation on a virtual clock: `dispatch_observed`
for a unary method, `dispatch_stream` for a streaming one, and around them the task that the
connection spawns. The clock counts milliseconds. What the application does is a script: how
long a layer, a handler or a stream takes, and what it comes to. So is the client, as far as
it grants credits. The response queue takes a frame at once.

A task that is aborted is dropped at that instant, and so is a computation whose timeout
expires. The `CancellationGuard` is what then sets the signal that was given to the layers.
-/

namespace MoonLightBridge.Server.Dispatch

open Protocol Async
open Middleware (HandlerError Outcome)

/-! ### The application -/

/-- What a call of a handler comes to. -/
inductive HandlerRun (α : Type) where
  | returns (after : ℕ) (result : Except HandlerError α)
  | panicsWhenCalled
  | panicsAfter (elapsed : ℕ)
  | never

/-- What a layer does in a call. Of its continuation and the clones of it, only the first
run is more than an error. -/
inductive LayerRun where
  | returned (result : Outcome)
  | panicked
  | never
  | waits (duration : ℕ) (rest : LayerRun)
  | runsNext (body : Bytes) (rest : Outcome → LayerRun)

abbrev Layer := Bytes → LayerRun

/-- A layer that does nothing but run its continuation. -/
def Layer.forward : Layer := fun body => .runsNext body .returned

/-- An item of a stream: how long it takes, and how long the client lets it wait for a
credit. It is not queued if the connection is closed. -/
structure ItemRun where
  after : ℕ
  body : Bytes
  credit : Option ℕ
  isQueued : Bool
  deriving DecidableEq

/-- What comes after the last item of a stream. -/
inductive StreamTail where
  | finishes (after : ℕ)
  | fails (after : ℕ) (error : HandlerError)
  | panicsAfter (elapsed : ℕ)
  | never
  deriving DecidableEq

structure StreamRun where
  items : List ItemRun
  tail : StreamTail

/-- `Router`, with the scripts of its handlers. -/
structure Router where
  handlers : UInt32 → Option (Bytes → HandlerRun Bytes)
  streamHandlers : UInt32 → Option (Bytes → HandlerRun StreamRun)
  middleware : List Layer

namespace HandlerRun

variable {σ α : Type}

def task : HandlerRun α → Task σ (Except HandlerError α)
  | .returns after result => do
    Task.wait (some after)
    return result
  | .panicsWhenCalled => Task.panics
  | .panicsAfter elapsed => do
    Task.wait (some elapsed)
    Task.panics
  | .never => do
    Task.wait none
    Task.panics

def Panics : HandlerRun α → Prop
  | .panicsWhenCalled | .panicsAfter _ => True
  | _ => False

/-- It returns or panics, some time. -/
def Ends : HandlerRun α → Prop
  | .never => False
  | _ => True

end HandlerRun

/-! ### The chain -/

section Chain

variable {σ : Type}

/-- A layer's call, and whether its continuation has been run. -/
def LayerRun.task (next : Bytes → Task σ Outcome) : Bool → LayerRun → Task σ Outcome
  | _, .returned result => pure result
  | _, .panicked => Task.panics
  | _, .never => do
    Task.wait none
    Task.panics
  | called, .waits duration rest => do
    Task.wait (some duration)
    rest.task next called
  | true, .runsNext _ rest =>
    (rest (.error (.internal "middleware continuation was invoked more than once"))).task next true
  | false, .runsNext body rest => do
    let result ← next body
    (rest result).task next true

/-- `Next::run` -/
def next (handler : Bytes → Task σ Outcome) : List Layer → Bytes → Task σ Outcome
  | [], body => Task.catchUnwind (.error (.internal "handler panicked")) (handler body)
  | layer :: layers, body =>
    Task.catchUnwind (.error (.internal "middleware panicked"))
      ((layer body).task (next handler layers) false)

end Chain

/-! ### The task of a request -/

/-- The waits of a task. -/
inductive Stage where
  /-- the chain and the handler of a unary request -/
  | invocation
  | middleware
  | opening
  | item
  | credit
  deriving DecidableEq, Repr

/-- What the task of a request leaves behind. -/
structure TaskState where
  /-- the `RequestCancellation` of the request -/
  isCancelled : Bool
  /-- the frames that were passed to the response queue -/
  sent : List Frame
  /-- the waits that ended with what was waited for, and when -/
  waits : List (Stage × ℕ)
  deriving DecidableEq

def TaskState.init : TaskState := ⟨false, [], []⟩

/-- Whether the task came to its own end. -/
inductive Ending where
  | completed
  | deadlineExceeded
  deriving DecidableEq, Repr

/-- `RequestOutcome` -/
inductive RequestOutcome where
  | success (responseBytes : ℕ)
  | error (code : ErrorCode)
  deriving DecidableEq, Repr

/-- What has become of the observation of a request. -/
inductive Observed where
  /-- there is none -/
  | absent
  | finished (outcome : RequestOutcome)
  /-- `DeferredObservation` -/
  | deferred (outcome : RequestOutcome)
  deriving DecidableEq, Repr

/-- The arguments of a dispatch that a connection has for all its requests. -/
structure DispatchLimits where
  zstd : Zstd
  maxResponseBodyLen : UInt32
  maxMetadataLen : UInt32
  compression : RequestCompression

/-- What a connection passes to the dispatch of its requests. -/
def connectionLimits (zstd : Zstd) (negotiated : Negotiated) (budget : DecodedByteBudget) :
    DispatchLimits where
  zstd
  maxResponseBodyLen := negotiated.maxDecodedBodyLen
  maxMetadataLen := negotiated.maxMetadataLen
  compression := ⟨negotiated.compressionCodecs, connectionCompressionPolicy negotiated, budget⟩

/-- What `dispatch_observed` returns, and how it came to its end. -/
structure Answer where
  ending : Ending
  frame : Frame
  observed : Observed

/-- `RequestCancellation::cancel` -/
def cancel (s : TaskState) : TaskState := { s with isCancelled := true }

def send (frame : Frame) : Task TaskState Unit :=
  Task.modify fun s => { s with sent := s.sent ++ [frame] }

/-- A wait is over. -/
def note (stage : Stage) : Task TaskState Unit :=
  Task.instantly fun now s => ({ s with waits := s.waits ++ [(stage, now)] }, ())

/-- Wait until an instant, if there is one. -/
def awaitUntil {α : Type} (expires : Option ℕ) (stage : Stage) (x : Task TaskState α) :
    Task TaskState (Option α) :=
  let noted : Task TaskState α := do
    let value ← x
    note stage
    return value
  match expires with
  | some expires => Task.timeoutAt expires noted
  | none => do
    let value ← noted
    return some value

/-- `finish_observation` -/
def finishObservation (observation : Option Bool) (outcome : RequestOutcome) : Observed :=
  match observation with
  | none => .absent
  | some _ => .finished outcome

/-- `DeferredObservation::defer_or_finish`: only a detailed observation is kept open. -/
def deferOrFinish (observation : Option Bool) (outcome : RequestOutcome) : Observed :=
  match observation with
  | none => .absent
  | some false => .finished outcome
  | some true => .deferred outcome

section Requests

variable (router : Router) (limits : DispatchLimits) (frame : Frame)

/-- How a unary request is answered, with what came of it before its deadline. -/
def respond (observation : Option Bool) : Option Outcome → Answer
  | none => ⟨.deadlineExceeded, errorFrame frame .deadlineExceeded "request deadline exceeded",
      finishObservation observation (.error .deadlineExceeded)⟩
  | some (.ok body) =>
    if limits.maxResponseBodyLen.toNat < body.length then
      ⟨.completed, errorFrame frame .resourceExhausted "response exceeds negotiated body limit",
        finishObservation observation (.error .resourceExhausted)⟩
    else ⟨.completed, Frame.new .response frame.methodId frame.requestId body,
      deferOrFinish observation (.success body.length)⟩
  | some (.error error) => ⟨.completed, errorFrame frame error.code error.message,
      deferOrFinish observation (.error error.code)⟩

/-- `request_payload`, which keeps the metadata for the layers if there are any. -/
def parse : Except Rejection ParsedRequest :=
  requestPayload limits.zstd frame limits.maxMetadataLen limits.compression
    (!router.middleware.isEmpty)

/-- The chain and the handler. Without layers there is no context, and the handler is called
directly. -/
def invocation (handler : Bytes → HandlerRun Bytes) (parsed : ParsedRequest) :
    Task TaskState Outcome :=
  Task.guarded cancel
    (match parsed.metadata with
      | some _ => next (fun body => (handler body).task) router.middleware parsed.payload
      | none => (handler parsed.payload).task)

/-- One timeout is around the chain and the handler. -/
def invoke (observation : Option Bool) (handler : Bytes → HandlerRun Bytes)
    (parsed : ParsedRequest) : Task TaskState Answer := do
  let now ← Task.clock
  let result ← awaitUntil (parsed.deadline.map (now + ·)) .invocation
    (invocation router handler parsed)
  return respond limits frame observation result

/-- `dispatch_observed`. The observation, if there is one, may want the details. -/
def dispatchObserved (observation : Option Bool) : Task TaskState Answer :=
  match parse router limits frame with
  | .error (code, message) => pure ⟨.completed, errorFrame frame code message, .absent⟩
  | .ok parsed =>
    match router.handlers frame.methodId with
    | none => pure ⟨.completed, errorFrame frame .unknownMethod "method is not registered",
        finishObservation observation (.error .unknownMethod)⟩
    | some handler => invoke router limits frame observation handler parsed

/-- The deadline has passed. -/
def expire : Task TaskState Ending := do
  send (errorFrame frame .deadlineExceeded "request deadline exceeded")
  return .deadlineExceeded

/-- The stream ends with an ERROR. -/
def fail (error : HandlerError) : Task TaskState Ending := do
  send (errorFrame frame error.code error.message)
  return .completed

/-- The end of a stream, with its error if it failed. -/
def StreamTail.task : StreamTail → Task TaskState (Option HandlerError)
  | .finishes after => do
    Task.wait (some after)
    return none
  | .fails after error => do
    Task.wait (some after)
    return some error
  | .panicsAfter elapsed => do
    Task.wait (some elapsed)
    Task.panics
  | .never => do
    Task.wait none
    Task.panics

/-- The loop over the items of a stream. -/
def deliverItems (expires : Option ℕ) (tail : StreamTail) : List ItemRun → Task TaskState Ending
  | [] => do
    match ← awaitUntil expires .item tail.task with
    | none => expire frame
    | some (some error) => fail frame error
    | some none =>
      send (Frame.new .streamEnd frame.methodId frame.requestId [])
      return .completed
  | item :: items => do
    match ← awaitUntil expires .item (Task.wait (some item.after)) with
    | none => expire frame
    | some () =>
      if item.body.length ≤ limits.maxResponseBodyLen.toNat then
        match ← awaitUntil expires .credit (Task.wait item.credit) with
        | none => expire frame
        | some () =>
          send (Frame.new .streamItem frame.methodId frame.requestId item.body)
          if item.isQueued then deliverItems expires tail items else return .completed
      else fail frame ⟨.resourceExhausted, "stream item exceeds negotiated body limit"⟩

/-- Open the stream, and deliver what it has. -/
def openStream (expires : Option ℕ) (handler : Bytes → HandlerRun StreamRun) (payload : Bytes) :
    Task TaskState Ending := do
  match ← awaitUntil expires .opening (handler payload).task with
  | none => expire frame
  | some (.error error) => fail frame error
  | some (.ok stream) => deliverItems limits frame expires stream.tail stream.items

/-- The block `delivery`. The deadline is counted from its start. -/
def deliver (deadline : Option ℕ) (handler : Bytes → HandlerRun StreamRun) (payload : Bytes) :
    Task TaskState Ending := do
  let now ← Task.clock
  openStream limits frame (deadline.map (now + ·)) handler payload

/-- The chain of a streaming request, with the identity behind it. No timeout is around it. -/
def passMiddleware (parsed : ParsedRequest) : Task TaskState Outcome :=
  match parsed.metadata with
  | some _ => do
    let result ← next (fun body => pure (.ok body)) router.middleware parsed.payload
    note .middleware
    return result
  | none => pure (.ok parsed.payload)

/-- `dispatch_stream` -/
def dispatchStream : Task TaskState Ending :=
  match parse router limits frame with
  | .error (code, message) => fail frame ⟨code, message⟩
  | .ok parsed =>
    match router.streamHandlers frame.methodId with
    | none => fail frame ⟨.unknownMethod, "method is not registered"⟩
    | some handler => do
      match ← passMiddleware router parsed with
      | .error error => fail frame error
      -- the guard is made here, and is complete once `delivery` has returned
      | .ok payload => Task.guarded cancel (deliver limits frame parsed.deadline handler payload)

/-- A unary request is answered with one frame, which is clamped first. -/
def unaryTask (observation : Option Bool) : Task TaskState Ending := do
  let answer ← dispatchObserved router limits frame observation
  send (fitOutboundFrame answer.frame limits.maxResponseBodyLen)
  return answer.ending

/-- The task that is spawned for a request. -/
def requestTask (observation : Option Bool) : Task TaskState Ending :=
  if (router.streamHandlers frame.methodId).isSome then dispatchStream router limits frame
  else unaryTask router limits frame observation

end Requests

/-! ### Layers that only forward -/

section Forward

variable {σ : Type}

theorem task_forward (next : Bytes → Task σ Outcome) (body : Bytes) :
    (Layer.forward body).task next false = next body := Task.bind_pure (next body)

/-- A panic of the handler is caught next to it, and is an error from there on. -/
theorem next_forward (handler : Bytes → Task σ Outcome) {layers : List Layer}
    (h : ∀ layer ∈ layers, layer = Layer.forward) (body : Bytes) :
    next handler layers body =
      Task.catchUnwind (.error (.internal "handler panicked")) (handler body) := by
  induction layers with
  | nil => rfl
  | cons layer layers ih =>
    obtain ⟨rfl, hrest⟩ := List.forall_mem_cons.mp h
    rw [next, task_forward, ih hrest]
    exact Task.catchUnwind_of_calm (Task.calm_catchUnwind _ _) _

theorem HandlerRun.calm_task {α : Type} {run : HandlerRun α} (h : ¬ run.Panics) :
    (run.task : Task σ (Except HandlerError α)).Calm := by
  cases run with
  | returns after result => exact Task.calm_bind (Task.calm_wait _) fun _ => Task.calm_pure _
  | panicsWhenCalled | panicsAfter => exact absurd trivial h
  | never =>
    intro limit now s n t hrun
    cases limit <;> cases hrun

end Forward

/-! ### What the application leaves alone -/

section Keeps

variable {σ : Type} {P : σ → Prop}

theorem HandlerRun.keeps_task {α : Type} (run : HandlerRun α) :
    Task.Keeps P (run.task : Task σ (Except HandlerError α)) := by
  cases run with
  | returns after result => exact Task.keeps_bind (Task.keeps_wait _) fun _ _ => Task.keeps_pure _
  | panicsWhenCalled => exact Task.keeps_panics
  | panicsAfter => exact Task.keeps_bind (Task.keeps_wait _) fun _ _ => Task.keeps_panics
  | never => exact Task.keeps_bind (Task.keeps_wait _) fun _ _ => Task.keeps_panics

theorem LayerRun.keeps_task {next : Bytes → Task σ Outcome}
    (hnext : ∀ body, Task.Keeps P (next body)) (run : LayerRun) (called : Bool) :
    Task.Keeps P (run.task next called) := by
  induction run generalizing called with
  | returned result => exact Task.keeps_pure _
  | panicked => exact Task.keeps_panics
  | never => exact Task.keeps_bind (Task.keeps_wait _) fun _ _ => Task.keeps_panics
  | waits duration rest ih => exact Task.keeps_bind (Task.keeps_wait _) fun _ _ => ih called
  | runsNext body rest ih =>
    cases called with
    | true => exact ih _ true
    | false => exact Task.keeps_bind (hnext body) fun result _ => ih result true

theorem keeps_next {handler : Bytes → Task σ Outcome}
    (hhandler : ∀ body, Task.Keeps P (handler body)) (layers : List Layer) (body : Bytes) :
    Task.Keeps P (next handler layers body) := by
  induction layers generalizing body with
  | nil => exact Task.keeps_catchUnwind _ (hhandler body)
  | cons layer layers ih => exact Task.keeps_catchUnwind _ ((layer body).keeps_task ih false)

theorem StreamTail.keeps_task {P : TaskState → Prop} (tail : StreamTail) :
    Task.Keeps P tail.task := by
  cases tail with
  | finishes after => exact Task.keeps_bind (Task.keeps_wait _) fun _ _ => Task.keeps_pure _
  | fails after error => exact Task.keeps_bind (Task.keeps_wait _) fun _ _ => Task.keeps_pure _
  | panicsAfter elapsed => exact Task.keeps_bind (Task.keeps_wait _) fun _ _ => Task.keeps_panics
  | never => exact Task.keeps_bind (Task.keeps_wait _) fun _ _ => Task.keeps_panics

end Keeps

/-! ### The loop over the items of a stream -/

/-- The error of the application that a stream can end with. -/
def StreamTail.errors : StreamTail → List HandlerError
  | .fails _ error => [error]
  | _ => []

/-- The errors of a stream, from its opening to its end. -/
def streamErrors : HandlerRun StreamRun → List HandlerError
  | .returns _ (.error error) => [error]
  | .returns _ (.ok stream) => stream.tail.errors
  | _ => []

theorem StreamTail.mem_errors_of_canReturn {tail : StreamTail} {error : HandlerError}
    (h : tail.task.CanReturn (some error)) : error ∈ tail.errors := by
  cases tail with
  | finishes after =>
    obtain ⟨_, -, hpure⟩ := h.bind
    cases hpure.pure
  | fails after error' =>
    obtain ⟨_, -, hpure⟩ := h.bind
    obtain rfl := Option.some.inj hpure.pure
    exact List.mem_singleton.mpr rfl
  | panicsAfter elapsed =>
    obtain ⟨_, -, hpanics⟩ := h.bind
    exact absurd hpanics Task.not_canReturn_panics
  | never =>
    obtain ⟨_, -, hpanics⟩ := h.bind
    exact absurd hpanics Task.not_canReturn_panics

theorem HandlerRun.eq_returns_of_canReturn {σ α : Type} {run : HandlerRun α}
    {result : Except HandlerError α}
    (h : (run.task : Task σ (Except HandlerError α)).CanReturn result) :
    ∃ after, run = .returns after result := by
  cases run with
  | returns after result' =>
    obtain ⟨_, -, hpure⟩ := h.bind
    exact ⟨after, by rw [hpure.pure]⟩
  | panicsWhenCalled => exact absurd h Task.not_canReturn_panics
  | panicsAfter elapsed =>
    obtain ⟨_, -, hpanics⟩ := h.bind
    exact absurd hpanics Task.not_canReturn_panics
  | never =>
    obtain ⟨_, -, hpanics⟩ := h.bind
    exact absurd hpanics Task.not_canReturn_panics

theorem canReturn_of_awaitUntil {α : Type} {expires : Option ℕ} {stage : Stage}
    {x : Task TaskState α} {value : α} (h : (awaitUntil expires stage x).CanReturn (some value)) :
    x.CanReturn value := by
  have hnoted : ∀ {inner : α}, (do
      let value ← x
      note stage
      return value : Task TaskState α).CanReturn inner → x.CanReturn inner := by
    intro inner hinner
    obtain ⟨inner', hx, hnote⟩ := hinner.bind
    obtain ⟨_, -, hpure⟩ := hnote.bind
    rwa [hpure.pure]
  cases expires with
  | some expires => exact hnoted h.timeoutAt
  | none =>
    obtain ⟨inner, hinner, hpure⟩ := h.bind
    obtain rfl := Option.some.inj hpure.pure
    exact hnoted hinner

/-- A property of computations that the delivery of a stream is made of. It may depend on the
frames that are sent. -/
structure DeliveryRule (limits : DispatchLimits) (frame : Frame) (expires : Option ℕ)
    (Allowed : Frame → Prop) (T : Task TaskState Ending → Prop) : Prop where
  completed : T (pure .completed)
  expire : T (expire frame)
  awaits : ∀ {α : Type} (stage : Stage) {x : Task TaskState α}
    {f : Option α → Task TaskState Ending}, (∀ P : TaskState → Prop, Task.Keeps P x) →
      (∀ value, (awaitUntil expires stage x).CanReturn value → T (f value)) →
      T (awaitUntil expires stage x >>= f)
  sends : ∀ {answer : Frame} {t : Task TaskState Ending}, Allowed answer → T t →
    T (send answer >>= fun _ => t)
  items : ∀ body, body.length ≤ limits.maxResponseBodyLen.toNat →
    Allowed (Frame.new .streamItem frame.methodId frame.requestId body)
  streamEnd : Allowed (Frame.new .streamEnd frame.methodId frame.requestId [])
  oversized : Allowed (errorFrame frame .resourceExhausted
    "stream item exceeds negotiated body limit")

section Delivery

variable {limits : DispatchLimits} {frame : Frame} {expires : Option ℕ} {Allowed : Frame → Prop}
  {T : Task TaskState Ending → Prop}

section

variable (h : DeliveryRule limits frame expires Allowed T)

include h

theorem DeliveryRule.fail (error : HandlerError)
    (herror : Allowed (errorFrame frame error.code error.message)) : T (fail frame error) :=
  h.sends herror h.completed

theorem DeliveryRule.deliverItems
    {tail : StreamTail}
    (htail : ∀ error ∈ tail.errors, Allowed (errorFrame frame error.code error.message))
    (items : List ItemRun) : T (deliverItems limits frame expires tail items) := by
  induction items with
  | nil =>
    refine h.awaits .item (fun _ => tail.keeps_task) fun result hresult => ?_
    cases result with
    | none => exact h.expire
    | some ending =>
      cases ending with
      | none => exact h.sends h.streamEnd h.completed
      | some error =>
        have hmem := StreamTail.mem_errors_of_canReturn (canReturn_of_awaitUntil hresult)
        exact h.fail error (htail error hmem)
  | cons item items ih =>
    refine h.awaits .item (fun _ => Task.keeps_wait _) fun result _ => ?_
    cases result with
    | none => exact h.expire
    | some value =>
      by_cases hfits : item.body.length ≤ limits.maxResponseBodyLen.toNat
      · simp only [if_pos hfits]
        refine h.awaits .credit (fun _ => Task.keeps_wait _) fun result _ => ?_
        cases result with
        | none => exact h.expire
        | some value =>
          refine h.sends (h.items item.body hfits) ?_
          split_ifs
          · exact ih
          · exact h.completed
      · simp only [if_neg hfits]
        exact h.fail _ h.oversized

/-- The rule for the whole delivery. -/
theorem DeliveryRule.openStream
    (handler : Bytes → HandlerRun StreamRun) (payload : Bytes)
    (herrors : ∀ error ∈ streamErrors (handler payload),
      Allowed (errorFrame frame error.code error.message)) :
    T (openStream limits frame expires handler payload) := by
  refine h.awaits .opening (fun _ => HandlerRun.keeps_task _) fun result hresult => ?_
  cases result with
  | none => exact h.expire
  | some opened =>
    obtain ⟨after, hrun⟩ := HandlerRun.eq_returns_of_canReturn (canReturn_of_awaitUntil hresult)
    rw [hrun] at herrors
    cases opened with
    | error error => exact h.fail error (herrors error (List.mem_singleton.mpr rfl))
    | ok stream => exact h.deliverItems herrors stream.items

end

end Delivery

/-! ### Assertions about what a task leaves behind -/

section Requests

variable {router : Router} {limits : DispatchLimits} {frame : Frame} {P : TaskState → Prop}

theorem keeps_note (hwaits : ∀ s waits, P s → P { s with waits }) (stage : Stage) :
    Task.Keeps P (note stage) := fun _ _ s hs => hwaits s _ hs

theorem keeps_awaitUntil {α : Type} (hwaits : ∀ s waits, P s → P { s with waits })
    (expires : Option ℕ) (stage : Stage) {x : Task TaskState α} (hx : Task.Keeps P x) :
    Task.Keeps P (awaitUntil expires stage x) := by
  have hnoted : Task.Keeps P (do
      let value ← x
      note stage
      return value) :=
    Task.keeps_bind hx fun _ _ => Task.keeps_bind (keeps_note hwaits stage) fun _ _ =>
      Task.keeps_pure _
  cases expires with
  | some expires => exact Task.keeps_timeoutAt expires hnoted
  | none => exact Task.keeps_bind hnoted fun _ _ => Task.keeps_pure _

theorem keeps_send {answer : Frame} (h : ∀ s, P s → P { s with sent := s.sent ++ [answer] }) :
    Task.Keeps P (send answer) := Task.keeps_modify h

/-- A delivery keeps what the frames it sends keep. -/
theorem deliveryRule_keeps {Allowed : Frame → Prop} (expires : Option ℕ)
    (hwaits : ∀ s waits, P s → P { s with waits })
    (hsend : ∀ answer, Allowed answer → ∀ s, P s → P { s with sent := s.sent ++ [answer] })
    (hexpired : Allowed (errorFrame frame .deadlineExceeded "request deadline exceeded"))
    (hitems : ∀ body, body.length ≤ limits.maxResponseBodyLen.toNat →
      Allowed (Frame.new .streamItem frame.methodId frame.requestId body))
    (hstreamEnd : Allowed (Frame.new .streamEnd frame.methodId frame.requestId []))
    (hoversized : Allowed (errorFrame frame .resourceExhausted
      "stream item exceeds negotiated body limit")) :
    DeliveryRule limits frame expires Allowed (Task.Keeps P) where
  completed := Task.keeps_pure _
  expire := Task.keeps_bind (keeps_send (hsend _ hexpired)) fun _ _ => Task.keeps_pure _
  awaits stage _ _ hx hf := Task.keeps_bind (keeps_awaitUntil hwaits expires stage (hx _)) hf
  sends hallowed ht := Task.keeps_bind (keeps_send (hsend _ hallowed)) fun _ _ => ht
  items := hitems
  streamEnd := hstreamEnd
  oversized := hoversized

/-- The chain of a unary request and its handler change nothing themselves. -/
theorem keeps_invoked (router : Router) (handler : Bytes → HandlerRun Bytes)
    (parsed : ParsedRequest) :
    Task.Keeps P
      (match parsed.metadata with
        | some _ => next (fun body => (handler body).task) router.middleware parsed.payload
        | none => (handler parsed.payload).task) := by
  cases parsed.metadata with
  | none => exact HandlerRun.keeps_task _
  | some metadata => exact keeps_next (fun body => HandlerRun.keeps_task _) _ _

theorem keeps_passMiddleware (hwaits : ∀ s waits, P s → P { s with waits })
    (parsed : ParsedRequest) : Task.Keeps P (passMiddleware router parsed) := by
  unfold passMiddleware
  cases parsed.metadata with
  | none => exact Task.keeps_pure _
  | some metadata =>
    refine Task.keeps_bind (keeps_next (fun body => Task.keeps_pure _) _ _) fun _ _ => ?_
    exact Task.keeps_bind (keeps_note hwaits .middleware) fun _ _ => Task.keeps_pure _

/-- A dispatch sends nothing itself. -/
theorem keeps_dispatchObserved (hwaits : ∀ s waits, P s → P { s with waits })
    (hcancel : ∀ s, P s → P (cancel s)) (observation : Option Bool) :
    Task.Keeps P (dispatchObserved router limits frame observation) := by
  unfold dispatchObserved
  split
  · exact Task.keeps_pure _
  · rename_i parsed _
    split
    · exact Task.keeps_pure _
    · rename_i handler _
      refine Task.keeps_bind Task.keeps_clock fun now _ => ?_
      have hinvocation : Task.Keeps P (invocation router handler parsed) :=
        Task.keeps_guarded hcancel (keeps_invoked router handler parsed)
      exact Task.keeps_bind (keeps_awaitUntil hwaits _ .invocation hinvocation) fun _ _ =>
        Task.keeps_pure _

end Requests

/-! ### Reading a request -/

/-- Copying what was validated does not fail. -/
theorem exists_intoMetadata {input payload : Bytes} {limits : MetadataLimits}
    {validated : ValidatedMetadata}
    (h : Metadata.validate input limits = .ok (validated, payload)) :
    ∃ metadata, validated.intoMetadata = .ok metadata := by
  obtain ⟨entries, hblock, hvalidated⟩ := validate_eq_ok_iff.mp h
  obtain ⟨metadata, hcopy, -⟩ := hblock.copyEntries_eq_ok
  rw [← hvalidated] at hcopy
  exact ⟨metadata, hcopy⟩

section Reading

variable (zstd : Zstd) (frame : Frame) (maxMetadataLen : UInt32)

theorem requestPrefix_forget :
    requestPrefix frame maxMetadataLen false =
        (requestPrefix frame maxMetadataLen true).map ({ · with metadata := none }) ∧
      ∀ parsed, requestPrefix frame maxMetadataLen true = .ok parsed →
        parsed.metadata.isSome := by
  unfold requestPrefix
  by_cases hflags : frame.flags &&& flagHasMetadata ≠ 0
  · rw [if_pos hflags, if_pos hflags]
    cases hvalidate : Metadata.validate frame.body
        { MetadataLimits.default with maxBytes := maxMetadataLen } with
    | error error => exact ⟨rfl, fun _ h => by cases h⟩
    | ok result =>
      obtain ⟨validated, payload⟩ := result
      obtain ⟨metadata, hmetadata⟩ := exists_intoMetadata hvalidate
      simp only [hmetadata, Bool.false_eq_true, if_false, if_true]
      -- the three values are read in the same way
      cases (RequestValues.ofEntries validated.reservedEntries).deadline with
      | error => exact ⟨rfl, fun _ h => by cases h⟩
      | ok deadline =>
        cases (RequestValues.ofEntries validated.reservedEntries).traceContext with
        | error => exact ⟨rfl, fun _ h => by cases h⟩
        | ok traceContext =>
          cases (RequestValues.ofEntries validated.reservedEntries).compression with
          | error => exact ⟨rfl, fun _ h => by cases h⟩
          | ok compression =>
            refine ⟨rfl, fun parsed h => ?_⟩
            cases h
            rfl
  · rw [if_neg hflags, if_neg hflags]
    refine ⟨rfl, fun parsed h => ?_⟩
    cases h
    rfl

/-- The metadata is kept or not, and nothing else depends on it. -/
theorem requestPayload_forget (compression : RequestCompression) :
    requestPayload zstd frame maxMetadataLen compression false =
        (requestPayload zstd frame maxMetadataLen compression true).map
          ({ · with metadata := none }) ∧
      ∀ parsed, requestPayload zstd frame maxMetadataLen compression true = .ok parsed →
        parsed.metadata.isSome := by
  obtain ⟨hforget, hsome⟩ := requestPrefix_forget frame maxMetadataLen
  unfold requestPayload
  rw [hforget]
  cases hprefix : requestPrefix frame maxMetadataLen true with
  | error => exact ⟨rfl, fun _ h => by cases h⟩
  | ok parsed =>
    have hkept := hsome parsed hprefix
    simp only [Except.map, bind, Except.bind]
    cases compression.decode zstd parsed.compression (frame.body.drop parsed.payloadOffset) with
    | error => exact ⟨rfl, fun _ h => by cases h⟩
    | ok decoded =>
      refine ⟨rfl, fun result h => ?_⟩
      cases h
      exact hkept

end Reading

end MoonLightBridge.Server.Dispatch
