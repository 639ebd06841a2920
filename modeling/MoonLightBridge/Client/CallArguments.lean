import MoonLightBridge.Client.Requests

/-!
# The arguments of a call

What `request`, `call` and `serverStream` check before they take a permit, the context that
interceptors pass on, and which of the exceptions met on the way a call catches.

`Duration.toMillis` throws for a duration that has too many milliseconds for a `long`, and
so does the constructor of a call context for a method id of zero.
-/

namespace MoonLightBridge.Client

open Protocol

/-- A `java.time.Duration`, in nanoseconds; its seconds are a `long`. -/
structure Duration where
  nanoseconds : ℤ
  bounded : -(2 ^ 63 * 10 ^ 9) ≤ nanoseconds ∧ nanoseconds < 2 ^ 63 * 10 ^ 9

namespace Duration

/-- `toMillis`, which throws if the result is no `long`. -/
def toMillis (duration : Duration) : Option ℤ :=
  let millis := duration.nanoseconds.tdiv (10 ^ 6)
  if -(2 ^ 63) ≤ millis ∧ millis < 2 ^ 63 then some millis else none

theorem pos_of_toMillis {duration : Duration} {millis : ℤ}
    (h : duration.toMillis = some millis) (hpos : 0 < millis) : 0 < duration.nanoseconds := by
  simp only [toMillis] at h
  split_ifs at h
  cases h
  by_contra hnot
  have hle := Int.tdiv_le_tdiv (show (0 : ℤ) < 10 ^ 6 by norm_num) (not_lt.mp hnot)
  rw [Int.zero_tdiv] at hle
  exact absurd hpos (not_lt.mpr hle)

/-- `validatePositiveBounded`: at most ten minutes -/
def IsPositiveBounded (duration : Duration) : Prop :=
  0 < duration.nanoseconds ∧ duration.nanoseconds ≤ 600 * 10 ^ 9

instance decidableIsPositiveBounded (duration : Duration) :
    Decidable duration.IsPositiveBounded :=
  inferInstanceAs (Decidable (_ ∧ _))

end Duration

/-- A deadline that was found to be a positive `int` of milliseconds. -/
structure Deadline where
  duration : Duration
  millis : Int32
  pos : 0 < duration.nanoseconds

/-- The check of a deadline, before and after the interceptors. -/
def Duration.deadline (duration : Duration) : Option Deadline :=
  match h : duration.toMillis with
  | none => none
  | some millis =>
    if hpos : 0 < millis ∧ millis < 2 ^ 31 then
      some ⟨duration, Int32.ofInt millis, pos_of_toMillis h hpos.1⟩
    else none

/-- `RpcPolicy`, as far as a call reads it. -/
structure RpcPolicy where
  timeout : Duration
  maxRequestBytes : ℕ
  compression : RpcCompression
  isPositiveBounded : timeout.IsPositiveBounded

/-- `effectiveDeadline`, which throws for a deadline out of bounds. -/
def RpcPolicy.effectiveDeadline (policy : RpcPolicy) (requested : Duration) : Option Duration :=
  if requested.IsPositiveBounded then
    some (if requested.nanoseconds < policy.timeout.nanoseconds then requested
      else policy.timeout)
  else none

/-- The arguments of `request`, `call` and `serverStream`. -/
structure CallArguments where
  methodId : Int32
  body : Bytes
  /-- `none` is `null` -/
  deadline : Option Duration
  policy : Option RpcPolicy := none

/-- What is checked before a permit is taken, and the deadline of the call. Where it fails
there is no permit to give back, whether the method throws or returns a failed future. -/
def CallArguments.admit (settings : Settings) (args : CallArguments) : Option Deadline := do
  let requested ← args.deadline
  let effective ← match args.policy with
    | none => some requested
    | some policy =>
      if policy.maxRequestBytes < args.body.length then none
      else policy.effectiveDeadline requested
  let deadline ← effective.deadline
  if settings.maxDecodedBodyLength < args.body.length then none else some deadline

def MoonLightMetadata.empty : MoonLightMetadata where
  entries := .empty
  validUserKeys _ h := absurd h List.not_mem_nil

/-- `MoonLightCallContext`. An interceptor can only get one from another by a change of its
deadline or of its metadata. -/
structure CallContext where
  methodId : Int32
  requestId : Int64
  deadline : Duration
  metadata : MoonLightMetadata
  methodId_ne : methodId ≠ 0
  requestId_ne : requestId ≠ 0
  deadline_pos : 0 < deadline.nanoseconds

/-- The constructor, which throws where a field is refused. -/
def CallContext.new (methodId : Int32) (requestId : Int64) (deadline : Duration)
    (metadata : MoonLightMetadata) : Option CallContext :=
  if h : methodId ≠ 0 ∧ requestId ≠ 0 ∧ 0 < deadline.nanoseconds then
    some ⟨methodId, requestId, deadline, metadata, h.1, h.2.1, h.2.2⟩
  else none

/-- The interceptors one after the other, given what `beforeCall` answers: `none` where it
throws or returns `null`. -/
def beforeCalls (methodId : Int32) (requestId : Int64) :
    CallContext → List (Option CallContext) → Option CallContext
  | context, [] => some context
  | _, none :: _ => none
  | _, some next :: answers =>
    if next.methodId ≠ methodId ∨ next.requestId ≠ requestId then none
    else beforeCalls methodId requestId next answers

/-- The two kinds of exceptions a call can meet: `enqueueRequestFrame` declares
`IOException`s, and its callers catch only those. -/
def EnqueueException.IsIOException : EnqueueException → Prop
  | .compressionRequired | .compression _ | .metadataLimit | .bodyLimit | .queueFull
  | .writeFailed => True
  | .metadata _ | .overflow | .negativePermits => False

instance decidableIsIOException : (error : EnqueueException) → Decidable error.IsIOException
  | .compressionRequired | .compression _ | .metadataLimit | .bodyLimit | .queueFull
  | .writeFailed => isTrue trivial
  | .metadata _ | .overflow | .negativePermits => isFalse id

end MoonLightBridge.Client
