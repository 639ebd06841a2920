import MoonLightBridge.Server.ByteBudgets
import MoonLightBridge.Server.DeadlineClock
import MoonLightBridge.Server.StreamTask

/-!
# Whether every answer can be admitted to the response queue

`ResponseQueue::reserve` waits until its budgets have the bytes of a frame. Budgets that
`with_limits` accepts hold one frame of the largest body the server has settings for. The
answer to a unary request is clamped to that size before it is queued, and so is an item of
a stream. The errors that end a stream are not: neither those of the application, whose
messages may have any length, nor the few fixed texts of the server, nor the text that takes
the place of a response which found the budgets exhausted.
-/

namespace MoonLightBridge.Server

open Protocol Transition

/-! ### The budgets -/

/-- What `Server::with_limits` asserts of the byte budgets. -/
structure ServerLimits.Accepted (limits : ServerLimits) (settings : PeerSettings) : Prop where
  requestHolds : settings.maxBodyLen.toNat ≤ limits.maxBufferedRequestBytes
  requestFits : limits.maxBufferedRequestBytes ≤ maxPermits
  responseHolds : settings.maxDecodedBodyLen.toNat + headerLen ≤ limits.maxBufferedResponseBytes
  responseFits : limits.maxBufferedResponseBytes ≤ maxPermits
  perConnectionHolds : settings.maxDecodedBodyLen.toNat + headerLen ≤
    limits.maxBufferedResponseBytesPerConnection
  perConnectionFits : limits.maxBufferedResponseBytesPerConnection ≤
    limits.maxBufferedResponseBytes

namespace Sending

/-- A step of a call of `send`, with the budgets as it finds them. -/
def next (send : Sending) (free : Budgets) : Option Sending :=
  match send.advance free with
  | some (_, .sending send) => some send
  | _ => none

/-- Each of the budgets can hold the frame that is being sent. -/
structure Admissible (limits : ServerLimits) (send : Sending) : Prop where
  perConnection : permitBytes send.frame ≤ limits.maxBufferedResponseBytesPerConnection
  global : permitBytes send.frame ≤ limits.maxBufferedResponseBytes

/-- The length of the text that replaces a response. -/
def substituteLen : ℕ := 32

/-- The frame that replaces a response or an item. -/
def substitute (frame : Frame) : Frame :=
  errorFrame frame .resourceExhausted "response byte budget exhausted"

theorem length_substitute (frame : Frame) : (substitute frame).body.length = substituteLen := by
  have hlength : (ErrorCode.resourceExhausted.encode "response byte budget exhausted").length =
      substituteLen := by decide
  exact hlength

variable {send : Sending}

/-- Only responses and items are replaced. -/
theorem rejected_cases {frame : Frame} (h : rejected frame = .sending send) :
    ((frame.kind = .response ∨ frame.kind = .streamItem) ∧
      send = .acquireConnection (substitute frame)) ∨
    ((frame.kind ≠ .response ∧ frame.kind ≠ .streamItem) ∧ send = .acquireConnection frame) := by
  unfold rejected at h
  split at h
  · cases h
  · rename_i hkind
    exact .inl ⟨.inl hkind, (SendProgress.sending.inj h).symm⟩
  · rename_i hkind
    exact .inl ⟨.inr hkind, (SendProgress.sending.inj h).symm⟩
  · rename_i hresponse hitem
    exact .inr ⟨⟨hresponse, hitem⟩, (SendProgress.sending.inj h).symm⟩

/-- A step that finds room goes on with the same frame, and one that finds none rejects it. -/
theorem next_cases {send' : Sending} {free : Budgets} (h : send.next free = some send') :
    (send.Admits free ∧ send'.frame = send.frame ∧ ∀ frame, send' ≠ .acquireConnection frame) ∨
      (¬ send.Admits free ∧ rejected send.frame = .sending send') := by
  unfold next at h
  split at h
  swap
  · cases h
  rename_i free' send'' hadvance
  cases h
  cases send with
  | tryConnection frame =>
    simp only [advance] at hadvance
    split_ifs at hadvance with hroom
    · obtain ⟨-, hsend⟩ := Prod.mk.inj (Option.some.inj hadvance)
      cases hsend
      exact .inl ⟨hroom, rfl, fun _ => Sending.noConfusion⟩
    · exact .inr ⟨hroom, (Prod.mk.inj (Option.some.inj hadvance)).2⟩
  | tryGlobal frame =>
    simp only [advance] at hadvance
    split_ifs at hadvance with hroom
    · obtain ⟨-, hsend⟩ := Prod.mk.inj (Option.some.inj hadvance)
      cases hsend
      exact .inl ⟨hroom, rfl, fun _ => Sending.noConfusion⟩
    · exact .inr ⟨hroom, (Prod.mk.inj (Option.some.inj hadvance)).2⟩
  | acquireConnection frame =>
    simp only [advance] at hadvance
    split_ifs at hadvance
    · obtain ⟨-, hsend⟩ := Prod.mk.inj (Option.some.inj hadvance)
      cases hsend
    · obtain ⟨-, hsend⟩ := Prod.mk.inj (Option.some.inj hadvance)
      cases hsend
      exact .inl ⟨trivial, rfl, fun _ => Sending.noConfusion⟩
  | acquireGlobal frame =>
    simp only [advance] at hadvance
    split_ifs at hadvance
    obtain ⟨-, hsend⟩ := Prod.mk.inj (Option.some.inj hadvance)
    cases hsend
    exact .inl ⟨trivial, rfl, fun _ => Sending.noConfusion⟩
  | enqueue response => cases hadvance

/-- A step goes on with the same frame, or with the text in its place. -/
theorem frame_of_next {send' : Sending} {free : Budgets} (h : send.next free = some send') :
    send'.frame = send.frame ∨ send'.frame.body.length = substituteLen := by
  rcases next_cases h with ⟨-, hsame, -⟩ | ⟨-, hrejected⟩
  · exact .inl hsame
  · rcases rejected_cases hrejected with ⟨-, rfl⟩ | ⟨-, rfl⟩
    · exact .inr (length_substitute send.frame)
    · exact .inl rfl

/-- A frame whose body is within the limit of the server is admissible at every step, if the
text that may replace it is. -/
theorem admissible_of_run {limits : ServerLimits} {settings : PeerSettings}
    (haccepted : limits.Accepted settings)
    (hsubstitute : substituteLen ≤ settings.maxDecodedBodyLen.toNat) {answer : Frame}
    (hanswer : answer.body.length ≤ settings.maxDecodedBodyLen.toNat) {budgets : List Budgets}
    (hrun : run next (.tryConnection answer) budgets = some send) : send.Admissible limits := by
  have hbody : send.frame.body.length ≤ settings.maxDecodedBodyLen.toNat := by
    refine run_invariant
      (I := fun send : Sending => send.frame.body.length ≤ settings.maxDecodedBodyLen.toNat)
      ?_ hrun hanswer
    intro send free send' hsend hnext
    rcases frame_of_next hnext with hsame | hlength
    · rw [hsame]
      exact hsend
    · rw [hlength]
      exact hsubstitute
  have hconnection := haccepted.perConnectionHolds
  have hglobal := haccepted.responseHolds
  constructor
  · unfold permitBytes
    omega
  · unfold permitBytes
    omega

end Sending

namespace Dispatch

open Async
open Middleware (HandlerError Outcome)

/-! ### The texts of the server -/

/-- The length of the longest error of the server itself, with its code. -/
def longestText : ℕ := 46

/-- The errors a computation rejects a request with are no longer than that. -/
def RejectsBriefly {α : Type} (x : Except Rejection α) : Prop :=
  ∀ rejection, x = .error rejection → (rejection.1.encode rejection.2).length ≤ longestText

section Texts

variable {α β : Type}

theorem rejectsBriefly_ok (value : α) : RejectsBriefly (.ok value) := by
  intro rejection h
  cases h

theorem rejectsBriefly_error {code : ErrorCode} {message : String}
    (h : (code.encode message).length ≤ longestText) :
    RejectsBriefly (.error (code, message) : Except Rejection α) := by
  intro rejection herror
  cases herror
  exact h

theorem rejectsBriefly_bind {x : Except Rejection α} {f : α → Except Rejection β}
    (hx : RejectsBriefly x) (hf : ∀ value, RejectsBriefly (f value)) :
    RejectsBriefly (x >>= f) := by
  cases x with
  | error rejection =>
    intro rejection' h
    cases h
    exact hx rejection rfl
  | ok value => exact hf value

theorem rejectsBriefly_deadline (values : RequestValues) : RejectsBriefly values.deadline := by
  unfold RequestValues.deadline
  split
  · exact rejectsBriefly_ok _
  · dsimp only
    split_ifs
    · exact rejectsBriefly_error (by decide)
    · exact rejectsBriefly_error (by decide)
    · exact rejectsBriefly_ok _

theorem rejectsBriefly_traceContext (values : RequestValues) :
    RejectsBriefly values.traceContext := by
  unfold RequestValues.traceContext
  split
  · exact rejectsBriefly_ok _
  · split_ifs
    · exact rejectsBriefly_error (by decide)
    · split
      · exact rejectsBriefly_error (by decide)
      · exact rejectsBriefly_ok _

theorem rejectsBriefly_compression (values : RequestValues) :
    RejectsBriefly values.compression := by
  unfold RequestValues.compression
  split
  · exact rejectsBriefly_ok _
  · split
    · exact rejectsBriefly_error (by decide)
    · split_ifs
      · exact rejectsBriefly_error (by decide)
      · exact rejectsBriefly_ok _
  · exact rejectsBriefly_error (by decide)

theorem rejectsBriefly_requestPrefix (frame : Frame) (maxMetadataLen : UInt32) (retain : Bool) :
    RejectsBriefly (requestPrefix frame maxMetadataLen retain) := by
  unfold requestPrefix
  by_cases hflags : frame.flags &&& flagHasMetadata ≠ 0
  · rw [if_pos hflags]
    split
    · exact rejectsBriefly_error (by decide)
    · apply rejectsBriefly_bind (rejectsBriefly_deadline _)
      intro deadline
      apply rejectsBriefly_bind (rejectsBriefly_traceContext _)
      intro traceContext
      apply rejectsBriefly_bind (rejectsBriefly_compression _)
      intro compression
      split_ifs
      · split
        · exact rejectsBriefly_bind (rejectsBriefly_error (by decide)) fun _ => rejectsBriefly_ok _
        · exact rejectsBriefly_ok _
      · exact rejectsBriefly_ok _
  · rw [if_neg hflags]
    exact rejectsBriefly_ok _

theorem rejectsBriefly_decode (zstd : Zstd) (compression : RequestCompression)
    (announced : Option (CompressionCodec × UInt32)) (payload : Bytes) :
    RejectsBriefly (compression.decode zstd announced payload) := by
  unfold RequestCompression.decode
  split
  · exact rejectsBriefly_ok _
  · split_ifs
    · exact rejectsBriefly_error (by decide)
    · split
      · exact rejectsBriefly_error (by decide)
      · exact rejectsBriefly_ok _

theorem rejectsBriefly_parse (router : Router) (limits : DispatchLimits) (frame : Frame) :
    RejectsBriefly (parse router limits frame) := by
  unfold parse requestPayload
  apply rejectsBriefly_bind (rejectsBriefly_requestPrefix _ _ _)
  intro parsed
  apply rejectsBriefly_bind (rejectsBriefly_decode _ _ _ _)
  intro decoded
  exact rejectsBriefly_ok _

end Texts

/-! ### The answers of a request -/

/-- An error of the application that ends a streaming request: of its chain, or of the
stream that it opens. -/
def StreamError (router : Router) (limits : DispatchLimits) (frame : Frame)
    (error : HandlerError) : Prop :=
  ∃ parsed handler, parse router limits frame = .ok parsed ∧
    router.streamHandlers frame.methodId = some handler ∧
      ((passMiddleware router parsed).CanReturn (.error error) ∨
        ∃ payload, (passMiddleware router parsed).CanReturn (.ok payload) ∧
          error ∈ streamErrors (handler payload))

/-- The bodies of all frames that were passed to the queue are within a bound. -/
def BodiesFit (bound : ℕ) (s : TaskState) : Prop :=
  ∀ answer ∈ s.sent, answer.body.length ≤ bound

section Answers

variable {router : Router} {limits : DispatchLimits} {frame : Frame} {bound : ℕ}

theorem bodiesFit_append {answer : Frame} (h : answer.body.length ≤ bound) (s : TaskState)
    (hs : BodiesFit bound s) : BodiesFit bound { s with sent := s.sent ++ [answer] } :=
  List.forall_mem_append.mpr ⟨hs, List.forall_mem_singleton.mpr h⟩

theorem keeps_bodiesFit_fail {error : HandlerError}
    (h : (errorFrame frame error.code error.message).body.length ≤ bound) :
    Task.Keeps (BodiesFit bound) (fail frame error) :=
  Task.keeps_bind (keeps_send (bodiesFit_append h)) fun _ _ => Task.keeps_pure _

/-- The items of a stream are measured before they are sent. -/
theorem deliveryRule_bodiesFit (htexts : longestText ≤ limits.maxResponseBodyLen.toNat)
    (expires : Option ℕ) :
    DeliveryRule limits frame expires
      (fun answer => answer.body.length ≤ limits.maxResponseBodyLen.toNat)
      (Task.Keeps (BodiesFit limits.maxResponseBodyLen.toNat)) := by
  have hexpired : (ErrorCode.deadlineExceeded.encode "request deadline exceeded").length ≤
      longestText := by decide
  have hoversized : (ErrorCode.resourceExhausted.encode
      "stream item exceeds negotiated body limit").length ≤ longestText := by decide
  exact deliveryRule_keeps expires (fun _ _ h => h) (fun _ h => bodiesFit_append h)
    (hexpired.trans htexts) (fun _ h => h) (Nat.zero_le _) (hoversized.trans htexts)

theorem keeps_bodiesFit_dispatchStream (htexts : longestText ≤ limits.maxResponseBodyLen.toNat)
    (herrors : ∀ error, StreamError router limits frame error →
      (errorFrame frame error.code error.message).body.length ≤
        limits.maxResponseBodyLen.toNat) :
    Task.Keeps (BodiesFit limits.maxResponseBodyLen.toNat)
      (dispatchStream router limits frame) := by
  unfold dispatchStream
  cases hparse : parse router limits frame with
  | error rejection =>
    have hbrief := rejectsBriefly_parse router limits frame rejection hparse
    exact keeps_bodiesFit_fail (hbrief.trans htexts)
  | ok parsed =>
    cases hhandler : router.streamHandlers frame.methodId with
    | none =>
      have hunknown : (ErrorCode.unknownMethod.encode "method is not registered").length ≤
          longestText := by decide
      exact keeps_bodiesFit_fail (hunknown.trans htexts)
    | some handler =>
      refine Task.keeps_bind (keeps_passMiddleware (fun _ _ h => h) parsed) fun result hresult => ?_
      cases result with
      | error error =>
        exact keeps_bodiesFit_fail (herrors error ⟨parsed, handler, hparse, hhandler, .inl hresult⟩)
      | ok payload =>
        refine Task.keeps_guarded (fun _ h => h) (Task.keeps_bind Task.keeps_clock fun _ _ => ?_)
        apply (deliveryRule_bodiesFit htexts _).openStream handler payload
        intro error herror
        exact herrors error ⟨parsed, handler, hparse, hhandler, .inr ⟨payload, hresult, herror⟩⟩

/-- A unary request is answered with a frame that was clamped. -/
theorem keeps_bodiesFit_unaryTask (observation : Option Bool) :
    Task.Keeps (BodiesFit limits.maxResponseBodyLen.toNat)
      (unaryTask router limits frame observation) := by
  refine Task.keeps_bind (keeps_dispatchObserved (fun _ _ h => h) (fun _ h => h) observation)
    fun answer _ => ?_
  have hfits := length_fitOutboundFrame_le answer.frame limits.maxResponseBodyLen
  exact Task.keeps_bind (keeps_send (bodiesFit_append hfits)) fun _ _ => Task.keeps_pure _

theorem keeps_bodiesFit_requestTask (observation : Option Bool)
    (htexts : longestText ≤ limits.maxResponseBodyLen.toNat)
    (herrors : ∀ error, StreamError router limits frame error →
      (errorFrame frame error.code error.message).body.length ≤
        limits.maxResponseBodyLen.toNat) :
    Task.Keeps (BodiesFit limits.maxResponseBodyLen.toNat)
      (requestTask router limits frame observation) := by
  unfold requestTask
  split_ifs
  · exact keeps_bodiesFit_dispatchStream htexts herrors
  · exact keeps_bodiesFit_unaryTask observation

end Answers

/-- Settings of a server for small messages. -/
def smallSettings : PeerSettings :=
  { PeerSettings.default with maxBodyLen := 64, maxDecodedBodyLen := 64 }

def smallNegotiated : Negotiated := ⟨smallSettings, by decide⟩

/-- Budgets that hold one frame of the largest body. -/
def smallBudgets : ServerLimits := ⟨64, 88, 88⟩

/-- An error whose message alone is longer than the limit. -/
def wordyError : HandlerError :=
  ⟨.unavailable, "the topic cannot be opened because its owner has been disconnected for too long"⟩

end Dispatch

end MoonLightBridge.Server
