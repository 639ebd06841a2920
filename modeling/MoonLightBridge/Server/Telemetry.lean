import MoonLightBridge.Server.Admission
import MoonLightBridge.Server.Delivery

/-!
# Whether telemetry agrees with the wire

The outcome of a unary request is fixed when its handler has returned. An ordinary
observation is finished there and then; a detailed one is kept open until its frame is
written, and is told if the queue replaces the frame. Between the two, a frame is clamped,
admitted to the queue, and clamped, compressed and clamped again by the writer, which may
turn a response into an ERROR, and an ERROR into one of another code. Apart from the one
replacement, no observation hears of it.
-/

namespace MoonLightBridge.Server.Dispatch

open Protocol Transition Async
open Middleware (HandlerError Outcome)

/-! ### What an observer is told -/

/-- The body of an ERROR starts with its code. -/
def Carries (frame : Frame) (code : ErrorCode) : Prop :=
  frame.body.take 2 = code.toU16.toBeBytes

/-- The outcome agrees with the frame that was written. -/
structure Matches (outcome : RequestOutcome) (wire : Frame) : Prop where
  success : (∃ responseBytes, outcome = .success responseBytes) ↔ wire.kind = .response
  error : ∀ code, outcome = .error code ↔ wire.kind = .error ∧ Carries wire code

/-- The outcome that `finish` was or is going to be called with. -/
def Observed.outcome : Observed → Option RequestOutcome
  | .absent => none
  | .finished outcome | .deferred outcome => some outcome

/-- An observation that is still open hears of a response that was rejected. -/
def Observed.reject (frame : Frame) : Observed → Observed
  | .deferred outcome =>
    match frame.kind with
    | .response | .streamItem => .deferred (.error .resourceExhausted)
    | _ => .deferred outcome
  | observed => observed

/-- A step of `send_observed`. Only a frame that was rejected is waited for. -/
def sendObserved (s : Sending × Observed) (free : Budgets) : Option (Sending × Observed) :=
  match s.1.next free with
  | none => none
  | some (.acquireConnection frame) => some (.acquireConnection frame, s.2.reject s.1.frame)
  | some send => some (send, s.2)

/-- What the writer makes of a frame. One that is kept for the next batch is transformed a
second time. -/
def written (zstd : Zstd) (negotiated : Negotiated) (kept : Bool) (frame : Frame) : Frame :=
  if kept then outbound zstd negotiated (outbound zstd negotiated frame)
  else outbound zstd negotiated frame

/-- What the writer needs to leave a response one: the library does not fail, there is room
for the block that announces compression, the result fits, and compressing it again would
not change it. -/
structure StaysResponse (zstd : Zstd) (negotiated : Negotiated) (kept : Bool) (frame : Frame) :
    Prop where
  compresses : zstd.compress (connectionCompressionPolicy negotiated).compressionLevel
    frame.body ≠ none
  announced : Compresses zstd negotiated frame → 19 ≤ negotiated.maxMetadataLen.toNat
  fits : (compressFor zstd negotiated frame).body.length ≤ negotiated.maxBodyLen.toNat
  again : kept = true → ¬ Recompressible zstd negotiated (outbound zstd negotiated frame)

section Codes

variable {frame : Frame} {code code' : ErrorCode}

theorem carries_encode {message : String} (h : frame.body = code.encode message) :
    Carries frame code := by
  rw [Carries, h, ErrorCode.encode]
  exact List.take_left' (UInt16.length_toBeBytes _)

theorem Carries.unique (h : Carries frame code) (h' : Carries frame code') : code = code' := by
  have hbytes : code.toU16.toBeBytes = code'.toU16.toBeBytes := h.symm.trans h'
  have hvalue : code.toU16 = code'.toU16 := by
    rw [← UInt16.fromBeBytes_toBeBytes code.toU16, hbytes, UInt16.fromBeBytes_toBeBytes]
  have hcode : (Except.ok code : Except ProtocolError ErrorCode) = .ok code' := by
    rw [← ErrorCode.tryFrom_toU16 code, hvalue, ErrorCode.tryFrom_toU16]
  exact Except.ok.inj hcode

theorem matches_of_response {wire : Frame} (h : wire.kind = .response) (responseBytes : ℕ) :
    Matches (.success responseBytes) wire where
  success := iff_of_true ⟨responseBytes, rfl⟩ h
  error code := by
    refine iff_of_false RequestOutcome.noConfusion fun herror => ?_
    rw [h] at herror
    cases herror.1

theorem matches_of_error {wire : Frame} (hkind : wire.kind = .error) (h : Carries wire code) :
    Matches (.error code) wire where
  success := by
    refine iff_of_false (fun hsuccess => ?_) fun hresponse => ?_
    · obtain ⟨responseBytes, hsuccess⟩ := hsuccess
      cases hsuccess
    · rw [hkind] at hresponse
      cases hresponse
  error code' := by
    constructor
    · intro hcode
      cases hcode
      exact ⟨hkind, h⟩
    · intro hwire
      rw [h.unique hwire.2]

end Codes

/-! ### The dispatch -/

section Answers

variable {router : Router} {limits : DispatchLimits} {frame : Frame} {detailed : Bool}

/-- A dispatch answers with a response that is small enough, or with an error; its
observation, if there is one, is told which. -/
theorem answer_cases {answer : Answer}
    (h : (dispatchObserved router limits frame (some detailed)).CanReturn answer) :
    (∃ body, answer.frame = Frame.new .response frame.methodId frame.requestId body ∧
      body.length ≤ limits.maxResponseBodyLen.toNat ∧
      answer.observed = deferOrFinish (some detailed) (.success body.length)) ∨
    ∃ code message, answer.frame = errorFrame frame code message ∧
      (answer.observed = .absent ∨ answer.observed.outcome = some (.error code)) := by
  unfold dispatchObserved at h
  split at h
  · rename_i code message _
    rw [h.pure]
    exact .inr ⟨code, message, rfl, .inl rfl⟩
  split at h
  · rw [h.pure]
    exact .inr ⟨_, _, rfl, .inr rfl⟩
  obtain ⟨now, -, hinvoke⟩ := h.bind
  obtain ⟨result, -, hpure⟩ := hinvoke.bind
  rw [hpure.pure]
  unfold respond
  split
  · exact .inr ⟨_, _, rfl, .inr rfl⟩
  · split_ifs with hlength
    · exact .inr ⟨_, _, rfl, .inr rfl⟩
    · exact .inl ⟨_, rfl, not_lt.mp hlength, rfl⟩
  · refine .inr ⟨_, _, rfl, .inr ?_⟩
    cases detailed <;> rfl

end Answers

/-! ### The queue -/

section Queue

variable {frame : Frame} {observed : Observed}

theorem reject_of_ne (hresponse : frame.kind ≠ .response) (hitem : frame.kind ≠ .streamItem) :
    observed.reject frame = observed := by
  cases observed with
  | absent => rfl
  | finished outcome => rfl
  | deferred outcome =>
    simp only [Observed.reject]

/-- A frame on its way into the queue: it is the one that was sent, and its observation as
it was, or it has been replaced. -/
def OnItsWay (frame : Frame) (observed : Observed) (s : Sending × Observed) : Prop :=
  (s.1.frame = frame ∧ s.2 = observed) ∨
    ((frame.kind = .response ∨ frame.kind = .streamItem) ∧
      s.1.frame = Sending.substitute frame ∧ s.2 = observed.reject frame)

variable {s : Sending × Observed}

/-- A step of sending is one of the queue; what is rejected is noted. -/
theorem sendObserved_cases {s' : Sending × Observed} {free : Budgets}
    (h : sendObserved s free = some s') :
    (s.1.Admits free ∧ s'.1.frame = s.1.frame ∧ s'.2 = s.2) ∨
      (¬ s.1.Admits free ∧ rejected s.1.frame = .sending s'.1 ∧ s'.2 = s.2.reject s.1.frame) := by
  unfold sendObserved at h
  split at h
  · cases h
  · rename_i frame hnext
    cases h
    rcases Sending.next_cases hnext with ⟨-, -, hne⟩ | ⟨hroom, hrejected⟩
    · exact absurd rfl (hne frame)
    · exact .inr ⟨hroom, hrejected, rfl⟩
  · rename_i send hacquire hnext
    cases h
    rcases Sending.next_cases hnext with ⟨hroom, hframe, -⟩ | ⟨-, hrejected⟩
    · exact .inl ⟨hroom, hframe, rfl⟩
    · -- whatever is rejected is waited for
      rcases Sending.rejected_cases hrejected with ⟨-, hsend⟩ | ⟨-, hsend⟩
      · exact absurd hsend (hacquire _)
      · exact absurd hsend (hacquire _)

theorem onItsWay_step {s' : Sending × Observed} {free : Budgets} (hs : OnItsWay frame observed s)
    (h : sendObserved s free = some s') : OnItsWay frame observed s' := by
  rcases sendObserved_cases h with ⟨-, hframe, hobserved⟩ | ⟨-, hrejected, hobserved⟩
  · -- nothing has changed
    rw [OnItsWay, hframe, hobserved]
    exact hs
  rcases Sending.rejected_cases hrejected with ⟨hkind, hsend⟩ | ⟨hkind, hsend⟩
  · -- a response is replaced; it cannot have been replaced before
    rcases hs with ⟨hframe, hobs⟩ | ⟨-, hframe, -⟩
    · refine .inr ⟨hframe ▸ hkind, ?_, ?_⟩
      · rw [hsend, hframe]
        rfl
      · rw [hobserved, hobs, hframe]
    · rw [hframe] at hkind
      rcases hkind with hkind | hkind <;> cases hkind
  · -- an error stays what it is, the one that replaced a response included
    have hsame : s'.1.frame = s.1.frame := by
      rw [hsend]
      rfl
    rw [OnItsWay, hsame, hobserved, reject_of_ne hkind.1 hkind.2]
    exact hs

variable {budgets : List Budgets}

/-- What is queued in the end. -/
theorem onItsWay_of_run
    (hrun : run sendObserved (.tryConnection frame, observed) budgets = some s) :
    OnItsWay frame observed s :=
  run_invariant (I := OnItsWay frame observed) onItsWay_step hrun (.inl ⟨rfl, rfl⟩)

/-- Budgets that always have room leave frame and observation alone. -/
theorem same_of_run (hroom : MeetsGuard sendObserved (fun s free => s.1.Admits free)
      (.tryConnection frame, observed) budgets)
    (hrun : run sendObserved (.tryConnection frame, observed) budgets = some s) :
    s.1.frame = frame ∧ s.2 = observed := by
  refine hroom.invariant (I := fun s => s.1.frame = frame ∧ s.2 = observed) ?_ hrun ⟨rfl, rfl⟩
  intro s free s' hadmits hs hstep
  rcases sendObserved_cases hstep with ⟨-, hframe, hobserved⟩ | ⟨hno, -, -⟩
  · rw [hframe, hobserved]
    exact hs
  · exact absurd hadmits hno

/-- An error is queued as it is. -/
theorem same_of_error (hkind : frame.kind = .error) {response : QueuedResponse}
    {observed' : Observed} (hrun : run sendObserved (.tryConnection frame, observed) budgets =
      some (.enqueue response, observed')) : response.frame = frame ∧ observed' = observed := by
  rcases onItsWay_of_run hrun with hsame | ⟨hreplaced, -, -⟩
  · exact hsame
  · rw [hkind] at hreplaced
    rcases hreplaced with hreplaced | hreplaced <;> cases hreplaced

/-- Where the budgets may be exhausted only for detailed observations, a frame is queued as
it is, or it is replaced and its observation a detailed one. -/
theorem queued_cases {detailed : Bool} {response : QueuedResponse} {observed' : Observed}
    (hroom : detailed = false → MeetsGuard sendObserved (fun s free => s.1.Admits free)
      (.tryConnection frame, observed) budgets)
    (hrun : run sendObserved (.tryConnection frame, observed) budgets =
      some (.enqueue response, observed')) :
    (response.frame = frame ∧ observed' = observed) ∨
      (detailed = true ∧ response.frame = Sending.substitute frame ∧
        observed' = observed.reject frame) := by
  cases detailed with
  | false => exact .inl (same_of_run (hroom rfl) hrun)
  | true =>
    rcases onItsWay_of_run hrun with hsame | ⟨-, hreplaced, hrejected⟩
    · exact .inl hsame
    · exact .inr ⟨rfl, hreplaced, hrejected⟩

end Queue

/-! ### The writer -/

section Writer

variable {zstd : Zstd} {negotiated : Negotiated} {kept : Bool} {frame : Frame} {code : ErrorCode}

/-- An ERROR whose code arrives: it fits, or it has the code that a clamp writes. -/
structure Survives (negotiated : Negotiated) (code : ErrorCode) (frame : Frame) : Prop where
  kind : frame.kind = .error
  carries : Carries frame code
  fits : (frame.body.length ≤ negotiated.maxDecodedBodyLen.toNat ∧
    frame.body.length ≤ negotiated.maxBodyLen.toNat) ∨ code = .resourceExhausted

theorem Survives.fitOutboundFrame (h : Survives negotiated code frame) {limit : UInt32}
    (hroom : 2 ≤ limit.toNat)
    (hlimit : limit = negotiated.maxDecodedBodyLen ∨ limit = negotiated.maxBodyLen) :
    Survives negotiated code (Server.fitOutboundFrame frame limit) := by
  by_cases hle : frame.body.length ≤ limit.toNat
  · rw [fitOutboundFrame_of_le hle]
    exact h
  · -- what does not fit has the code of its replacement
    have hcode : code = .resourceExhausted := by
      rcases h.fits with ⟨hdecoded, hbody⟩ | hcode
      · rcases hlimit with rfl | rfl
        · exact absurd hdecoded hle
        · exact absurd hbody hle
      · exact hcode
    have hbody : (Server.fitOutboundFrame frame limit).body =
        ErrorCode.resourceExhausted.encode "" := by
      rw [Server.fitOutboundFrame, if_neg hle]
      exact if_pos hroom
    refine ⟨kind_fitOutboundFrame_of_error h.kind, ?_, .inr hcode⟩
    rw [hcode]
    exact carries_encode hbody

section

variable (hdecoded : 2 ≤ negotiated.maxDecodedBodyLen.toNat)
  (hbody : 2 ≤ negotiated.maxBodyLen.toNat)

include hdecoded hbody

theorem Survives.outbound (h : Survives negotiated code frame) (zstd : Zstd) :
    Survives negotiated code (Server.outbound zstd negotiated frame) := by
  have hfirst := h.fitOutboundFrame hdecoded (.inl rfl)
  rw [Server.outbound, (compressFor_of_kind_error hfirst.kind).1]
  exact hfirst.fitOutboundFrame hbody (.inr rfl)

theorem Survives.written (h : Survives negotiated code frame) (zstd : Zstd) (kept : Bool) :
    Survives negotiated code (Dispatch.written zstd negotiated kept frame) := by
  have hfirst := h.outbound hdecoded hbody zstd
  cases kept with
  | false => exact hfirst
  | true => exact hfirst.outbound hdecoded hbody zstd

theorem Survives.matches_written (h : Survives negotiated code frame) (zstd : Zstd) (kept : Bool) :
    Matches (.error code) (Dispatch.written zstd negotiated kept frame) :=
  have hwritten := h.written hdecoded hbody zstd kept
  matches_of_error hwritten.kind hwritten.carries

end

theorem survives_substitute (frame : Frame) :
    Survives negotiated .resourceExhausted (Sending.substitute frame) :=
  ⟨rfl, carries_encode rfl, .inr rfl⟩

theorem survives_errorFrame {request : Frame} {message : String}
    (h : frame = errorFrame request code message)
    (htext : code ≠ .resourceExhausted → frame.body.length ≤ negotiated.maxDecodedBodyLen.toNat ∧
      frame.body.length ≤ negotiated.maxBodyLen.toNat) : Survives negotiated code frame := by
  have hkind : frame.kind = .error := by rw [h]; rfl
  have hbody : frame.body = code.encode message := by rw [h]; rfl
  by_cases hcode : code = .resourceExhausted
  · exact ⟨hkind, carries_encode hbody, .inr hcode⟩
  · exact ⟨hkind, carries_encode hbody, .inl (htext hcode)⟩

theorem StaysResponse.kind_written (h : StaysResponse zstd negotiated kept frame)
    (hkind : frame.kind = .response) (hplain : frame.flags &&& flagHasMetadata = 0)
    (hdecoded : frame.body.length ≤ negotiated.maxDecodedBodyLen.toNat) :
    (written zstd negotiated kept frame).kind = .response := by
  have hfirst : (outbound zstd negotiated frame).kind = .response := by
    rw [outbound_of_le hdecoded h.fits, ← hkind]
    by_cases hcompresses : Compresses zstd negotiated frame
    · exact (hcompresses.kind_eq_iff hplain hdecoded h.compresses).mpr (h.announced hcompresses)
    · rw [compressFor_of_not_compresses hplain hcompresses]
  cases kept with
  | false => exact hfirst
  | true =>
    have hagain := (outbound_outbound zstd negotiated frame).mpr (h.again rfl)
    exact (congrArg Frame.kind hagain).trans hfirst

end Writer

/-! ### From the dispatch to the socket -/

/-- A router of one method that returns what it is given. -/
def echoRouter : Router := oneMethod fun body => .returns 5 (.ok body)

/-- What the echo of a request is answered with. -/
def echoAnswer (detailed : Bool) : Answer :=
  ⟨.completed, Frame.new .response 7 1 [1, 2, 3], deferOrFinish (some detailed) (.success 3)⟩

theorem canReturn_echoAnswer (detailed : Bool) :
    (dispatchObserved echoRouter defaultLimits plainRequest (some detailed)).CanReturn
      (echoAnswer detailed) :=
  ⟨none, 0, .init, 5, ⟨false, [], [(.invocation, 5)]⟩, rfl⟩

/-- Other responses hold the budgets at first, and are written then. -/
def busyBudgets : List Budgets := [⟨0, 0⟩, ⟨100, 100⟩, ⟨100, 100⟩]

theorem run_busyBudgets (observed : Observed) :
    run sendObserved
        (.tryConnection (fitOutboundFrame (Frame.new .response 7 1 [1, 2, 3])
          Writer.defaultNegotiated.maxDecodedBodyLen), observed) busyBudgets =
      some (.enqueue ⟨Sending.substitute (Frame.new .response 7 1 [1, 2, 3]), 56⟩,
        observed.reject (Frame.new .response 7 1 [1, 2, 3])) := rfl

end MoonLightBridge.Server.Dispatch
