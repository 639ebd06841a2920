import MoonLightBridge.Protocol.Frame

/-!
# The client's end of a stream

`MoonLightServerStream` turns the demand of its subscriber into STREAM_CREDIT frames. It
never grants more credit than there is demand for, nor more than it has room to queue
callbacks for, and it refuses an item it has not granted credit for.

Calls that hold the lock `callbacks` are single steps. The stream may be ended at any
time, and an ended stream only runs the callbacks it has queued.
-/

namespace MoonLightBridge.Client

open Protocol

/-- `MAX_PENDING_CALLBACKS`. -/
def maxPendingCallbacks : ℕ := 32

/-- `Long.MAX_VALUE`. -/
def longMax : ℕ := 2 ^ 63 - 1

/-- Why a stream ended. -/
inductive StreamEnd where
  /-- STREAM_END -/
  | completed
  /-- ERROR -/
  | remoteError
  /-- by the subscriber, or `close` -/
  | cancelled
  /-- the deadline passed, or the connection failed -/
  | failed
  /-- "Flow demand must be positive" -/
  | invalidDemand
  /-- `onNext` threw -/
  | subscriberFailed
  /-- "server sent a stream item without delivery credit" -/
  | withoutCredit
  deriving DecidableEq, Repr

structure ServerStream where
  isSubscribed : Bool
  demand : ℕ
  outstandingWireCredit : ℕ
  pendingCallbacks : ℕ
  /-- accepted items whose `onNext` has not returned -/
  callbacks : ℕ
  /-- `terminated`, with the reason -/
  ended : Option StreamEnd
  /-- all the credit granted so far -/
  granted : ℕ
  deriving DecidableEq, Repr

inductive ServerStreamLabel where
  | subscribe
  /-- `Subscription.request` -/
  | request (count : ℤ)
  /-- the reader takes up a frame of the stream -/
  | receive (frame : Frame)
  /-- a queued `onNext` returns, or throws -/
  | callback (throws : Bool)
  /-- the stream is ended by its user, its deadline or the connection -/
  | finish (isCancelled : Bool)
  deriving DecidableEq, Repr

namespace ServerStream

def init : ServerStream where
  isSubscribed := false
  demand := 0
  outstandingWireCredit := 0
  pendingCallbacks := 0
  callbacks := 0
  ended := none
  granted := 0

/-- `finish`: the first reason counts. -/
def finish (s : ServerStream) (reason : StreamEnd) : ServerStream :=
  { s with ended := some (s.ended.getD reason) }

/-- `grantAvailableCredit`, and the credit to be sent. -/
def grantAvailableCredit (s : ServerStream) : ServerStream × ℕ :=
  if s.ended.isSome then (s, 0)
  else
    -- demand not yet turned into credit, as far as there is room for callbacks
    let credit := min (s.demand - s.outstandingWireCredit)
      (maxPendingCallbacks - s.pendingCallbacks)
    ({ s with
      outstandingWireCredit := s.outstandingWireCredit + credit
      pendingCallbacks := s.pendingCallbacks + credit
      granted := s.granted + credit }, credit)

/-- The sum of two longs, saturating where it would become negative. -/
def addDemand (current count : ℕ) : ℕ :=
  if longMax < current + count then longMax else current + count

/-- The STREAM_CREDIT frame for a credit, if there is any to grant. -/
def creditFrames (requestId : UInt64) (credit : ℕ) : List Frame :=
  if credit = 0 then []
  else [Frame.new .streamCredit 0 requestId (UInt64.ofNat credit).toBeBytes]

def cancelFrames (requestId : UInt64) : List Frame := [Frame.new .cancel 0 requestId []]

/-- `emit`, and the frames it sends. -/
def emit (s : ServerStream) (requestId : UInt64) : ServerStream × List Frame :=
  if s.ended.isSome then (s, [])
  else if s.isSubscribed = false ∨ s.demand = 0 ∨ s.outstandingWireCredit = 0 then
    (s.finish .withoutCredit, cancelFrames requestId)
  else
    ({ s with
      outstandingWireCredit := s.outstandingWireCredit - 1
      -- unbounded demand is not used up
      demand := if s.demand = longMax then s.demand else s.demand - 1
      callbacks := s.callbacks + 1 }, [])

/-- `readResponses`, for a frame of the stream. -/
def receive (s : ServerStream) (requestId : UInt64) (frame : Frame) : ServerStream × List Frame :=
  match frame.kind with
  | .streamItem => s.emit requestId
  | .streamEnd =>
    -- a body is a protocol error, which ends the connection
    if frame.body = [] then (s.finish .completed, []) else (s.finish .failed, [])
  | .error => (s.finish .remoteError, [])
  | _ => (s.finish .failed, [])

/-- A step of the stream with the given id, and the frames it sends. -/
def step (requestId : UInt64) (s : ServerStream) :
    ServerStreamLabel → Option (ServerStream × List Frame)
  | .subscribe => if s.isSubscribed then none else some ({ s with isSubscribed := true }, [])
  | .request count =>
    if s.isSubscribed = false then none
    else if s.ended.isSome then some (s, [])
    else if count ≤ 0 then some (s.finish .invalidDemand, cancelFrames requestId)
    else
      let (t, credit) := { s with demand := addDemand s.demand count.toNat }.grantAvailableCredit
      some (t, creditFrames requestId credit)
  | .receive frame => some (s.receive requestId frame)
  | .callback throws =>
    if s.callbacks = 0 then none
    else
      let r := if throws then s.finish .subscriberFailed else s
      let (t, credit) := { r with
        callbacks := r.callbacks - 1
        pendingCallbacks := r.pendingCallbacks - 1 }.grantAvailableCredit
      some (t, (if throws then cancelFrames requestId else []) ++ creditFrames requestId credit)
  | .finish isCancelled =>
    if isCancelled then some (s.finish .cancelled, cancelFrames requestId)
    else some (s.finish .failed, [])

/-! ### The balance of a stream -/

/-- Credit is covered by demand, and every pending callback by credit or by an item. -/
structure Balanced (s : ServerStream) : Prop where
  outstanding_le : s.outstandingWireCredit ≤ s.demand
  pending : s.pendingCallbacks = s.outstandingWireCredit + s.callbacks
  pending_le : s.pendingCallbacks ≤ maxPendingCallbacks
  subscribed : s.isSubscribed = false → s.demand = 0
  demand_le : s.demand ≤ longMax

section Proofs

variable {s t : ServerStream} {frames : List Frame} {requestId : UInt64}

theorem balanced_init : Balanced init := ⟨le_rfl, rfl, Nat.zero_le _, fun _ => rfl, Nat.zero_le _⟩

theorem Balanced.finish (h : Balanced s) (reason : StreamEnd) : Balanced (s.finish reason) :=
  ⟨h.outstanding_le, h.pending, h.pending_le, h.subscribed, h.demand_le⟩

theorem Balanced.grantAvailableCredit (h : Balanced s) : Balanced s.grantAvailableCredit.1 := by
  obtain ⟨houtstanding, hpending, hlimit, hsubscribed, hdemand⟩ := h
  unfold ServerStream.grantAvailableCredit
  split_ifs
  · exact ⟨houtstanding, hpending, hlimit, hsubscribed, hdemand⟩
  · refine ⟨?_, ?_, ?_, hsubscribed, hdemand⟩ <;> simp only <;> omega

theorem Balanced.emit (h : Balanced s) : Balanced (s.emit requestId).1 := by
  unfold ServerStream.emit
  split_ifs with hended hcredit hmax
  · exact h
  · exact h.finish _
  -- the credit of the item becomes its callback
  all_goals
    obtain ⟨houtstanding, hpending, hlimit, hsubscribed, hdemand⟩ := h
    rw [not_or, not_or] at hcredit
    refine ⟨?_, ?_, hlimit, fun hnot => absurd hnot hcredit.1, ?_⟩ <;> simp only <;> omega

theorem Balanced.receive (h : Balanced s) (frame : Frame) :
    Balanced (s.receive requestId frame).1 := by
  unfold ServerStream.receive
  split
  · exact h.emit
  · split_ifs <;> exact h.finish _
  · exact h.finish _
  · exact h.finish _

theorem le_addDemand {current : ℕ} (h : current ≤ longMax) (count : ℕ) :
    current ≤ addDemand current count ∧ addDemand current count ≤ longMax := by
  unfold addDemand
  split_ifs <;> omega

/-- Every step keeps the balance. -/
theorem balanced_step {label : ServerStreamLabel} (h : Balanced s)
    (hstep : step requestId s label = some (t, frames)) : Balanced t := by
  cases label with
  | subscribe =>
    simp only [step] at hstep
    split_ifs at hstep
    cases hstep
    exact ⟨h.outstanding_le, h.pending, h.pending_le, nofun, h.demand_le⟩
  | request count =>
    simp only [step] at hstep
    split_ifs at hstep with hsubscribed hended hcount
    · cases hstep
      exact h
    · cases hstep
      exact h.finish _
    · cases hstep
      -- more demand covers the same credit
      obtain ⟨hle, hmax⟩ := le_addDemand h.demand_le count.toNat
      apply Balanced.grantAvailableCredit
      exact ⟨h.outstanding_le.trans hle, h.pending, h.pending_le,
        fun hnot => absurd hnot hsubscribed, hmax⟩
  | receive frame =>
    have heq : s.receive requestId frame = (t, frames) := Option.some.inj hstep
    have hreceive : Balanced (s.receive requestId frame).1 := h.receive frame
    rw [heq] at hreceive
    exact hreceive
  | callback throws =>
    simp only [step] at hstep
    split_ifs at hstep with hnone hthrows
    all_goals
      cases hstep
      apply Balanced.grantAvailableCredit
      obtain ⟨houtstanding, hpending, hlimit, hsubscribed, hdemand⟩ := h
      refine ⟨houtstanding, ?_, ?_, hsubscribed, hdemand⟩ <;>
        simp only [ServerStream.finish] <;> omega
  | finish isCancelled =>
    simp only [step] at hstep
    split_ifs at hstep
    all_goals
      cases hstep
      exact h.finish _

/-! ### The credit a step grants -/

/-- The credit a frame carries. -/
def creditCount (frame : Frame) : ℕ :=
  if frame.kind = .streamCredit then (UInt64.fromBeBytes frame.body).toNat else 0

/-- The credit on the way. -/
def creditSum (frames : List Frame) : ℕ := (frames.map creditCount).sum

@[simp] theorem creditSum_append (xs ys : List Frame) :
    creditSum (xs ++ ys) = creditSum xs + creditSum ys := by
  simp [creditSum]

@[simp] theorem creditSum_cancelFrames (requestId : UInt64) :
    creditSum (cancelFrames requestId) = 0 := rfl

theorem creditSum_creditFrames {credit : ℕ} (h : credit ≤ maxPendingCallbacks)
    (requestId : UInt64) : creditSum (creditFrames requestId credit) = credit := by
  have hlt : credit < 2 ^ 64 := lt_of_le_of_lt h (by decide)
  unfold creditFrames
  split_ifs with hzero
  · exact hzero.symm
  · simpa [creditSum, creditCount, Frame.new, UInt64.fromBeBytes_toBeBytes] using hlt

theorem grantAvailableCredit_spec (s : ServerStream) :
    s.grantAvailableCredit.2 ≤ maxPendingCallbacks ∧
      s.grantAvailableCredit.1.outstandingWireCredit =
        s.outstandingWireCredit + s.grantAvailableCredit.2 ∧
      s.grantAvailableCredit.1.granted = s.granted + s.grantAvailableCredit.2 ∧
      s.grantAvailableCredit.1.ended = s.ended := by
  unfold grantAvailableCredit
  split_ifs
  · exact ⟨Nat.zero_le _, rfl, rfl, rfl⟩
  · refine ⟨?_, rfl, rfl, rfl⟩
    simp only
    omega

/-- What a step that reads no frame does to the credit. -/
structure Grants (s t : ServerStream) (credit : ℕ) : Prop where
  outstanding : t.outstandingWireCredit = s.outstandingWireCredit + credit
  granted : t.granted = s.granted + credit
  ended : t.ended = none → s.ended = none
  lawful : t.ended = some .withoutCredit → s.ended = some .withoutCredit

theorem Grants.refl (s : ServerStream) : Grants s s 0 := ⟨rfl, rfl, id, id⟩

theorem grants_finish {reason : StreamEnd} (h : reason ≠ .withoutCredit) :
    Grants s (s.finish reason) 0 := by
  refine ⟨rfl, rfl, nofun, fun hended => ?_⟩
  cases hs : s.ended with
  | none => simp [finish, hs, h] at hended
  | some reason => simpa [finish, hs] using hended

/-- The credit a step grants is the credit it sends. -/
theorem grants_step {label : ServerStreamLabel} (hlabel : ∀ frame, label ≠ .receive frame)
    (hstep : step requestId s label = some (t, frames)) : Grants s t (creditSum frames) := by
  cases label with
  | subscribe =>
    simp only [step] at hstep
    split_ifs at hstep
    cases hstep
    exact ⟨rfl, rfl, id, id⟩
  | request count =>
    simp only [step] at hstep
    split_ifs at hstep
    · cases hstep
      exact .refl s
    · cases hstep
      exact grants_finish nofun
    · cases hstep
      obtain ⟨hle, houtstanding, hgranted, hended⟩ := grantAvailableCredit_spec
        { s with demand := addDemand s.demand count.toNat }
      rw [creditSum_creditFrames hle]
      exact ⟨houtstanding, hgranted, fun h => hended.symm.trans h, fun h => hended.symm.trans h⟩
  | receive frame => exact absurd rfl (hlabel frame)
  | callback throws =>
    simp only [step] at hstep
    split_ifs at hstep with hnone hthrows
    · cases hstep
      obtain ⟨hle, houtstanding, hgranted, hended⟩ := grantAvailableCredit_spec
        { s.finish .subscriberFailed with
          callbacks := (s.finish .subscriberFailed).callbacks - 1
          pendingCallbacks := (s.finish .subscriberFailed).pendingCallbacks - 1 }
      -- a throwing `onNext` has ended the stream, so no credit is granted after it
      have hfinish := @grants_finish s .subscriberFailed nofun
      rw [creditSum_append, creditSum_creditFrames hle, creditSum_cancelFrames, Nat.zero_add]
      exact ⟨houtstanding, hgranted, fun h => hfinish.ended (hended.symm.trans h),
        fun h => hfinish.lawful (hended.symm.trans h)⟩
    · cases hstep
      obtain ⟨hle, houtstanding, hgranted, hended⟩ := grantAvailableCredit_spec
        { s with callbacks := s.callbacks - 1, pendingCallbacks := s.pendingCallbacks - 1 }
      rw [creditSum_append, creditSum_creditFrames hle]
      simp only [creditSum, List.map_nil, List.sum_nil, Nat.zero_add]
      exact ⟨houtstanding, hgranted, fun h => hended.symm.trans h, fun h => hended.symm.trans h⟩
  | finish isCancelled =>
    simp only [step] at hstep
    split_ifs at hstep
    all_goals
      cases hstep
      exact grants_finish nofun

end Proofs

end ServerStream

end MoonLightBridge.Client
