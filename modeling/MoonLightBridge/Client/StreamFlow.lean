import MoonLightBridge.Client.StreamCallbacks

/-!
# Flow control of a stream

`MoonLightServerStream` keeps three counters: the demand of its subscriber, the credit that
the server has been granted and has not used, and the callbacks that are pending. Each
operation changes them while it holds the monitor `callbacks`, but the stream may be ended
between any two instructions, and the subscriber may call the stream from its callbacks.

The proof follows the callback of an accepted item: on its way into the queue, in the
queue, taken out of it, and running until its `finally`.
-/

namespace MoonLightBridge.Client.StreamCallbacks

open Transition Threads

/-- `exec`, or the same with `Runnable::run` as the executor of the stream. -/
def flowExec (direct : Bool) (self : ℕ) (choice : Choice) (s : Shared) :
    Instruction → Option (Effect Shared Instruction)
  | .execute .drainCallbacks =>
    if direct then some { shared := s, next := CallbackTask.drainCallbacks.program }
    else some (s.execute .drainCallbacks)
  | instruction => exec self choice s instruction

def flowStep (direct : Bool) : Callbacks → Label Call Choice → Option Callbacks :=
  Threads.step Call.program (flowExec direct)

/-- The instruction is part of what becomes of an accepted item. -/
def Instruction.holdsItem : Instruction → Bool
  | .dispatchCallback .item | .run .item | .callbackDone => true
  | _ => false

/-- The accepted items whose callback has not finished. -/
def unfinished (s : Callbacks) : ℕ :=
  s.shared.callbackQueue.count .item + s.pending Instruction.holdsItem

structure FlowControlled (s : Callbacks) : Prop where
  outstanding_le : s.shared.outstandingWireCredit ≤ s.shared.demand
  demand_le : s.shared.demand ≤ longMax
  pending_eq : s.shared.pendingCallbacks = s.shared.outstandingWireCredit + unfinished s
  pending_le : s.shared.pendingCallbacks ≤ maxPendingCallbacks

/-- The credit that an instruction hands to `grantCredit`. -/
def Shared.grants (s : Shared) : Instruction → ℕ
  | .grantAvailableCredit =>
    if s.terminated then 0
    else min (s.demand - s.outstandingWireCredit) (maxPendingCallbacks - s.pendingCallbacks)
  | _ => 0

/-- The items that an instruction accepts. -/
def Shared.accepts (s : Shared) : Instruction → ℕ
  | .emit =>
    if s.terminated ∨ s.isSubscribed = false ∨ s.demand = 0 ∨ s.outstandingWireCredit = 0 then 0
    else 1
  | _ => 0

/-- What the step of a thread amounts to, by its instruction. -/
def amount (weight : Shared → Instruction → ℕ) (s : Callbacks) : Label Call Choice → ℕ
  | .start _ => 0
  | .step thread _ => (s.threads[thread]?.bind List.head?).elim 0 (weight s.shared)

/-! ### What an instruction does to the counters -/

/-- The counters before an instruction of which they allow the execution. -/
structure Allows (s : Shared) (instruction : Instruction) : Prop where
  outstanding_le : s.outstandingWireCredit ≤ s.demand
  demand_le : s.demand ≤ longMax
  pending_le : s.pendingCallbacks ≤ maxPendingCallbacks
  held : instruction.holdsItem = true → 1 ≤ s.pendingCallbacks

/-- The counters after it. A pending callback belongs to outstanding credit or to an item. -/
structure Flows (s : Shared) (instruction : Instruction) (effect : Effect Shared Instruction) :
    Prop where
  outstanding_le : effect.shared.outstandingWireCredit ≤ effect.shared.demand
  demand_le : effect.shared.demand ≤ longMax
  pending_le : effect.shared.pendingCallbacks ≤ maxPendingCallbacks
  items : effect.shared.pendingCallbacks + s.outstandingWireCredit +
      (s.callbackQueue.count .item + (if instruction.holdsItem then 1 else 0)) =
    s.pendingCallbacks + effect.shared.outstandingWireCredit +
      (effect.shared.callbackQueue.count .item + effect.next.countP Instruction.holdsItem +
        effect.started.flatten.countP Instruction.holdsItem)
  credit : effect.shared.outstandingWireCredit + s.accepts instruction =
    s.outstandingWireCredit + s.grants instruction

section Flows

variable {s : Shared} {self : ℕ} {choice : Choice} {instruction : Instruction}
  {effect : Effect Shared Instruction} {direct : Bool}

/-- The counters and the queue. -/
def Shared.counters (s : Shared) : ℕ × ℕ × ℕ × List Callback :=
  (s.demand, s.outstandingWireCredit, s.pendingCallbacks, s.callbackQueue)

/-- None of them changes. -/
theorem Allows.unchanged (h : Allows s instruction) (hsame : effect.shared.counters = s.counters)
    (hnext : effect.next.countP Instruction.holdsItem +
      effect.started.flatten.countP Instruction.holdsItem =
        if instruction.holdsItem then 1 else 0)
    (hcredit : s.accepts instruction = s.grants instruction) : Flows s instruction effect := by
  simp only [Shared.counters, Prod.mk.injEq] at hsame
  obtain ⟨hdemand, houtstanding, hpending, hqueue⟩ := hsame
  refine ⟨?_, ?_, ?_, ?_, ?_⟩
  · rw [houtstanding, hdemand]
    exact h.outstanding_le
  · rw [hdemand]
    exact h.demand_le
  · rw [hpending]
    exact h.pending_le
  · rw [hpending, houtstanding, hqueue]
    omega
  · rw [houtstanding, hcredit]

theorem countP_holdsItem_calls (call : Call) (instruction : Instruction) :
    (call.program ++ [instruction]).countP Instruction.holdsItem =
      if instruction.holdsItem then 1 else 0 := by
  have hcall : call.program.countP Instruction.holdsItem = 0 := by cases call <;> rfl
  rw [List.countP_append, hcall, Nat.zero_add, List.countP_singleton]

theorem Allows.request {count : ℤ} (h : Allows s (.request count)) :
    Flows s (.request count) (s.request count) := by
  unfold Shared.request
  split_ifs
  · exact h.unchanged rfl rfl rfl
  · exact h.unchanged rfl rfl rfl
  · obtain ⟨hle, hmax⟩ := ServerStream.le_addDemand h.demand_le count.toNat
    exact ⟨h.outstanding_le.trans hle, hmax, h.pending_le, rfl, rfl⟩

theorem Allows.emit (h : Allows s .emit) : Flows s .emit s.emit := by
  unfold Shared.emit
  split_ifs with hterminated hcredit hmax
  · exact h.unchanged rfl rfl (by simp [Shared.accepts, Shared.grants, hterminated])
  · exact h.unchanged rfl rfl (by simp [Shared.accepts, Shared.grants, hcredit])
  -- the credit of the item becomes its callback
  all_goals
    obtain ⟨houtstanding, hdemand, hpending, -⟩ := h
    have hone : s.accepts .emit = 1 := if_neg (not_or.mpr ⟨hterminated, hcredit⟩)
    rw [not_or, not_or] at hcredit
    refine ⟨?_, ?_, hpending, ?_, ?_⟩
    · dsimp only
      omega
    · dsimp only
      omega
    · change s.pendingCallbacks + s.outstandingWireCredit + (s.callbackQueue.count .item + 0) =
        s.pendingCallbacks + (s.outstandingWireCredit - 1) + (s.callbackQueue.count .item + 1)
      omega
    · change s.outstandingWireCredit - 1 + s.accepts .emit = s.outstandingWireCredit
      omega

theorem Allows.grantAvailableCredit (h : Allows s .grantAvailableCredit) :
    Flows s .grantAvailableCredit s.grantAvailableCredit := by
  obtain ⟨houtstanding, hdemand, hpending, -⟩ := id h
  simp only [Shared.grantAvailableCredit]
  split_ifs with hnone
  · refine h.unchanged rfl rfl ?_
    rcases hnone with hterminated | hzero
    · simp [Shared.accepts, Shared.grants, hterminated]
    · simp [Shared.accepts, Shared.grants, hzero]
  · rw [not_or] at hnone
    have hgrants : s.grants .grantAvailableCredit = _ := if_neg hnone.1
    refine ⟨?_, hdemand, ?_, ?_, ?_⟩
    · dsimp only
      omega
    · dsimp only
      omega
    · change s.pendingCallbacks + _ + s.outstandingWireCredit + s.callbackQueue.count .item =
        s.pendingCallbacks + (s.outstandingWireCredit + _) + s.callbackQueue.count .item
      omega
    · rw [hgrants]
      rfl

/-- The callback of an item goes through the queue and is run. -/
theorem Allows.dispatchCallback {callback : Callback} (h : Allows s (.dispatchCallback callback)) :
    Flows s (.dispatchCallback callback)
      { shared := { s with callbackQueue := s.callbackQueue ++ [callback] }
        next := [.compareAndSet] } := by
  refine ⟨h.outstanding_le, h.demand_le, h.pending_le, ?_, rfl⟩
  simp only [List.count_append]
  cases callback <;> rfl

theorem Allows.poll {callback : Callback} {rest : List Callback} (h : Allows s .poll)
    (hqueue : s.callbackQueue = callback :: rest) :
    Flows s .poll { shared := { s with callbackQueue := rest }, next := [.run callback] } := by
  refine ⟨h.outstanding_le, h.demand_le, h.pending_le, ?_, rfl⟩
  rw [hqueue, List.count_cons]
  cases callback <;> rfl

theorem Allows.callbackDone (h : Allows s .callbackDone) :
    Flows s .callbackDone
      { shared := { s with pendingCallbacks := s.pendingCallbacks - 1 }
        next := [.grantAvailableCredit] } := by
  have hheld := h.held rfl
  refine ⟨h.outstanding_le, h.demand_le, (Nat.sub_le _ 1).trans h.pending_le, ?_, rfl⟩
  change s.pendingCallbacks - 1 + s.outstandingWireCredit + (s.callbackQueue.count .item + 1) =
    s.pendingCallbacks + s.outstandingWireCredit + s.callbackQueue.count .item
  omega

theorem Allows.execute {task : CallbackTask} (h : Allows s (.execute task)) :
    Flows s (.execute task) (s.execute task) := by
  unfold Shared.execute
  split_ifs <;> cases task <;> exact h.unchanged rfl rfl rfl

theorem Allows.takeTask (h : Allows s .takeTask)
    (hexec : exec self choice s .takeTask = some effect) : Flows s .takeTask effect := by
  simp only [exec] at hexec
  by_cases hshutdown : s.isShutdown = true
  · rw [if_pos hshutdown] at hexec
    obtain rfl := Option.some.inj hexec
    exact h.unchanged rfl rfl rfl
  rw [if_neg hshutdown] at hexec
  split at hexec
  · rename_i task rest hqueue
    obtain rfl := Option.some.inj hexec
    cases task <;> exact h.unchanged rfl rfl rfl
  · split_ifs at hexec
    obtain rfl := Option.some.inj hexec
    exact h.unchanged rfl rfl rfl

/-- What every instruction does to the counters. -/
theorem flow_of_exec (hexec : flowExec direct self choice s instruction = some effect)
    (h : Allows s instruction) : Flows s instruction effect := by
  cases instruction with
  | enter =>
    simp only [flowExec, exec] at hexec
    split at hexec
    · obtain rfl := Option.some.inj hexec
      exact h.unchanged rfl rfl rfl
    · split_ifs at hexec
      obtain rfl := Option.some.inj hexec
      exact h.unchanged rfl rfl rfl
  | exit | grantCredit =>
    simp only [flowExec, exec] at hexec
    split at hexec <;> obtain rfl := Option.some.inj hexec <;> exact h.unchanged rfl rfl rfl
  | cancelRemote =>
    simp only [flowExec, exec] at hexec
    split at hexec <;> obtain rfl := Option.some.inj hexec
    · by_cases hclosed : s.closed = true
      · rw [if_pos hclosed]
        exact h.unchanged rfl rfl rfl
      · rw [if_neg hclosed]
        exact h.unchanged rfl rfl rfl
    · exact h.unchanged rfl rfl rfl
  | subscribe | finish | signalTerminal | compareAndSet | terminate =>
    simp only [flowExec, exec] at hexec
    split_ifs at hexec <;> obtain rfl := Option.some.inj hexec <;> exact h.unchanged rfl rfl rfl
  | onSubscribe | onNext | userCode =>
    simp only [flowExec, exec] at hexec
    split at hexec <;> obtain rfl := Option.some.inj hexec <;> refine h.unchanged rfl ?_ rfl
    all_goals first
      | rfl
      | rw [countP_holdsItem_calls]
        rfl
  | endSubscribe | startVirtual | reset | shutdownNow =>
    obtain rfl := Option.some.inj hexec
    exact h.unchanged rfl rfl rfl
  | cleanUp cancel =>
    obtain rfl := Option.some.inj hexec
    cases cancel <;> exact h.unchanged rfl rfl rfl
  | recheck =>
    obtain rfl := Option.some.inj hexec
    by_cases hqueue : s.callbackQueue = []
    · rw [if_pos hqueue]
      exact h.unchanged rfl rfl rfl
    · rw [if_neg hqueue]
      exact h.unchanged rfl rfl rfl
  | request count =>
    obtain rfl := Option.some.inj hexec
    exact h.request
  | emit =>
    obtain rfl := Option.some.inj hexec
    exact h.emit
  | grantAvailableCredit =>
    obtain rfl := Option.some.inj hexec
    exact h.grantAvailableCredit
  | dispatchCallback callback =>
    obtain rfl := Option.some.inj hexec
    exact h.dispatchCallback
  | execute task =>
    cases task with
    | other =>
      obtain rfl := Option.some.inj hexec
      exact h.execute
    | drainCallbacks =>
      simp only [flowExec] at hexec
      split_ifs at hexec <;> obtain rfl := Option.some.inj hexec
      · exact h.unchanged rfl rfl rfl
      · exact h.execute
  | poll =>
    simp only [flowExec, exec] at hexec
    split at hexec
    · obtain rfl := Option.some.inj hexec
      exact h.unchanged rfl rfl rfl
    · rename_i callback rest hqueue
      obtain rfl := Option.some.inj hexec
      exact h.poll hqueue
  | run callback =>
    cases callback <;> obtain rfl := Option.some.inj hexec <;> exact h.unchanged rfl rfl rfl
  | callbackDone =>
    obtain rfl := Option.some.inj hexec
    exact h.callbackDone
  | takeTask => exact h.takeTask (show exec self choice s .takeTask = some effect from hexec)

end Flows

/-! ### Whole runs -/

section Runs

variable {direct : Bool} {s t : Callbacks} {w : List (Label Call Choice)}
  {label : Label Call Choice}

theorem flowControlled_init : FlowControlled init :=
  ⟨le_rfl, Nat.zero_le _, rfl, Nat.zero_le _⟩

theorem FlowControlled.step (h : FlowControlled s) (hstep : flowStep direct s label = some t) :
    FlowControlled t ∧ t.shared.outstandingWireCredit + amount Shared.accepts s label =
      s.shared.outstandingWireCredit + amount Shared.grants s label := by
  cases label with
  | start call =>
    obtain rfl := Option.some.inj hstep
    refine ⟨⟨h.outstanding_le, h.demand_le, ?_, h.pending_le⟩, rfl⟩
    have hcall : call.program.countP Instruction.holdsItem = 0 := by cases call <;> rfl
    have heq := h.pending_eq
    unfold unfinished at heq ⊢
    rw [pending_start s call, hcall]
    exact heq
  | step thread choice =>
    obtain ⟨instruction, rest, effect, hthread, hexec, rfl⟩ := step_eq_some hstep
    have heq := h.pending_eq
    have hallows : Allows s.shared instruction := by
      refine ⟨h.outstanding_le, h.demand_le, h.pending_le, fun hholds => ?_⟩
      have hpos := pending_pos hthread hholds
      unfold unfinished at heq
      omega
    have hflows := flow_of_exec hexec hallows
    have hpending := pending_advance hthread effect Instruction.holdsItem
    have hitems := hflows.items
    refine ⟨⟨hflows.outstanding_le, hflows.demand_le, ?_, hflows.pending_le⟩, ?_⟩
    · unfold unfinished at heq ⊢
      change effect.shared.pendingCallbacks = effect.shared.outstandingWireCredit +
        (effect.shared.callbackQueue.count .item + _)
      omega
    · simp only [amount, hthread, Option.bind_some, List.head?_cons, Option.elim_some]
      exact hflows.credit

end Runs

/-- In every reachable state of a stream, whatever its subscriber asks for and whoever runs its
callbacks, the outstanding credit is covered by the demand, at most 32 callbacks are pending,
one for each outstanding credit and each accepted item that is not finished, and the credit
granted is the items accepted and the credit outstanding. -/
theorem flow_controlled (direct : Bool) (w : List (Label Call Choice)) (s : Callbacks)
    (hrun : run (flowStep direct) init w = some s) :
    FlowControlled s ∧ unfinished s ≤ maxPendingCallbacks ∧
      total (flowStep direct) (amount Shared.grants) init w =
        total (flowStep direct) (amount Shared.accepts) init w +
          s.shared.outstandingWireCredit := by
  obtain ⟨h, htotal⟩ : FlowControlled s ∧ s.shared.outstandingWireCredit +
      total (flowStep direct) (amount Shared.accepts) init w =
        0 + total (flowStep direct) (amount Shared.grants) init w :=
    run_add_total (fun _ _ _ h hstep => h.step hstep) hrun flowControlled_init
  have heq := h.pending_eq
  have hle := h.pending_le
  exact ⟨h, by omega, by omega⟩

/-- The subscriber asks for all there is, an item arrives, and the thread that brought it runs
its callback. -/
def unboundedRun : List (Label Call Choice) :=
  [.start .subscribe, .step 0 .returns, .step 0 .returns, .step 0 (.calls (.request longMax))] ++
  List.replicate 9 (.step 0 .returns) ++ .start .emit :: List.replicate 7 (.step 1 .returns)

theorem flow_controlled_unbounded :
    ∃ s, run (flowStep true) init unboundedRun = some s ∧ FlowControlled s ∧
      (s.shared.outstandingWireCredit, s.shared.pendingCallbacks, unfinished s) = (31, 32, 1) := by
  have hrun : (run (flowStep true) init unboundedRun).map (fun s =>
      (s.shared.outstandingWireCredit, s.shared.pendingCallbacks, unfinished s)) =
        some (31, 32, 1) := by
    decide +kernel
  obtain ⟨s, hrun, hs⟩ := Option.map_eq_some_iff.mp hrun
  exact ⟨s, hrun, (flow_controlled true _ s hrun).1, hs⟩

end MoonLightBridge.Client.StreamCallbacks
