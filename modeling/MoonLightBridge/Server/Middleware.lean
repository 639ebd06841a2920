import MoonLightBridge.Data.Update
import MoonLightBridge.Protocol.Frame
import MoonLightBridge.Semantics.Transition

/-!
# The middleware chain

A router calls its layers one inside the other. Each layer is given a continuation,
`Next`, that stands for the rest of the chain: the layers behind it, and then a handler.
A continuation works once. Its clones share one flag, and whoever runs it a second time
gets an error.

A layer is code of the application, so it is only known by what it does: it may run its
continuation, or a clone of it, at any time and with any body, also from a task that
outlives the layer, and its future may return anything, panic, or never end.

A unary request puts its handler at the end of the chain. A streaming request puts the
identity there, and calls its handler with what the chain returns.
-/

namespace MoonLightBridge.Server.Middleware

open Protocol Transition

structure HandlerError where
  code : ErrorCode
  message : String
  deriving DecidableEq, Repr

def HandlerError.internal (message : String) : HandlerError := ⟨.internal, message⟩

abbrev Outcome := Except HandlerError Bytes

/-- How a call of a layer or a handler ends. -/
inductive Completion where
  | returned (result : Outcome)
  /-- when it was called, or when its future was polled -/
  | panicked

/-- `catch_unwind`, with the error that stands for a panic. -/
def Completion.caught (message : String) : Completion → Outcome
  | .returned result => result
  | .panicked => .error (.internal message)

/-- A call of a layer. -/
structure LayerCall where
  index : ℕ
  body : Bytes
  /-- the flag of the continuation the layer was given -/
  called : Bool
  /-- what the future of the call came to -/
  outcome : Option Outcome

/-- A call of the handler at the end of the chain. -/
structure HandlerCall where
  body : Bytes
  outcome : Option Outcome

structure Chain where
  calls : List LayerCall
  handlerCalls : List HandlerCall

namespace Chain

section Model

variable (layers : ℕ)

/-- `Next::run` once it has taken the flag. The layer at the index gets a continuation of
its own; behind the last layer there is the handler. -/
def enter (chain : Chain) (index : ℕ) (body : Bytes) : Chain :=
  if index < layers then { chain with calls := chain.calls ++ [⟨index, body, false, none⟩] }
  else { chain with handlerCalls := chain.handlerCalls ++ [⟨body, none⟩] }

/-- `Next::root` and its only run. -/
def root (body : Bytes) : Chain := enter layers ⟨[], []⟩ 0 body

/-- `Next::run` of the continuation that a call was given, and the error it returns at
once if the flag is taken. -/
def next (chain : Chain) (caller : ℕ) (body : Bytes) : Option (Chain × Option HandlerError) :=
  match chain.calls[caller]? with
  | none => none
  | some call =>
    if call.called then
      some (chain, some (.internal "middleware continuation was invoked more than once"))
    else
      let calls := chain.calls.set caller { call with called := true }
      some (enter layers { chain with calls } (call.index + 1) body, none)

/-- The future of a layer's call ends. -/
def layerEnds (chain : Chain) (caller : ℕ) (completion : Completion) : Option Chain :=
  match chain.calls[caller]? with
  | none => none
  | some call =>
    if call.outcome.isSome then none
    else
      let outcome := some (completion.caught "middleware panicked")
      some { chain with calls := chain.calls.set caller { call with outcome } }

/-- The future of a handler's call ends. -/
def handlerEnds (chain : Chain) (call : ℕ) (completion : Bytes → Completion) : Option Chain :=
  match chain.handlerCalls[call]? with
  | none => none
  | some handler =>
    if handler.outcome.isSome then none
    else
      let outcome := some ((completion handler.body).caught "handler panicked")
      some { chain with handlerCalls := chain.handlerCalls.set call { handler with outcome } }

/-- What the whole chain came to: its outermost layer has the last word. -/
def outcome (chain : Chain) : Option Outcome := chain.calls[0]?.bind LayerCall.outcome

/-- Every layer was called and has run its continuation. -/
def Complete (chain : Chain) : Prop :=
  chain.calls.length = layers ∧ ∀ call ∈ chain.calls, call.called

instance (chain : Chain) : Decidable (Complete layers chain) :=
  inferInstanceAs (Decidable (_ ∧ _))

end Model

end Chain

/-! ### A request and its chain -/

structure DispatchConfig where
  isStreaming : Bool
  /-- how many layers the router has -/
  layers : ℕ
  payload : Bytes

/-- How far the dispatch of a request has come. -/
inductive Progress where
  /-- it waits for the chain -/
  | awaiting
  /-- it has called the handler itself -/
  | invoked (body : Bytes)
  /-- it answers with what the chain came to -/
  | answered (result : Outcome)
  /-- the task was aborted, or its deadline has passed -/
  | abandoned
  deriving DecidableEq

structure DispatchState where
  chain : Chain
  progress : Progress

inductive DispatchLabel where
  /-- somebody runs the continuation that a call was given -/
  | next (caller : ℕ) (body : Bytes)
  | layerEnds (caller : ℕ) (completion : Completion)
  | handlerEnds (call : ℕ) (completion : Completion)
  /-- the dispatch takes up what the chain came to -/
  | proceed
  | abandon

section Dispatch

variable (cfg : DispatchConfig)

/-- Without middleware there is no context, and the handler is called at once. -/
def init : DispatchState :=
  if cfg.layers = 0 then ⟨⟨[], []⟩, .invoked cfg.payload⟩
  else ⟨Chain.root cfg.layers cfg.payload, .awaiting⟩

/-- How a call of the handler at the end of the chain ends: for a streaming request it
is the identity. -/
def handlerCompletion (completion : Completion) (body : Bytes) : Completion :=
  if cfg.isStreaming then .returned (.ok body) else completion

/-- What a dispatch does with what the chain came to. -/
def proceed : Outcome → Progress
  | .ok body => if cfg.isStreaming then .invoked body else .answered (.ok body)
  | .error error => .answered (.error error)

def step (s : DispatchState) : DispatchLabel → Option DispatchState
  | .next caller body =>
    (s.chain.next cfg.layers caller body).map fun entered => { s with chain := entered.1 }
  | .layerEnds caller completion =>
    (s.chain.layerEnds caller completion).map fun chain => { s with chain }
  | .handlerEnds call completion =>
    (s.chain.handlerEnds call (handlerCompletion cfg completion)).map fun chain => { s with chain }
  | .proceed =>
    match s.progress, s.chain.outcome with
    | .awaiting, some result => some { s with progress := proceed cfg result }
    | _, _ => none
  | .abandon => if s.progress = .awaiting then some { s with progress := .abandoned } else none

/-- The bodies with which the registered handler was called. -/
def invocations (s : DispatchState) : List Bytes :=
  (if cfg.isStreaming then [] else s.chain.handlerCalls.map HandlerCall.body) ++
    match s.progress with
    | .invoked body => [body]
    | _ => []

/-- The registered handler was called only if every layer has run its continuation. -/
def GateHolds (s : DispatchState) : Prop :=
  invocations cfg s ≠ [] →
    ∀ index < cfg.layers, ∃ call ∈ s.chain.calls, call.index = index ∧ call.called

instance (s : DispatchState) : Decidable (GateHolds cfg s) :=
  inferInstanceAs (Decidable (_ → _))

/-- The outermost layer of a streaming request that is still waited for returns `Ok` only
when every layer has run its continuation. -/
def Passing (s : DispatchState) : DispatchLabel → Prop
  | .layerEnds 0 (.returned (.ok _)) =>
    cfg.isStreaming → s.progress = .awaiting → s.chain.Complete cfg.layers
  | _ => True

instance (s : DispatchState) : (label : DispatchLabel) → Decidable (Passing cfg s label)
  | .layerEnds 0 (.returned (.ok _)) => inferInstanceAs (Decidable (_ → _ → _))
  | .layerEnds 0 (.returned (.error _)) | .layerEnds 0 .panicked | .layerEnds (_ + 1) _
  | .next _ _ | .handlerEnds _ _ | .proceed | .abandon => isTrue trivial

end Dispatch

/-! ### Layers are called in order -/

/-- The part of a call that the order of the chain depends on. -/
def LayerCall.flags (call : LayerCall) : ℕ × Bool := (call.index, call.called)

namespace Chain

/-- The calls stand in the order of the layers, each but the last has run its
continuation, and the handler comes behind them all. -/
structure Nested (layers : ℕ) (chain : Chain) : Prop where
  length_le : chain.calls.length ≤ layers
  index : ∀ (i : ℕ) (call : LayerCall), chain.calls[i]? = some call → call.index = i
  inner : ∀ (i : ℕ) (call : LayerCall), chain.calls[i]? = some call →
    i + 1 < chain.calls.length → call.called
  handler : chain.handlerCalls ≠ [] → chain.Complete layers

section Nested

variable {layers caller : ℕ} {chain chain' : Chain} {body : Bytes} {completion : Completion}

theorem nested_empty (layers : ℕ) : Nested layers ⟨[], []⟩ where
  length_le := Nat.zero_le _
  index := by simp
  inner := by simp
  handler := nofun

/-- When every call has run its continuation, the last of them makes the next call, and
behind the last layer it calls the handler. -/
theorem nested_enter (hle : chain.calls.length ≤ layers)
    (hindex : ∀ (i : ℕ) (call : LayerCall), chain.calls[i]? = some call → call.index = i)
    (hcalled : ∀ call ∈ chain.calls, call.called) (hhandler : chain.handlerCalls = [])
    (body : Bytes) : Nested layers (chain.enter layers chain.calls.length body) := by
  unfold enter
  split_ifs with hlt
  · refine ⟨?_, fun i call hi => ?_, fun i call hi hinner => ?_, fun hne => absurd hhandler hne⟩
    · rw [List.length_append]
      exact hlt
    · rcases List.getElem?_concat_eq_some.mp hi with hold | ⟨rfl, rfl⟩
      · exact hindex i call hold
      · rfl
    -- only the new call is not followed by another
    · rw [List.length_append, List.length_singleton] at hinner
      rw [List.getElem?_append_left (by omega)] at hi
      exact hcalled call (List.mem_of_getElem? hi)
  · have hcomplete : chain.Complete layers := ⟨by omega, hcalled⟩
    exact ⟨hle, hindex, fun i call hi _ => hcalled call (List.mem_of_getElem? hi),
      fun _ => hcomplete⟩

theorem nested_root (layers : ℕ) (body : Bytes) : Nested layers (root layers body) :=
  nested_enter (Nat.zero_le _) (by simp) (by simp) rfl body

theorem complete_congr (h : chain'.calls.map LayerCall.flags = chain.calls.map LayerCall.flags) :
    chain'.Complete layers ↔ chain.Complete layers := by
  have hview : ∀ c : Chain, c.Complete layers ↔
      (c.calls.map LayerCall.flags).length = layers ∧
        ∀ flags ∈ c.calls.map LayerCall.flags, flags.2 = true := by
    intro c
    rw [Complete, List.length_map, List.forall_mem_map]
    rfl
  rw [hview, hview, h]

/-- The order is a matter of the flags. -/
theorem Nested.of_flags (h : Nested layers chain)
    (hflags : chain'.calls.map LayerCall.flags = chain.calls.map LayerCall.flags)
    (hhandler : chain'.handlerCalls ≠ [] → chain.handlerCalls ≠ []) : Nested layers chain' := by
  have hlength : chain'.calls.length = chain.calls.length := by
    simpa using congrArg List.length hflags
  -- a call has one in its place with the same flags
  have hcall : ∀ (i : ℕ) (call' : LayerCall), chain'.calls[i]? = some call' →
      ∃ call, chain.calls[i]? = some call ∧ call.flags = call'.flags := by
    intro i call' hcall'
    have hget : (chain'.calls.map LayerCall.flags)[i]? = some call'.flags := by
      rw [List.getElem?_map, hcall']
      rfl
    rw [hflags, List.getElem?_map] at hget
    exact Option.map_eq_some_iff.mp hget
  refine ⟨hlength ▸ h.length_le, fun i call' hcall' => ?_, fun i call' hcall' hlt => ?_,
    fun hne => (complete_congr hflags).mpr (h.handler (hhandler hne))⟩
  · obtain ⟨call, hget, hsame⟩ := hcall i call' hcall'
    exact (congrArg Prod.fst hsame).symm.trans (h.index i call hget)
  · obtain ⟨call, hget, hsame⟩ := hcall i call' hcall'
    exact (congrArg Prod.snd hsame).symm.trans (h.inner i call hget (hlength ▸ hlt))

theorem flags_of_layerEnds (h : chain.layerEnds caller completion = some chain') :
    chain'.calls.map LayerCall.flags = chain.calls.map LayerCall.flags ∧
      chain'.handlerCalls = chain.handlerCalls := by
  unfold layerEnds at h
  split at h
  · cases h
  · rename_i call hcall
    split_ifs at h
    cases h
    refine ⟨?_, rfl⟩
    have hflags : (chain.calls.map LayerCall.flags)[caller]? = some call.flags := by
      rw [List.getElem?_map, hcall]
      rfl
    obtain ⟨hlt, hget⟩ := List.getElem?_eq_some_iff.mp hflags
    rw [List.map_set]
    change (chain.calls.map LayerCall.flags).set caller call.flags = _
    rw [← hget, List.set_getElem_self]

theorem calls_of_handlerEnds {call : ℕ} {completion : Bytes → Completion}
    (h : chain.handlerEnds call completion = some chain') :
    chain'.calls = chain.calls ∧ (chain'.handlerCalls ≠ [] → chain.handlerCalls ≠ []) := by
  unfold handlerEnds at h
  split at h
  · cases h
  · split_ifs at h
    cases h
    refine ⟨rfl, fun hne heq => hne ?_⟩
    simp only [heq, List.set_nil]

/-- A continuation that has not been run is that of the innermost call. -/
theorem Nested.caller_eq (h : Nested layers chain) {call : LayerCall}
    (hcall : chain.calls[caller]? = some call) (hnot : call.called = false) :
    chain.calls.length = caller + 1 := by
  obtain ⟨hlt, -⟩ := List.getElem?_eq_some_iff.mp hcall
  by_contra hne
  have hcalled := h.inner caller call hcall (by omega)
  exact nomatch hnot.symm.trans hcalled

variable {error : Option HandlerError}

theorem nested_next (h : Nested layers chain)
    (hnext : chain.next layers caller body = some (chain', error)) : Nested layers chain' := by
  unfold next at hnext
  split at hnext
  · cases hnext
  · rename_i call hcall
    split_ifs at hnext with hcalled
    · cases hnext
      exact h
    · have hlength := h.caller_eq hcall (by simpa using hcalled)
      have hindex := h.index caller call hcall
      have hle := h.length_le
      cases hnext
      -- the continuation was that of the innermost call, so now every call has run its own
      set taken := chain.calls.set caller { call with called := true } with htaken
      have htakenLength : taken.length = call.index + 1 := by
        rw [htaken, List.length_set, hlength, hindex]
      rw [← htakenLength]
      refine nested_enter ?_ (fun i c hi => ?_) (fun c hc => ?_) ?_ body
      · change taken.length ≤ layers
        omega
      · change taken[i]? = some c at hi
        rw [htaken, List.getElem?_set] at hi
        split_ifs at hi with heq hlt
        · cases hi
          exact hindex.trans heq
        · exact h.index i c hi
      · obtain ⟨i, hi⟩ := List.getElem?_of_mem hc
        change taken[i]? = some c at hi
        rw [htaken, List.getElem?_set] at hi
        split_ifs at hi with heq hlt
        · cases hi
          rfl
        · obtain ⟨hlt, -⟩ := List.getElem?_eq_some_iff.mp hi
          exact h.inner i c hi (by omega)
      · -- the handler would be behind a call that has run its continuation
        by_contra hne
        exact hcalled ((h.handler hne).2 call (List.mem_of_getElem? hcall))

/-- The chain is complete when each layer has run its continuation. -/
theorem Nested.complete_iff (h : Nested layers chain) :
    chain.Complete layers ↔
      ∀ index < layers, ∃ call ∈ chain.calls, call.index = index ∧ call.called := by
  constructor
  · rintro ⟨hlength, hcalled⟩ index hlt
    have hget : chain.calls[index]? = some chain.calls[index] := List.getElem?_eq_getElem _
    have hmem := List.mem_of_getElem? hget
    exact ⟨_, hmem, h.index index _ hget, hcalled _ hmem⟩
  · intro hall
    -- two calls of one layer are one call
    have hposition : ∀ index < layers, ∃ call, chain.calls[index]? = some call ∧ call.called := by
      intro index hlt
      obtain ⟨call, hmem, hindex, hcalled⟩ := hall index hlt
      obtain ⟨i, hi⟩ := List.getElem?_of_mem hmem
      obtain rfl : i = index := (h.index i call hi).symm.trans hindex
      exact ⟨call, hi, hcalled⟩
    -- as many calls as layers
    have hlength : chain.calls.length = layers := by
      refine h.length_le.antisymm (Nat.le_of_not_lt fun hlt => ?_)
      obtain ⟨call, hget, -⟩ := hposition _ hlt
      exact absurd (List.getElem?_eq_some_iff.mp hget).1 (lt_irrefl _)
    refine ⟨hlength, fun call hmem => ?_⟩
    obtain ⟨i, hi⟩ := List.getElem?_of_mem hmem
    have hlt := (List.getElem?_eq_some_iff.mp hi).1
    obtain ⟨call', hi', hcalled⟩ := hposition i (hlength ▸ hlt)
    obtain rfl := Option.mem_unique hi hi'
    exact hcalled

/-- Behind a complete chain there is nothing left to run. -/
theorem Complete.next_eq (h : chain.Complete layers)
    (hnext : chain.next layers caller body = some (chain', error)) : chain' = chain := by
  unfold next at hnext
  split at hnext
  · cases hnext
  · rename_i call hcall
    rw [if_pos (h.2 call (List.mem_of_getElem? hcall))] at hnext
    exact (Prod.mk.inj (Option.some.inj hnext)).1.symm

/-- Running a continuation decides nothing. -/
theorem outcome_of_next (hnext : chain.next layers caller body = some (chain', error)) :
    chain'.outcome = chain.outcome := by
  unfold next at hnext
  split at hnext
  · cases hnext
  · rename_i call hcall
    have hlt := (List.getElem?_eq_some_iff.mp hcall).1
    split_ifs at hnext with hcalled
    · cases hnext
      rfl
    · cases hnext
      -- the outcome is that of the first call, which is there already
      have hset : ((chain.calls.set caller { call with called := true })[0]?).bind
          LayerCall.outcome = chain.outcome := by
        rw [outcome, List.getElem?_set]
        split_ifs with hzero
        · subst hzero
          rw [hcall]
          rfl
        · rfl
      rw [← hset]
      unfold enter
      split_ifs
      · rw [outcome, List.getElem?_append_left (by rw [List.length_set]; omega)]
      · rfl

theorem outcome_of_layerEnds (h : chain.layerEnds caller completion = some chain') :
    chain'.outcome =
      if caller = 0 then some (completion.caught "middleware panicked") else chain.outcome := by
  unfold layerEnds at h
  split at h
  · cases h
  · rename_i call hcall
    have hlt := (List.getElem?_eq_some_iff.mp hcall).1
    split_ifs at h
    cases h
    rw [outcome, List.getElem?_set]
    split_ifs <;> rfl

end Nested

end Chain

/-! ### The gate -/

section Gate

variable {cfg : DispatchConfig} {s t : DispatchState} {label : DispatchLabel}

theorem nested_step (h : s.chain.Nested cfg.layers) (hstep : step cfg s label = some t) :
    t.chain.Nested cfg.layers := by
  cases label with
  | next caller body =>
    obtain ⟨⟨chain, error⟩, hnext, rfl⟩ := Option.map_eq_some_iff.mp hstep
    exact Chain.nested_next h hnext
  | layerEnds caller completion =>
    obtain ⟨chain, hends, rfl⟩ := Option.map_eq_some_iff.mp hstep
    obtain ⟨hflags, hhandler⟩ := Chain.flags_of_layerEnds hends
    exact h.of_flags hflags (hhandler ▸ id)
  | handlerEnds call completion =>
    obtain ⟨chain, hends, rfl⟩ := Option.map_eq_some_iff.mp hstep
    obtain ⟨hcalls, hhandler⟩ := Chain.calls_of_handlerEnds hends
    exact h.of_flags (congrArg _ hcalls) hhandler
  | proceed =>
    simp only [step] at hstep
    split at hstep
    · cases hstep
      exact h
    · cases hstep
  | abandon =>
    simp only [step] at hstep
    split_ifs at hstep
    cases hstep
    exact h

theorem nested_init (cfg : DispatchConfig) : (init cfg).chain.Nested cfg.layers := by
  unfold init
  split_ifs
  · exact Chain.nested_empty cfg.layers
  · exact Chain.nested_root cfg.layers cfg.payload

theorem proceed_ne_awaiting (result : Outcome) : proceed cfg result ≠ .awaiting := by
  unfold proceed
  split
  · split_ifs <;> nofun
  · nofun

theorem of_proceed_eq_invoked {result : Outcome} {body : Bytes}
    (h : proceed cfg result = .invoked body) : cfg.isStreaming ∧ result = .ok body := by
  unfold proceed at h
  split at h
  · split_ifs at h with hstreaming
    cases h
    exact ⟨hstreaming, rfl⟩
  · cases h

/-- A dispatch that calls its handler only behind a complete chain. -/
structure Guarded (cfg : DispatchConfig) (s : DispatchState) : Prop where
  nested : s.chain.Nested cfg.layers
  settled : cfg.isStreaming → s.progress = .awaiting → ∀ body,
    s.chain.outcome = some (.ok body) → s.chain.Complete cfg.layers
  invoked : ∀ body, s.progress = .invoked body → s.chain.Complete cfg.layers

theorem guarded_init (cfg : DispatchConfig) : Guarded cfg (init cfg) := by
  refine ⟨nested_init cfg, fun _ hawaiting body houtcome => ?_, fun body hinvoked => ?_⟩
  -- the outermost layer was called, and nothing came back yet
  · unfold init at hawaiting houtcome
    split_ifs at hawaiting houtcome with hnone
    have hpos := Nat.pos_of_ne_zero hnone
    simp [Chain.root, Chain.enter, Chain.outcome, hpos] at houtcome
  · unfold init at hinvoked ⊢
    split_ifs at hinvoked ⊢ with hnone
    exact ⟨hnone.symm, nofun⟩

theorem guarded_step (hpassing : Passing cfg s label) (h : Guarded cfg s)
    (hstep : step cfg s label = some t) : Guarded cfg t := by
  have hnested := nested_step h.nested hstep
  cases label with
  | next caller body =>
    obtain ⟨⟨chain, error⟩, hnext, rfl⟩ := Option.map_eq_some_iff.mp hstep
    -- a complete chain has no continuation left to run
    have hkept : s.chain.Complete cfg.layers → chain.Complete cfg.layers := fun hcomplete =>
      hcomplete.next_eq hnext ▸ hcomplete
    refine ⟨hnested, fun hstreaming hawaiting body houtcome => ?_, fun body hinvoked => ?_⟩
    · rw [Chain.outcome_of_next hnext] at houtcome
      exact hkept (h.settled hstreaming hawaiting body houtcome)
    · exact hkept (h.invoked body hinvoked)
  | layerEnds caller completion =>
    obtain ⟨chain, hends, rfl⟩ := Option.map_eq_some_iff.mp hstep
    have hcomplete : chain.Complete cfg.layers ↔ s.chain.Complete cfg.layers :=
      Chain.complete_congr (Chain.flags_of_layerEnds hends).1
    refine ⟨hnested, fun hstreaming hawaiting body houtcome => hcomplete.mpr ?_,
      fun body hinvoked => hcomplete.mpr (h.invoked body hinvoked)⟩
    rw [Chain.outcome_of_layerEnds hends] at houtcome
    split_ifs at houtcome with hzero
    -- the outermost layer returned `Ok`, which the condition is about
    · subst hzero
      match completion, houtcome with
      | .returned (.ok _), _ => exact hpassing hstreaming hawaiting
    · exact h.settled hstreaming hawaiting body houtcome
  | handlerEnds call completion =>
    obtain ⟨chain, hends, rfl⟩ := Option.map_eq_some_iff.mp hstep
    obtain ⟨hcalls, -⟩ := Chain.calls_of_handlerEnds hends
    have hcomplete : chain.Complete cfg.layers ↔ s.chain.Complete cfg.layers :=
      Chain.complete_congr (congrArg _ hcalls)
    refine ⟨hnested, fun hstreaming hawaiting body houtcome => hcomplete.mpr ?_,
      fun body hinvoked => hcomplete.mpr (h.invoked body hinvoked)⟩
    rw [Chain.outcome, hcalls] at houtcome
    exact h.settled hstreaming hawaiting body houtcome
  | proceed =>
    simp only [step] at hstep
    split at hstep
    -- the dispatch calls the handler with what the chain came to
    · rename_i result hawaiting houtcome
      cases hstep
      refine ⟨hnested, fun _ hagain => absurd hagain (proceed_ne_awaiting result), ?_⟩
      intro body hinvoked
      obtain ⟨hstreaming, rfl⟩ := of_proceed_eq_invoked hinvoked
      exact h.settled hstreaming hawaiting body houtcome
    · cases hstep
  | abandon =>
    simp only [step] at hstep
    split_ifs at hstep
    cases hstep
    exact ⟨hnested, fun _ hawaiting => (nomatch hawaiting), fun _ hinvoked => (nomatch hinvoked)⟩

/-- The handler was called at the end of the chain, or by the dispatch itself. -/
theorem Guarded.gateHolds (h : Guarded cfg s) : GateHolds cfg s := by
  intro hne
  refine h.nested.complete_iff.mp ?_
  cases hprogress : s.progress with
  | invoked body => exact h.invoked body hprogress
  | awaiting | answered | abandoned =>
    refine h.nested.handler fun hnil => hne ?_
    simp [invocations, hprogress, hnil]

/-- If the outermost layer of a stream returns `Ok` too early, the handler is called next. -/
theorem not_gateHolds_of_not_passing (h : s.chain.Nested cfg.layers)
    (hstep : step cfg s label = some t) (hnot : ¬ Passing cfg s label) :
    ∃ u, step cfg t .proceed = some u ∧ ¬ GateHolds cfg u := by
  have hnested := nested_step h hstep
  unfold Passing at hnot
  split at hnot
  · rename_i body
    simp only [Classical.not_imp] at hnot
    obtain ⟨hstreaming, hawaiting, hincomplete⟩ := hnot
    obtain ⟨chain, hends, rfl⟩ := Option.map_eq_some_iff.mp hstep
    have houtcome : chain.outcome = some (.ok body) := Chain.outcome_of_layerEnds hends
    refine ⟨⟨chain, .invoked body⟩, ?_, fun hgate => hincomplete ?_⟩
    · simp [step, hawaiting, houtcome, proceed, hstreaming]
    · have hcomplete : chain.Complete cfg.layers :=
        hnested.complete_iff.mpr (hgate (by simp [invocations]))
      exact (Chain.complete_congr (Chain.flags_of_layerEnds hends).1).mp hcomplete
  · exact absurd trivial hnot

/-- A request's handler is called only through the whole chain as long as the outermost
layer of a stream returns `Ok` only behind a complete chain. When it returns `Ok` earlier,
because a layer has answered or refused the request on its own, the handler is called
next. -/
theorem gateHolds_of_passing (cfg : DispatchConfig) :
    (∀ labels s, run (step cfg) (init cfg) labels = some s →
      MeetsGuard (step cfg) (Passing cfg) (init cfg) labels → GateHolds cfg s) ∧
    ∀ s label t, Reachable (step cfg) (init cfg) s → step cfg s label = some t →
      ¬ Passing cfg s label → ∃ u, step cfg t .proceed = some u ∧ ¬ GateHolds cfg u := by
  refine ⟨fun labels s hrun hmeets => ?_, fun s label t hreachable hstep hnot => ?_⟩
  · have hguarded : Guarded cfg s := hmeets.invariant guarded_step hrun (guarded_init cfg)
    exact hguarded.gateHolds
  · have hnested := hreachable.invariant nested_step (nested_init cfg)
    exact not_gateHolds_of_not_passing hnested hstep hnot

end Gate

/-- A streaming request behind two layers. -/
def streamBehindTwo : DispatchConfig where
  isStreaming := true
  layers := 2
  payload := [1]

/-- Both layers pass the request on, and then what comes back. -/
def forwardingRun : List DispatchLabel :=
  [.next 0 [1], .next 1 [1], .handlerEnds 0 .panicked, .layerEnds 1 (.returned (.ok [1])),
    .layerEnds 0 (.returned (.ok [1])), .proceed]

theorem gateHolds_forwardingRun :
    ∃ s, run (step streamBehindTwo) (init streamBehindTwo) forwardingRun = some s ∧
      invocations streamBehindTwo s = [[1]] ∧ GateHolds streamBehindTwo s := by
  have hmeets : MeetsGuard (step streamBehindTwo) (Passing streamBehindTwo)
      (init streamBehindTwo) forwardingRun := by
    decide +kernel
  have hdecide : (run (step streamBehindTwo) (init streamBehindTwo) forwardingRun).map
      (invocations streamBehindTwo) = some [[1]] := by
    decide +kernel
  obtain ⟨s, hrun, hinvoked⟩ := Option.map_eq_some_iff.mp hdecide
  exact ⟨s, hrun, hinvoked, (gateHolds_of_passing streamBehindTwo).1 _ _ hrun hmeets⟩

/-- The outer layer answers on its own. -/
def shortCircuitRun : List DispatchLabel := [.layerEnds 0 (.returned (.ok [2])), .proceed]

/-- The inner layer refuses the request, and the outer one answers in its place. -/
def overruledRun : List DispatchLabel :=
  [.next 0 [1], .layerEnds 1 (.returned (.error ⟨.permissionDenied, "scope denied"⟩)),
    .layerEnds 0 (.returned (.ok [])), .proceed]

/-- Both runs call the handler of the stream. -/
theorem not_gateHolds_shortCircuitRun_overruledRun :
    (∃ s, run (step streamBehindTwo) (init streamBehindTwo) shortCircuitRun = some s ∧
      ¬ GateHolds streamBehindTwo s) ∧
    (∃ s, run (step streamBehindTwo) (init streamBehindTwo) overruledRun = some s ∧
      ¬ GateHolds streamBehindTwo s) := by
  have hshort : (run (step streamBehindTwo) (init streamBehindTwo) shortCircuitRun).map
      (fun s => decide (GateHolds streamBehindTwo s)) = some false := by
    decide +kernel
  have hoverruled : (run (step streamBehindTwo) (init streamBehindTwo) overruledRun).map
      (fun s => decide (GateHolds streamBehindTwo s)) = some false := by
    decide +kernel
  obtain ⟨s, hrun, hgate⟩ := Option.map_eq_some_iff.mp hshort
  obtain ⟨t, hrun', hgate'⟩ := Option.map_eq_some_iff.mp hoverruled
  exact ⟨⟨s, hrun, of_decide_eq_false hgate⟩, ⟨t, hrun', of_decide_eq_false hgate'⟩⟩

end MoonLightBridge.Server.Middleware
