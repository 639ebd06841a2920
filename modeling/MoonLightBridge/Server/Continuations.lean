import MoonLightBridge.Server.Middleware

/-!
# Continuations are run once

The chain of a request, for itself: layers and a handler that do what they want, at any time
and in any order. Each of them has got a continuation whose flag it shares with its clones,
and only the first run of it calls anything. So the calls of a request are those of the first
layers, once each and in their order, and of the handler after them.
-/

namespace MoonLightBridge.Server.Middleware

open Protocol Transition

inductive ChainLabel where
  /-- the continuation that a call was given, or a clone of it, is run -/
  | next (caller : ℕ) (body : Bytes)
  | layerEnds (caller : ℕ) (completion : Completion)
  | handlerEnds (call : ℕ) (completion : Completion)

namespace Chain

section Steps

variable (layers : ℕ)

def step (chain : Chain) : ChainLabel → Option Chain
  | .next caller body => (chain.next layers caller body).map Prod.fst
  | .layerEnds caller completion => chain.layerEnds caller completion
  | .handlerEnds call completion => chain.handlerEnds call fun _ => completion

/-- No layer and no handler was called twice, and what is left to happen cannot do it. -/
structure SingleUse (chain : Chain) : Prop where
  /-- the layers were called in their order, each of them once -/
  inOrder : chain.calls.map LayerCall.index = List.range chain.calls.length
  length_le : chain.calls.length ≤ layers
  handler_once : chain.handlerCalls.length ≤ 1
  /-- a layer was called because the one before it has run its continuation -/
  through : ∀ i outer inner, chain.calls[i]? = some outer → chain.calls[i + 1]? = some inner →
    outer.called
  /-- and so was the handler -/
  handler_through : chain.handlerCalls ≠ [] → chain.Complete layers
  /-- a continuation that was run calls nothing any more -/
  used : ∀ caller call body, chain.calls[caller]? = some call → call.called →
    chain.next layers caller body =
      some (chain, some (.internal "middleware continuation was invoked more than once"))
  layer_panics : ∀ caller chain', chain.layerEnds caller .panicked = some chain' →
    ∃ call, chain'.calls[caller]? = some call ∧
      call.outcome = some (.error (.internal "middleware panicked"))
  handler_panics : ∀ call chain', chain.handlerEnds call (fun _ => .panicked) = some chain' →
    ∃ handler, chain'.handlerCalls[call]? = some handler ∧
      handler.outcome = some (.error (.internal "handler panicked"))

end Steps

section Once

variable {layers : ℕ} {chain chain' : Chain} {label : ChainLabel}

theorem nested_chainStep (h : Nested layers chain) (hstep : chain.step layers label = some chain') :
    Nested layers chain' := by
  cases label with
  | next caller body =>
    obtain ⟨⟨entered, error⟩, hnext, rfl⟩ := Option.map_eq_some_iff.mp hstep
    exact nested_next h hnext
  | layerEnds caller completion =>
    obtain ⟨hflags, hhandler⟩ := flags_of_layerEnds hstep
    exact h.of_flags hflags (hhandler ▸ id)
  | handlerEnds call completion =>
    have hends : chain.handlerEnds call (fun _ => completion) = some chain' := hstep
    obtain ⟨hcalls, hhandler⟩ := calls_of_handlerEnds hends
    exact h.of_flags (congrArg _ hcalls) hhandler

theorem length_handlerCalls_enter (chain : Chain) (index : ℕ) (body : Bytes) :
    (chain.enter layers index body).handlerCalls.length ≤ chain.handlerCalls.length + 1 := by
  unfold enter
  split_ifs
  · exact Nat.le_succ _
  · exact (List.length_append ..).le

/-- Once the handler was called, no continuation is left that could call it again. -/
theorem length_handlerCalls_next {caller : ℕ} {body : Bytes} {error : Option HandlerError}
    (h : Nested layers chain) (honce : chain.handlerCalls.length ≤ 1)
    (hnext : chain.next layers caller body = some (chain', error)) :
    chain'.handlerCalls.length ≤ 1 := by
  by_cases hnil : chain.handlerCalls = []
  · unfold next at hnext
    split at hnext
    · cases hnext
    · split_ifs at hnext with hcalled
      · cases hnext
        exact honce
      · cases hnext
        refine (length_handlerCalls_enter _ _ _).trans ?_
        rw [hnil]
        exact le_rfl
  · rw [(h.handler hnil).next_eq hnext]
    exact honce

theorem handlerCalls_once_step (h : Nested layers chain) (honce : chain.handlerCalls.length ≤ 1)
    (hstep : chain.step layers label = some chain') : chain'.handlerCalls.length ≤ 1 := by
  cases label with
  | next caller body =>
    obtain ⟨⟨entered, error⟩, hnext, rfl⟩ := Option.map_eq_some_iff.mp hstep
    exact length_handlerCalls_next h honce hnext
  | layerEnds caller completion =>
    rw [(flags_of_layerEnds hstep).2]
    exact honce
  | handlerEnds call completion =>
    simp only [step, handlerEnds] at hstep
    split at hstep
    · cases hstep
    · split_ifs at hstep
      cases hstep
      rw [List.length_set]
      exact honce

theorem Nested.map_index (h : Nested layers chain) :
    chain.calls.map LayerCall.index = List.range chain.calls.length := by
  apply List.ext_getElem?
  intro i
  rw [List.getElem?_map]
  by_cases hlt : i < chain.calls.length
  · rw [List.getElem?_eq_getElem hlt, List.getElem?_range hlt, Option.map_some,
      h.index i _ (List.getElem?_eq_getElem hlt)]
  · rw [List.getElem?_eq_none (not_lt.mp hlt), List.getElem?_eq_none (by simpa using hlt)]
    rfl

theorem outcome_of_layer_panics {caller : ℕ}
    (h : chain.layerEnds caller .panicked = some chain') :
    ∃ call, chain'.calls[caller]? = some call ∧
      call.outcome = some (.error (.internal "middleware panicked")) := by
  unfold layerEnds at h
  split at h
  · cases h
  · rename_i call hcall
    split_ifs at h
    cases h
    obtain ⟨hlt, -⟩ := List.getElem?_eq_some_iff.mp hcall
    exact ⟨_, List.getElem?_set_self hlt, rfl⟩

theorem outcome_of_handler_panics {call : ℕ}
    (h : chain.handlerEnds call (fun _ => .panicked) = some chain') :
    ∃ handler, chain'.handlerCalls[call]? = some handler ∧
      handler.outcome = some (.error (.internal "handler panicked")) := by
  unfold handlerEnds at h
  split at h
  · cases h
  · rename_i handler hhandler
    split_ifs at h
    cases h
    obtain ⟨hlt, -⟩ := List.getElem?_eq_some_iff.mp hhandler
    exact ⟨_, List.getElem?_set_self hlt, rfl⟩

theorem Nested.singleUse (h : Nested layers chain) (honce : chain.handlerCalls.length ≤ 1) :
    SingleUse layers chain where
  inOrder := h.map_index
  length_le := h.length_le
  handler_once := honce
  through i outer inner houter hinner :=
    h.inner i outer houter (List.getElem?_eq_some_iff.mp hinner).1
  handler_through := h.handler
  used caller call body hcall hcalled := by simp only [next, hcall, hcalled, if_true]
  layer_panics _ _ := outcome_of_layer_panics
  handler_panics _ _ := outcome_of_handler_panics

end Once

/-- Whatever the layers and the handler of a request do, each of them is called at most once,
in the order of the chain and through its continuations, and a panic is an error for the one
who called. -/
theorem continuations_single_use (layers : ℕ) (body : Bytes) (w : List ChainLabel) (chain : Chain)
    (h : run (step layers) (root layers body) w = some chain) : SingleUse layers chain := by
  have hroot : (root layers body).handlerCalls.length ≤ 1 := length_handlerCalls_enter _ _ _
  obtain ⟨hnested, honce⟩ : Nested layers chain ∧ chain.handlerCalls.length ≤ 1 :=
    run_invariant (I := fun chain => Nested layers chain ∧ chain.handlerCalls.length ≤ 1)
      (fun hchain hstep => ⟨nested_chainStep hchain.1 hstep,
        handlerCalls_once_step hchain.1 hchain.2 hstep⟩) h ⟨nested_root layers body, hroot⟩
  exact hnested.singleUse honce

/-- The first of two layers runs its continuation twice and the second one panics. -/
theorem continuations_single_use_twice :
    ∃ chain, run (step 2) (root 2 [1])
        [.next 0 [2], .next 0 [3], .layerEnds 1 .panicked, .next 1 [4]] = some chain ∧
      SingleUse 2 chain ∧ chain.handlerCalls.map HandlerCall.body = [[4]] := by
  have hrun : ∃ chain ∈ run (step 2) (root 2 [1])
      [.next 0 [2], .next 0 [3], .layerEnds 1 .panicked, .next 1 [4]],
      chain.handlerCalls.map HandlerCall.body = [[4]] := by decide +kernel
  obtain ⟨chain, hchain, hbody⟩ := hrun
  exact ⟨chain, hchain, continuations_single_use 2 [1] _ chain hchain, hbody⟩

end Chain

/-! ### The chain of a dispatch -/

section Dispatch

variable {cfg : DispatchConfig} {s t : DispatchState} {label : DispatchLabel}

/-- How a call of the handler ends depends on its body, which it has had from the start. -/
theorem exists_handlerEnds {chain chain' : Chain} {call : ℕ} {completion : Bytes → Completion}
    (h : chain.handlerEnds call completion = some chain') :
    ∃ ended, chain.handlerEnds call (fun _ => ended) = some chain' := by
  unfold Chain.handlerEnds at h ⊢
  cases hcall : chain.handlerCalls[call]? with
  | none =>
    rw [hcall] at h
    cases h
  | some handler =>
    rw [hcall] at h
    exact ⟨completion handler.body, h⟩

/-- A dispatch does with its chain what a chain does, or nothing. -/
theorem chain_of_step (h : step cfg s label = some t) :
    t.chain = s.chain ∨ ∃ chainLabel, s.chain.step cfg.layers chainLabel = some t.chain := by
  cases label with
  | next caller body =>
    obtain ⟨entered, hnext, rfl⟩ := Option.map_eq_some_iff.mp h
    exact .inr ⟨.next caller body, Option.map_eq_some_iff.mpr ⟨entered, hnext, rfl⟩⟩
  | layerEnds caller completion =>
    obtain ⟨chain, hends, rfl⟩ := Option.map_eq_some_iff.mp h
    exact .inr ⟨.layerEnds caller completion, hends⟩
  | handlerEnds call completion =>
    obtain ⟨chain, hends, rfl⟩ := Option.map_eq_some_iff.mp h
    obtain ⟨ended, hends⟩ := exists_handlerEnds hends
    exact .inr ⟨.handlerEnds call ended, hends⟩
  | proceed =>
    simp only [step] at h
    split at h
    · cases h
      exact .inl rfl
    · cases h
  | abandon =>
    simp only [step] at h
    split_ifs at h
    cases h
    exact .inl rfl

end Dispatch

end MoonLightBridge.Server.Middleware
