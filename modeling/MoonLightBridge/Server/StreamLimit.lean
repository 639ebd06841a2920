import MoonLightBridge.Server.Connection

/-!
# The limit on concurrent streams

The handshake negotiates how many server-streaming requests may be active at the same
time, and WELCOME announces the number. The loop of the connection admits a REQUEST by
the permits of the in-flight semaphore only, so nothing but the client keeps the number
of streams within the limit.
-/

namespace MoonLightBridge.Server.Connection

open Protocol Transition

/-- The entries with a credit semaphore. -/
def streamCount (active : AList fun _ : UInt64 => ActiveRequest) : ℕ :=
  active.entries.countP fun entry => entry.2.isStreaming

def maxConcurrentStreams (cfg : ConnectionConfig) : ℕ :=
  cfg.negotiated.maxConcurrentStreams.toNat

/-- The REQUEST is registered as a stream: `register` neither refuses it nor closes the
connection. -/
def RegistersStream (cfg : ConnectionConfig) (s : ConnectionState) (frame : Frame) : Prop :=
  cfg.isStreaming frame.methodId = true ∧ cfg.negotiated.features &&& featureServerStreaming ≠ 0 ∧
    frame.requestId ∉ s.active

instance decidableRegistersStream (cfg : ConnectionConfig) (s : ConnectionState) (frame : Frame) :
    Decidable (RegistersStream cfg s frame) :=
  inferInstanceAs (Decidable (_ ∧ _ ∧ _))

/-- The REQUEST for which the loop waits for the table. -/
def admitted? : LoopPhase → Option Frame
  | .registering frame => some frame
  | _ => none

/-- A step that registers a stream finds fewer of them than the limit. -/
def LeavesRoom (cfg : ConnectionConfig) (s : ConnectionState) : ConnectionLabel → Prop
  | .register => ∀ frame ∈ admitted? s.loop, RegistersStream cfg s frame →
      streamCount s.active < maxConcurrentStreams cfg
  | _ => True

instance decidableLeavesRoom (cfg : ConnectionConfig) (s : ConnectionState) :
    (label : ConnectionLabel) → Decidable (LeavesRoom cfg s label)
  | .register => inferInstanceAs (Decidable (∀ frame ∈ admitted? s.loop,
      RegistersStream cfg s frame → streamCount s.active < maxConcurrentStreams cfg))
  | .receive _ | .drain | .hangUp | .task _ _ => isTrue trivial

section StreamCount

variable {cfg : ConnectionConfig} {s t : ConnectionState}

variable {frame : Frame}

/-- Closing and cancelling only remove entries, and so do tasks. -/
theorem sublist_receives (h : Receives s frame t) : t.active.entries.Sublist s.active.entries := by
  cases h with
  | cancel => exact List.kerase_sublist _ _
  | close => exact List.nil_sublist _
  | refuseDraining | refuseFull | accept | credit | ignore => exact List.Sublist.refl _

theorem sublist_taskMoves {i : ℕ} {task : RequestTask} {event : RequestEvent}
    (h : TaskMoves s i task event t) : t.active.entries.Sublist s.active.entries := by
  cases h with
  | deregister => exact List.kerase_sublist _ _
  | _ => exact List.Sublist.refl _

/-- A registered stream is one more. -/
theorem streamCount_register_of_registersStream (h : RegistersStream cfg s frame) :
    streamCount (register cfg s frame).active = streamCount s.active + 1 := by
  obtain ⟨hstreaming, hfeature, hfresh⟩ := h
  rw [register, if_neg (fun hrefused => hfeature hrefused.2), if_neg hfresh, streamCount,
    AList.entries_insert_of_notMem hfresh, List.countP_cons]
  simp only [hstreaming, if_true]
  rfl

/-- Nothing else adds to the streams. -/
theorem streamCount_register_le (h : ¬ RegistersStream cfg s frame) :
    streamCount (register cfg s frame).active ≤ streamCount s.active := by
  unfold register
  split_ifs with hrefused hduplicate
  · exact le_rfl
  · exact Nat.zero_le _
  · have hunary : ¬ cfg.isStreaming frame.methodId = true := fun hstreaming =>
      h ⟨hstreaming, fun hfeature => hrefused ⟨hstreaming, hfeature⟩, hduplicate⟩
    rw [streamCount, AList.entries_insert_of_notMem hduplicate, List.countP_cons]
    simp only [hunary]
    exact le_rfl

variable {label : ConnectionLabel}

theorem streamCount_step_le (hlabel : label ≠ .register) (h : step cfg s label = some t) :
    streamCount t.active ≤ streamCount s.active := by
  cases steps_of_step h with
  | receive => exact (sublist_receives (receives_receive s _)).countP_le
  | register => exact absurd rfl hlabel
  | drain => exact le_rfl
  | hangUp => exact Nat.zero_le _
  | task hi hmoves => exact (sublist_taskMoves hmoves).countP_le

/-- A step that leaves room keeps the limit. -/
theorem streamCount_le_step (hroom : LeavesRoom cfg s label)
    (hs : streamCount s.active ≤ maxConcurrentStreams cfg) (h : step cfg s label = some t) :
    streamCount t.active ≤ maxConcurrentStreams cfg := by
  by_cases hlabel : label = .register
  · subst hlabel
    cases steps_of_step h with
    | @register frame hloop =>
      by_cases hstream : RegistersStream cfg s frame
      · rw [streamCount_register_of_registersStream hstream]
        exact hroom frame (by rw [hloop]; rfl) hstream
      · exact (streamCount_register_le hstream).trans hs
  · exact (streamCount_step_le hlabel h).trans hs

/-- A step that leaves none exceeds it. -/
theorem not_streamCount_le_of_not_leavesRoom (_hs : streamCount s.active ≤ maxConcurrentStreams cfg)
    (h : step cfg s label = some t) (hnot : ¬ LeavesRoom cfg s label) :
    ¬ streamCount t.active ≤ maxConcurrentStreams cfg := by
  cases steps_of_step h with
  | @register frame hloop =>
    simp only [LeavesRoom, hloop, admitted?, not_forall, not_lt] at hnot
    obtain ⟨frame', hframe, hstream, hfull⟩ := hnot
    cases hframe
    rw [streamCount_register_of_registersStream hstream]
    omega
  | _ => exact absurd trivial hnot

end StreamCount

/-- The number of active streams is within the negotiated limit in every state of a run
if and only if every stream was registered below the limit, which the loop does not
check. The number of active requests is within its own limit as long as every step is
orderly. -/
theorem streamCount_le_iff_leavesRoom (cfg : ConnectionConfig) (labels : List ConnectionLabel)
    (s : ConnectionState) (hrun : run (step cfg) (init cfg) labels = some s) :
    ((∀ before t, before <+: labels → run (step cfg) (init cfg) before = some t →
        streamCount t.active ≤ maxConcurrentStreams cfg) ↔
      MeetsGuard (step cfg) (LeavesRoom cfg) (init cfg) labels) ∧
    (MeetsGuard (step cfg) Orderly (init cfg) labels →
      s.active.keys.length ≤ maxInFlight cfg) := by
  constructor
  · exact (meetsGuard_iff_always (I := fun s => streamCount s.active ≤ maxConcurrentStreams cfg)
      streamCount_le_step not_streamCount_le_of_not_leavesRoom (Nat.zero_le _) hrun).symm
  · intro horderly
    have htable : Table s := horderly.invariant Table.step hrun (Table.init cfg)
    exact htable.bounded
      (run_invariant (I := PermitsConserved cfg) permitsConserved_step hrun
        (permitsConserved_init cfg))

/-- A connection that negotiated one concurrent stream, and many requests in flight. -/
def oneStream : ConnectionConfig where
  negotiated := ⟨{ PeerSettings.default with maxConcurrentStreams := 1 }, by decide⟩
  isStreaming _ := true

/-- A client that asks for one stream. -/
def oneStreamRun : List ConnectionLabel := [.receive (Frame.new .request 7 1 []), .register]

theorem streamCount_le_oneStreamRun :
    ∃ s, run (step oneStream) (init oneStream) oneStreamRun = some s ∧
      streamCount s.active = 1 ∧
      ∀ before t, before <+: oneStreamRun → run (step oneStream) (init oneStream) before = some t →
        streamCount t.active ≤ maxConcurrentStreams oneStream := by
  obtain ⟨s, hrun, hcount⟩ := Option.map_eq_some_iff.mp
    (show (run (step oneStream) (init oneStream) oneStreamRun).map
      (fun s => streamCount s.active) = some 1 by decide +kernel)
  exact ⟨s, hrun, hcount,
    (streamCount_le_iff_leavesRoom oneStream oneStreamRun s hrun).1.mpr (by decide +kernel)⟩

/-- A client that asks for a second one gets it. -/
theorem streamCount_gt_twoStreamsRun :
    ∃ s, run (step oneStream) (init oneStream)
        (oneStreamRun ++ [.receive (Frame.new .request 7 2 []), .register]) = some s ∧
      maxConcurrentStreams oneStream = 1 ∧ streamCount s.active = 2 := by
  obtain ⟨s, hrun, hcount⟩ := Option.map_eq_some_iff.mp
    (show (run (step oneStream) (init oneStream)
      (oneStreamRun ++ [.receive (Frame.new .request 7 2 []), .register])).map
        (fun s => streamCount s.active) = some 2 by decide +kernel)
  exact ⟨s, hrun, rfl, hcount⟩

end MoonLightBridge.Server.Connection
