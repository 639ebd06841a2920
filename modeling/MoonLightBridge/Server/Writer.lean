import MoonLightBridge.Semantics.Transition
import MoonLightBridge.Server.Outbound

/-!
# The connection writer

The writer task of a connection takes responses from the queue, transforms each
and writes them to the socket in batches. A response that no longer fits into the
current batch is kept, already transformed, and starts the next one, where it is
transformed again.

How the queue fills while the writer runs is the environment's choice: one step is
one iteration of the writer's loop, labelled by the number of responses that
`try_recv` finds after the first.
-/

namespace MoonLightBridge.Server

open Protocol Transition

/-- `MAX_BATCH_FRAMES`. -/
def maxBatchFrames : ℕ := 64

/-- `WRITER_BATCH_BYTES`. -/
def writerBatchBytes : ℕ := 512 * 1024

structure WriterState where
  /-- responses sent to the queue and not received yet, in order -/
  queue : List Frame
  /-- the response kept for the next batch -/
  deferred : Option Frame
  /-- the bytes written to the socket -/
  socket : Bytes
  /-- the frames held while their batch was written -/
  written : List Frame

namespace Writer

/-- A batch while it is being filled. -/
structure Batch where
  encoded : Bytes
  held : List Frame
  deferred : Option Frame
  queue : List Frame

section Model

variable (zstd : Zstd) (negotiated : Negotiated)

/-- The inner loop, for as many responses as `try_recv` still finds. -/
def fillBatch : ℕ → Batch → Except ProtocolError Batch
  | 0, batch => .ok batch
  | available + 1, batch =>
    if batch.held.length < maxBatchFrames then
      match batch.queue with
      | [] => .ok batch
      | queued :: queue =>
        let frame := outbound zstd negotiated queued
        -- the frame was taken from the queue, so it is kept rather than left there
        if writerBatchBytes < batch.encoded.length + (headerLen + frame.body.length) then
          .ok { batch with deferred := some frame, queue }
        else
          match frame.encodeInto batch.encoded with
          | .error error => .error error
          | .ok encoded =>
            fillBatch available { batch with encoded, held := batch.held ++ [frame], queue }
    else .ok batch

/-- The response that starts a batch, and the queue after it was taken. -/
def first (s : WriterState) : Option (Frame × List Frame) :=
  match s.deferred with
  | some frame => some (frame, s.queue)
  | none =>
    match s.queue with
    | [] => none
    | frame :: queue => some (frame, queue)

/-- One batch. `none` where the writer waits for a response, or ended because a
frame could not be encoded. -/
def step (s : WriterState) (available : ℕ) : Option WriterState :=
  match first s with
  | none => none
  | some (response, queue) =>
    let frame := outbound zstd negotiated response
    match frame.encodeInto [] with
    | .error _ => none
    | .ok encoded =>
      match fillBatch zstd negotiated available
          { encoded, held := [frame], deferred := none, queue } with
      | .error _ => none
      | .ok batch => some {
          queue := batch.queue
          deferred := batch.deferred
          socket := s.socket ++ batch.encoded
          written := s.written ++ batch.held }

end Model

/-- The writer of a fresh connection, and the responses it is going to receive. -/
def init (responses : List Frame) : WriterState where
  queue := responses
  deferred := none
  socket := []
  written := []

/-- The writer has written everything it was sent. -/
def Done (s : WriterState) : Prop := s.queue = [] ∧ s.deferred = none

/-- The response kept for the next batch is one the policy leaves alone. -/
def KeepsDeferred (zstd : Zstd) (negotiated : Negotiated) (s : WriterState) (_ : ℕ) : Prop :=
  ∀ frame ∈ s.deferred, ¬ Recompressible zstd negotiated frame

/-! ### One batch -/

section Proofs

variable {zstd : Zstd} {negotiated : Negotiated}

/-- What the state promises about its frames. -/
structure WellFormed (zstd : Zstd) (negotiated : Negotiated) (s : WriterState) : Prop where
  queue : ∀ frame ∈ s.queue, frame.HasKnownFlags
  deferred : ∀ frame ∈ s.deferred, ∃ response, response.HasKnownFlags ∧
    frame = outbound zstd negotiated response
  written : ∀ frame ∈ s.written, frame.Encodable
  socket : s.socket = s.written.flatMap Frame.wire

/-- The inner loop appends transformed responses in queue order, and keeps at
most the next one. -/
theorem fillBatch_spec (available : ℕ) (encoded : Bytes) (held queue : List Frame)
    (hqueue : ∀ frame ∈ queue, frame.HasKnownFlags) :
    ∃ taken kept rest, queue = taken ++ kept ++ rest ∧ kept.length ≤ 1 ∧
      fillBatch zstd negotiated available { encoded, held, deferred := none, queue } = .ok {
        encoded := encoded ++ (taken.map (outbound zstd negotiated)).flatMap Frame.wire
        held := held ++ taken.map (outbound zstd negotiated)
        deferred := (kept.map (outbound zstd negotiated)).head?
        queue := rest } := by
  induction available generalizing encoded held queue with
  | zero => exact ⟨[], [], queue, rfl, Nat.zero_le _, by simp [fillBatch]⟩
  | succ available ih =>
    unfold fillBatch
    by_cases hroom : held.length < maxBatchFrames
    swap
    · exact ⟨[], [], queue, rfl, Nat.zero_le _, by simp [hroom]⟩
    rw [if_pos hroom]
    cases queue with
    | nil => exact ⟨[], [], [], rfl, Nat.zero_le _, by simp⟩
    | cons queued queue =>
      obtain ⟨hflags, hqueue⟩ := List.forall_mem_cons.mp hqueue
      obtain ⟨hknown, hlength⟩ := encodable_outbound zstd negotiated hflags
      simp only
      split_ifs with hfull
      · -- the response was received, so it is kept
        exact ⟨[], [queued], queue, rfl, le_rfl, by simp⟩
      · rw [Frame.encodeInto_of_hasKnownFlags hknown hlength]
        obtain ⟨taken, kept, rest, rfl, hkept, hfill⟩ := ih
          (encoded ++ (outbound zstd negotiated queued).wire)
          (held ++ [outbound zstd negotiated queued]) queue hqueue
        refine ⟨queued :: taken, kept, rest, rfl, hkept, ?_⟩
        simp only
        rw [hfill]
        simp [List.append_assoc]

variable {queue : List Frame} {response : Frame} {s : WriterState}

/-- A batch starts with the transformed first response, whatever follows. In
particular the writer never fails on responses with known flags. -/
theorem step_eq_some (hfirst : first s = some (response, queue)) (hflags : response.HasKnownFlags)
    (hqueue : ∀ frame ∈ queue, frame.HasKnownFlags) (available : ℕ) :
    ∃ taken kept rest, queue = taken ++ kept ++ rest ∧ kept.length ≤ 1 ∧
      step zstd negotiated s available = some {
        queue := rest
        deferred := (kept.map (outbound zstd negotiated)).head?
        socket := s.socket ++
          ((response :: taken).map (outbound zstd negotiated)).flatMap Frame.wire
        written := s.written ++ (response :: taken).map (outbound zstd negotiated) } := by
  obtain ⟨hknown, hlength⟩ := encodable_outbound zstd negotiated hflags
  obtain ⟨taken, kept, rest, hsplit, hkept, hfill⟩ := @fillBatch_spec zstd negotiated available
    (outbound zstd negotiated response).wire [outbound zstd negotiated response] queue hqueue
  refine ⟨taken, kept, rest, hsplit, hkept, ?_⟩
  unfold step
  simp only [hfirst, Frame.encodeInto_of_hasKnownFlags hknown hlength, List.nil_append, hfill]
  simp

/-- A response that does not fit behind the first one is kept. -/
theorem step_of_full {queued : Frame} (hfirst : first s = some (response, queued :: queue))
    (hflags : response.HasKnownFlags)
    (hfull : writerBatchBytes < (outbound zstd negotiated response).wire.length +
      (headerLen + (outbound zstd negotiated queued).body.length)) (available : ℕ) :
    step zstd negotiated s (available + 1) = some {
      queue
      deferred := some (outbound zstd negotiated queued)
      socket := s.socket ++ (outbound zstd negotiated response).wire
      written := s.written ++ [outbound zstd negotiated response] } := by
  obtain ⟨hknown, hlength⟩ := encodable_outbound zstd negotiated hflags
  unfold step
  simp only [hfirst, Frame.encodeInto_of_hasKnownFlags hknown hlength, List.nil_append]
  simp only [fillBatch, List.length_singleton, maxBatchFrames, Nat.one_lt_ofNat, if_true, hfull]

/-- The frames still to be written, each as transformed once. -/
def pending (zstd : Zstd) (negotiated : Negotiated) (s : WriterState) : List Frame :=
  s.deferred.toList ++ s.queue.map (outbound zstd negotiated)

theorem pending_eq_cons (hfirst : first s = some (response, queue)) :
    pending zstd negotiated s =
      (if s.deferred.isSome then response else outbound zstd negotiated response) ::
        queue.map (outbound zstd negotiated) := by
  unfold first at hfirst
  unfold pending
  cases hdeferred : s.deferred with
  | some frame =>
    rw [hdeferred] at hfirst
    cases hfirst
    simp
  | none =>
    simp only [hdeferred] at hfirst
    split at hfirst
    · cases hfirst
    · rename_i hqueue
      cases hfirst
      simp [hqueue]

section

variable (hwf : WellFormed zstd negotiated s)

include hwf

theorem WellFormed.of_first (hfirst : first s = some (response, queue)) :
    response.HasKnownFlags ∧ ∀ frame ∈ queue, frame.HasKnownFlags := by
  unfold first at hfirst
  cases hdeferred : s.deferred with
  | some frame =>
    rw [hdeferred] at hfirst
    obtain ⟨rfl, rfl⟩ := Prod.mk.inj (Option.some_inj.mp hfirst)
    obtain ⟨original, hflags, rfl⟩ := hwf.deferred frame hdeferred
    exact ⟨(encodable_outbound zstd negotiated hflags).1, hwf.queue⟩
  | none =>
    simp only [hdeferred] at hfirst
    split at hfirst
    · cases hfirst
    · rename_i hqueue
      obtain ⟨rfl, rfl⟩ := Prod.mk.inj (Option.some_inj.mp hfirst)
      have hknown := hwf.queue
      rw [hqueue] at hknown
      exact List.forall_mem_cons.mp hknown

variable {t : WriterState}

/-- One iteration writes a nonempty prefix of the pending frames. Only the
first of them may differ from what was pending: a kept frame is transformed once
more. -/
theorem step_spec {available : ℕ} (hstep : step zstd negotiated s available = some t) :
    WellFormed zstd negotiated t ∧ ∃ frame taken,
      pending zstd negotiated s = frame :: (taken ++ pending zstd negotiated t) ∧
        t.written = s.written ++
          (if s.deferred.isSome then outbound zstd negotiated frame else frame) :: taken := by
  obtain ⟨⟨response, queue⟩, hfirst⟩ : ∃ pair, first s = some pair := by
    cases hfirst : first s with
    | none => simp [step, hfirst] at hstep
    | some pair => exact ⟨pair, rfl⟩
  obtain ⟨hflags, hqueue⟩ := hwf.of_first hfirst
  obtain ⟨taken, kept, rest, rfl, hkept, hsome⟩ :=
    @step_eq_some zstd negotiated queue response s hfirst hflags hqueue available
  obtain rfl := Option.mem_unique hsome hstep
  -- what is kept is at most one response, hence the pending frames are in order
  have hkeptList : (kept.map (outbound zstd negotiated)).head?.toList =
      kept.map (outbound zstd negotiated) := by
    match kept, hkept with
    | [], _ => rfl
    | [frame], _ => rfl
  -- the four promises of the state, then the pending frames and those written
  refine ⟨⟨?_, ?_, ?_, ?_⟩,
    if s.deferred.isSome then response else outbound zstd negotiated response,
    taken.map (outbound zstd negotiated), (pending_eq_cons hfirst).trans ?_, ?_⟩
  · exact fun frame hmem => hqueue frame (List.mem_append_right _ hmem)
  · intro frame hmem
    have hmem' : frame ∈ kept.map (outbound zstd negotiated) := List.mem_of_mem_head? hmem
    obtain ⟨response', hresponse', rfl⟩ := List.mem_map.mp hmem'
    exact ⟨response', hqueue response' (by simp [hresponse']), rfl⟩
  · intro frame hmem
    rcases List.mem_append.mp hmem with hold | hnew
    · exact hwf.written frame hold
    · obtain ⟨response', hresponse', rfl⟩ := List.mem_map.mp hnew
      refine encodable_outbound zstd negotiated ?_
      rcases List.mem_cons.mp hresponse' with rfl | htaken
      · exact hflags
      · exact hqueue response' (by simp [htaken])
  · rw [hwf.socket, List.flatMap_append]
  · simp only [pending, hkeptList]
    simp
  · split_ifs <;> rfl

/-- The first pending frame is written as it is exactly if it was not kept, or
is one that the policy leaves alone. -/
theorem if_outbound_eq_iff {frame : Frame} {frames : List Frame} {available : ℕ}
    (hpending : pending zstd negotiated s = frame :: frames) :
    (if s.deferred.isSome then outbound zstd negotiated frame else frame) = frame ↔
      KeepsDeferred zstd negotiated s available := by
  cases hdeferred : s.deferred with
  | none => simp [KeepsDeferred, hdeferred]
  | some kept =>
    obtain rfl : kept = frame := by
      rw [pending, hdeferred] at hpending
      exact (List.cons.inj hpending).1
    obtain ⟨response, -, rfl⟩ := hwf.deferred kept hdeferred
    simp only [Option.isSome_some, if_true, KeepsDeferred, hdeferred, Option.mem_def,
      Option.some.injEq, forall_eq']
    exact outbound_outbound zstd negotiated response

/-! ### Runs -/

variable {splits : List ℕ}

/-- What was written stays written. -/
theorem written_prefix_of_run (hrun : run (step zstd negotiated) s splits = some t) :
    s.written <+: t.written := by
  refine (run_invariant (I := fun t => WellFormed zstd negotiated t ∧ s.written <+: t.written)
    ?_ hrun ⟨hwf, List.prefix_rfl⟩).2
  rintro u available v ⟨hwf, hhead⟩ hstep
  obtain ⟨hwf', frame, taken, -, hwritten⟩ := step_spec hwf hstep
  exact ⟨hwf', hhead.trans (hwritten ▸ List.prefix_append _ _)⟩

/-- A complete run writes the pending frames as they are exactly if no frame it
kept was recompressible. -/
theorem written_eq_iff (hrun : run (step zstd negotiated) s splits = some t) (hdone : Done t) :
    t.written = s.written ++ pending zstd negotiated s ↔
      MeetsGuard (step zstd negotiated) (KeepsDeferred zstd negotiated) s splits := by
  induction splits generalizing s with
  | nil =>
    cases hrun
    simp [MeetsGuard, pending, hdone.1, hdone.2]
  | cons available splits ih =>
    obtain ⟨u, hstep, hrun⟩ := run_cons_eq_some.mp hrun
    obtain ⟨hwf', frame, taken, hpending, hwritten⟩ := step_spec hwf hstep
    have hguard : MeetsGuard (step zstd negotiated) (KeepsDeferred zstd negotiated) s
        (available :: splits) ↔ KeepsDeferred zstd negotiated s available ∧
          MeetsGuard (step zstd negotiated) (KeepsDeferred zstd negotiated) u splits := by
      simp [MeetsGuard, hstep]
    rw [hguard]
    by_cases hkeeps : KeepsDeferred zstd negotiated s available
    · -- the first frame is written as it was pending
      rw [if_outbound_eq_iff hwf hpending |>.mpr hkeeps] at hwritten
      rw [← ih hwf' hrun, hwritten, hpending]
      simp [hkeeps]
    · -- it is written as an ERROR, and what was written stays
      refine iff_of_false (fun heq => hkeeps ?_) (fun h => hkeeps h.1)
      obtain ⟨rest, hrest⟩ := written_prefix_of_run hwf' hrun
      rw [← hrest, hwritten, hpending, List.append_assoc, List.append_cancel_left_eq,
        List.cons_append, List.cons.injEq] at heq
      exact if_outbound_eq_iff hwf hpending |>.mp heq.1

end

theorem wellFormed_init {responses : List Frame}
    (hflags : ∀ response ∈ responses, response.HasKnownFlags) :
    WellFormed zstd negotiated (init responses) where
  queue := hflags
  deferred := by simp [init]
  written := by simp [init]
  socket := rfl

theorem wellFormed_of_run (hwf : WellFormed zstd negotiated s)
    (hrun : run (step zstd negotiated) s splits = some t) : WellFormed zstd negotiated t :=
  run_invariant (fun hwf hstep => (step_spec hwf hstep).1) hrun hwf

/-- The socket determines the frames that were written. -/
theorem encodeAll_eq_socket_iff {responses : List Frame}
    (hflags : ∀ response ∈ responses, response.HasKnownFlags) (hwf : WellFormed zstd negotiated s) :
    Frame.encodeAll (responses.map (outbound zstd negotiated)) = .ok s.socket ↔
      s.written = responses.map (outbound zstd negotiated) := by
  have hencodable : ∀ frame ∈ responses.map (outbound zstd negotiated), frame.Encodable := by
    intro frame hmem
    obtain ⟨response, hresponse, rfl⟩ := List.mem_map.mp hmem
    exact encodable_outbound zstd negotiated (hflags response hresponse)
  rw [Frame.encodeAll_eq hencodable, hwf.socket, Except.ok.injEq]
  constructor
  · intro heq
    exact (framePrefixCode.flatMap_injective hencodable hwf.written heq).symm
  · intro heq
    rw [heq]

end Proofs

/-! ### The socket -/

/-- A library that halves blocks of zeros and stores everything else behind a
marker byte. -/
def halvingZstd : Zstd where
  compress _ payload :=
    if payload = List.replicate payload.length 0 ∧ payload.length % 2 = 0 then
      some (List.replicate (payload.length / 2) 0)
    else some (1 :: payload)
  decompress compressed _ :=
    if compressed.head? = some 1 then some compressed.tail
    else some (List.replicate (2 * compressed.length) 0)
  decompress_compress level payload compressed h := by
    split_ifs at h with hzeros
    · cases h
      obtain ⟨heq, heven⟩ := hzeros
      have hdouble : 2 * (payload.length / 2) = payload.length := by omega
      rw [if_neg, List.length_replicate, hdouble, ← heq]
      simp [List.head?_replicate]
    · cases h
      rfl

def defaultNegotiated : Negotiated := ⟨PeerSettings.default, by decide⟩

/-- When the writer has written everything, the socket holds the encodings of
all responses, in order and each transformed exactly once, if and only if no
response that was kept for a later batch was recompressible. -/
theorem encodeAll_eq_socket_iff_keepsDeferred (zstd : Zstd) (negotiated : Negotiated)
    (responses : List Frame) (hflags : ∀ response ∈ responses, response.HasKnownFlags)
    (splits : List ℕ) (s : WriterState)
    (hrun : run (step zstd negotiated) (init responses) splits = some s) (hdone : Done s) :
    Frame.encodeAll (responses.map (outbound zstd negotiated)) = .ok s.socket ↔
      MeetsGuard (step zstd negotiated) (KeepsDeferred zstd negotiated) (init responses)
        splits := by
  have hwf := @wellFormed_init zstd negotiated responses hflags
  rw [encodeAll_eq_socket_iff hflags (wellFormed_of_run hwf hrun), ← written_eq_iff hwf hrun hdone]
  simp [init, pending]

/-- Two small frames written in batches of their own. -/
theorem encodeAll_eq_socket_iff_keepsDeferred_pongs :
    ∃ s, run (step halvingZstd defaultNegotiated)
        (init [Frame.new .pong 0 1 [], Frame.new .pong 0 2 []]) [0, 0] = some s ∧ Done s ∧
      (Frame.encodeAll ([Frame.new .pong 0 1 [], Frame.new .pong 0 2 []].map
          (outbound halvingZstd defaultNegotiated)) = .ok s.socket ↔
        MeetsGuard (step halvingZstd defaultNegotiated)
          (KeepsDeferred halvingZstd defaultNegotiated)
          (init [Frame.new .pong 0 1 [], Frame.new .pong 0 2 []]) [0, 0]) := by
  have hrun : run (step halvingZstd defaultNegotiated)
      (init [Frame.new .pong 0 1 [], Frame.new .pong 0 2 []]) [0, 0] = some {
        queue := []
        deferred := none
        socket := (Frame.new .pong 0 1 []).wire ++ (Frame.new .pong 0 2 []).wire
        written := [Frame.new .pong 0 1 [], Frame.new .pong 0 2 []] } := by
    rfl
  exact ⟨_, hrun, ⟨rfl, rfl⟩, encodeAll_eq_socket_iff_keepsDeferred _ _ _ (by decide) _ _ hrun
    ⟨rfl, rfl⟩⟩

/-! ### A kept response that is compressed twice -/

/-- A frame that fills a batch to the last byte. -/
def batchFiller : Frame := Frame.new .pong 0 1 (List.replicate (512 * 1024 - 24) 0)

/-- A response whose compressed form can be compressed again. -/
def zerosResponse : Frame := Frame.new .response 7 2 (List.replicate (2 * 2048) 0)

theorem encode_zeros {n : ℕ} (hmin : 512 ≤ n) (hmax : n ≤ 2048) :
    (connectionCompressionPolicy defaultNegotiated).encode halvingZstd (List.replicate (2 * n) 0)
      .zstd = .ok {
        codec := .zstd
        originalLen := UInt32.ofNat (2 * n)
        bytes := List.replicate n 0 } := by
  -- half of the bytes are saved, at a ratio of two
  have hacceptable : (connectionCompressionPolicy defaultNegotiated).isAcceptable
      (List.replicate (2 * n) 0) (List.replicate n 0) = true := by
    rw [CompressionPolicy.isAcceptable_iff]
    simp only [List.length_replicate]
    change n + 64 ≤ 2 ^ 64 - 1 ∧ n + 64 ≤ 2 * n ∧ 2 * n ≤ n * 64
    omega
  have hlen : ¬ (connectionCompressionPolicy defaultNegotiated).maxDecodedBodyLen <
      UInt32.ofNat (2 * n) := by
    have hsize : 2 * n < UInt32.size := by
      change 2 * n < 4294967296
      omega
    rw [UInt32.lt_iff_toNat_lt, UInt32.toNat_ofNat_of_lt' hsize]
    change ¬ 16777216 < 2 * n
    omega
  unfold CompressionPolicy.encode
  simp only [validate_connectionCompressionPolicy, List.length_replicate]
  rw [if_neg (by omega), if_neg hlen, if_neg]
  · simp only [halvingZstd, List.length_replicate, Nat.mul_mod_right, and_self, if_true,
      Nat.mul_div_cancel_left n (by omega : 0 < 2), hacceptable]
  · simp only [reduceCtorEq, false_or, not_lt]
    change 1024 ≤ 2 * n
    omega

theorem not_keeps_zeros {n : ℕ} (hmin : 512 ≤ n) (hmax : n ≤ 2048) :
    ¬ (connectionCompressionPolicy defaultNegotiated).Keeps halvingZstd
      (List.replicate (2 * n) 0) := by
  rintro ⟨result, hresult, hcodec⟩
  rw [encode_zeros hmin hmax] at hresult
  cases hresult
  cases hcodec

/-- The metadata that announces a compressed body of 4096 bytes. -/
def zerosMetadata : Metadata where
  entries := {
    toList := [(.reserved .compressionCodec, [1]), (.reserved .originalLength, [0, 0, 16, 0])]
    increasing := by decide }
  validUserKeys name h := by simp [SortedMap.keys] at h

theorem announceCompression_zeros :
    announceCompression Metadata.new {
      codec := .zstd
      originalLen := UInt32.ofNat (2 * 2048)
      bytes := List.replicate 2048 0 } = .ok zerosMetadata := by
  rfl

/-- The first pass compresses the response. -/
theorem outbound_zerosResponse :
    outbound halvingZstd defaultNegotiated zerosResponse =
      { zerosResponse with
        flags := flagHasMetadata
        body := zerosMetadata.block (by decide) ++ List.replicate 2048 0 } := by
  have hblockLen : zerosMetadata.blockLen = 19 := by decide
  have hfits : fitOutboundFrame zerosResponse defaultNegotiated.maxDecodedBodyLen =
      zerosResponse := by
    refine fitOutboundFrame_of_le ?_
    rw [zerosResponse, Frame.new, List.length_replicate]
    decide
  have hcompress : compressFor halvingZstd defaultNegotiated zerosResponse =
      { zerosResponse with
        flags := flagHasMetadata
        body := zerosMetadata.block (by decide) ++ List.replicate 2048 0 } := by
    have hparts : outboundMetadata zerosResponse defaultNegotiated.maxMetadataLen =
        some (Metadata.new, List.replicate (2 * 2048) 0) := if_neg (by decide)
    have hflags : zerosResponse.flags ||| flagHasMetadata = flagHasMetadata := by decide
    rw [compressFor_eq_reassemble ⟨by decide, rfl⟩ hparts (encode_zeros (by omega) (by omega))
      announceCompression_zeros, reassemble_of_le (by decide) (by decide)
        (by rw [hblockLen]; decide), hflags]
  rw [outbound, hfits, hcompress]
  refine fitOutboundFrame_of_le ?_
  rw [List.length_append, Metadata.length_block, hblockLen, List.length_replicate]
  decide

/-- The second pass would compress it again. -/
theorem recompressible_outbound_zerosResponse :
    Recompressible halvingZstd defaultNegotiated
      (outbound halvingZstd defaultNegotiated zerosResponse) := by
  rw [outbound_zerosResponse]
  refine ⟨⟨by decide, rfl⟩, zerosMetadata, List.replicate (2 * 1024) 0, ?_,
    not_keeps_zeros (by omega) (by omega)⟩
  have hdecode : Metadata.decode (zerosMetadata.block (by decide) ++ List.replicate 2048 0)
      { MetadataLimits.default with maxBytes := defaultNegotiated.maxMetadataLen } =
        .ok (zerosMetadata, List.replicate 2048 0) :=
    (Metadata.decode_block_eq_ok_iff _ _ _ _).mpr ⟨by decide, rfl⟩
  rw [outboundMetadata, if_pos (by decide), hdecode]

theorem length_body_batchFiller : batchFiller.body.length = 512 * 1024 - 24 :=
  List.length_replicate

theorem outbound_batchFiller :
    outbound halvingZstd defaultNegotiated batchFiller = batchFiller := by
  refine outbound_of_not_eligible _ (fun h => absurd h.2 (by decide)) ?_ ?_
  all_goals
    rw [length_body_batchFiller]
    decide

/-- The second response does not fit behind the first and is kept. -/
theorem step_batchFiller :
    step halvingZstd defaultNegotiated (init [batchFiller, zerosResponse]) 1 = some {
      queue := []
      deferred := some (outbound halvingZstd defaultNegotiated zerosResponse)
      socket := [] ++ batchFiller.wire
      written := [] ++ [batchFiller] } := by
  have hstep := @step_of_full halvingZstd defaultNegotiated [] batchFiller
    (init [batchFiller, zerosResponse]) zerosResponse rfl (by decide)
  rw [outbound_batchFiller] at hstep
  refine hstep ?_ 0
  rw [Frame.length_wire, length_body_batchFiller, writerBatchBytes, headerLen]
  omega

/-- The bytes of a complete run are not those of the responses transformed
once. -/
theorem encodeAll_ne_socket_zerosResponse :
    ∃ s, run (step halvingZstd defaultNegotiated) (init [batchFiller, zerosResponse]) [1, 0] =
        some s ∧ Done s ∧
      Frame.encodeAll ([batchFiller, zerosResponse].map (outbound halvingZstd defaultNegotiated)) ≠
        .ok s.socket := by
  have hflags : ∀ response ∈ [batchFiller, zerosResponse], response.HasKnownFlags := by
    simp only [List.mem_cons, List.not_mem_nil, or_false, forall_eq_or_imp, forall_eq]
    exact ⟨by decide, by decide⟩
  have hwf := @wellFormed_init halvingZstd defaultNegotiated _ hflags
  have hkept : (outbound halvingZstd defaultNegotiated zerosResponse).HasKnownFlags :=
    (encodable_outbound _ _ (by decide)).1
  -- the second batch consists of the kept response alone
  obtain ⟨taken, kept, rest, hnil, -, hstep⟩ := @step_eq_some halvingZstd defaultNegotiated [] _
    { queue := []
      deferred := some (outbound halvingZstd defaultNegotiated zerosResponse)
      socket := [] ++ batchFiller.wire
      written := [] ++ [batchFiller] } rfl hkept (by simp) 0
  obtain ⟨rfl, rfl, rfl⟩ : taken = [] ∧ kept = [] ∧ rest = [] := by simpa using hnil
  have hrun : run (step halvingZstd defaultNegotiated) (init [batchFiller, zerosResponse]) [1, 0] =
      some _ :=
    run_cons_eq_some.mpr ⟨_, step_batchFiller, run_cons_eq_some.mpr ⟨_, hstep, rfl⟩⟩
  refine ⟨_, hrun, ⟨rfl, rfl⟩, fun heq => ?_⟩
  rw [encodeAll_eq_socket_iff hflags (wellFormed_of_run hwf hrun)] at heq
  have hmeets := (written_eq_iff hwf hrun ⟨rfl, rfl⟩).mp (by rw [heq]; rfl)
  exact (hmeets.2 _ step_batchFiller).1 _ rfl recompressible_outbound_zerosResponse

end Writer

end MoonLightBridge.Server
