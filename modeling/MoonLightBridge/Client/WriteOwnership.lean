import MoonLightBridge.Client.WritePaths

/-!
# Who owns the arrays of the client

From the moment a frame gets an array until the array is given back, nobody else holds it: not
the pool, no other frame, and not the buffer in which the writer combines a batch. In the same
way no frame is at two places, and no two threads write at the same time.
-/

namespace MoonLightBridge.Client.WritePaths

open Protocol Transition Threads

/-! ### Places -/

namespace WriterPhase

/-- The frame that the writer has taken out of the queue last. -/
@[simp] def judged : WriterPhase → List OutboundFrame
  | .judge out => [out]
  | _ => []

/-- The array for the whole batch. -/
@[simp] def combined : WriterPhase → List Buffer
  | .copy array _ => [array]
  | .write combined _ | .releaseCombined combined _ => combined.toList
  | _ => []

/-- The batch is not written yet. -/
@[simp] def isUnwritten : WriterPhase → Bool
  | .releaseCombined .. | .flush | .unlock _ | .release _ | .stopped => false
  | _ => true

@[simp] def holdsLock : WriterPhase → Bool
  | .combine | .copy .. | .write .. | .releaseCombined .. | .flush | .unlock _ => true
  | _ => false

attribute [simp] afterWrite afterFlush

end WriterPhase

namespace Stage

def isUnwritten : Stage → Bool
  | .flush | .unlock false | .release => false
  | _ => true

def holdsLock : Stage → Bool
  | .isEmpty | .write _ | .flush | .unlock _ => true
  | _ => false

end Stage

namespace Instruction

@[simp] def holdsLock : Instruction → Bool
  | .send stage _ => stage.holdsLock
  | _ => false

/-- The array that the instruction holds. -/
@[simp] def arrays : Instruction → List ℕ
  | .send _ out => [out.bytes.id]
  | _ => []

/-- The frame, as long as it is not written. -/
@[simp] def unwritten : Instruction → List ℕ
  | .send stage out => if stage.isUnwritten then [out.ticket] else []
  | _ => []

end Instruction

namespace Shared

/-- The frames whose arrays the queue and the writer hold. -/
def held (s : Shared) : List OutboundFrame := s.outgoing ++ (s.phase.judged ++ s.batch)

/-- The frames of the batch, as long as they are not written. -/
def unwritten (s : Shared) : List OutboundFrame := if s.phase.isUnwritten then s.batch else []

/-- The frames that are on the socket, and those that the writer will write next. -/
def front (s : Shared) : List OutboundFrame := s.output.frames ++ s.unwritten

/-- The frames about which the writer has not decided yet. -/
def back (s : Shared) : List OutboundFrame := s.phase.judged ++ s.outgoing

/-- The frames in the order in which they are, or will be, on the socket. -/
def sequence (s : Shared) : List OutboundFrame := s.front ++ s.back

end Shared

/-- Where arrays are. -/
def buffers : Holding Shared Instruction where
  shared s := s.pool.ids ++ (s.held.map (·.bytes.id) ++ s.phase.combined.map Buffer.id)
  instruction := Instruction.arrays
  issued s := s.pool.allocated

/-- Where frames are, those that were written included. -/
def tickets : Holding Shared Instruction where
  shared s := s.sequence.map OutboundFrame.ticket
  instruction := Instruction.unwritten
  issued s := s.issued.length

section Steps

variable {options : WriteOptions} {choice : Choice} {s t : Shared} {out : OutboundFrame}
  {stage : Stage} {next : Option Stage}

/-! ### The lock -/

theorem holdsLock_writerSteps (h : WriterSteps options choice s t)
    (hlock : s.phase.holdsLock = true → s.isLocked = true) :
    t.phase.holdsLock.toNat + s.isLocked.toNat = s.phase.holdsLock.toNat + t.isLocked.toNat := by
  cases h with
  | interrupted hphase | kept hphase | gathered hphase => simp [hphase]
  | combined hphase | copied hphase | copiedAll hphase => simp [hphase]
  | taken hphase => rcases hphase with hphase | hphase <;> simp [hphase]
  | dropped hphase | releasedCombined hphase | notCombined hphase | finished hphase =>
    split_ifs <;> simp [hphase]
  | locked hphase hfree => split_ifs <;> simp [hphase, hfree]
  | wrote hphase | flushed hphase =>
    rename_i progress _
    cases progress <;> simp [hphase]
  | unlocked hphase =>
    rw [hlock (by rw [hphase]; rfl), hphase]
    rfl
  | released hphase | drained hphase => rfl

theorem holdsLock_sendSteps (h : SendSteps options choice s out stage t next)
    (hlock : stage.holdsLock = true → s.isLocked = true) :
    (next.any Stage.holdsLock).toNat + s.isLocked.toNat =
      stage.holdsLock.toNat + t.isLocked.toNat := by
  cases h with
  | encoded | looked => split_ifs <;> rfl
  | refused | queued | full | released => rfl
  | locked hfree => simp [hfree, Stage.holdsLock]
  | wrote | flushed =>
    rename_i progress _
    cases progress <;> rfl
  | unlocked =>
    rw [hlock rfl]
    split_ifs <;> rfl

/-- A thread that sends a frame does not touch the state of the writer. -/
theorem writer_of_sendSteps (h : SendSteps options choice s out stage t next) :
    t.phase = s.phase ∧ t.batch = s.batch ∧ t.issued = s.issued := by
  cases h <;> exact ⟨rfl, rfl, rfl⟩

theorem issued_of_writerSteps (h : WriterSteps options choice s t) : t.issued = s.issued := by
  cases h <;> rfl

/-! ### Arrays -/

/-- The arrays that the writer and the pool hold, counted place by place. -/
theorem count_buffers (s : Shared) (b : ℕ) :
    (buffers.shared s).count b = s.pool.ids.count b +
      ((s.outgoing.map (·.bytes.id)).count b + ((s.phase.judged.map (·.bytes.id)).count b +
        (s.batch.map (·.bytes.id)).count b) + (s.phase.combined.map Buffer.id).count b) := by
  simp only [buffers, Shared.held, List.map_append, List.count_append]

/-- The writer passes arrays on, and acquires one for a batch. -/
theorem buffers_writerSteps (h : WriterSteps options choice s t) :
    s.pool.allocated ≤ t.pool.allocated ∧ ∀ b,
      (buffers.shared t).count b ≤ (buffers.shared s).count b ∨
        (s.pool.allocated ≤ b ∧ b < t.pool.allocated) ∧
          (buffers.shared t).count b ≤ (buffers.shared s).count b + 1 := by
  have hrelease := s.pool.count_release choice.keeps
  cases h with
  | interrupted hphase | gathered hphase | unlocked hphase =>
    exact ⟨le_rfl, fun b => .inl (by simp [count_buffers, hphase])⟩
  | copied hphase | copiedAll hphase =>
    exact ⟨le_rfl, fun b => .inl (by simp [count_buffers, hphase])⟩
  | locked hphase | notCombined hphase | finished hphase =>
    refine ⟨le_rfl, fun b => .inl ?_⟩
    split_ifs <;> simp [count_buffers, hphase]
  | wrote hphase | flushed hphase =>
    rename_i progress _
    refine ⟨le_rfl, fun b => .inl ?_⟩
    cases progress <;> simp [count_buffers, hphase]
  | taken hphase houtgoing =>
    refine ⟨le_rfl, fun b => .inl ?_⟩
    rcases hphase with hphase | hphase
    all_goals
      simp only [count_buffers, hphase, houtgoing, WriterPhase.judged, WriterPhase.combined,
        List.map_cons, List.map_nil, List.count_cons, List.count_nil]
      omega
  | kept hphase =>
    refine ⟨le_rfl, fun b => .inl ?_⟩
    simp only [count_buffers, hphase, WriterPhase.judged, WriterPhase.combined, List.map_append,
      List.map_cons, List.map_nil, List.count_append, List.count_nil]
    omega
  | combined hphase =>
    refine ⟨ByteArrayPool.allocated_le_acquire _ _, fun b => ?_⟩
    have hacquire := s.pool.count_acquire (OutboundFrame.wire s.batch).length b
    simp only [count_buffers, hphase, WriterPhase.judged, WriterPhase.combined, List.map_cons,
      List.map_nil, List.count_nil]
    omega
  | @dropped out hphase =>
    refine ⟨(ByteArrayPool.allocated_release _ _ _).ge, fun b => .inl ?_⟩
    have hout := hrelease out.bytes b
    split_ifs
    all_goals
      simp only [count_buffers, hphase, WriterPhase.judged, WriterPhase.combined, List.map_cons,
        List.map_nil, List.count_nil]
      omega
  | @releasedCombined array _ hphase =>
    refine ⟨(ByteArrayPool.allocated_release _ _ _).ge, fun b => .inl ?_⟩
    have harray := hrelease array b
    split_ifs
    all_goals
      simp only [count_buffers, hphase, WriterPhase.judged, WriterPhase.combined,
        Option.toList_some, List.map_cons, List.map_nil, List.count_nil]
      omega
  | @released _ out _ _ hfirst | @drained out _ _ hfirst =>
    refine ⟨(ByteArrayPool.allocated_release _ _ _).ge, fun b => .inl ?_⟩
    have hout := hrelease out.bytes b
    simp only [count_buffers, hfirst, List.map_cons, List.count_cons, List.count_nil] at hout ⊢
    omega

/-- A thread that sends a frame passes its array on to the queue, or to the pool. -/
theorem buffers_sendSteps (h : SendSteps options choice s out stage t next) :
    t.pool.allocated = s.pool.allocated ∧ ∀ b,
      (buffers.shared t).count b + (next.toList.map fun _ => out.bytes.id).count b ≤
        (buffers.shared s).count b + [out.bytes.id].count b := by
  cases h with
  | encoded | refused | locked | looked | wrote | flushed | unlocked | full =>
    refine ⟨rfl, fun b => ?_⟩
    simp [count_buffers]
  | queued =>
    refine ⟨rfl, fun b => ?_⟩
    simp only [count_buffers, List.map_append, List.map_cons, List.map_nil, List.count_append,
      Option.toList_none, List.count_nil]
    omega
  | released =>
    refine ⟨ByteArrayPool.allocated_release _ _ _, fun b => ?_⟩
    have hout := s.pool.count_release choice.keeps out.bytes b
    simp only [count_buffers, Option.toList_none, List.map_nil, List.count_nil]
    omega

/-! ### Frames -/

/-- The writer drops frames, or decides to write the next one. -/
theorem front_writerSteps (h : WriterSteps options choice s t) :
    t.front.Sublist s.front ∧ t.back.Sublist s.back ∨
      ∃ out, s.isExpired out choice.refuses = false ∧ s.back = out :: t.back ∧
        t.front = s.front ++ [out] := by
  cases h with
  | interrupted hphase | gathered hphase | combined hphase | copied hphase =>
    left
    simp [Shared.front, Shared.back, Shared.unwritten, hphase]
  | copiedAll hphase | unlocked hphase | released hphase =>
    left
    simp [Shared.front, Shared.back, Shared.unwritten, hphase]
  | taken hphase houtgoing =>
    left
    rcases hphase with hphase | hphase <;>
      simp [Shared.front, Shared.back, Shared.unwritten, hphase, houtgoing]
  | dropped hphase | locked hphase | releasedCombined hphase | notCombined hphase =>
    left
    split_ifs <;> simp [Shared.front, Shared.back, Shared.unwritten, hphase]
  | kept hphase hexpired =>
    refine .inr ⟨_, hexpired, ?_, ?_⟩
    · simp [Shared.back, hphase]
    · simp [Shared.front, Shared.unwritten, hphase]
  | wrote hphase hwrite =>
    left
    rename_i progress
    rcases Output.frames_of_write hwrite with hframes | ⟨hover, hframes⟩
    · cases progress <;> simp [Shared.front, Shared.back, Shared.unwritten, hphase, hframes]
    · cases progress with
      | going sent => exact absurd rfl (hover sent)
      | done | failed => simp [Shared.front, Shared.back, Shared.unwritten, hphase, hframes]
  | flushed hphase hflush =>
    left
    rename_i progress
    have hframes := Output.frames_of_flush hflush
    cases progress <;> simp [Shared.front, Shared.back, Shared.unwritten, hphase, hframes]
  | finished hphase hbatch =>
    left
    split_ifs <;> simp [Shared.front, Shared.back, Shared.unwritten, hphase, hbatch]
  | drained hphase houtgoing =>
    left
    simp [Shared.front, Shared.back, Shared.unwritten, hphase, houtgoing]

/-- The writer never changes the order of the frames. -/
theorem sequence_writerSteps (h : WriterSteps options choice s t) :
    t.sequence.Sublist s.sequence := by
  unfold Shared.sequence
  rcases front_writerSteps h with ⟨hfront, hback⟩ | ⟨out, -, hback, hfront⟩
  · exact hfront.append hback
  · rw [hfront, hback, List.append_assoc]
    exact .refl _

/-- Where a thread that sends a frame puts it. -/
inductive Places (s : Shared) (out : OutboundFrame) (stage : Stage) (t : Shared)
    (next : Option Stage) : Prop where
  | nowhere : t.front = s.front → t.back = s.back →
      (next.any Stage.isUnwritten = true → stage.isUnwritten = true) →
      Places s out stage t next
  | queue : next = none → stage.isUnwritten = true → t.front = s.front →
      t.back = s.back ++ [out] → Places s out stage t next
  | socket : next.any Stage.isUnwritten = false → stage.isUnwritten = true →
      stage.holdsLock = true → t.front = s.output.frames ++ out :: s.unwritten →
      t.back = s.back → Places s out stage t next

theorem places_sendSteps (h : SendSteps options choice s out stage t next) :
    Places s out stage t next := by
  cases h with
  | encoded | refused | locked | looked | full => exact .nowhere rfl rfl fun _ => rfl
  | wrote hwrite =>
    rename_i sent output progress
    rcases Output.frames_of_write hwrite with hframes | ⟨hover, hframes⟩
    · refine .nowhere ?_ rfl fun _ => rfl
      simp [Shared.front, Shared.unwritten, hframes]
    · have hnext : (Stage.afterWrite progress).isUnwritten = false := by
        cases progress with
        | going sent => exact absurd rfl (hover sent)
        | done | failed => rfl
      refine .socket hnext rfl rfl ?_ rfl
      simp [Shared.front, Shared.unwritten, hframes]
  | flushed hflush =>
    rename_i output progress
    refine .nowhere ?_ rfl ?_
    · simp [Shared.front, Shared.unwritten, Output.frames_of_flush hflush]
    · cases progress <;> exact id
  | unlocked =>
    rename_i isRefused
    refine .nowhere rfl rfl ?_
    cases isRefused <;> exact id
  | queued =>
    refine .queue rfl rfl rfl ?_
    simp [Shared.back]
  | released => exact .nowhere rfl rfl id

/-! ### Instructions -/

variable {instruction : Instruction} {effect : Effect Shared Instruction}

theorem buffers_passes (h : Steps options choice s instruction effect) :
    buffers.Passes s instruction effect := by
  cases h with
  | called | unregistered | allowed =>
    refine ⟨le_rfl, fun b => .inl ?_⟩
    simp [Holding.countAfter, buffers, Shared.held]
  | acquired =>
    rename_i frame isUnary
    refine ⟨ByteArrayPool.allocated_le_acquire _ _, fun b => ?_⟩
    have hacquire := s.pool.count_acquire frame.wire.length b
    simp only [Holding.countAfter, count_buffers, List.flatMap_cons, List.flatMap_nil,
      List.flatten_nil, List.append_nil, List.count_nil]
    simp only [buffers, Instruction.arrays, List.count_nil]
    omega
  | sent hsend =>
    rename_i stage out t next
    obtain ⟨hallocated, hcount⟩ := buffers_sendSteps hsend
    refine ⟨hallocated.ge, fun b => .inl ?_⟩
    have hb := hcount b
    cases next <;> simpa [Holding.countAfter, buffers] using hb
  | wrote hwriter =>
    obtain ⟨hallocated, hcount⟩ := buffers_writerSteps hwriter
    refine ⟨hallocated, fun b => ?_⟩
    have hb := hcount b
    simp only [Holding.countAfter, List.flatMap_cons, List.flatMap_nil, List.flatten_nil]
    exact hb

/-- What a thread that sends a frame holds of it next. -/
theorem flatMap_unwritten_next (next : Option Stage) (out : OutboundFrame) :
    (next.map fun stage => Instruction.send stage out).toList.flatMap Instruction.unwritten =
      if next.any Stage.isUnwritten then [out.ticket] else [] := by
  cases next <;> simp

theorem count_tickets_sendSteps (h : SendSteps options choice s out stage t next) (b : ℕ) :
    (tickets.shared t).count b + (if next.any Stage.isUnwritten then [out.ticket] else []).count b ≤
      (tickets.shared s).count b + (if stage.isUnwritten then [out.ticket] else []).count b := by
  cases places_sendSteps h with
  | nowhere hfront hback hunwritten =>
    simp only [tickets, Shared.sequence, hfront, hback]
    by_cases hnext : next.any Stage.isUnwritten = true
    · rw [if_pos hnext, if_pos (hunwritten hnext)]
    · rw [if_neg hnext, List.count_nil]
      omega
  | queue hnext hstage hfront hback =>
    subst hnext
    rw [hstage]
    simp [tickets, Shared.sequence, hfront, hback, Nat.add_assoc]
  | socket hnext hstage hlock hfront hback =>
    rw [hnext, hstage]
    simp only [tickets, Shared.sequence, hfront, hback, List.map_append, List.map_cons,
      List.count_append, List.count_cons, List.count_nil, Bool.false_eq_true, if_false, if_true]
    simp only [Shared.front, List.map_append, List.count_append]
    omega

theorem tickets_passes (h : Steps options choice s instruction effect) :
    tickets.Passes s instruction effect := by
  cases h with
  | called | unregistered | allowed =>
    refine ⟨le_rfl, fun b => .inl ?_⟩
    simp [Holding.countAfter, tickets, Shared.sequence, Shared.front, Shared.back,
      Shared.unwritten]
  | acquired =>
    rename_i frame isUnary
    have hissued : s.issued.length < (s.issued ++ [frame]).length := by simp
    refine ⟨hissued.le, fun b => ?_⟩
    simp only [Holding.countAfter, tickets, Shared.sequence, Shared.front, Shared.back,
      Shared.unwritten, List.flatMap_cons, List.flatMap_nil, List.flatten_nil, List.append_nil,
      List.count_nil, Instruction.unwritten, Stage.isUnwritten, if_true]
    by_cases hb : b = s.issued.length
    · right
      subst hb
      refine ⟨⟨le_rfl, hissued⟩, ?_⟩
      rw [List.count_singleton_self]
    · left
      have hnone : [s.issued.length].count b = 0 :=
        List.count_eq_zero.mpr fun hmem => hb (List.mem_singleton.mp hmem)
      rw [hnone]
  | sent hsend =>
    rename_i stage out t next
    have hissued : t.issued = s.issued := (writer_of_sendSteps hsend).2.2
    refine ⟨(congrArg List.length hissued).ge, fun b => .inl ?_⟩
    have hcount := count_tickets_sendSteps hsend b
    simp only [Holding.countAfter, List.flatMap_nil, List.flatten_nil, List.count_nil]
    change _ + ((next.map fun stage => Instruction.send stage out).toList.flatMap
      Instruction.unwritten).count b + 0 ≤ _
    rw [flatMap_unwritten_next]
    exact hcount
  | wrote hwriter =>
    refine ⟨(congrArg List.length (issued_of_writerSteps hwriter)).ge, fun b => .inl ?_⟩
    have hcount := ((sequence_writerSteps hwriter).map OutboundFrame.ticket).count_le b
    simp only [Holding.countAfter, List.flatMap_cons, List.flatMap_nil, List.flatten_nil]
    exact hcount

end Steps

/-! ### The lock is held by one thread -/

/-- The lock is held by the thread that is going to release it. -/
def LockHeld (s : Writing) : Prop :=
  s.pending Instruction.holdsLock + s.shared.phase.holdsLock.toNat = s.shared.isLocked.toNat

section LockHeld

variable {options : WriteOptions} {choice : Choice} {s : Writing} {thread : ℕ}
  {instruction : Instruction} {rest : List Instruction} {effect : Effect Shared Instruction}

theorem pending_eq_zero_iff {p : Instruction → Bool} :
    s.pending p = 0 ↔ ∀ i ∈ s.threads.flatten, p i = false := by
  rw [System.pending, List.countP_eq_zero]
  simp

theorem LockHeld.of_phase (h : LockHeld s) (hphase : s.shared.phase.holdsLock = true) :
    s.shared.isLocked = true ∧ ∀ i ∈ s.threads.flatten, i.holdsLock = false := by
  unfold LockHeld at h
  rw [hphase, Bool.toNat_true] at h
  have hle := Bool.toNat_le s.shared.isLocked
  constructor
  · cases hlocked : s.shared.isLocked with
    | true => rfl
    | false =>
      rw [hlocked, Bool.toNat_false] at h
      omega
  · rw [← pending_eq_zero_iff]
    omega

theorem LockHeld.of_instruction (h : LockHeld s)
    (hthread : s.threads[thread]? = some (instruction :: rest))
    (hinstruction : instruction.holdsLock = true) :
    s.shared.isLocked = true ∧ s.shared.phase.holdsLock = false ∧
      ∀ i ∈ s.others thread rest, i.holdsLock = false := by
  have hcount := (perm_others hthread).countP_eq Instruction.holdsLock
  rw [List.countP_cons, if_pos hinstruction] at hcount
  unfold LockHeld System.pending at h
  rw [hcount] at h
  have hle := Bool.toNat_le s.shared.isLocked
  refine ⟨?_, ?_, ?_⟩
  · cases hlocked : s.shared.isLocked with
    | true => rfl
    | false =>
      rw [hlocked, Bool.toNat_false] at h
      omega
  · cases hphase : s.shared.phase.holdsLock with
    | false => rfl
    | true =>
      rw [hphase, Bool.toNat_true] at h
      omega
  · have hnone : (s.others thread rest).countP Instruction.holdsLock = 0 := by omega
    rw [List.countP_eq_zero] at hnone
    simpa using hnone

/-- An instruction passes the lock on to the next one of its thread. -/
theorem holdsLock_steps {s : Shared} (h : Steps options choice s instruction effect)
    (hinstruction : instruction.holdsLock = true → s.isLocked = true)
    (hphase : s.phase.holdsLock = true → s.isLocked = true) :
    effect.next.countP Instruction.holdsLock + effect.started.flatten.countP Instruction.holdsLock +
        effect.shared.phase.holdsLock.toNat + s.isLocked.toNat =
      (if instruction.holdsLock then 1 else 0) + s.phase.holdsLock.toNat +
        effect.shared.isLocked.toNat := by
  cases h with
  | called | unregistered | allowed | acquired =>
    simp [Instruction.holdsLock, Stage.holdsLock]
  | sent hsend =>
    rename_i stage out t next
    have hlock := holdsLock_sendSteps hsend hinstruction
    have hnext : (next.map fun stage => Instruction.send stage out).toList.countP
        Instruction.holdsLock = (next.any Stage.holdsLock).toNat := by
      cases next with
      | none => rfl
      | some stage => cases hstage : stage.holdsLock <;> simp [Instruction.holdsLock, hstage]
    have hstage : (if (Instruction.send stage out).holdsLock then 1 else 0) =
        stage.holdsLock.toNat := by
      cases hstage : stage.holdsLock <;> simp [Instruction.holdsLock, hstage]
    have hwriter : t.phase = s.phase := (writer_of_sendSteps hsend).1
    simp only [hnext, hstage, hwriter, List.flatten_nil, List.countP_nil]
    omega
  | wrote hwriter =>
    have hlock := holdsLock_writerSteps hwriter hphase
    simp only [Instruction.holdsLock, List.countP_cons, List.countP_nil, List.flatten_nil,
      Bool.false_eq_true, if_false]
    omega

theorem LockHeld.advance (h : LockHeld s)
    (hthread : s.threads[thread]? = some (instruction :: rest))
    (hstep : Steps options choice s.shared instruction effect) :
    LockHeld (s.advance thread rest effect) := by
  have hpending := pending_advance hthread effect Instruction.holdsLock
  have hlock := holdsLock_steps hstep
    (fun hinstruction => (h.of_instruction hthread hinstruction).1)
    fun hphase => (h.of_phase hphase).1
  unfold LockHeld at h ⊢
  change _ + effect.shared.phase.holdsLock.toNat = effect.shared.isLocked.toNat
  omega

end LockHeld

end MoonLightBridge.Client.WritePaths
