import MoonLightBridge.Client.WriteContents

/-!
# What the client writes

What is written are whole frames. What is on the socket, together with what the output stream
still holds, are the bytes of the frames that were written, followed by a part of those that
the holder of the lock is writing. When the lock is free, the stream is empty. Once a write
has failed, the socket ends within the frames of this write.
-/

namespace MoonLightBridge.Client.WritePaths

open Protocol Transition Threads

/-! ### The output stream -/

namespace Output

/-- The bytes that have left the arrays are those of the frames that were written, and a part of
those that are being written. -/
def Sent (output : Output) (frames : List OutboundFrame) (sent : ℕ) : Prop :=
  output.torn = none → output.socket ++ output.stream =
    OutboundFrame.wire output.written ++ (OutboundFrame.wire frames).take sent

/-- All frames that were written are on the socket. -/
def Whole (output : Output) : Prop :=
  output.torn = none → output.socket = OutboundFrame.wire output.written ∧ output.stream = []

/-- After a failure, the socket ends within the frames of the write that failed. -/
def Broken (output : Output) : Prop :=
  output.torn ≠ none → output.socket <+: OutboundFrame.wire output.frames

def AfterWrite (output : Output) (frames : List OutboundFrame) : Progress → Prop
  | .going sent => output.Sent frames sent
  | .done => output.Sent [] 0
  | .failed => output.torn ≠ none

def AfterFlush (output : Output) : Progress → Prop
  | .going _ => output.Sent [] 0
  | .done => output.Whole
  | .failed => output.torn ≠ none

variable {output output' : Output} {source : Bytes} {frames : List OutboundFrame}
  {length sent : ℕ} {progress : Progress}

theorem Whole.sent_zero (h : output.Whole) (frames : List OutboundFrame) :
    output.Sent frames 0 := by
  intro htorn
  obtain ⟨hsocket, hstream⟩ := h htorn
  rw [hsocket, hstream, List.take_zero]

theorem whole_of_torn (h : output.torn ≠ none) : output.Whole :=
  fun htorn => absurd htorn h

theorem Sent.pass (h : output.Sent frames sent) (count : ℕ) :
    (output.pass count).Sent frames sent := by
  intro htorn
  have hsent := h htorn
  change (output.socket ++ output.stream.take count) ++ output.stream.drop count = _
  rw [List.append_assoc, List.take_append_drop]
  exact hsent

/-- The next bytes of the array are those of the frames. -/
theorem take_append_slice (hsource : source.take length = OutboundFrame.wire frames) {count : ℕ}
    (hle : sent + count ≤ length) :
    (OutboundFrame.wire frames).take sent ++ slice source sent (sent + count) =
      (OutboundFrame.wire frames).take (sent + count) := by
  rw [← hsource, List.take_take, List.take_take, Nat.min_eq_left hle,
    Nat.min_eq_left (Nat.le_of_add_right_le hle), slice, Nat.add_sub_cancel_left, List.take_add]

theorem Sent.socket_isPrefix (h : output.Sent frames sent) (htorn : output.torn = none) :
    output.socket <+: OutboundFrame.wire (output.written ++ frames) := by
  have hstream : output.socket <+: output.socket ++ output.stream := List.prefix_append _ _
  rw [h htorn] at hstream
  rw [OutboundFrame.wire_append]
  exact hstream.trans ((List.prefix_append_right_inj _).mpr (List.take_prefix _ _))

theorem broken_of_torn_eq_none (h : output.torn = none) : output.Broken :=
  fun htorn => absurd h htorn

theorem Broken.fail (h : output.Broken) (hsent : output.Sent frames sent) :
    (output.fail frames).Broken := by
  intro _
  change output.socket <+: OutboundFrame.wire (output.written ++ output.torn.getD frames)
  cases htorn : output.torn with
  | none => exact hsent.socket_isPrefix htorn
  | some torn =>
    have hbroken := h (htorn ▸ Option.some_ne_none torn)
    rw [Output.frames, htorn] at hbroken
    exact hbroken

theorem after_writeSteps (h : WriteSteps output source frames length sent output' progress)
    (hsource : source.take length = OutboundFrame.wire frames)
    (hlength : length = (OutboundFrame.wire frames).length)
    (hsent : output.Sent frames sent) (hbroken : output.Broken) :
    output'.Broken ∧ output'.AfterWrite frames progress := by
  cases h with
  | failed => exact ⟨hbroken.fail hsent, Option.some_ne_none _⟩
  | moved htorn hle =>
    refine ⟨broken_of_torn_eq_none htorn, fun _ => ?_⟩
    change output.socket ++ (output.stream ++ _) = _
    rw [← List.append_assoc, hsent htorn, List.append_assoc, take_append_slice hsource hle]
  | passed htorn => exact ⟨broken_of_torn_eq_none htorn, hsent.pass _⟩
  | done htorn hall =>
    refine ⟨broken_of_torn_eq_none htorn, fun _ => ?_⟩
    change output.socket ++ output.stream = OutboundFrame.wire (output.written ++ frames) ++ []
    rw [hsent htorn, hall, hlength, List.take_length, OutboundFrame.wire_append, List.append_nil]

theorem after_flushSteps (h : FlushSteps output output' progress) (hsent : output.Sent [] 0)
    (hbroken : output.Broken) : output'.Broken ∧ output'.AfterFlush progress := by
  cases h with
  | failed => exact ⟨hbroken.fail hsent, Option.some_ne_none _⟩
  | passed htorn => exact ⟨broken_of_torn_eq_none htorn, hsent.pass _⟩
  | done htorn hstream =>
    refine ⟨hbroken, fun _ => ⟨?_, hstream⟩⟩
    have hall := hsent htorn
    rw [hstream, List.append_nil] at hall
    simpa using hall

end Output

/-! ### The holder of the lock -/

/-- What a thread that sends a frame knows of the output while it holds the lock. -/
def Stage.Undamaged (output : Output) (out : OutboundFrame) : Stage → Prop
  | .isEmpty | .unlock _ => output.Whole
  | .write sent => output.Sent [out] sent
  | .flush => output.Sent [] 0
  | _ => True

def Instruction.Undamaged (output : Output) : Instruction → Prop
  | .send stage out => stage.Undamaged output out
  | _ => True

/-- What the writer knows of the output while it holds the lock. -/
def WriterPhase.Undamaged (output : Output) (batch : List OutboundFrame) : WriterPhase → Prop
  | .combine | .copy _ _ | .unlock _ => output.Whole
  | .write _ sent => output.Sent batch sent
  | .releaseCombined _ true | .flush => output.Sent [] 0
  | .releaseCombined _ false => output.torn ≠ none
  | _ => True

structure Shared.Undamaged (s : Shared) : Prop where
  broken : s.output.Broken
  free : s.isLocked = false → s.output.Whole
  phase : s.phase.Undamaged s.output s.batch

variable {batch : List OutboundFrame}

section Steps

variable {options : WriteOptions} {choice : Choice} {s t : Shared} {out : OutboundFrame}
  {stage : Stage} {next : Option Stage} {output : Output}

theorem Instruction.undamaged_of_holdsLock_eq_false {instruction : Instruction}
    (h : instruction.holdsLock = false) (output : Output) : instruction.Undamaged output := by
  cases instruction with
  | send stage out =>
    cases stage with
    | isEmpty | write | flush | unlock => cases h
    | _ => trivial
  | _ => trivial

theorem WriterPhase.undamaged_of_holdsLock_eq_false {phase : WriterPhase}
    (h : phase.holdsLock = false) (output : Output) (batch : List OutboundFrame) :
    phase.Undamaged output batch := by
  cases phase with
  | combine | copy | write | releaseCombined | flush | unlock => cases h
  | _ => trivial

variable {progress : Progress}

theorem Stage.undamaged_afterWrite (h : output.AfterWrite [out] progress) :
    (Stage.afterWrite progress).Undamaged output out := by
  cases progress with
  | going | done => exact h
  | failed => exact Output.whole_of_torn h

theorem Stage.undamaged_afterFlush (h : output.AfterFlush progress) :
    (Stage.afterFlush progress).Undamaged output out := by
  cases progress with
  | going | done => exact h
  | failed => exact Output.whole_of_torn h

theorem WriterPhase.undamaged_afterWrite {combined : Option Buffer}
    (h : output.AfterWrite batch progress) :
    (WriterPhase.afterWrite combined progress).Undamaged output batch := by
  cases progress <;> exact h

theorem WriterPhase.undamaged_afterFlush (h : output.AfterFlush progress) :
    (WriterPhase.afterFlush progress).Undamaged output batch := by
  cases progress with
  | going | done => exact h
  | failed => exact Output.whole_of_torn h

/-- Only the holder of the lock touches the output, and the writer is not it. -/
theorem undamaged_sendSteps (h : SendSteps options choice s out stage t next) (hs : s.Undamaged)
    (hstage : stage.Undamaged s.output out) (hcontains : stage ≠ .encode → s.Contains out)
    (hlock : stage.holdsLock = true → s.isLocked = true ∧ s.phase.holdsLock = false) :
    t.Undamaged ∧ ∀ stage' ∈ next, stage'.Undamaged t.output out := by
  cases h with
  | encoded =>
    refine ⟨⟨hs.broken, hs.free, hs.phase⟩, ?_⟩
    intro stage' hnext
    cases hnext
    split_ifs <;> trivial
  | refused | full =>
    refine ⟨hs, ?_⟩
    intro stage' hnext
    cases hnext
    trivial
  | queued | released =>
    refine ⟨⟨hs.broken, hs.free, hs.phase⟩, ?_⟩
    intro stage' hnext
    cases hnext
  | locked hfree =>
    refine ⟨⟨hs.broken, fun hfree => absurd hfree (by simp), hs.phase⟩, ?_⟩
    intro stage' hnext
    cases hnext
    exact hs.free hfree
  | looked =>
    refine ⟨hs, ?_⟩
    intro stage' hnext
    cases hnext
    split_ifs
    · exact Output.Whole.sent_zero hstage [out]
    · exact hstage
  | wrote hwrite =>
    rename_i sent output progress
    obtain ⟨hlocked, hwriter⟩ := hlock rfl
    have hsource : (s.memory out.bytes.id).take out.length = OutboundFrame.wire [out] := by
      rw [OutboundFrame.wire_singleton]
      exact hcontains (by simp)
    have hlength : out.length = (OutboundFrame.wire [out]).length := by
      rw [OutboundFrame.wire_singleton]
      rfl
    obtain ⟨hbroken, hafter⟩ := Output.after_writeSteps hwrite hsource hlength hstage hs.broken
    refine ⟨⟨hbroken, fun hfree => ?_, WriterPhase.undamaged_of_holdsLock_eq_false hwriter _ _⟩, ?_⟩
    · exact absurd (hlocked.symm.trans hfree) (by simp)
    · intro stage' hnext
      cases hnext
      exact Stage.undamaged_afterWrite hafter
  | flushed hflush =>
    rename_i output progress
    obtain ⟨hlocked, hwriter⟩ := hlock rfl
    obtain ⟨hbroken, hafter⟩ := Output.after_flushSteps hflush hstage hs.broken
    refine ⟨⟨hbroken, fun hfree => ?_, WriterPhase.undamaged_of_holdsLock_eq_false hwriter _ _⟩, ?_⟩
    · exact absurd (hlocked.symm.trans hfree) (by simp)
    · intro stage' hnext
      cases hnext
      exact Stage.undamaged_afterFlush hafter
  | unlocked =>
    rename_i isRefused
    refine ⟨⟨hs.broken, fun _ => hstage, hs.phase⟩, ?_⟩
    intro stage' hnext
    cases hnext
    cases isRefused <;> trivial

/-- The writer touches the output only while it holds the lock. -/
theorem output_of_writerSteps (h : WriterSteps options choice s t) :
    t.output = s.output ∨ s.phase.holdsLock = true := by
  cases h with
  | wrote hphase | flushed hphase =>
    right
    rw [hphase]
    rfl
  | _ => exact .inl rfl

theorem undamaged_writerSteps (h : WriterSteps options choice s t) (hs : s.Undamaged)
    (hgathered : s.Gathered) (hlock : s.phase.holdsLock = true → s.isLocked = true) :
    t.Undamaged := by
  have hphase := hs.phase
  cases h with
  | interrupted | taken | kept | gathered => exact ⟨hs.broken, hs.free, trivial⟩
  | dropped | finished =>
    refine ⟨hs.broken, hs.free, ?_⟩
    split_ifs <;> trivial
  | released heq | drained heq =>
    refine ⟨hs.broken, hs.free, ?_⟩
    change s.phase.Undamaged _ _
    rw [heq]
    trivial
  | locked heq hunlocked =>
    have hwhole := hs.free hunlocked
    refine ⟨hs.broken, fun hfree => absurd hfree (by simp), ?_⟩
    split_ifs
    · exact hwhole.sent_zero s.batch
    · exact hwhole
  | combined heq | copied heq =>
    rw [heq] at hphase
    exact ⟨hs.broken, hs.free, hphase⟩
  | copiedAll heq =>
    rw [heq] at hphase
    exact ⟨hs.broken, hs.free, Output.Whole.sent_zero hphase s.batch⟩
  | wrote heq hwrite =>
    simp only [Shared.Gathered, heq] at hgathered
    rw [heq] at hphase hlock
    obtain ⟨hbroken, hafter⟩ := Output.after_writeSteps hwrite hgathered rfl hphase hs.broken
    refine ⟨hbroken, fun hfree => ?_, WriterPhase.undamaged_afterWrite hafter⟩
    exact absurd ((hlock rfl).symm.trans hfree) (by simp)
  | releasedCombined heq | notCombined heq =>
    rename_i isWritten
    rw [heq] at hphase
    refine ⟨hs.broken, hs.free, ?_⟩
    cases isWritten with
    | true => exact hphase
    | false => exact Output.whole_of_torn hphase
  | flushed heq hflush =>
    rw [heq] at hphase hlock
    obtain ⟨hbroken, hafter⟩ := Output.after_flushSteps hflush hphase hs.broken
    refine ⟨hbroken, fun hfree => ?_, WriterPhase.undamaged_afterFlush hafter⟩
    exact absurd ((hlock rfl).symm.trans hfree) (by simp)
  | unlocked heq =>
    rw [heq] at hphase
    exact ⟨hs.broken, fun _ => hphase, trivial⟩

/-- A thread that sends a frame touches the output only while it holds the lock. -/
theorem output_of_sendSteps (h : SendSteps options choice s out stage t next) :
    t.output = s.output ∨ stage.holdsLock = true := by
  cases h with
  | wrote | flushed => exact .inr rfl
  | _ => exact .inl rfl

end Steps

/-- The output consists of whole frames, as far as the holder of the lock is not within one. -/
structure Undamaged (s : Writing) : Prop where
  shared : s.shared.Undamaged
  threads : ∀ i ∈ s.threads.flatten, i.Undamaged s.shared.output

section Undamaged

variable {options : WriteOptions} {choice : Choice} {s : Writing} {thread : ℕ}
  {instruction : Instruction} {rest : List Instruction} {effect : Effect Shared Instruction}

/-- An instruction touches the output only if no other holds the lock. -/
theorem output_of_steps (h : Steps options choice s.shared instruction effect)
    (hheld : LockHeld s) (hthread : s.threads[thread]? = some (instruction :: rest)) :
    effect.shared.output = s.shared.output ∨
      ∀ i ∈ s.others thread rest, i.holdsLock = false := by
  cases h with
  | sent hsend =>
    rcases output_of_sendSteps hsend with houtput | hlock
    · exact .inl houtput
    · exact .inr (hheld.of_instruction hthread hlock).2.2
  | wrote hwriter =>
    rcases output_of_writerSteps hwriter with houtput | hlock
    · exact .inl houtput
    · right
      exact fun i hi => (hheld.of_phase hlock).2 i (mem_flatten_of_mem_others hthread hi)
  | _ => exact .inl rfl

theorem undamaged_steps (h : Steps options choice s.shared instruction effect)
    (hs : Undamaged s) (hintact : Intact s) (hheld : LockHeld s)
    (hthread : s.threads[thread]? = some (instruction :: rest)) :
    effect.shared.Undamaged ∧ ∀ i ∈ effect.next, i.Undamaged effect.shared.output := by
  have hmem := mem_flatten hthread
  cases h with
  | called | unregistered | allowed | acquired =>
    refine ⟨⟨hs.shared.broken, hs.shared.free, hs.shared.phase⟩, ?_⟩
    simp [Instruction.Undamaged, Stage.Undamaged]
  | sent hsend =>
    rename_i stage out t next
    have hlock (hstage : stage.holdsLock = true) :
        s.shared.isLocked = true ∧ s.shared.phase.holdsLock = false :=
      (hheld.of_instruction hthread hstage).imp_right And.left
    obtain ⟨hshared, hnext⟩ := undamaged_sendSteps hsend hs.shared (hs.threads _ hmem)
      (hintact.threads _ hmem) hlock
    refine ⟨hshared, ?_⟩
    simpa [Instruction.Undamaged] using hnext
  | wrote hwriter =>
    refine ⟨?_, by simp [Instruction.Undamaged]⟩
    exact undamaged_writerSteps hwriter hs.shared hintact.shared.gathered
      fun hphase => (hheld.of_phase hphase).1

theorem Undamaged.advance (h : Undamaged s) (hintact : Intact s) (hheld : LockHeld s)
    (hthread : s.threads[thread]? = some (instruction :: rest))
    (hstep : Steps options choice s.shared instruction effect) :
    Undamaged (s.advance thread rest effect) := by
  obtain ⟨hshared, hnext⟩ := undamaged_steps hstep h hintact hheld hthread
  refine ⟨hshared, forall_advance (Q := fun s i => i.Undamaged s.output) hthread h.threads ?_
    hnext (started_of_steps hstep)⟩
  intro i hi hundamaged
  rcases output_of_steps hstep hheld hthread with houtput | hothers
  · rw [houtput]
    exact hundamaged
  · exact Instruction.undamaged_of_holdsLock_eq_false (hothers i hi) _

end Undamaged

/-! ### What is on the socket -/

section Frames

variable {output : Output} {out : OutboundFrame} {s : Writing}

/-- A thread that holds the lock has written nothing but its frame. -/
theorem Stage.Undamaged.exists_sent {stage : Stage} (h : stage.Undamaged output out)
    (hlock : stage.holdsLock = true) :
    ∃ sent, output.Sent (if stage.isUnwritten then [out] else []) sent := by
  cases stage with
  | isEmpty => exact ⟨0, Output.Whole.sent_zero h _⟩
  | write sent => exact ⟨sent, h⟩
  | flush => exact ⟨0, h⟩
  | unlock isRefused => exact ⟨0, Output.Whole.sent_zero h _⟩
  | encode | tryWriteDirect | offer | release => cases hlock

theorem WriterPhase.Undamaged.exists_sent {phase : WriterPhase} (h : phase.Undamaged output batch)
    (hlock : phase.holdsLock = true) :
    ∃ sent, output.Sent (if phase.isUnwritten then batch else []) sent := by
  cases phase with
  | combine | copy | unlock => exact ⟨0, Output.Whole.sent_zero h _⟩
  | write combined sent => exact ⟨sent, h⟩
  | flush => exact ⟨0, h⟩
  | releaseCombined combined isWritten =>
    cases isWritten with
    | true => exact ⟨0, h⟩
    | false => exact ⟨0, fun htorn => absurd htorn h⟩
  | take | judge | gather | lock | release | stopped => cases hlock

theorem Output.Sent.socket_isPrefix_frames {frames : List OutboundFrame} {sent : ℕ}
    (h : output.Sent frames sent) (htorn : output.torn = none) :
    output.socket <+: OutboundFrame.wire (output.frames ++ frames) := by
  rw [Output.frames_of_torn_eq_none htorn]
  exact h.socket_isPrefix htorn

/-- The frames that the holder of the lock is writing. -/
inductive IsWriting (s : Writing) : List OutboundFrame → Prop where
  | nothing : IsWriting s []
  | batch : IsWriting s s.shared.unwritten
  | direct {stage : Stage} {out : OutboundFrame} :
      Instruction.send stage out ∈ s.threads.flatten → stage.holdsLock = true →
      stage.isUnwritten = true → IsWriting s [out]

/-- The socket ends within the frames that are being written. -/
theorem Undamaged.exists_isWriting (h : Undamaged s) (hheld : LockHeld s) :
    ∃ frames, IsWriting s frames ∧ s.shared.output.socket <+:
      OutboundFrame.wire (s.shared.output.frames ++ frames) := by
  by_cases htorn : s.shared.output.torn = none
  · by_cases hphase : s.shared.phase.holdsLock = true
    · obtain ⟨sent, hsent⟩ := h.shared.phase.exists_sent hphase
      exact ⟨_, .batch, hsent.socket_isPrefix_frames htorn⟩
    · by_cases hthread : ∃ i ∈ s.threads.flatten, i.holdsLock = true
      · obtain ⟨i, hi, hlock⟩ := hthread
        cases i with
        | send stage out =>
          obtain ⟨sent, hsent⟩ := (h.threads _ hi : stage.Undamaged _ out).exists_sent hlock
          by_cases hunwritten : stage.isUnwritten = true
          · rw [if_pos hunwritten] at hsent
            exact ⟨_, .direct hi hlock hunwritten, hsent.socket_isPrefix_frames htorn⟩
          · rw [if_neg hunwritten] at hsent
            exact ⟨_, .nothing, hsent.socket_isPrefix_frames htorn⟩
        | _ => cases hlock
      · -- nobody holds the lock
        have hfree : s.shared.isLocked = false := by
          have hnone : s.pending Instruction.holdsLock = 0 := by
            rw [pending_eq_zero_iff]
            intro i hi
            exact Bool.eq_false_iff.mpr fun hlock => hthread ⟨i, hi, hlock⟩
          unfold LockHeld at hheld
          rw [hnone, Bool.eq_false_iff.mpr hphase] at hheld
          exact Bool.toNat_eq_zero.mp hheld.symm
        exact ⟨_, .nothing, ((h.shared.free hfree).sent_zero []).socket_isPrefix_frames htorn⟩
  · refine ⟨_, .nothing, ?_⟩
    rw [List.append_nil]
    exact h.shared.broken htorn

end Frames

end MoonLightBridge.Client.WritePaths
