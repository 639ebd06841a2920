import MoonLightBridge.Client.WriteOwnership

/-!
# What the arrays of the client contain

As long as a frame is not written, its array contains the bytes of the frame, and the array of
a batch contains those of its frames, as far as they have been copied.
-/

namespace MoonLightBridge.Client.WritePaths

open Protocol Transition Threads

/-! ### Arrays -/

namespace Shared

/-- The array of a frame contains its bytes. -/
def Contains (s : Shared) (out : OutboundFrame) : Prop :=
  (s.memory out.bytes.id).take out.length = out.frame.wire

/-- The array that the writer is going to write contains the bytes of the batch. -/
def Gathered (s : Shared) : Prop :=
  match s.phase with
  | .copy array count =>
    (s.memory array.id).take (OutboundFrame.wire (s.batch.take count)).length =
      OutboundFrame.wire (s.batch.take count)
  | .write combined _ =>
    (s.source combined).take (OutboundFrame.wire s.batch).length = OutboundFrame.wire s.batch
  | _ => True

/-- All frames that the queue and the writer hold are intact. -/
structure Intact (s : Shared) : Prop where
  held : ∀ out ∈ s.held, s.Contains out
  gathered : s.Gathered

end Shared

def Instruction.Intact (s : Shared) : Instruction → Prop
  | .send stage out => stage ≠ .encode → s.Contains out
  | _ => True

variable {b : ℕ}

section Contents

variable {options : WriteOptions} {choice : Choice} {s t : Shared} {out : OutboundFrame}
  {stage : Stage} {next : Option Stage}

theorem Shared.Contains.congr (h : s.Contains out)
    (hmemory : t.memory out.bytes.id = s.memory out.bytes.id) : t.Contains out := by
  rw [Contains, hmemory]
  exact h

/-- Bytes that are stored behind those already there. -/
theorem take_overlay {content done : Bytes} (h : content.take done.length = done)
    (bytes : Bytes) :
    (overlay content done.length bytes).take (done.length + bytes.length) = done ++ bytes := by
  rw [overlay, h, ← List.length_append, List.take_left]

variable {array : Buffer} {memory : ℕ → Bytes}

theorem store_of_ne {offset : ℕ} {bytes : Bytes} (h : b ≠ array.id) :
    store memory array offset bytes b = memory b :=
  Function.update_of_ne h _ _

theorem store_self {offset : ℕ} {bytes : Bytes} :
    store memory array offset bytes array.id = overlay (memory array.id) offset bytes :=
  Function.update_self _ _ _

/-- Encoding a frame fills its array. -/
theorem contains_of_store (h : s.memory = store memory out.bytes 0 out.frame.wire) :
    s.Contains out := by
  have hnil : (memory out.bytes.id).take ([] : Bytes).length = [] := rfl
  have hoverlay := take_overlay hnil out.frame.wire
  rw [Shared.Contains, h, store_self]
  simpa [OutboundFrame.length] using hoverlay

/-- A thread stores bytes only in the array of its frame. -/
theorem memory_of_sendSteps (h : SendSteps options choice s out stage t next)
    (hb : b ≠ out.bytes.id) : t.memory b = s.memory b := by
  cases h with
  | encoded => exact store_of_ne hb
  | _ => rfl

/-- The writer stores bytes only in the array of the batch. -/
theorem memory_of_writerSteps (h : WriterSteps options choice s t)
    (hb : b ∉ s.phase.combined.map Buffer.id) : t.memory b = s.memory b := by
  cases h with
  | copied hphase =>
    apply store_of_ne
    rintro rfl
    simp [hphase] at hb
  | _ => rfl

/-- The array that the writer is going to write is one it holds. -/
theorem Shared.Gathered.congr (h : s.Gathered) (hphase : t.phase = s.phase)
    (hbatch : t.batch = s.batch)
    (hmemory : ∀ b ∈ buffers.shared s, t.memory b = s.memory b) : t.Gathered := by
  have hmem (array : Buffer) (harray : array ∈ s.phase.combined) :
      t.memory array.id = s.memory array.id := by
    apply hmemory
    simp only [buffers, List.mem_append]
    exact .inr (.inr (List.mem_map_of_mem harray))
  unfold Shared.Gathered at h ⊢
  rw [hphase, hbatch]
  split
  · rename_i array count heq
    rw [heq] at h
    rw [hmem array (by simp [heq])]
    exact h
  · rename_i combined sent heq
    rw [heq] at h
    have hsource : t.source combined = s.source combined := by
      unfold Shared.source
      rw [hbatch]
      cases combined with
      | some array => exact hmem array (by simp [heq])
      | none =>
        cases hhead : s.batch with
        | nil => rfl
        | cons out rest =>
          apply hmemory
          simp [buffers, Shared.held, hhead]
    rw [hsource]
    exact h
  · trivial

theorem intact_sendSteps (h : SendSteps options choice s out stage t next) (hs : s.Intact)
    (hout : stage ≠ .encode → s.Contains out) (hown : out.bytes.id ∉ buffers.shared s) :
    t.Intact ∧ t.Contains out := by
  have hmemory (b : ℕ) (hb : b ∈ buffers.shared s) : t.memory b = s.memory b :=
    memory_of_sendSteps h fun heq => hown (heq ▸ hb)
  have hcontains : t.Contains out := by
    cases h with
    | encoded => exact contains_of_store rfl
    | _ => exact hout (by simp)
  obtain ⟨hphase, hbatch, -⟩ := writer_of_sendSteps h
  refine ⟨⟨?_, hs.gathered.congr hphase hbatch hmemory⟩, hcontains⟩
  intro other hother
  by_cases hmem : other ∈ s.held
  · apply (hs.held other hmem).congr
    apply hmemory
    simp only [buffers, List.mem_append]
    exact .inr (.inl (List.mem_map_of_mem hmem))
  · -- only the frame itself is put into the queue
    have heq : other = out := by
      cases h with
      | queued => simp_all [Shared.held]
      | _ => exact absurd hother hmem
    rw [heq]
    exact hcontains

/-- The writer holds no frames that it did not hold before. -/
theorem held_writerSteps (h : WriterSteps options choice s t) : ∀ out ∈ t.held, out ∈ s.held := by
  intro other hother
  simp only [Shared.held, List.mem_append] at hother ⊢
  cases h with
  | interrupted hphase | gathered hphase | combined hphase | copied hphase | copiedAll hphase
  | unlocked hphase =>
    simpa [hphase] using hother
  | taken hphase houtgoing =>
    rcases hphase with hphase | hphase
    all_goals
      simp only [hphase, houtgoing, WriterPhase.judged, List.mem_cons,
        List.not_mem_nil] at hother ⊢
      tauto
  | dropped hphase =>
    split_ifs at hother
    all_goals
      simp only [hphase, WriterPhase.judged, List.not_mem_nil] at hother ⊢
      tauto
  | kept hphase =>
    simp only [hphase, WriterPhase.judged, List.mem_append, List.not_mem_nil] at hother ⊢
    tauto
  | locked hphase | releasedCombined hphase | notCombined hphase | finished hphase =>
    split_ifs at hother <;> simpa [hphase] using hother
  | @wrote _ _ _ progress hphase | @flushed _ progress hphase =>
    cases progress <;> simpa [hphase] using hother
  | released hphase hbatch =>
    simp only [hbatch, List.mem_cons] at hother ⊢
    tauto
  | drained hphase houtgoing =>
    simp only [houtgoing, List.mem_cons] at hother ⊢
    tauto

/-- One more frame of the batch is copied. -/
theorem wire_take_succ {batch : List OutboundFrame} {count : ℕ} (h : batch[count]? = some out) :
    OutboundFrame.wire (batch.take (count + 1)) =
      OutboundFrame.wire (batch.take count) ++ out.frame.wire := by
  rw [List.take_add_one, h, OutboundFrame.wire_append, Option.toList_some,
    OutboundFrame.wire_singleton]

theorem gathered_of_copied {count : ℕ} (hs : s.Intact) (hphase : s.phase = .copy array count)
    (hbatch : s.batch[count]? = some out) :
    (store s.memory array (OutboundFrame.wire (s.batch.take count)).length
        ((s.memory out.bytes.id).take out.length) array.id).take
      (OutboundFrame.wire (s.batch.take (count + 1))).length =
        OutboundFrame.wire (s.batch.take (count + 1)) := by
  have hcontains : s.Contains out := by
    apply hs.held
    simp only [Shared.held, List.mem_append]
    exact .inr (.inr (List.mem_of_getElem? hbatch))
  have hgathered := hs.gathered
  simp only [Shared.Gathered, hphase] at hgathered
  rw [store_self, hcontains, wire_take_succ hbatch, List.length_append]
  exact take_overlay hgathered _

theorem gathered_of_locked (hs : s.Intact) (hbatch : s.batch.length = 1) :
    (s.source none).take (OutboundFrame.wire s.batch).length = OutboundFrame.wire s.batch := by
  obtain ⟨out, hout⟩ := List.length_eq_one_iff.mp hbatch
  have hcontains : s.Contains out := by
    apply hs.held
    simp [Shared.held, hout]
  simp only [Shared.source, hout, OutboundFrame.wire_singleton]
  exact hcontains

theorem gathered_writerSteps (h : WriterSteps options choice s t) (hs : s.Intact) :
    t.Gathered := by
  have hgathered := hs.gathered
  unfold Shared.Gathered at hgathered ⊢
  cases h with
  | locked hphase =>
    by_cases hbatch : s.batch.length = 1
    · simp only [if_pos hbatch]
      exact gathered_of_locked hs hbatch
    · simp only [if_neg hbatch]
  | combined hphase => rfl
  | copied hphase hbatch => exact gathered_of_copied hs hphase hbatch
  | copiedAll hphase hbatch =>
    simp only [hphase] at hgathered
    rw [List.take_of_length_le (List.getElem?_eq_none_iff.mp hbatch)] at hgathered
    exact hgathered
  | wrote hphase hwrite =>
    rename_i progress
    rw [hphase] at hgathered
    cases progress with
    | going sent => exact hgathered
    | done | failed => trivial
  | dropped | releasedCombined | notCombined | finished => split_ifs <;> trivial
  | flushed hphase hflush =>
    rename_i progress
    cases progress <;> trivial
  | released hphase | drained hphase => simp only [hphase]
  | _ => trivial

theorem intact_writerSteps (h : WriterSteps options choice s t) (hs : s.Intact)
    (hnodup : (buffers.shared s).Nodup) : t.Intact := by
  refine ⟨?_, gathered_writerSteps h hs⟩
  intro out hout
  have hmem := held_writerSteps h out hout
  apply (hs.held out hmem).congr
  apply memory_of_writerSteps h
  -- the array of the batch is not that of a frame
  simp only [buffers, List.nodup_append] at hnodup
  obtain ⟨-, ⟨-, -, hdisjoint⟩, -⟩ := hnodup
  exact fun hcombined => hdisjoint _ (List.mem_map_of_mem hmem) _ hcombined rfl

end Contents

/-- The arrays contain the frames that are not written yet. -/
structure Intact (s : Writing) : Prop where
  shared : s.shared.Intact
  threads : ∀ i ∈ s.threads.flatten, i.Intact s.shared

section Intact

variable {options : WriteOptions} {choice : Choice} {s : Writing} {thread : ℕ}
  {instruction : Instruction} {rest : List Instruction} {effect : Effect Shared Instruction}

theorem Instruction.Intact.congr {s t : Shared} (h : instruction.Intact s)
    (hmemory : ∀ b ∈ instruction.arrays, t.memory b = s.memory b) : instruction.Intact t := by
  cases instruction with
  | send stage out => exact fun hstage => (h hstage).congr (hmemory _ (List.mem_singleton_self _))
  | _ => trivial

theorem memory_of_steps {s : Shared} (h : Steps options choice s instruction effect)
    (hinstruction : b ∉ instruction.arrays) (hcombined : b ∉ s.phase.combined.map Buffer.id) :
    effect.shared.memory b = s.memory b := by
  cases h with
  | sent hsend =>
    apply memory_of_sendSteps hsend
    rintro rfl
    exact hinstruction (List.mem_singleton_self _)
  | wrote hwriter => exact memory_of_writerSteps hwriter hcombined
  | _ => rfl

theorem intact_steps {s : Shared} (h : Steps options choice s instruction effect) (hs : s.Intact)
    (hinstruction : instruction.Intact s)
    (hown : ∀ b ∈ instruction.arrays, b ∉ buffers.shared s) (hnodup : (buffers.shared s).Nodup) :
    effect.shared.Intact ∧ ∀ i ∈ effect.next, i.Intact effect.shared := by
  cases h with
  | called | unregistered | allowed | acquired =>
    refine ⟨⟨hs.held, hs.gathered⟩, ?_⟩
    simp [Instruction.Intact]
  | sent hsend =>
    obtain ⟨hshared, hcontains⟩ := intact_sendSteps hsend hs hinstruction
      (hown _ (List.mem_singleton_self _))
    refine ⟨hshared, ?_⟩
    simp [Instruction.Intact, hcontains]
  | wrote hwriter =>
    refine ⟨intact_writerSteps hwriter hs hnodup, ?_⟩
    simp [Instruction.Intact]

theorem Intact.advance (h : Intact s) (hbuffers : buffers.Exclusive s)
    (hthread : s.threads[thread]? = some (instruction :: rest))
    (hstep : Steps options choice s.shared instruction effect) :
    Intact (s.advance thread rest effect) := by
  obtain ⟨hshared, hnext⟩ := intact_steps hstep h.shared (h.threads _ (mem_flatten hthread))
    (fun b hb => (hbuffers.not_mem_of_instruction hthread hb).1) hbuffers.nodup
  refine ⟨hshared, forall_advance (Q := fun s i => i.Intact s) hthread h.threads ?_ hnext
    (started_of_steps hstep)⟩
  intro i hi hintact
  apply hintact.congr
  intro b hb
  apply memory_of_steps hstep
  · exact fun hinstruction => (hbuffers.not_mem_of_instruction hthread hinstruction).2 i hi hb
  · intro hcombined
    have hb' : b ∈ buffers.shared s.shared := by
      simp only [buffers, List.mem_append]
      exact .inr (.inr hcombined)
    exact hbuffers.not_mem_of_shared hb' i (mem_flatten_of_mem_others hthread hi) hb

end Intact

end MoonLightBridge.Client.WritePaths
