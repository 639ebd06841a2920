import MoonLightBridge.Client.WriteOutput

/-!
# In which order the client writes

A frame STREAM_CREDIT or CANCEL is sent when the request it is about has been queued or
written, or, by the reader, when the call has left its table. In the second case the writer
drops the request when it comes across it. So on the socket no such frame comes before its
request, although the writer puts the frames of the queue behind those that other threads
write meanwhile.
-/

namespace MoonLightBridge.Client.WritePaths

open Protocol Transition Threads

/-- STREAM_CREDIT and CANCEL frames are about a request. -/
def IsControl (frame : Frame) : Prop := frame.kind = .streamCredit ∨ frame.kind = .cancel

/-- The first frame is about the request that is the second. -/
def Concerns (control request : Frame) : Prop :=
  IsControl control ∧ request.kind = .request ∧ request.requestId = control.requestId

/-! ### Requests -/

/-- Its thread is going to queue or to write the request. -/
def RequestEntry.isSending (entry : RequestEntry) : Bool := entry.isUsed && !entry.hasReturned

/-- What the client knows about a frame that it sends. -/
structure Shared.Admits (s : Shared) (frame : Frame) (isUnary : Bool) : Prop where
  used : frame.kind = .request → (s.requests frame.requestId).isUsed = true ∧
    (s.requests frame.requestId).isUnary = isUnary
  opened : IsControl frame → s.IsOpen frame.requestId

structure Shared.Recorded (s : Shared) (out : OutboundFrame) : Prop where
  issued : s.issued[out.ticket]? = some out.frame
  admits : s.Admits out.frame out.isUnary

/-- What remains true of a request. -/
structure RequestEntry.Continues (entry later : RequestEntry) : Prop where
  isUsed : later.isUsed = true
  isUnary : later.isUnary = entry.isUnary
  hasReturned : entry.hasReturned = true → later.hasReturned = true
  /-- a call does not come back into its table -/
  isRegistered : entry.isRegistered = false → later.isRegistered = false

/-- What the client knows does not become wrong. -/
structure Evolves (s t : Shared) : Prop where
  issued : s.issued <+: t.issued
  requests : ∀ requestId, (s.requests requestId).isUsed = true →
    (s.requests requestId).Continues (t.requests requestId)

section Evolves

variable {options : WriteOptions} {choice : Choice} {s t : Shared} {frame : Frame}
  {out : OutboundFrame} {isUnary : Bool} {requestId : UInt64} {instruction : Instruction}
  {effect : Effect Shared Instruction} {stage : Stage} {next : Option Stage}

theorem Shared.IsOpen.evolve (h : s.IsOpen requestId) (hevolves : Evolves s t) :
    t.IsOpen requestId := by
  obtain ⟨hused, hopen⟩ := h
  have hcontinues := hevolves.requests requestId hused
  refine ⟨hcontinues.isUsed, ?_⟩
  rcases hopen with hreturned | ⟨hunary, hregistered⟩
  · exact .inl (hcontinues.hasReturned hreturned)
  · exact .inr ⟨hcontinues.isUnary.trans hunary, hcontinues.isRegistered hregistered⟩

theorem Shared.Admits.evolve (h : s.Admits frame isUnary) (hevolves : Evolves s t) :
    t.Admits frame isUnary := by
  refine ⟨?_, fun hcontrol => (h.opened hcontrol).evolve hevolves⟩
  intro hkind
  obtain ⟨hused, hunary⟩ := h.used hkind
  have hcontinues := hevolves.requests _ hused
  exact ⟨hcontinues.isUsed, hcontinues.isUnary.trans hunary⟩

theorem Shared.Recorded.evolve (h : s.Recorded out) (hevolves : Evolves s t) : t.Recorded out := by
  refine ⟨?_, h.admits.evolve hevolves⟩
  obtain ⟨later, hlater⟩ := hevolves.issued
  rw [← hlater, List.getElem?_append_left]
  · exact h.issued
  · exact (List.getElem?_eq_some_iff.mp h.issued).1

theorem RequestEntry.Continues.refl {entry : RequestEntry} (h : entry.isUsed = true) :
    entry.Continues entry :=
  ⟨h, rfl, id, id⟩

theorem Evolves.of_requests_eq (hissued : s.issued <+: t.issued)
    (hrequests : t.requests = s.requests) : Evolves s t := by
  refine ⟨hissued, ?_⟩
  intro requestId hused
  rw [hrequests]
  exact .refl hused

/-- What follows from how a single request changes. -/
theorem Evolves.of_update {entry : RequestEntry} (hissued : t.issued = s.issued)
    (hrequests : t.requests = Function.update s.requests requestId entry)
    (hentry : (s.requests requestId).isUsed = true → (s.requests requestId).Continues entry) :
    Evolves s t := by
  refine ⟨hissued ▸ List.prefix_refl _, ?_⟩
  intro other hused
  rw [hrequests]
  by_cases heq : other = requestId
  · subst heq
    rw [Function.update_self]
    exact hentry hused
  · rw [Function.update_of_ne heq]
    exact .refl hused

theorem evolves_of_returned (hissued : t.issued = s.issued)
    (hrequests : t.requests = returned s.requests frame) : Evolves s t := by
  unfold returned at hrequests
  split_ifs at hrequests with hkind
  · exact .of_update hissued hrequests fun hused => ⟨hused, rfl, fun _ => rfl, id⟩
  · exact .of_requests_eq (hissued ▸ List.prefix_refl _) hrequests

theorem evolves_sendSteps (h : SendSteps options choice s out stage t next) : Evolves s t := by
  cases h with
  | queued | released => exact evolves_of_returned rfl rfl
  | _ => exact .of_requests_eq (List.prefix_refl _) rfl

theorem requests_of_writerSteps (h : WriterSteps options choice s t) :
    t.requests = s.requests := by
  cases h <;> rfl

theorem evolves_writerSteps (h : WriterSteps options choice s t) : Evolves s t :=
  .of_requests_eq (issued_of_writerSteps h ▸ List.prefix_refl _) (requests_of_writerSteps h)

theorem evolves_steps (h : Steps options choice s instruction effect) :
    Evolves s effect.shared := by
  cases h with
  | called hkind hunused =>
    refine .of_update rfl rfl fun hused => ?_
    exact absurd (hunused.symm.trans hused) (by simp)
  | unregistered =>
    exact .of_update rfl rfl fun hused => ⟨hused, rfl, id, fun _ => rfl⟩
  | allowed => exact .of_requests_eq (List.prefix_refl _) rfl
  | acquired => exact .of_requests_eq (List.prefix_append _ _) rfl
  | sent hsend => exact evolves_sendSteps hsend
  | wrote hwriter => exact evolves_writerSteps hwriter

end Evolves

/-! ### The order of the frames -/

/-- The frames that will be written are in order. In front of a request that the writer has not
seen yet there may be a frame that concerns it, but then the request is going to be dropped. -/
structure Shared.Ordered (s : Shared) : Prop where
  recorded : ∀ out ∈ s.sequence, s.Recorded out
  front : s.front.Pairwise fun out later => ¬ Concerns out.frame later.frame
  sequence : s.sequence.Pairwise fun out later => Concerns out.frame later.frame →
    (s.requests later.frame.requestId).isRegistered = false

section Ordered

variable {options : WriteOptions} {choice : Choice} {s t : Shared} {frame : Frame}
  {out : OutboundFrame} {stage : Stage} {next : Option Stage}

theorem not_concerns_of_request {request other : Frame} (h : request.kind = .request) :
    ¬ Concerns request other := by
  rintro ⟨hcontrol | hcontrol, -⟩ <;> exact absurd (hcontrol.symm.trans h) (by simp)

theorem pairwise_insert {R : OutboundFrame → OutboundFrame → Prop}
    {before after : List OutboundFrame}
    (h : (before ++ after).Pairwise R) (hbefore : ∀ other ∈ before, R other out)
    (hafter : ∀ other ∈ after, R out other) : (before ++ out :: after).Pairwise R := by
  rw [List.pairwise_append] at h ⊢
  obtain ⟨hfirst, hlast, hacross⟩ := h
  refine ⟨hfirst, .cons hafter hlast, ?_⟩
  intro first hmem last hlast
  rcases List.mem_cons.mp hlast with rfl | hlast
  · exact hbefore first hmem
  · exact hacross first hmem last hlast

namespace Shared.Ordered

/-- A request that is going to be dropped remains so. -/
theorem pairwise_evolve (h : s.Ordered) (hevolves : Evolves s t) :
    s.sequence.Pairwise fun out later => Concerns out.frame later.frame →
      (t.requests later.frame.requestId).isRegistered = false := by
  apply h.sequence.imp_of_mem
  intro out later _ hlater hregistered hconcerns
  have hused := ((h.recorded later hlater).admits.used hconcerns.2.1).1
  exact (hevolves.requests _ hused).isRegistered (hregistered hconcerns)

theorem evolve (h : s.Ordered) (hevolves : Evolves s t) (hfront : t.front.Sublist s.front)
    (hsequence : t.sequence.Sublist s.sequence) : t.Ordered :=
  ⟨fun out hout => (h.recorded out (hsequence.subset hout)).evolve hevolves,
    h.front.sublist hfront, (h.pairwise_evolve hevolves).sublist hsequence⟩

/-- A frame that concerns a request can only be there if the request has been dealt with. -/
theorem isOpen_of_concerns (h : s.Ordered) {other : OutboundFrame} (hother : other ∈ s.sequence)
    (hconcerns : Concerns other.frame frame) : s.IsOpen frame.requestId := by
  rw [hconcerns.2.2]
  exact (h.recorded other hother).admits.opened hconcerns.1

/-- No frame concerns a unary request that is not written yet. -/
theorem not_concerns_of_isUnary (h : s.Ordered) {other : OutboundFrame}
    (hother : other ∈ s.sequence) (hunary : (s.requests frame.requestId).isUnary = true)
    (hsending : (s.requests frame.requestId).hasReturned = false) :
    ¬ Concerns other.frame frame := by
  intro hconcerns
  obtain ⟨-, hreturned | ⟨hstream, -⟩⟩ := h.isOpen_of_concerns hother hconcerns
  · exact absurd (hsending.symm.trans hreturned) (by simp)
  · exact absurd (hstream.symm.trans hunary) (by simp)

/-- The writer judges requests by whether their calls are registered. -/
theorem not_concerns_of_not_isExpired {later : List OutboundFrame} {isLate : Bool}
    (h : s.Ordered) (hexpired : s.isExpired out isLate = false) (hback : s.back = out :: later) :
    ∀ other ∈ s.front, ¬ Concerns other.frame out.frame := by
  intro other hother hconcerns
  have hsequence := h.sequence
  rw [Shared.sequence, hback] at hsequence
  have hunregistered := (List.pairwise_append.mp hsequence).2.2 other hother out
    List.mem_cons_self hconcerns
  simp [Shared.isExpired, hconcerns.2.1, hunregistered] at hexpired

end Shared.Ordered

theorem ordered_writerSteps (h : WriterSteps options choice s t) (hs : s.Ordered) : t.Ordered := by
  have hsequence := sequence_writerSteps h
  rcases front_writerSteps h with ⟨hfront, -⟩ | ⟨out, hexpired, hback, hfront⟩
  · exact hs.evolve (evolves_writerSteps h) hfront hsequence
  · have hkept := hs.not_concerns_of_not_isExpired hexpired hback
    refine ⟨?_, ?_, ?_⟩
    · intro other hother
      exact (hs.recorded other (hsequence.subset hother)).evolve (evolves_writerSteps h)
    · rw [hfront, List.pairwise_append]
      refine ⟨hs.front, List.pairwise_singleton _ _, ?_⟩
      intro other hother later hlater
      rw [List.mem_singleton.mp hlater]
      exact hkept other hother
    · rw [requests_of_writerSteps h]
      exact hs.sequence.sublist hsequence

/-- A frame that is queued comes behind all others. -/
theorem Shared.Ordered.queue (h : s.Ordered) (hevolves : Evolves s t) (hout : s.Recorded out)
    (hsending : out.frame.kind = .request →
      (s.requests out.frame.requestId).hasReturned = false)
    (hfront : t.front = s.front) (hback : t.back = s.back ++ [out]) : t.Ordered := by
  have hsequence : t.sequence = s.sequence ++ [out] := by
    rw [Shared.sequence, Shared.sequence, hfront, hback, List.append_assoc]
  refine ⟨?_, hfront ▸ h.front, ?_⟩
  · intro other hother
    rw [hsequence, List.mem_append, List.mem_singleton] at hother
    rcases hother with hother | rfl
    · exact (h.recorded other hother).evolve hevolves
    · exact hout.evolve hevolves
  · rw [hsequence, List.pairwise_append]
    refine ⟨h.pairwise_evolve hevolves, List.pairwise_singleton _ _, ?_⟩
    -- the reader has sent the other frame, so the call has left its table
    intro other hother later hlater hconcerns
    rw [List.mem_singleton.mp hlater] at hconcerns ⊢
    obtain ⟨hused, hreturned | ⟨-, hregistered⟩⟩ := h.isOpen_of_concerns hother hconcerns
    · exact absurd ((hsending hconcerns.2.1).symm.trans hreturned) (by simp)
    · exact (hevolves.requests _ hused).isRegistered hregistered

/-- A unary request that its thread has written comes before the frames that the writer holds. -/
theorem Shared.Ordered.insert (h : s.Ordered) (hevolves : Evolves s t) (hout : s.Recorded out)
    (hkind : out.frame.kind = .request) (hunary : out.isUnary = true)
    (hsending : (s.requests out.frame.requestId).hasReturned = false)
    (hfront : t.front = s.output.frames ++ out :: s.unwritten) (hback : t.back = s.back) :
    t.Ordered := by
  have hsequence : t.sequence = s.output.frames ++ out :: (s.unwritten ++ s.back) := by
    rw [Shared.sequence, hfront, hback, List.append_assoc, List.cons_append]
  have hsequence' : s.sequence = s.output.frames ++ (s.unwritten ++ s.back) := by
    rw [Shared.sequence, Shared.front, List.append_assoc]
  have hunary' : (s.requests out.frame.requestId).isUnary = true :=
    (hout.admits.used hkind).2.trans hunary
  have hbefore (other : OutboundFrame) (hother : other ∈ s.output.frames) :
      ¬ Concerns other.frame out.frame :=
    h.not_concerns_of_isUnary (hsequence' ▸ List.mem_append_left _ hother) hunary' hsending
  have hafter (other : OutboundFrame) : ¬ Concerns out.frame other.frame :=
    not_concerns_of_request hkind
  refine ⟨?_, ?_, ?_⟩
  · intro other hother
    rw [hsequence, (List.perm_middle).mem_iff, ← hsequence', List.mem_cons] at hother
    rcases hother with rfl | hother
    · exact hout.evolve hevolves
    · exact (h.recorded other hother).evolve hevolves
  · rw [hfront]
    exact pairwise_insert h.front hbefore fun other _ => hafter other
  · rw [hsequence]
    have hold := h.pairwise_evolve hevolves
    rw [hsequence'] at hold
    apply pairwise_insert hold
    · exact fun other hother hconcerns => absurd hconcerns (hbefore other hother)
    · exact fun other _ hconcerns => absurd hconcerns (hafter other)

end Ordered

/-! ### The threads that send frames -/

namespace Stage

/-- The thread may write the frame itself. -/
def isDirect : Stage → Bool
  | .encode | .offer | .release => false
  | _ => true

theorem isDirect_of_holdsLock {stage : Stage} (h : stage.holdsLock = true) :
    stage.isDirect = true := by
  cases stage with
  | encode | tryWriteDirect | offer | release => cases h
  | _ => rfl

end Stage

namespace Instruction

/-- What is known about the frame that an instruction sends. -/
def Ordered (s : Shared) : Instruction → Prop
  | .acquire frame isUnary => s.Admits frame isUnary
  | .send stage out =>
    s.Recorded out ∧ (stage.isDirect = true → out.frame.kind = .request ∧ out.isUnary = true)
  | _ => True

/-- The instruction sends the request with the given id. -/
def isRequest (requestId : UInt64) : Instruction → Bool
  | .acquire frame _ => frame.kind = .request ∧ frame.requestId = requestId
  | .send _ out => out.frame.kind = .request ∧ out.frame.requestId = requestId
  | _ => false

theorem Ordered.evolve {s t : Shared} {instruction : Instruction} (h : instruction.Ordered s)
    (hevolves : Evolves s t) : instruction.Ordered t := by
  cases instruction with
  | acquire frame isUnary => exact Shared.Admits.evolve h hevolves
  | send stage out => exact ⟨h.1.evolve hevolves, h.2⟩
  | _ => trivial

end Instruction

section Threads

variable {options : WriteOptions} {choice : Choice} {s t : Shared} {frame : Frame}
  {out : OutboundFrame} {stage : Stage} {next : Option Stage} {instruction : Instruction}
  {effect : Effect Shared Instruction}

/-- Only unary requests are written by their own threads. -/
theorem isDirect_sendSteps (h : SendSteps options choice s out stage t next)
    (hstage : stage.isDirect = true → out.frame.kind = .request ∧ out.isUnary = true) :
    ∀ stage' ∈ next, stage'.isDirect = true → out.frame.kind = .request ∧ out.isUnary = true := by
  intro stage' hnext hdirect
  cases h with
  | encoded =>
    cases hnext
    split_ifs at hdirect with hunary
    · exact hunary
    · cases hdirect
  | refused | locked | looked | wrote | flushed | unlocked => exact hstage rfl
  | full =>
    cases hnext
    cases hdirect
  | queued | released => cases hnext

theorem ordered_sendSteps (h : SendSteps options choice s out stage t next) (hs : s.Ordered)
    (hout : (Instruction.send stage out).Ordered s)
    (hsending : out.frame.kind = .request →
      (s.requests out.frame.requestId).hasReturned = false) :
    t.Ordered := by
  obtain ⟨hrecorded, hdirect⟩ := hout
  have hevolves := evolves_sendSteps h
  cases places_sendSteps h with
  | nowhere hfront hback _ =>
    apply hs.evolve hevolves
    · rw [hfront]
    · rw [Shared.sequence, Shared.sequence, hfront, hback]
  | queue _ _ hfront hback => exact hs.queue hevolves hrecorded hsending hfront hback
  | socket _ _ hlock hfront hback =>
    obtain ⟨hkind, hunary⟩ := hdirect (Stage.isDirect_of_holdsLock hlock)
    exact hs.insert hevolves hrecorded hkind hunary (hsending hkind) hfront hback

theorem admits_of_maySend (h : s.maySend frame = true) : s.Admits frame false := by
  unfold Shared.maySend at h
  constructor
  · intro hkind
    simp [hkind] at h
  · rintro (hkind | hkind) <;> simpa [hkind] using h

theorem requests_of_sendSteps (h : SendSteps options choice s out stage t next) :
    (∃ stage', next = some stage') ∧ t.requests = s.requests ∨
      next = none ∧ t.requests = returned s.requests out.frame := by
  cases h with
  | queued | released => exact .inr ⟨rfl, rfl⟩
  | _ => exact .inl ⟨⟨_, rfl⟩, rfl⟩

theorem isSending_returned (requests : UInt64 → RequestEntry) (frame : Frame)
    (requestId : UInt64) :
    (returned requests frame requestId).isSending = ((requests requestId).isSending &&
      !decide (frame.kind = .request ∧ frame.requestId = requestId)) := by
  unfold returned
  by_cases hkind : frame.kind = .request
  · rw [if_pos hkind]
    by_cases hid : frame.requestId = requestId
    · simp [hkind, hid, RequestEntry.isSending]
    · rw [Function.update_of_ne (Ne.symm hid)]
      simp [hid]
  · rw [if_neg hkind]
    simp [hkind]

/-- A thread sends a request as long as it has not returned. -/
theorem isRequest_steps (h : Steps options choice s instruction effect) (requestId : UInt64)
    (hinstruction : instruction.isRequest requestId = true →
      (s.requests requestId).isSending = true) :
    effect.next.countP (Instruction.isRequest requestId) +
        effect.started.flatten.countP (Instruction.isRequest requestId) +
        (s.requests requestId).isSending.toNat =
      (if instruction.isRequest requestId then 1 else 0) +
        (effect.shared.requests requestId).isSending.toNat := by
  cases h with
  | called hkind hunused =>
    rename_i frame isUnary
    by_cases hid : requestId = frame.requestId
    · subst hid
      simp [register, Instruction.isRequest, RequestEntry.isSending, hkind, hunused]
    · simp [register, Instruction.isRequest, Function.update_of_ne hid, Ne.symm hid]
  | unregistered =>
    rename_i other
    by_cases hid : requestId = other
    · subst hid
      simp [unregister, Instruction.isRequest, RequestEntry.isSending]
    · simp [unregister, Instruction.isRequest, Function.update_of_ne hid]
  | allowed hmay =>
    rename_i frame
    have hkind : frame.kind ≠ .request := fun hkind => by simp [Shared.maySend, hkind] at hmay
    simp [Instruction.isRequest, hkind]
  | acquired => simp [Instruction.isRequest, List.countP_cons]
  | sent hsend =>
    rename_i stage out t next
    rcases requests_of_sendSteps hsend with ⟨⟨stage', rfl⟩, hrequests⟩ | ⟨rfl, hrequests⟩
    · simp [hrequests, Instruction.isRequest, List.countP_cons]
    · simp only [Option.map_none, Option.toList_none, List.countP_nil, List.flatten_nil,
        hrequests, isSending_returned]
      by_cases hrequest : (Instruction.send stage out).isRequest requestId = true
      · rw [if_pos hrequest, hinstruction hrequest]
        have hframe : decide (out.frame.kind = .request ∧ out.frame.requestId = requestId) = true :=
          hrequest
        rw [hframe]
        rfl
      · rw [if_neg hrequest]
        have hframe :
            decide (out.frame.kind = .request ∧ out.frame.requestId = requestId) = false :=
          Bool.eq_false_iff.mpr hrequest
        simp [hframe]
  | wrote hwriter =>
    simp [Instruction.isRequest, requests_of_writerSteps hwriter]

theorem ordered_next (h : Steps options choice s instruction effect)
    (hinstruction : instruction.Ordered s) :
    ∀ i ∈ effect.next, i.Ordered effect.shared := by
  have hevolves := evolves_steps h
  cases h with
  | called hkind hunused =>
    rename_i frame isUnary
    rw [List.forall_mem_singleton]
    refine ⟨fun _ => ?_, ?_⟩
    · change (register s.requests frame.requestId isUnary frame.requestId).isUsed = true ∧ _
      simp [register]
    · rintro (hcontrol | hcontrol) <;> exact absurd (hcontrol.symm.trans hkind) (by simp)
  | unregistered => exact List.forall_mem_nil _
  | allowed hmay => exact List.forall_mem_singleton.mpr (admits_of_maySend hmay)
  | acquired =>
    rw [List.forall_mem_singleton]
    refine ⟨⟨?_, Shared.Admits.evolve hinstruction hevolves⟩, fun hdirect => ?_⟩
    · exact List.getElem?_concat_length
    · cases hdirect
  | sent hsend =>
    intro i hi
    rw [Option.mem_toList, Option.map_eq_some_iff] at hi
    obtain ⟨stage', hstage', rfl⟩ := hi
    obtain ⟨hrecorded, hdirect⟩ := hinstruction
    exact ⟨hrecorded.evolve hevolves, isDirect_sendSteps hsend hdirect stage' hstage'⟩
  | wrote => exact List.forall_mem_singleton.mpr trivial

end Threads

/-- The frames are in order, and for each request that is being sent there is one thread. -/
structure Ordered (s : Writing) : Prop where
  shared : s.shared.Ordered
  threads : ∀ i ∈ s.threads.flatten, i.Ordered s.shared
  pending : ∀ requestId, s.pending (Instruction.isRequest requestId) =
    (s.shared.requests requestId).isSending.toNat

namespace Ordered

variable {options : WriteOptions} {choice : Choice} {s : Writing} {thread : ℕ}
  {instruction : Instruction} {rest : List Instruction} {effect : Effect Shared Instruction}
  {requestId : UInt64}

theorem isSending (h : Ordered s) (hi : instruction ∈ s.threads.flatten)
    (hrequest : instruction.isRequest requestId = true) :
    (s.shared.requests requestId).isSending = true := by
  have hpos : 0 < s.pending (Instruction.isRequest requestId) :=
    List.countP_pos_iff.mpr ⟨instruction, hi, hrequest⟩
  rw [h.pending] at hpos
  cases hsending : (s.shared.requests requestId).isSending with
  | true => rfl
  | false =>
    rw [hsending] at hpos
    exact absurd hpos (Nat.lt_irrefl 0)

/-- A thread that sends a request has not returned. -/
theorem hasReturned_eq_false (h : Ordered s) {stage : Stage} {out : OutboundFrame}
    (hi : Instruction.send stage out ∈ s.threads.flatten) (hkind : out.frame.kind = .request) :
    (s.shared.requests out.frame.requestId).hasReturned = false := by
  have hsending : (s.shared.requests out.frame.requestId).isSending = true :=
    h.isSending hi (by simp [Instruction.isRequest, hkind])
  simp only [RequestEntry.isSending, Bool.and_eq_true, Bool.not_eq_true'] at hsending
  exact hsending.2

theorem shared_steps (h : Ordered s) (hi : instruction ∈ s.threads.flatten)
    (hstep : Steps options choice s.shared instruction effect) : effect.shared.Ordered := by
  have hevolves := evolves_steps hstep
  cases hstep with
  | called | unregistered | allowed | acquired =>
    exact h.shared.evolve hevolves (.refl _) (.refl _)
  | sent hsend =>
    exact ordered_sendSteps hsend h.shared (h.threads _ hi) (h.hasReturned_eq_false hi)
  | wrote hwriter => exact ordered_writerSteps hwriter h.shared

theorem advance (h : Ordered s) (hthread : s.threads[thread]? = some (instruction :: rest))
    (hstep : Steps options choice s.shared instruction effect) :
    Ordered (s.advance thread rest effect) := by
  have hi := mem_flatten hthread
  refine ⟨h.shared_steps hi hstep, ?_, ?_⟩
  · exact forall_advance (Q := fun s i => i.Ordered s) hthread h.threads
      (fun i _ hordered => hordered.evolve (evolves_steps hstep))
      (ordered_next hstep (h.threads _ hi)) (started_of_steps hstep)
  · intro requestId
    have hpending := pending_advance hthread effect (Instruction.isRequest requestId)
    have hrequest := isRequest_steps hstep requestId (h.isSending hi)
    have hbefore := h.pending requestId
    change _ = (effect.shared.requests requestId).isSending.toNat
    omega

end Ordered

/-! ### Every run -/

structure Invariant (s : Writing) : Prop where
  lockHeld : LockHeld s
  buffers : buffers.Exclusive s
  tickets : tickets.Exclusive s
  intact : Intact s
  undamaged : Undamaged s
  ordered : Ordered s

section Run

variable {options : WriteOptions} {s t : Writing} {label : Label Call Choice}

theorem invariant_init (memory : ℕ → Bytes) (bufferPooling : Bool) :
    Invariant (init memory bufferPooling) where
  lockHeld := rfl
  buffers := by
    intro b
    simp [Holding.count, buffers, init, ByteArrayPool.ids, Shared.held]
  tickets := by
    intro b
    simp [Holding.count, tickets, init, Shared.sequence, Shared.front, Shared.back,
      Shared.unwritten, Output.frames]
  intact := by
    refine ⟨⟨?_, trivial⟩, ?_⟩
    · simp [init, Shared.held]
    · simp [init, Instruction.Intact]
  undamaged := by
    refine ⟨⟨fun htorn => absurd rfl htorn, fun _ _ => ⟨rfl, rfl⟩, trivial⟩, ?_⟩
    simp [init, Instruction.Undamaged]
  ordered := by
    refine ⟨⟨?_, ?_, ?_⟩, ?_, fun _ => rfl⟩
    · exact fun out hout => absurd hout List.not_mem_nil
    · exact .nil
    · exact .nil
    · simp [init, Instruction.Ordered]

/-- What holds of all pending instructions, and of those of a new thread. -/
theorem forall_start {Q : Instruction → Prop} {call : Call}
    (h : ∀ i ∈ s.threads.flatten, Q i) (hprogram : ∀ i ∈ call.program, Q i) :
    ∀ i ∈ (s.threads ++ [call.program]).flatten, Q i := by
  intro i hi
  rw [List.flatten_append, List.flatten_singleton, List.mem_append] at hi
  rcases hi with hi | hi
  · exact h i hi
  · exact hprogram i hi

/-- A new thread holds nothing. -/
theorem invariant_start (h : Invariant s) (call : Call) :
    Invariant { s with threads := s.threads ++ [call.program] } where
  lockHeld := by
    have hprogram : call.program.countP Instruction.holdsLock = 0 := by cases call <;> rfl
    unfold LockHeld
    rw [pending_start, hprogram]
    exact h.lockHeld
  buffers := by
    apply h.buffers.start
    cases call <;> simp [Call.program, WritePaths.buffers]
  tickets := by
    apply h.tickets.start
    cases call <;> simp [Call.program, WritePaths.tickets]
  intact := by
    refine ⟨h.intact.shared, forall_start h.intact.threads ?_⟩
    cases call <;> simp [Call.program, Instruction.Intact]
  undamaged := by
    refine ⟨h.undamaged.shared, forall_start h.undamaged.threads ?_⟩
    cases call <;> simp [Call.program, Instruction.Undamaged]
  ordered := by
    refine ⟨h.ordered.shared, forall_start h.ordered.threads ?_, fun requestId => ?_⟩
    · cases call <;> simp [Call.program, Instruction.Ordered]
    · have hprogram : call.program.countP (Instruction.isRequest requestId) = 0 := by
        cases call <;> rfl
      rw [pending_start, hprogram]
      exact h.ordered.pending requestId

theorem invariant_step (h : Invariant s) (hstep : step options s label = some t) :
    Invariant t := by
  cases label with
  | start call =>
    cases hstep
    exact invariant_start h call
  | step thread choice =>
    obtain ⟨instruction, rest, effect, hthread, hexec, rfl⟩ := step_eq_some hstep
    have hsteps := steps_of_exec hexec
    exact ⟨h.lockHeld.advance hthread hsteps, h.buffers.advance hthread (buffers_passes hsteps),
      h.tickets.advance hthread (tickets_passes hsteps), h.intact.advance h.buffers hthread hsteps,
      h.undamaged.advance h.intact h.lockHeld hthread hsteps, h.ordered.advance hthread hsteps⟩

theorem invariant_run {memory : ℕ → Bytes} {bufferPooling : Bool}
    {w : List (Label Call Choice)}
    (h : run (step options) (init memory bufferPooling) w = some s) : Invariant s :=
  run_invariant (fun hinvariant hstep => invariant_step hinvariant hstep) h
    (invariant_init memory bufferPooling)

/-! ### The frames on the socket -/

/-- Each frame was issued, is there once, and does not come before a request that it concerns. -/
structure OnSocket (s : Shared) (frames : List OutboundFrame) : Prop where
  nodup : (frames.map OutboundFrame.ticket).Nodup
  issued : ∀ out ∈ frames, s.issued[out.ticket]? = some out.frame
  ordered : frames.Pairwise fun out later => ¬ Concerns out.frame later.frame

theorem Invariant.onSocket_of_sublist {frames : List OutboundFrame} (h : Invariant s)
    (hfront : frames.Sublist s.shared.front) : OnSocket s.shared frames := by
  have hsequence : frames.Sublist s.shared.sequence := hfront.trans (List.sublist_append_left _ _)
  exact ⟨h.tickets.nodup.sublist (hsequence.map _),
    fun out hout => (h.ordered.shared.recorded out (hsequence.subset hout)).issued,
    h.ordered.shared.front.sublist hfront⟩

/-- A thread that writes its frame is the only one that has it, and nobody has sent a frame
that concerns it. -/
theorem Invariant.onSocket_of_direct {stage : Stage} {out : OutboundFrame} (h : Invariant s)
    (hi : Instruction.send stage out ∈ s.threads.flatten) (hlock : stage.holdsLock = true)
    (hunwritten : stage.isUnwritten = true) :
    OnSocket s.shared (s.shared.output.frames ++ [out]) := by
  have hbefore := h.onSocket_of_sublist (List.sublist_append_left _ _)
  obtain ⟨hrecorded, hdirect⟩ := h.ordered.threads _ hi
  obtain ⟨hkind, hunary⟩ := hdirect (Stage.isDirect_of_holdsLock hlock)
  have hmem {other : OutboundFrame} (hother : other ∈ s.shared.output.frames) :
      other ∈ s.shared.sequence :=
    List.mem_append_left _ (List.mem_append_left _ hother)
  refine ⟨?_, ?_, ?_⟩
  · rw [List.map_append, List.nodup_append]
    refine ⟨hbefore.nodup, List.nodup_singleton _, ?_⟩
    rintro ticket hticket _ hout rfl
    rw [List.map_singleton, List.mem_singleton] at hout
    obtain ⟨other, hother, rfl⟩ := List.mem_map.mp hticket
    have hshared : other.ticket ∈ WritePaths.tickets.shared s.shared :=
      List.mem_map_of_mem (hmem hother)
    apply h.tickets.not_mem_of_shared hshared _ hi
    change other.ticket ∈ if stage.isUnwritten then [out.ticket] else []
    rw [if_pos hunwritten, hout]
    exact List.mem_singleton_self _
  · exact List.forall_mem_append.mpr
      ⟨hbefore.issued, List.forall_mem_singleton.mpr hrecorded.issued⟩
  · rw [List.pairwise_append]
    refine ⟨hbefore.ordered, List.pairwise_singleton _ _, ?_⟩
    intro other hother later hlater
    rw [List.mem_singleton.mp hlater]
    exact h.ordered.shared.not_concerns_of_isUnary (hmem hother)
      ((hrecorded.admits.used hkind).2.trans hunary) (h.ordered.hasReturned_eq_false hi hkind)

theorem Invariant.onSocket {frames : List OutboundFrame} (h : Invariant s)
    (hwriting : IsWriting s frames) : OnSocket s.shared (s.shared.output.frames ++ frames) := by
  cases hwriting with
  | nothing =>
    rw [List.append_nil]
    exact h.onSocket_of_sublist (List.sublist_append_left _ _)
  | batch => exact h.onSocket_of_sublist (.refl _)
  | direct hi hlock hunwritten => exact h.onSocket_of_direct hi hlock hunwritten

/-- A unary call writes its request itself, and is cancelled. The writer sends the CANCEL from
the array that the request was in. -/
def cancelledRun : List (Label Call Choice) :=
  let direct := [.start (.request (.new .request 7 1 []) true)] ++
    List.replicate 5 (.step 1 (.plain false true)) ++ [.step 1 (.moves 24)] ++
    [.step 1 (.plain false true), .step 1 (.passes 24)] ++
    List.replicate 3 (.step 1 (.plain false true))
  let cancel := [.start (.control (.new .cancel 0 1 []))] ++
    List.replicate 4 (.step 2 (.plain false true))
  let writer := List.replicate 4 (.step 0 (.plain false true)) ++ [.step 0 (.moves 24)] ++
    List.replicate 2 (.step 0 (.plain false true)) ++ [.step 0 (.passes 24)] ++
    List.replicate 4 (.step 0 (.plain false true))
  direct ++ cancel ++ writer

end Run

end MoonLightBridge.Client.WritePaths
