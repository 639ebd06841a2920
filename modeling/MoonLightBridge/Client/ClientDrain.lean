import MoonLightBridge.Client.CallTables

/-!
# A drain of the client loses no call

`drain` makes the client refuse new calls, waits until both maps are empty and closes the
connection. A call that was let in just before can still be on its way to its map, and the
drain does not see it. `LooksLate` is the condition that there is none when the drain looks
into the maps for the last time, and that no response is on its way from the reader to its
future.

Then every call that was let in has had its outcome when `close` begins. No call is failed
by the `failAll` of this `close`, nor left to time out because of it.
-/

namespace MoonLightBridge.Client

open Transition

/-- The drain has found the maps empty, and goes on to close the connection and to complete
its handle. -/
def Drainer.IsSucceeding : Drainer → Prop
  | .closing | .finishing | .succeeded => True
  | .absent | .created | .loopPending | .loopStreams | .checkPending | .checkStreams | .timedOut
  | .failed => False

/-- The drain has called `close`. -/
def Drainer.HasClosed : Drainer → Prop
  | .finishing | .succeeded | .failed => True
  | .absent | .created | .loopPending | .loopStreams | .checkPending | .checkStreams | .closing
  | .timedOut => False

def Drainer.HasStarted : Drainer → Prop
  | .absent | .created => False
  | .loopPending | .loopStreams | .checkPending | .checkStreams | .closing | .finishing
  | .timedOut | .succeeded | .failed => True

namespace ClientCall

/-- The call is on its way to its map. -/
def IsBefore (call : ClientCall) : Prop :=
  match call.place with
  | .before _ => True
  | .refused | .escaped | .shared _ => False

instance decidableIsBefore (call : ClientCall) : Decidable call.IsBefore :=
  match call with
  | ⟨_, .before _⟩ => isTrue trivial
  | ⟨_, .refused⟩ | ⟨_, .escaped⟩ | ⟨_, .shared _⟩ => isFalse id

/-- The call has passed the check of `accepting`. -/
def HasPassed (call : ClientCall) : Prop :=
  call.invocation.args?.isSome = true ∧
    match call.place with
    | .before place => place.HasPassed
    | .refused | .escaped | .shared _ => True

instance decidableHasPassedCall (call : ClientCall) : Decidable call.HasPassed :=
  match call with
  | ⟨_, .before place⟩ => inferInstanceAs (Decidable (_ ∧ place.HasPassed))
  | ⟨_, .refused⟩ | ⟨_, .escaped⟩ | ⟨_, .shared _⟩ => inferInstanceAs (Decidable (_ ∧ True))

/-- The call has ended: it was refused, or its future or stream has an outcome that does not
come from the drain. -/
def HasOutcome (call : ClientCall) : Prop :=
  match call.place with
  | .before _ => False
  | .refused | .escaped => True
  | .shared entry => ∃ outcome ∈ entry.completion.outcome?, outcome ≠ .disconnected .drainer

instance decidableHasOutcome (call : ClientCall) : Decidable call.HasOutcome :=
  match call with
  | ⟨_, .before _⟩ => isFalse id
  | ⟨_, .refused⟩ | ⟨_, .escaped⟩ => isTrue trivial
  | ⟨_, .shared entry⟩ => inferInstanceAs (Decidable (∃ outcome ∈ entry.completion.outcome?, _))

/-- The reader has taken the call out of its map, and has not completed it. -/
def IsBeingAnswered (call : ClientCall) : Prop :=
  call.invocation.table = .pending ∧
    ∃ entry ∈ call.entry?, entry.isAnswered = true ∧ entry.completion = .open

instance decidableIsBeingAnswered (call : ClientCall) : Decidable call.IsBeingAnswered :=
  inferInstanceAs (Decidable (_ ∧ _))

end ClientCall

namespace ClientCalls

/-- When a drain looks into `pending` for the last time, no call that was let in is on its way
to a map, and no response is on its way to its future. Nor are calls put into a map while
`failAll` is at it. -/
def LooksLate (s : ClientCalls) : LifeLabel → Prop
  | .drainer _ _ => s.drain = .checkPending → ∀ call ∈ s.calls, call.HasPassed →
      ¬ call.IsBefore ∧ ¬ call.IsBeingAnswered
  | label => s.PutsApart .pending label ∧ s.PutsApart .streams label

instance decidableLooksLate (s : ClientCalls) :
    (label : LifeLabel) → Decidable (s.LooksLate label)
  | .drainer _ _ => inferInstanceAs (Decidable (s.drain = .checkPending → _))
  | .call _ _ | .invoke _ | .refuse | .shut _ | .failAll _ | .drain =>
    inferInstanceAs (Decidable (_ ∧ _))

theorem LooksLate.putsApart {s : ClientCalls} {label : LifeLabel} (h : s.LooksLate label)
    (table : Table) : s.PutsApart table label := by
  cases label with
  | drainer => exact trivial
  | _ =>
    cases table with
    | pending => exact h.1
    | streams => exact h.2

/-! ### The invariant -/

/-- What has become of a call that was let in, when the drain has looked into one map and
into both. -/
def IsReady (drain : Drainer) (call : ClientCall) : Prop :=
  match drain with
  | .checkStreams => call.HasPassed →
      ¬ call.IsBefore ∧ (call.invocation.table = .pending → call.HasOutcome)
  | .closing | .finishing | .succeeded => call.HasPassed → call.HasOutcome
  | .absent | .created | .loopPending | .loopStreams | .checkPending | .timedOut
  | .failed => True

structure Drained (s : ClientCalls) : Prop where
  refusing : s.drain.HasStarted → s.accepting = false
  closer : ∀ call ∈ s.calls, ∀ entry closer, call.place = .shared entry →
    entry.completion.outcome? = some (.disconnected closer) → s.closed = some closer
  hasClosed : s.closed = some .drainer → s.drain.HasClosed
  ready : ∀ call ∈ s.calls, IsReady s.drain call

section Drained

variable {config : ClientConfig} {s t : ClientCalls} {i n : ℕ} {call : ClientCall}
  {place : CallPlace} {event : CallStep}

theorem not_isBefore_of_hasOutcome (h : call.HasOutcome) : ¬ call.IsBefore := by
  obtain ⟨invocation, place⟩ := call
  cases place with
  | before place => exact h.elim
  | _ => exact id

/-- A call that was let in and has left its prelude does not come back to it, and as long as
`accepting` is not set no other call is let in. -/
theorem CallMoves.passed (hmoves : CallMoves config s call event n place)
    (hrefusing : s.accepting = false) (hcall : call.HasPassed → ¬ call.IsBefore)
    (hpassed : ({ call with place } : ClientCall).HasPassed) :
    place = .refused ∨ place = .escaped ∨ call.HasPassed ∧ ∃ entry next,
      call.place = .shared entry ∧ place = .shared next ∧
        EntryMoves config s call entry event n next := by
  have hbefore : ∀ prelude : Prelude, call.place = .before prelude → ¬ prelude.HasPassed := by
    intro prelude hplace hprelude
    refine hcall ⟨hpassed.1, ?_⟩ ?_
    · rw [hplace]
      exact hprelude
    · rw [ClientCall.IsBefore, hplace]
      exact trivial
  cases hmoves with
  | refuse => exact .inl rfl
  | giveBack => exact .inl rfl
  | escape => exact .inr (.inl rfl)
  | @advance prelude next hplace hpermit hadvance =>
    rcases hadvance hpassed.2 with hold | haccepting | hargs
    · exact absurd hold (hbefore prelude hplace)
    · rw [hrefusing] at haccepting
      cases haccepting
    · have hsome := hpassed.1
      rw [hargs] at hsome
      cases hsome
  | acquire hplace => exact absurd trivial (hbefore _ hplace)
  | put hplace => exact absurd trivial (hbefore _ hplace)
  | @entry entry next n hplace hmoves =>
    refine .inr (.inr ⟨⟨hpassed.1, ?_⟩, entry, next, hplace, rfl, hmoves⟩)
    rw [hplace]
    exact trivial

variable {outcome : Outcome}

theorem outcome?_complete {completion : Completion} {first : Outcome}
    (h : completion.outcome? = some first) :
    (completion.complete outcome).outcome? = some first := by
  cases completion with
  | «open» => cases h
  | _ => exact h

/-- The outcome of a call that is completed was there before, or it is the new one. -/
theorem outcome?_complete_eq {completion : Completion} {result : Outcome}
    (h : (completion.complete outcome).outcome? = some result) :
    completion.outcome? = some result ∨ outcome = result := by
  cases completion with
  | «open» => exact .inr (Option.some_inj.mp h)
  | _ => exact .inl h

variable {entry next : CallEntry}

/-- The first outcome of a call stays. -/
theorem EntryMoves.outcome? (hmoves : EntryMoves config s call entry event n next)
    (h : entry.completion.outcome? = some outcome) : next.completion.outcome? = some outcome := by
  cases hmoves with
  | proceed => exact h
  | fail => exact outcome?_complete h
  | answer => exact h
  | expire => exact h
  | complete => exact outcome?_complete h
  | remove hcompletion =>
    rw [hcompletion] at h
    exact h
  | release hcompletion =>
    rw [hcompletion] at h
    exact h

/-- Only `failAll` ends a call with a failure of the connection. -/
theorem EntryMoves.disconnected {closer : Closer}
    (hmoves : EntryMoves config s call entry event n next)
    (h : next.completion.outcome? = some (.disconnected closer)) :
    entry.completion.outcome? = some (.disconnected closer) := by
  cases hmoves with
  | proceed => exact h
  | answer => exact h
  | expire => exact h
  | fail =>
    refine (outcome?_complete_eq h).resolve_right ?_
    rintro ⟨⟩
  | complete hmay =>
    refine (outcome?_complete_eq h).resolve_right ?_
    rintro rfl
    exact hmay
  | remove hcompletion => exact hcompletion ▸ h
  | release hcompletion => exact hcompletion ▸ h

variable {drain : Drainer}

/-- What a step has to keep of a call for the drain. -/
theorem IsReady.mono {call' : ClientCall} (h : IsReady drain call)
    (htable : call'.invocation = call.invocation)
    (hstep : call'.HasPassed → (call.HasPassed → ¬ call.IsBefore) →
      call'.HasOutcome ∨
        call.HasPassed ∧ ¬ call'.IsBefore ∧ (call.HasOutcome → call'.HasOutcome)) :
    IsReady drain call' := by
  have hdone : (call.HasPassed → call.HasOutcome) → call'.HasPassed → call'.HasOutcome := by
    intro h hpassed
    rcases hstep hpassed fun hold => not_isBefore_of_hasOutcome (h hold) with
      houtcome | ⟨hold, -, himp⟩
    · exact houtcome
    · exact himp (h hold)
  cases drain with
  | checkStreams =>
    intro hpassed
    rcases hstep hpassed fun hold => (h hold).1 with houtcome | ⟨hold, hbefore, himp⟩
    · exact ⟨not_isBefore_of_hasOutcome houtcome, fun _ => houtcome⟩
    · exact ⟨hbefore, fun hpending => himp ((h hold).2 (htable ▸ hpending))⟩
  | closing => exact hdone h
  | finishing => exact hdone h
  | succeeded => exact hdone h
  | _ => exact trivial

theorem isReady_of_not_hasStarted (h : ¬ drain.HasStarted) : IsReady drain call := by
  cases drain with
  | absent => exact trivial
  | created => exact trivial
  | _ => exact absurd trivial h

theorem isReady_of_not_hasPassed (h : ¬ call.HasPassed) : IsReady drain call := by
  cases drain with
  | checkStreams => exact fun hpassed => absurd hpassed h
  | closing => exact fun hpassed => absurd hpassed h
  | finishing => exact fun hpassed => absurd hpassed h
  | succeeded => exact fun hpassed => absurd hpassed h
  | _ => exact trivial

/-- The outcome of an entry stays when the entry is changed. -/
theorem IsReady.setEntry (h : IsReady drain call) (hplace : call.place = .shared entry)
    (houtcome : ∀ outcome, entry.completion.outcome? = some outcome →
      next.completion.outcome? = some outcome) :
    IsReady drain { call with place := .shared next } := by
  refine h.mono rfl fun hpassed _ => .inr ⟨⟨hpassed.1, ?_⟩, id, fun hold => ?_⟩
  · rw [hplace]
    exact trivial
  · rw [ClientCall.HasOutcome, hplace] at hold
    obtain ⟨outcome, hsome, hne⟩ := hold
    exact ⟨outcome, houtcome outcome hsome, hne⟩

theorem IsReady.moves (h : IsReady drain call) (hmoves : CallMoves config s call event n place)
    (hrefusing : drain.HasStarted → s.accepting = false) : IsReady drain { call with place } := by
  by_cases hstarted : drain.HasStarted
  · refine h.mono rfl fun hpassed hbefore => ?_
    rcases hmoves.passed (hrefusing hstarted) hbefore hpassed with
      rfl | rfl | ⟨hold, entry, next, hplace, rfl, hentry⟩
    · exact .inl trivial
    · exact .inl trivial
    · refine .inr ⟨hold, id, fun houtcome => ?_⟩
      rw [ClientCall.HasOutcome, hplace] at houtcome
      obtain ⟨outcome, hsome, hne⟩ := houtcome
      exact ⟨outcome, hentry.outcome? hsome, hne⟩
  · exact isReady_of_not_hasStarted hstarted

theorem drained_init (maxInFlight : ℕ) : (init maxInFlight).Drained where
  refusing := False.elim
  closer := List.forall_mem_nil _
  hasClosed h := absurd h (Option.some_ne_none _).symm
  ready := List.forall_mem_nil _

/-- `failAll` changes an entry. -/
theorem Drained.updateEntry (h : s.Drained) {table : Table} {change : CallEntry → CallEntry}
    (hupdate : s.updateEntry table i change = some t)
    (houtcome : ∀ entry outcome, entry.completion.outcome? = some outcome →
      (change entry).completion.outcome? = some outcome)
    (hcloser : ∀ entry closer, (change entry).completion.outcome? = some (.disconnected closer) →
      entry.completion.outcome? = some (.disconnected closer) ∨ s.closed = some closer) :
    t.Drained := by
  obtain ⟨call, entry, hi, -, hplace, -, rfl⟩ := updateEntry_eq_some hupdate
  have hcall := List.mem_of_getElem? hi
  refine ⟨h.refusing, List.forall_mem_set h.closer ?_, h.hasClosed,
    List.forall_mem_set h.ready ((h.ready call hcall).setEntry hplace (houtcome entry))⟩
  intro entry' closer heq hdisconnected
  cases heq
  rcases hcloser entry closer hdisconnected with hold | hclosed
  · exact h.closer call hcall entry closer hplace hold
  · exact hclosed

theorem Drained.failAllStep (h : s.Drained) {event : FailAllStep}
    (hstep : s.failAllStep event = some t) : t.Drained := by
  cases event with
  | start =>
    obtain ⟨-, hstep⟩ := Option.ite_none_right_eq_some.mp hstep
    cases hstep
    exact ⟨h.refusing, h.closer, h.hasClosed, h.ready⟩
  | visit i =>
    simp only [ClientCalls.failAllStep] at hstep
    split at hstep
    · rename_i table unvisited closer hphase hclosed
      have h' : ({ s with failAll := .failing table (unvisited.filter (· ≠ i)) } :
          ClientCalls).Drained := ⟨h.refusing, h.closer, h.hasClosed, h.ready⟩
      refine h'.updateEntry hstep (fun _ _ => outcome?_complete) fun entry closer' heq => ?_
      rcases outcome?_complete_eq heq with hold | hnew
      · exact .inl hold
      · cases hnew
        exact .inr hclosed
    · cases hstep
  | startClear =>
    simp only [ClientCalls.failAllStep] at hstep
    split at hstep
    · obtain ⟨-, hstep⟩ := Option.ite_none_right_eq_some.mp hstep
      cases hstep
      exact ⟨h.refusing, h.closer, h.hasClosed, h.ready⟩
    all_goals cases hstep
  | clear i =>
    simp only [ClientCalls.failAllStep] at hstep
    split at hstep
    · exact h.updateEntry hstep (fun _ _ => id) fun _ _ => .inl
    all_goals cases hstep
  | endClear =>
    simp only [ClientCalls.failAllStep] at hstep
    split at hstep
    · obtain ⟨-, hstep⟩ := Option.ite_none_right_eq_some.mp hstep
      cases hstep
      exact ⟨h.refusing, h.closer, h.hasClosed, h.ready⟩
    all_goals cases hstep

theorem Drained.moves (h : s.Drained) (hi : s.calls[i]? = some call)
    (hmoves : CallMoves config s call event n place) :
    ({ s with inFlight := n }.setPlace i call place).Drained := by
  have hcall := List.mem_of_getElem? hi
  refine ⟨h.refusing, List.forall_mem_set h.closer fun entry' closer heq hdisconnected => ?_,
    h.hasClosed, List.forall_mem_set h.ready ((h.ready call hcall).moves hmoves h.refusing)⟩
  cases hmoves with
  | put hplace hevent =>
    cases heq
    cases hdisconnected
  | @entry entry next n hplace hentry =>
    cases heq
    exact h.closer call hcall entry closer hplace (hentry.disconnected hdisconnected)
  | _ => cases heq

theorem not_isIn_of_entries_eq_nil {table : Table} (h : s.entries table = []) :
    ∀ call ∈ s.calls, ¬ call.IsIn table := by
  intro call hcall hin
  obtain ⟨i, hi⟩ := List.mem_iff_getElem?.mp hcall
  have hmem : i ∈ s.entries table := mem_entries.mpr ⟨call, hi, hin⟩
  rw [h] at hmem
  cases hmem

/-- A call that is neither in its map nor on its way to it or from it has its outcome. -/
theorem Drained.hasOutcome (h : s.Drained) (hkept : ∀ table, s.Kept table)
    (hcall : call ∈ s.calls) (hnotClosed : ¬ s.drain.HasClosed) (hbefore : ¬ call.IsBefore)
    (hanswered : ¬ call.IsBeingAnswered) (hin : ¬ call.IsIn call.invocation.table) :
    call.HasOutcome := by
  obtain ⟨invocation, place⟩ := call
  cases place with
  | before place => exact absurd trivial hbefore
  | refused => exact trivial
  | escaped => exact trivial
  | shared entry =>
    cases houtcome : entry.completion.outcome? with
    | none =>
      have hopen : entry.completion = .open := by
        cases hcompletion : entry.completion with
        | «open» => rfl
        | _ =>
          rw [hcompletion] at houtcome
          cases houtcome
      rcases (hkept invocation.table).found _ hcall rfl entry rfl hopen with
        hregistered | ⟨hpending, hanswering⟩
      · exact absurd ⟨rfl, entry, rfl, hregistered⟩ hin
      · exact absurd ⟨hpending, entry, rfl, hanswering, hopen⟩ hanswered
    | some outcome =>
      refine ⟨outcome, houtcome, ?_⟩
      rintro rfl
      exact hnotClosed (h.hasClosed (h.closer _ hcall entry .drainer rfl houtcome))

theorem Drained.drainMoves (h : s.Drained) (hkept : ∀ table, s.Kept table)
    (hguard : s.drain = .checkPending → ∀ call ∈ s.calls, call.HasPassed →
      ¬ call.IsBefore ∧ ¬ call.IsBeingAnswered) (hmoves : DrainMoves s t) : t.Drained := by
  have hopen : ∀ drain : Drainer, s.drain = drain → ¬ drain.HasClosed →
      s.closed ≠ some .drainer := fun drain heq hnot hclosed => hnot (heq ▸ h.hasClosed hclosed)
  cases hmoves with
  | start hdrain =>
    refine ⟨fun _ => rfl, h.closer, fun hclosed => ?_, fun _ _ => trivial⟩
    exact absurd hclosed (hopen _ hdrain id)
  | @poll next hdrain hnext =>
    have hnot : s.closed ≠ some .drainer := by
      rcases hdrain with hdrain | hdrain
      · exact hopen _ hdrain id
      · exact hopen _ hdrain id
    have hstarted : s.drain.HasStarted := by
      rcases hdrain with hdrain | hdrain <;> rw [hdrain] <;> exact trivial
    refine ⟨fun _ => h.refusing hstarted, h.closer, fun hclosed => absurd hclosed hnot, ?_⟩
    rcases hnext with rfl | rfl | rfl <;> exact fun _ _ => trivial
  | foundPending hdrain hempty =>
    refine ⟨fun _ => h.refusing (hdrain ▸ trivial), h.closer,
      fun hclosed => absurd hclosed (hopen _ hdrain id), fun call hcall hpassed => ?_⟩
    obtain ⟨hbefore, hanswered⟩ := hguard hdrain call hcall hpassed
    refine ⟨hbefore, fun hpending => ?_⟩
    refine h.hasOutcome hkept hcall (hdrain ▸ id) hbefore hanswered ?_
    exact hpending ▸ not_isIn_of_entries_eq_nil hempty call hcall
  | foundStreams hdrain hempty =>
    refine ⟨fun _ => h.refusing (hdrain ▸ trivial), h.closer,
      fun hclosed => absurd hclosed (hopen _ hdrain id), fun call hcall hpassed => ?_⟩
    have hready : IsReady .checkStreams call := hdrain ▸ h.ready call hcall
    obtain ⟨hbefore, hpending⟩ := hready hpassed
    cases htable : call.invocation.table with
    | pending => exact hpending htable
    | streams =>
      refine h.hasOutcome hkept hcall (hdrain ▸ id) hbefore (fun hanswered => ?_) ?_
      · exact Table.noConfusion (htable.symm.trans hanswered.1)
      · exact htable ▸ not_isIn_of_entries_eq_nil hempty call hcall
  | timeOut hdrain =>
    have hnot : s.closed ≠ some .drainer := by
      rcases hdrain with hdrain | hdrain
      · exact hopen _ hdrain id
      · exact hopen _ hdrain id
    have hstarted : s.drain.HasStarted := by
      rcases hdrain with hdrain | hdrain <;> rw [hdrain] <;> exact trivial
    exact ⟨fun _ => h.refusing hstarted, h.closer, fun hclosed => absurd hclosed hnot,
      fun _ _ => trivial⟩
  | close hdrain hclosed =>
    refine ⟨fun _ => h.refusing (hdrain ▸ trivial), fun call hcall entry closer hplace heq => ?_,
      fun _ => trivial, fun call hcall => ?_⟩
    · have hsome := h.closer call hcall entry closer hplace heq
      rw [hclosed] at hsome
      cases hsome
    · exact (hdrain ▸ h.ready call hcall : IsReady .closing call)
  | succeed hdrain =>
    rcases hdrain with ⟨hdrain, -⟩ | hdrain
    · refine ⟨fun _ => h.refusing (hdrain ▸ trivial), h.closer, fun _ => trivial,
        fun call hcall => ?_⟩
      exact (hdrain ▸ h.ready call hcall : IsReady .closing call)
    · refine ⟨fun _ => h.refusing (hdrain ▸ trivial), h.closer, fun _ => trivial,
        fun call hcall => ?_⟩
      exact (hdrain ▸ h.ready call hcall : IsReady .finishing call)
  | fail hdrain =>
    exact ⟨fun _ => h.refusing (hdrain ▸ trivial), h.closer, fun _ => trivial,
      fun _ _ => trivial⟩
  | closeLate hdrain =>
    refine ⟨fun _ => h.refusing (hdrain ▸ trivial), fun call hcall entry closer hplace heq => ?_,
      fun _ => trivial, fun _ _ => trivial⟩
    have hsome := h.closer call hcall entry closer hplace heq
    change s.closed.orElse _ = _
    rw [hsome]
    rfl

theorem Drained.step (h : s.Drained) (hkept : ∀ table, s.Kept table) {label : LifeLabel}
    (hguard : s.LooksLate label) (hstep : step config s label = some t) : t.Drained := by
  cases label with
  | invoke invocation =>
    cases hstep
    refine ⟨h.refusing, List.forall_mem_append.mpr ⟨h.closer, ?_⟩, h.hasClosed,
      List.forall_mem_append.mpr ⟨h.ready, ?_⟩⟩
    · refine List.forall_mem_singleton.mpr fun entry closer heq => ?_
      cases heq
    · refine List.forall_mem_singleton.mpr ?_
      exact isReady_of_not_hasPassed fun hpassed => hpassed.2
  | call i event =>
    obtain ⟨call, hi, hstep⟩ := Option.bind_eq_some_iff.mp hstep
    obtain ⟨⟨n, place⟩, hcall, rfl⟩ := Option.map_eq_some_iff.mp hstep
    exact h.moves hi (callMoves_of_callStep hcall)
  | refuse =>
    cases hstep
    exact ⟨fun _ => rfl, h.closer, h.hasClosed, h.ready⟩
  | shut closer =>
    obtain ⟨⟨hopen, hcloser⟩, hstep⟩ := Option.ite_none_right_eq_some.mp hstep
    cases hstep
    refine ⟨h.refusing, fun call hcall entry closer' hplace heq => ?_, fun heq => ?_, h.ready⟩
    · have hsome := h.closer call hcall entry closer' hplace heq
      rw [hopen] at hsome
      cases hsome
    · cases heq
      rcases hcloser with hcloser | hcloser
      · cases hcloser
      · cases hcloser.1
  | failAll event => exact h.failAllStep hstep
  | drain =>
    obtain ⟨habsent, hstep⟩ := Option.ite_none_right_eq_some.mp hstep
    cases hstep
    refine ⟨False.elim, h.closer, fun hclosed => ?_, fun _ _ => trivial⟩
    have hold := h.hasClosed hclosed
    rw [habsent] at hold
    exact hold
  | drainer timeUp succeeds =>
    exact h.drainMoves hkept hguard (drainMoves_of_drainerStep hstep)

end Drained

end ClientCalls

/-- The steps of a drain that finds both maps empty, to the end of `close`. -/
def drainEmpty : List LifeLabel :=
  [.drainer false false, .drainer false false, .drainer false false, .drainer false false,
    .drainer false false, .failAll .start, .failAll .startClear, .failAll .endClear,
    .failAll .startClear, .failAll .endClear, .drainer false true]

/-- A request is answered while a drain waits for it. -/
def answeredBeforeDrain : List LifeLabel :=
  [.invoke (.request ⟨1, [], some oneSecond, none⟩)] ++ untilPut 0 ++
    [.call 0 .put, .call 0 (.enqueue idleWriter), .call 0 .arm, .call 0 .attach, .drain,
      .drainer false false, .drainer false false, .call 0 .answer, .call 0 (.complete .answered),
      .call 0 .handle, .call 0 .handle] ++ drainEmpty

/-- A request was let in before the drain began, and reaches its map when the drain is over. -/
def requestAfterDrain : List LifeLabel :=
  [.invoke (.request ⟨1, [], some oneSecond, none⟩)] ++ untilPut 0 ++
    [.drain, .drainer false false] ++ drainEmpty ++
    [.call 0 .put, .call 0 (.enqueue idleWriter), .call 0 .arm, .call 0 .attach]

end MoonLightBridge.Client
