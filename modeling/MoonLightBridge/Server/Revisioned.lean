import MoonLightBridge.Semantics.Threads

/-!
# Revisioned values

`Revisioned<T>` of the server (`src/idempotency.rs`): a value and its revision under a
readers-writer lock. `update` compares the expected revision, runs the caller's closure
on the value in place, and only then advances the revision. The lock is not poisoned, so
a closure that changes the value and panics leaves a changed value under the old revision,
and so does any closure at the last revision, where advancing it panics.

Readers and updaters are threads that take the lock and work under it, in any order. A
history records what each read returned, and what each update found, left and returned.
-/

namespace MoonLightBridge.Server.Revisioned

open Threads

variable {T R : Type}

/-- The closure of an update, run on the value in place: the value it leaves behind, and what
it returns, or `none` if it panics. -/
abbrev Closure (T R : Type) := T → T × Option R

/-- How an `update` ends; a panic is caught by the task that runs it. -/
inductive Outcome (R : Type)
  | ok (revision : UInt64) (output : R)
  /-- `RevisionConflict` -/
  | conflict (expected actual : UInt64)
  | panicked

def Outcome.isOk : Outcome R → Bool
  | .ok _ _ => true
  | _ => false

inductive Event (T R : Type)
  /-- what `read` returned -/
  | read (revision : UInt64) (value : T)
  /-- what `update` found under the lock, left behind, and returned -/
  | update (closure : Closure T R) (expected : UInt64) (before after : UInt64 × T)
      (outcome : Outcome R)

/-- The revision that a successful update returned. -/
def Event.revision? : Event T R → Option UInt64
  | .update _ _ _ _ (.ok revision _) => some revision
  | _ => none

/-- `RevisionState`, the lock around it, and the history. -/
structure Shared (T R : Type) where
  revision : UInt64
  value : T
  readers : ℕ
  writing : Bool
  history : List (Event T R)

/-- The pair under the lock. -/
def Shared.state (s : Shared T R) : UInt64 × T := (s.revision, s.value)

def Shared.record (s : Shared T R) (event : Event T R) : Shared T R :=
  { s with history := s.history ++ [event] }

inductive Instr (T R : Type)
  | lockRead
  | read
  | unlockRead
  | lockWrite (expected : UInt64) (closure : Closure T R)
  | compare (expected : UInt64) (closure : Closure T R)
  | apply (expected : UInt64) (closure : Closure T R) (before : UInt64 × T)
  | advance (expected : UInt64) (closure : Closure T R) (before : UInt64 × T) (output : R)
  | unlockWrite

/-- The calls of `Revisioned<T>`. -/
inductive Call (T R : Type)
  | read
  | update (expected : UInt64) (closure : Closure T R)

def Call.program : Call T R → List (Instr T R)
  | .read => [.lockRead]
  | .update expected closure => [.lockWrite expected closure]

/-- One instruction. A lock that is not free blocks the thread. -/
def exec (s : Shared T R) : Instr T R → Option (Effect (Shared T R) (Instr T R))
  | .lockRead =>
    if s.writing = true then none
    else some { shared := { s with readers := s.readers + 1 }, next := [.read] }
  | .read => some { shared := s.record (.read s.revision s.value), next := [.unlockRead] }
  | .unlockRead => some { shared := { s with readers := s.readers - 1 } }
  | .lockWrite expected closure =>
    if s.writing = true ∨ s.readers ≠ 0 then none
    else some { shared := { s with writing := true }, next := [.compare expected closure] }
  | .compare expected closure =>
    if s.revision ≠ expected then
      some {
        shared := s.record
          (.update closure expected s.state s.state (.conflict expected s.revision))
        next := [.unlockWrite] }
    else some { shared := s, next := [.apply expected closure s.state] }
  | .apply expected closure before =>
    match (closure s.value).2 with
    | none =>
      -- the guard is dropped while the panic unwinds
      some {
        shared := { s with value := (closure s.value).1 }.record
          (.update closure expected before (s.revision, (closure s.value).1) .panicked)
        next := [.unlockWrite] }
    | some output =>
      some {
        shared := { s with value := (closure s.value).1 }
        next := [.advance expected closure before output] }
  | .advance expected closure before output =>
    -- `checked_add(1)`, and the panic of `expect`
    if s.revision.toNat + 1 < 2 ^ 64 then
      some {
        shared := { s with revision := s.revision + 1 }.record
          (.update closure expected before (s.revision + 1, s.value) (.ok (s.revision + 1) output))
        next := [.unlockWrite] }
    else
      some {
        shared := s.record (.update closure expected before s.state .panicked)
        next := [.unlockWrite] }
  | .unlockWrite => some { shared := { s with writing := false } }

/-- Callers of one revisioned value. -/
abbrev Callers (T R : Type) := System (Shared T R) (Instr T R)

def step : Callers T R → Label (Call T R) Unit → Option (Callers T R) :=
  Threads.step Call.program fun _ _ => exec

/-- `Revisioned::new` -/
def init (value : T) : Callers T R where
  shared := { revision := 0, value, readers := 0, writing := false, history := [] }
  threads := []

/-! ### Reads and panics -/

def Event.read? : Event T R → Option (UInt64 × T)
  | .read revision value => some (revision, value)
  | _ => none

/-- An update writes one and panics, between two reads. -/
def panickingRun : List (Label (Call ℕ Unit) Unit) :=
  [.start .read, .step 0 (), .step 0 (), .step 0 (), .start (.update 0 fun _ => (1, none)),
    .step 1 (), .step 1 (), .step 1 (), .step 1 (), .start .read, .step 2 (), .step 2 (),
    .step 2 ()]

/-- Two reads of one revision return different values: the update that came between them
did not return `Ok`, and has changed the value. -/
theorem panicking_update_changes_value :
    ∃ s, Transition.run step (init 0) panickingRun = some s ∧
      s.shared.history.filterMap Event.read? = [(0, 0), (0, 1)] ∧
      s.shared.history.filterMap Event.revision? = [] :=
  ⟨_, rfl, rfl, rfl⟩

/-! ### The lock -/

/-- The thread has the write guard. -/
def Instr.isWriting : Instr T R → Bool
  | .compare _ _ | .apply _ _ _ | .advance _ _ _ _ | .unlockWrite => true
  | _ => false

/-- The thread has a read guard. -/
def Instr.isReading : Instr T R → Bool
  | .read | .unlockRead => true
  | _ => false

/-- One thread at most has the write guard, and then none has a read guard. -/
structure Locked (s : Callers T R) : Prop where
  writers : s.pending Instr.isWriting = s.shared.writing.toNat
  readers : s.pending Instr.isReading = s.shared.readers
  exclusive : s.shared.writing = true → s.shared.readers = 0

/-- What an instruction does to the lock: the guards it is left with, and those it had. -/
structure Guards (s : Shared T R) (i : Instr T R) (effect : Effect (Shared T R) (Instr T R)) :
    Prop where
  writing : effect.next.countP Instr.isWriting + s.writing.toNat =
    effect.shared.writing.toNat + i.isWriting.toNat
  reading : effect.next.countP Instr.isReading + s.readers =
    effect.shared.readers + i.isReading.toNat
  exclusive : effect.shared.writing = true → effect.shared.readers = 0
  started : effect.started = []

/-- An instruction that keeps its guard. -/
theorem Guards.of_eq {s : Shared T R} {i : Instr T R} {effect : Effect (Shared T R) (Instr T R)}
    (hwriting : effect.shared.writing = s.writing) (hreaders : effect.shared.readers = s.readers)
    (hwriters : effect.next.countP Instr.isWriting = i.isWriting.toNat)
    (hreading : effect.next.countP Instr.isReading = i.isReading.toNat)
    (hexclusive : s.writing = true → s.readers = 0) (hstarted : effect.started = []) :
    Guards s i effect where
  writing := by rw [hwriting, hwriters, Nat.add_comm]
  reading := by rw [hreaders, hreading, Nat.add_comm]
  exclusive := by
    rw [hwriting, hreaders]
    exact hexclusive
  started := hstarted

theorem guards_of_exec {s : Shared T R} {i : Instr T R}
    {effect : Effect (Shared T R) (Instr T R)} (hexec : exec s i = some effect)
    (hwriting : i.isWriting = true → s.writing = true)
    (hreading : i.isReading = true → 0 < s.readers)
    (hexclusive : s.writing = true → s.readers = 0) : Guards s i effect := by
  cases i with
  | lockRead =>
    rw [exec] at hexec
    split_ifs at hexec with hfree
    cases hexec
    rw [Bool.not_eq_true] at hfree
    exact ⟨by simp [hfree, Instr.isWriting], by simp [Instr.isReading, Nat.add_comm],
      by simp [hfree], rfl⟩
  | read =>
    cases hexec
    exact .of_eq rfl rfl rfl rfl hexclusive rfl
  | unlockRead =>
    cases hexec
    have hpos := hreading rfl
    refine ⟨by simp [Instr.isWriting], ?_, fun hlocked => ?_, rfl⟩
    · simp only [List.countP_nil, Instr.isReading, Bool.toNat_true]
      omega
    · exact absurd (hexclusive hlocked) hpos.ne'
  | lockWrite expected closure =>
    rw [exec] at hexec
    split_ifs at hexec with hfree
    rw [not_or, not_not, Bool.not_eq_true] at hfree
    cases hexec
    exact ⟨by simp [hfree.1, Instr.isWriting], by simp [Instr.isReading], fun _ => hfree.2, rfl⟩
  | compare expected closure =>
    rw [exec] at hexec
    split_ifs at hexec
    all_goals
      cases hexec
      exact .of_eq rfl rfl rfl rfl hexclusive rfl
  | apply expected closure before =>
    rw [exec] at hexec
    cases houtput : (closure s.value).2 with
    | none =>
      rw [houtput] at hexec
      cases hexec
      exact .of_eq rfl rfl rfl rfl hexclusive rfl
    | some output =>
      rw [houtput] at hexec
      cases hexec
      exact .of_eq rfl rfl rfl rfl hexclusive rfl
  | advance expected closure before output =>
    rw [exec] at hexec
    split_ifs at hexec
    all_goals
      cases hexec
      exact .of_eq rfl rfl rfl rfl hexclusive rfl
  | unlockWrite =>
    cases hexec
    have hheld := hwriting rfl
    exact ⟨by simp [hheld, Instr.isWriting], by simp [Instr.isReading], by simp, rfl⟩

section Steps

variable {s : Callers T R} {thread : ℕ} {i : Instr T R} {rest : List (Instr T R)}
  {effect : Effect (Shared T R) (Instr T R)}

theorem Locked.writing_of (h : Locked s) (hthread : s.threads[thread]? = some (i :: rest))
    (hi : i.isWriting = true) : s.shared.writing = true := by
  have hpos := pending_pos hthread hi
  rw [h.writers] at hpos
  cases hwriting : s.shared.writing with
  | false => simp [hwriting] at hpos
  | true => rfl

/-- The guards that an instruction takes and drops are counted by the lock. -/
theorem Locked.guards (h : Locked s) (hthread : s.threads[thread]? = some (i :: rest))
    (hexec : exec s.shared i = some effect) : Guards s.shared i effect :=
  guards_of_exec hexec (h.writing_of hthread)
    (fun hi => h.readers ▸ pending_pos hthread hi) h.exclusive

theorem Locked.advance (h : Locked s) (hthread : s.threads[thread]? = some (i :: rest))
    (hexec : exec s.shared i = some effect) : Locked (s.advance thread rest effect) := by
  obtain ⟨hwriting, hreading, hexclusive, hstarted⟩ := h.guards hthread hexec
  have hwriters := pending_advance hthread effect Instr.isWriting
  have hreaders := pending_advance hthread effect Instr.isReading
  rw [h.writers, hstarted] at hwriters
  rw [h.readers, hstarted] at hreaders
  refine ⟨?_, ?_, hexclusive⟩
  · change _ = effect.shared.writing.toNat
    cases hi : i.isWriting <;> simp [hi] at hwriters hwriting <;> omega
  · change _ = effect.shared.readers
    cases hi : i.isReading <;> simp [hi] at hreaders hreading <;> omega

/-- Next to the write guard no other thread has a guard. -/
theorem Locked.others (h : Locked s) (hthread : s.threads[thread]? = some (i :: rest))
    (hi : i.isWriting = true) :
    ∀ j ∈ s.others thread rest, j.isWriting = false ∧ j.isReading = false := by
  have hlocked := h.writing_of hthread hi
  have hwriters := (perm_others hthread).countP_eq Instr.isWriting
  have hreaders := (perm_others hthread).countP_eq Instr.isReading
  change s.pending _ = _ at hwriters hreaders
  rw [h.writers, hlocked, List.countP_cons_of_pos hi, Bool.toNat_true] at hwriters
  rw [h.readers, h.exclusive hlocked, List.countP_cons] at hreaders
  have hnone : (s.others thread rest).countP Instr.isWriting = 0 := by omega
  have hnone' : (s.others thread rest).countP Instr.isReading = 0 := by omega
  intro j hj
  exact ⟨Bool.eq_false_of_not_eq_true (List.countP_eq_zero.mp hnone j hj),
    Bool.eq_false_of_not_eq_true (List.countP_eq_zero.mp hnone' j hj)⟩

end Steps

/-! ### Values of revisions -/

/-- What an event says is true if `values` are the values of the revisions from zero on. -/
def Event.Sound (values : List T) : Event T R → Prop
  | .read revision value => values[revision.toNat]? = some value
  | .update closure expected before after (.ok revision output) =>
    before.1 = expected ∧ values[expected.toNat]? = some before.2 ∧
      closure before.2 = (after.2, some output) ∧ after.1 = revision ∧
      revision.toNat = expected.toNat + 1 ∧ values[revision.toNat]? = some after.2
  | .update _ _ before after _ => after = before

theorem Event.Sound.append {values : List T} {event : Event T R} (h : event.Sound values)
    (value : T) : event.Sound (values ++ [value]) := by
  have hmono {k : ℕ} {v : T} (hk : values[k]? = some v) : (values ++ [value])[k]? = some v := by
    rw [List.getElem?_append_left (List.getElem?_eq_some_iff.mp hk).1]
    exact hk
  cases event with
  | read revision v => exact hmono h
  | update closure expected before after outcome =>
    cases outcome with
    | ok revision output =>
      obtain ⟨hexpected, hbefore, hclosure, hafter, hnext, hvalue⟩ := h
      exact ⟨hexpected, hmono hbefore, hclosure, hafter, hnext, hmono hvalue⟩
    | conflict expected actual => exact h
    | panicked => exact h

/-- The value is that of the revision. -/
def Shared.Current (values : List T) (s : Shared T R) : Prop :=
  values[s.revision.toNat]? = some s.value

/-- The revisions so far, their values and the history. -/
structure Recorded (initial : T) (values : List T) (s : Shared T R) : Prop where
  length : values.length = s.revision.toNat + 1
  head : values.head? = some initial
  sound : ∀ event ∈ s.history, event.Sound values
  revisions : (s.history.filterMap Event.revision?).map UInt64.toNat =
    (List.range s.revision.toNat).map (· + 1)

/-- What a thread in the middle of a call knows. Between the closure and the new revision the
value belongs to no revision yet. -/
def Instr.Fits (values : List T) (s : Shared T R) : Instr T R → Prop
  | .lockRead | .lockWrite _ _ => True
  | .apply expected _ before => s.Current values ∧ expected = s.revision ∧ before = s.state
  | .advance expected closure before output =>
    expected = s.revision ∧ before.1 = s.revision ∧
      values[s.revision.toNat]? = some before.2 ∧ closure before.2 = (s.value, some output) ∧
      (¬ s.revision.toNat + 1 < 2 ^ 64 → s.value = before.2)
  | .read | .unlockRead | .compare _ _ | .unlockWrite => s.Current values

theorem Instr.fits_of_no_guard {values : List T} {s : Shared T R} {i : Instr T R}
    (hwriting : i.isWriting = false) (hreading : i.isReading = false) : i.Fits values s := by
  cases i with
  | lockRead => trivial
  | lockWrite expected closure => trivial
  | read => cases hreading
  | unlockRead => cases hreading
  | compare expected closure => cases hwriting
  | apply expected closure before => cases hwriting
  | advance expected closure before output => cases hwriting
  | unlockWrite => cases hwriting

/-- Only the pair matters. -/
theorem Instr.Fits.of_state_eq {values : List T} {s t : Shared T R} {i : Instr T R}
    (h : i.Fits values s) (hrevision : t.revision = s.revision) (hvalue : t.value = s.value) :
    i.Fits values t := by
  cases i <;> simp only [Fits, Shared.Current, Shared.state, hrevision, hvalue] at h ⊢ <;> exact h

/-- An event that changes no revision. -/
theorem Recorded.record {initial : T} {values : List T} {s : Shared T R} {event : Event T R}
    (h : Recorded initial values s) (hsound : event.Sound values)
    (hrevision : event.revision? = none) : Recorded initial values (s.record event) where
  length := h.length
  head := h.head
  sound := List.forall_mem_append.mpr ⟨h.sound, List.forall_mem_singleton.mpr hsound⟩
  revisions := by
    have hnone : [event].filterMap Event.revision? = [] := by
      rw [List.filterMap_cons_none hrevision, List.filterMap_nil]
    rw [Shared.record, List.filterMap_append, hnone, List.append_nil]
    exact h.revisions

/-! ### Careful closures -/

/-- A closure that panics, or after which the revision cannot be advanced, leaves the value
as it found it. -/
def Instr.Keeps (s : Shared T R) : Instr T R → Prop
  | .apply _ closure _ =>
    (closure s.value).2.isNone = true ∨ ¬ s.revision.toNat + 1 < 2 ^ 64 →
      (closure s.value).1 = s.value
  | _ => True

instance decidableKeeps [DecidableEq T] (s : Shared T R) :
    (i : Instr T R) → Decidable (i.Keeps s)
  | .apply _ _ _ => inferInstanceAs (Decidable (_ ∨ ¬ _ → _ = _))
  | .lockRead | .read | .unlockRead | .lockWrite _ _ | .compare _ _ | .advance _ _ _ _ |
    .unlockWrite => isTrue trivial

/-- The next instruction of the thread that takes the step. -/
def Careful (s : Callers T R) : Label (Call T R) Unit → Prop
  | .start _ => True
  | .step thread _ => ∀ i ∈ s.threads[thread]?.bind List.head?, i.Keeps s.shared

instance decidableCareful [DecidableEq T] (s : Callers T R) :
    (label : Label (Call T R) Unit) → Decidable (Careful s label)
  | .start _ => isTrue trivial
  | .step thread _ => Option.decidableForallMem (s.threads[thread]?.bind List.head?)

/-- The lock is respected, and with the lock free the value is that of the revision. -/
structure Invariant (initial : T) (values : List T) (s : Callers T R) : Prop where
  locked : Locked s
  recorded : Recorded initial values s.shared
  current : s.shared.writing = false → s.shared.Current values
  fits : ∀ i ∈ s.threads.flatten, i.Fits values s.shared

/-- What an instruction has to establish, besides the lock. -/
structure Establishes (initial : T) (values : List T)
    (effect : Effect (Shared T R) (Instr T R)) : Prop where
  recorded : Recorded initial values effect.shared
  current : effect.shared.writing = false → effect.shared.Current values
  next : ∀ i ∈ effect.next, i.Fits values effect.shared

section Invariant

variable {initial : T} {values : List T} {s : Callers T R} {thread : ℕ} {i : Instr T R}
  {rest : List (Instr T R)} {effect : Effect (Shared T R) (Instr T R)}

/-- An instruction that changes the pair has the write guard, and no other thread knows
anything of the pair. -/
theorem Invariant.advance (h : Invariant initial values s)
    (hthread : s.threads[thread]? = some (i :: rest)) (hexec : exec s.shared i = some effect)
    {values' : List T} (hestablishes : Establishes initial values' effect)
    (hothers : i.isWriting = true ∨ values' = values ∧
      effect.shared.revision = s.shared.revision ∧ effect.shared.value = s.shared.value) :
    Invariant initial values' (s.advance thread rest effect) where
  locked := h.locked.advance hthread hexec
  recorded := hestablishes.recorded
  current := hestablishes.current
  fits := by
    have hstarted := (h.locked.guards hthread hexec).started
    have hperm := perm_advance s thread (lt_length_of_getElem? hthread) rest effect
    intro j hj
    rw [hperm.mem_iff, hstarted, List.flatten_nil, List.append_nil, List.mem_append] at hj
    rcases hj with hnext | hother
    · exact hestablishes.next j hnext
    · rcases hothers with hi | ⟨rfl, hrevision, hvalue⟩
      · obtain ⟨hwriting, hreading⟩ := h.locked.others hthread hi j hother
        exact Instr.fits_of_no_guard hwriting hreading
      · have hmem : j ∈ s.threads.flatten :=
          mem_flatten_of_mem_others hthread hother
        exact (h.fits j hmem).of_state_eq hrevision hvalue

theorem Invariant.fits_head (h : Invariant initial values s)
    (hthread : s.threads[thread]? = some (i :: rest)) : i.Fits values s.shared :=
  h.fits i (mem_flatten hthread)

/-- The instructions of a read. -/
theorem Invariant.advance_read (h : Invariant initial values s)
    (hthread : s.threads[thread]? = some (i :: rest)) (hexec : exec s.shared i = some effect)
    (hi : i = .lockRead ∨ i = .read ∨ i = .unlockRead) :
    Invariant initial values (s.advance thread rest effect) := by
  have hfits := h.fits_head hthread
  rcases hi with rfl | rfl | rfl
  · rw [exec] at hexec
    split_ifs at hexec with hfree
    rw [Bool.not_eq_true] at hfree
    cases hexec
    have hcurrent := h.current hfree
    refine h.advance hthread (if_neg (by simp [hfree])) ⟨?_, fun _ => hcurrent, ?_⟩
      (.inr ⟨rfl, rfl, rfl⟩)
    · exact ⟨h.recorded.length, h.recorded.head, h.recorded.sound, h.recorded.revisions⟩
    · exact List.forall_mem_singleton.mpr hcurrent
  · cases hexec
    refine h.advance hthread rfl ⟨?_, h.current, ?_⟩ (.inr ⟨rfl, rfl, rfl⟩)
    · exact h.recorded.record hfits rfl
    · exact List.forall_mem_singleton.mpr hfits
  · cases hexec
    refine h.advance hthread rfl ⟨?_, h.current, ?_⟩ (.inr ⟨rfl, rfl, rfl⟩)
    · exact ⟨h.recorded.length, h.recorded.head, h.recorded.sound, h.recorded.revisions⟩
    · exact List.forall_mem_nil _

variable {closure : Closure T R} {expected : UInt64}

/-- The beginning of an update, up to the comparison. -/
theorem Invariant.advance_compare (h : Invariant initial values s)
    (hthread : s.threads[thread]? = some (.compare expected closure :: rest))
    (hexec : exec s.shared (.compare expected closure) = some effect) :
    Invariant initial values (s.advance thread rest effect) := by
  have hcurrent : s.shared.Current values := h.fits_head hthread
  rw [exec] at hexec
  split_ifs at hexec with hne
  · cases hexec
    refine h.advance hthread (if_pos hne) ⟨?_, h.current, ?_⟩ (.inl rfl)
    · exact h.recorded.record rfl rfl
    · exact List.forall_mem_singleton.mpr hcurrent
  · cases hexec
    refine h.advance hthread (if_neg hne) ⟨h.recorded, h.current, ?_⟩ (.inl rfl)
    exact List.forall_mem_singleton.mpr ⟨hcurrent, (not_not.mp hne).symm, rfl⟩

theorem Invariant.advance_lockWrite (h : Invariant initial values s)
    (hthread : s.threads[thread]? = some (.lockWrite expected closure :: rest))
    (hexec : exec s.shared (.lockWrite expected closure) = some effect) :
    Invariant initial values (s.advance thread rest effect) := by
  rw [exec] at hexec
  split_ifs at hexec with hfree
  cases hexec
  rw [not_or, Bool.not_eq_true] at hfree
  refine h.advance hthread (if_neg (by simpa using hfree)) ⟨?_, ?_, ?_⟩ (.inr ⟨rfl, rfl, rfl⟩)
  · exact ⟨h.recorded.length, h.recorded.head, h.recorded.sound, h.recorded.revisions⟩
  · intro hunlocked
    cases hunlocked
  · exact List.forall_mem_singleton.mpr (h.current hfree.1)

variable {before : UInt64 × T}

/-- A closure that panics has to be careful; one that returns has to be if the revision is
the last one. -/
theorem Invariant.advance_apply (h : Invariant initial values s)
    (hthread : s.threads[thread]? = some (.apply expected closure before :: rest))
    (hexec : exec s.shared (.apply expected closure before) = some effect)
    (hkeeps : (Instr.apply expected closure before).Keeps s.shared) :
    Invariant initial values (s.advance thread rest effect) := by
  obtain ⟨hcurrent, hexpected, rfl⟩ := h.fits_head hthread
  have hlocked := h.locked.writing_of hthread rfl
  have hadvance {values' : List T} (hestablishes : Establishes initial values' effect) :=
    h.advance hthread hexec hestablishes (.inl rfl)
  rw [exec] at hexec
  cases houtput : (closure s.shared.value).2 with
  | none =>
    have hsame := hkeeps (.inl (houtput ▸ rfl))
    rw [houtput] at hexec
    cases hexec
    rw [hsame] at hadvance ⊢
    refine hadvance ⟨?_, fun _ => hcurrent, ?_⟩
    · exact h.recorded.record rfl rfl
    · exact List.forall_mem_singleton.mpr hcurrent
  | some output =>
    rw [houtput] at hexec
    cases hexec
    refine hadvance ⟨?_, ?_, ?_⟩
    · exact ⟨h.recorded.length, h.recorded.head, h.recorded.sound, h.recorded.revisions⟩
    · intro hunlocked
      exact absurd (hlocked.symm.trans hunlocked) (by decide)
    · refine List.forall_mem_singleton.mpr ⟨hexpected, rfl, hcurrent, ?_, ?_⟩
      · exact Prod.ext rfl houtput
      · intro hlast
        exact hkeeps (.inr hlast)

theorem toNat_add_one {revision : UInt64} (h : revision.toNat + 1 < 2 ^ 64) :
    (revision + 1).toNat = revision.toNat + 1 := by
  rw [UInt64.toNat_add, UInt64.toNat_one]
  exact Nat.mod_eq_of_lt h

/-- The new revision is that of the closure's value. -/
theorem Recorded.advance {s : Shared T R} {output : R} (h : Recorded initial values s)
    (hlt : s.revision.toNat + 1 < 2 ^ 64) (hbefore : before.1 = s.revision)
    (hvalue : values[s.revision.toNat]? = some before.2)
    (hclosure : closure before.2 = (s.value, some output)) :
    Recorded initial (values ++ [s.value])
      ({ s with revision := s.revision + 1 }.record (.update closure s.revision before
        (s.revision + 1, s.value) (.ok (s.revision + 1) output))) := by
  have hnext := toNat_add_one hlt
  have hlength := h.length
  have hlast : (values ++ [s.value])[s.revision.toNat + 1]? = some s.value := by
    rw [← hlength, List.getElem?_concat_length]
  have hold : (values ++ [s.value])[s.revision.toNat]? = some before.2 := by
    rw [List.getElem?_append_left (by omega)]
    exact hvalue
  refine ⟨?_, ?_, ?_, ?_⟩
  · change (values ++ [s.value]).length = (s.revision + 1).toNat + 1
    rw [hnext, List.length_append, List.length_singleton, hlength]
  · rw [List.head?_append, h.head]
    rfl
  · refine List.forall_mem_append.mpr ⟨fun event hearlier => ?_, List.forall_mem_singleton.mpr ?_⟩
    · exact (h.sound event hearlier).append s.value
    · exact ⟨hbefore, hold, hclosure, rfl, hnext, hnext.symm ▸ hlast⟩
  · change ((s.history ++ [_]).filterMap Event.revision?).map UInt64.toNat =
      (List.range (s.revision + 1).toNat).map (· + 1)
    rw [hnext, List.filterMap_append, List.map_append, h.revisions, List.range_succ,
      List.map_append]
    exact congrArg (_ ++ [·]) hnext

theorem Invariant.advance_advance (h : Invariant initial values s) {output : R}
    (hthread : s.threads[thread]? = some (.advance expected closure before output :: rest))
    (hexec : exec s.shared (.advance expected closure before output) = some effect) :
    ∃ values', Invariant initial values' (s.advance thread rest effect) := by
  obtain ⟨rfl, hbefore, hvalue, hclosure, hlast⟩ := h.fits_head hthread
  have hadvance {values' : List T} (hestablishes : Establishes initial values' effect) :=
    h.advance hthread hexec hestablishes (.inl rfl)
  rw [exec] at hexec
  split_ifs at hexec with hlt
  · cases hexec
    have hrecorded := h.recorded.advance hlt hbefore hvalue hclosure
    have hcurrent : Shared.Current (values ++ [s.shared.value])
        { s.shared with revision := s.shared.revision + 1 } := by
      change (values ++ [s.shared.value])[(s.shared.revision + 1).toNat]? = _
      rw [toNat_add_one hlt, ← h.recorded.length, List.getElem?_concat_length]
    exact ⟨_, hadvance ⟨hrecorded, fun _ => hcurrent, List.forall_mem_singleton.mpr hcurrent⟩⟩
  · cases hexec
    -- the closure has left the value, so nothing has changed
    have hsame := hlast hlt
    have hcurrent : s.shared.Current values := by
      rw [Shared.Current, hsame]
      exact hvalue
    refine ⟨values, hadvance ⟨?_, fun _ => hcurrent, List.forall_mem_singleton.mpr hcurrent⟩⟩
    exact h.recorded.record (Prod.ext hbefore.symm hsame) rfl

theorem Invariant.advance_unlockWrite (h : Invariant initial values s)
    (hthread : s.threads[thread]? = some (.unlockWrite :: rest))
    (hexec : exec s.shared .unlockWrite = some effect) :
    Invariant initial values (s.advance thread rest effect) := by
  have hcurrent : s.shared.Current values := h.fits_head hthread
  cases hexec
  refine h.advance hthread rfl ⟨?_, fun _ => hcurrent, List.forall_mem_nil _⟩ (.inl rfl)
  exact ⟨h.recorded.length, h.recorded.head, h.recorded.sound, h.recorded.revisions⟩

/-! ### Runs -/

/-- Some values of the revisions explain the history. -/
def Explained (initial : T) (s : Callers T R) : Prop := ∃ values, Invariant initial values s

theorem explained_init (initial : T) : Explained initial (init initial : Callers T R) := by
  refine ⟨[initial], ⟨rfl, rfl, ?_⟩, ⟨rfl, rfl, ?_, rfl⟩, fun _ => rfl, ?_⟩
  · intro hwriting
    cases hwriting
  · exact List.forall_mem_nil _
  · exact List.forall_mem_nil _

theorem Explained.start (h : Explained initial s) (call : Call T R) :
    Explained initial { s with threads := s.threads ++ [call.program] } := by
  obtain ⟨values, hlocked, hrecorded, hcurrent, hfits⟩ := h
  refine ⟨values, ⟨?_, ?_, hlocked.exclusive⟩, hrecorded, hcurrent, ?_⟩
  · rw [pending_start, hlocked.writers]
    cases call <;> rfl
  · rw [pending_start, hlocked.readers]
    cases call <;> rfl
  · intro i hi
    rw [List.flatten_append, List.mem_append, List.flatten_singleton] at hi
    rcases hi with hold | hnew
    · exact hfits i hold
    · cases call <;> obtain rfl := List.mem_singleton.mp hnew <;> trivial

theorem Explained.step {label : Label (Call T R) Unit} {t : Callers T R}
    (hcareful : Careful s label) (h : Explained initial s) (hstep : step s label = some t) :
    Explained initial t := by
  cases label with
  | start call =>
    cases hstep
    exact h.start call
  | step thread choice =>
    obtain ⟨i, rest, effect, hthread, hexec, rfl⟩ := step_eq_some hstep
    obtain ⟨values, h⟩ := h
    cases i with
    | lockRead => exact ⟨values, h.advance_read hthread hexec (.inl rfl)⟩
    | read => exact ⟨values, h.advance_read hthread hexec (.inr (.inl rfl))⟩
    | unlockRead => exact ⟨values, h.advance_read hthread hexec (.inr (.inr rfl))⟩
    | lockWrite expected closure => exact ⟨values, h.advance_lockWrite hthread hexec⟩
    | compare expected closure => exact ⟨values, h.advance_compare hthread hexec⟩
    | apply expected closure before =>
      have hkeeps := hcareful (.apply expected closure before) (by rw [hthread]; rfl)
      exact ⟨values, h.advance_apply hthread hexec hkeeps⟩
    | advance expected closure before output => exact h.advance_advance hthread hexec
    | unlockWrite => exact ⟨values, h.advance_unlockWrite hthread hexec⟩

end Invariant

/-- As long as no closure leaves a changed value under the old revision: reads of one revision
return one value; successful updates return the revisions one, two, three and so on; each is
applied to the value of the revision that it expected; and an update that does not succeed
changes nothing. -/
theorem revisions_determine_values (initial : T) (w : List (Label (Call T R) Unit))
    (s : Callers T R) (hcareful : Transition.MeetsGuard step Careful (init initial) w)
    (hrun : Transition.run step (init initial) w = some s) :
    (∀ revision value value', .read revision value ∈ s.shared.history →
      .read revision value' ∈ s.shared.history → value = value') ∧
    (s.shared.history.filterMap Event.revision?).map UInt64.toNat =
      (List.range s.shared.revision.toNat).map (· + 1) ∧
    (∃ values : List T, values.head? = some initial ∧
      (∀ revision value, .read revision value ∈ s.shared.history →
        values[revision.toNat]? = some value) ∧
      ∀ closure expected before after revision output,
        .update closure expected before after (.ok revision output) ∈ s.shared.history →
          before.1 = expected ∧ values[expected.toNat]? = some before.2 ∧
          closure before.2 = (after.2, some output) ∧ after.1 = revision ∧
          revision.toNat = expected.toNat + 1 ∧ values[revision.toNat]? = some after.2) ∧
    ∀ closure expected before after outcome,
      .update closure expected before after outcome ∈ s.shared.history →
        outcome.isOk = false → after = before := by
  obtain ⟨values, h⟩ := hcareful.invariant Explained.step hrun (explained_init initial)
  have hsound := h.recorded.sound
  refine ⟨?_, h.recorded.revisions, ⟨values, h.recorded.head, ?_, ?_⟩, ?_⟩
  · intro revision value value' hread hread'
    exact Option.some.inj ((hsound _ hread).symm.trans (hsound _ hread'))
  · intro revision value hread
    exact hsound _ hread
  · intro closure expected before after revision output hupdate
    exact hsound _ hupdate
  · intro closure expected before after outcome hupdate hfailed
    cases outcome with
    | ok revision output => cases hfailed
    | conflict expected actual => exact hsound _ hupdate
    | panicked => exact hsound _ hupdate

/-- An update that succeeds, one that comes too late and would panic, and a read. -/
def conflictingRun : List (Label (Call ℕ Unit) Unit) :=
  [.start (.update 0 fun value => (value + 1, some ())), .start (.update 0 fun _ => (9, none)),
    .step 0 (), .step 0 (), .step 0 (), .step 0 (), .step 0 (), .step 1 (), .step 1 (), .step 1 (),
    .start .read, .step 2 (), .step 2 (), .step 2 ()]

theorem revisions_determine_values_conflictingRun :
    ∃ s, Transition.run step (init 0) conflictingRun = some s ∧
      s.shared.history.filterMap Event.read? = [(1, 1)] ∧
      (s.shared.history.filterMap Event.revision?).map UInt64.toNat =
        (List.range s.shared.revision.toNat).map (· + 1) := by
  have hcareful : Transition.MeetsGuard step Careful (init 0) conflictingRun := by decide +kernel
  refine ⟨_, rfl, rfl, ?_⟩
  exact (revisions_determine_values 0 conflictingRun _ hcareful rfl).2.1

end MoonLightBridge.Server.Revisioned
