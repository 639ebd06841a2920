import MoonLightBridge.Client.Supervisor

/-!
# The supervisor does not get stuck

While the supervisor is not closed, exactly one party sees to it that the next attempt to
connect is made: the termination handler of the active connection, a run of `tryReconnect`,
a task in the scheduler, or a handler that is about to hand over to the scheduler. This
file shows that the duty is passed on by every step, if

* no connection whose server sends no events is installed while there are listeners, and
* the delays of the policy fit a `long` of milliseconds.

Without the first condition `client.subscribe` throws in `install` after `active` was set
and before the termination handler is registered. The attempt made in response returns at
once, as `active` is not `null`, and nobody is left to clear it. Without the second one
`toMillis` throws in `scheduleReconnect` after the flag was set.
-/

namespace MoonLightBridge.Client

open Transition

/-- The handler will clear `active` when the connection has ended. -/
def Handler.IsWaiting (handler : Handler) : Prop := handler = .registered ∨ handler = .clearing

instance decidableIsWaiting (handler : Handler) : Decidable handler.IsWaiting :=
  inferInstanceAs (Decidable (_ ∨ _))

/-- The handler has cleared `active` and has not handed over to the scheduler yet. -/
def Handler.IsHandingOver : Handler → Prop
  | .checking | .rescheduling _ => True
  | .unregistered | .registered | .clearing | .finished => False

namespace Supervisor

def handlers (s : Supervisor) : List Handler := s.connections.map Connection.handler

/-- No termination handler is between clearing `active` and handing over. -/
def Calm (handlers : List Handler) : Prop := ∀ handler ∈ handlers, ¬ handler.IsHandingOver

/-- What a run of `tryReconnect` relies on at each of its places, in a supervisor that is not
closed. -/
def Agrees (handlers : List Handler) (active : Option ℕ) (reconnectScheduled : Bool) :
    Attempt → Prop
  | .clearFlag | .rescheduling .recheck | .rescheduling .arm => active = none
  | .checkClosed | .checkActive | .connecting | .rescheduling .claim =>
    active = none ∧ reconnectScheduled = false
  | .installing k .check | .installing k .publish =>
    active = none ∧ reconnectScheduled = false ∧ handlers[k]? = some .unregistered
  | .installing _ .discard => False
  | .installing k .resubscribe | .installing k .announce | .installing k .resetAttempts
  | .installing k .resetFlag | .installing k .register =>
    active = some k ∧ reconnectScheduled = false ∧ handlers[k]? = some .unregistered

/-- The handler hands over, and will find the flag not set when it claims it. -/
def HandsOver (reconnectScheduled : Bool) : Handler → Prop
  | .checking | .rescheduling .claim => reconnectScheduled = false
  | .rescheduling .recheck | .rescheduling .arm => True
  | .unregistered | .registered | .clearing | .finished => False

variable {flag : Bool} {handler : Handler}

theorem HandsOver.isHandingOver (h : HandsOver flag handler) : handler.IsHandingOver := by
  cases handler with
  | checking | rescheduling => trivial
  | unregistered | registered | clearing | finished => exact h

/-- Who sees to it that the next attempt is made: always exactly one party. -/
inductive Duty (s : Supervisor) : Prop
  | watching (k : ℕ) (handler : Handler) (hactive : s.active = some k)
      (hhandler : s.handlers[k]? = some handler) (hwaits : handler.IsWaiting)
      (hcalm : Calm s.handlers) (hflag : s.reconnectScheduled = false)
      (hscheduled : s.scheduled = []) (hrunning : s.running = none)
  | attempting (attempt : Attempt) (hrunning : s.running = some attempt)
      (hagrees : Agrees s.handlers s.active s.reconnectScheduled attempt)
      (hcalm : Calm s.handlers) (hscheduled : s.scheduled = [])
  | scheduled (delay : ℤ) (hscheduled : s.scheduled = [delay]) (hactive : s.active = none)
      (hcalm : Calm s.handlers) (hrunning : s.running = none)
  | handingOver (k : ℕ) (handler : Handler) (hhandler : s.handlers[k]? = some handler)
      (hover : HandsOver s.reconnectScheduled handler)
      (hothers : ∀ j other, s.handlers[j]? = some other → other.IsHandingOver → j = k)
      (hactive : s.active = none) (hscheduled : s.scheduled = []) (hrunning : s.running = none)

variable {s t : Supervisor} {policy : ReconnectPolicy}

@[simp] theorem handlers_setConnection (k : ℕ) (c : Connection) :
    (s.setConnection k c).handlers = s.handlers.set k c.handler := List.map_set ..

variable {c : Connection} {k : ℕ}

theorem getElem?_handlers (hc : s.connections[k]? = some c) : s.handlers[k]? = some c.handler := by
  rw [handlers, List.getElem?_map, hc, Option.map_some]

variable {c' : Connection}

/-- A connection changes, but not its handler. -/
theorem handlers_setConnection_same (hc : s.connections[k]? = some c)
    (hsame : c'.handler = c.handler) : (s.setConnection k c').handlers = s.handlers :=
  List.map_set_of_eq hc hsame

/-- The duty only depends on five fields. -/
theorem Duty.of_eq (h : s.Duty) (hactive : t.active = s.active)
    (hflag : t.reconnectScheduled = s.reconnectScheduled) (hscheduled : t.scheduled = s.scheduled)
    (hrunning : t.running = s.running) (hhandlers : t.handlers = s.handlers) : t.Duty := by
  cases h with
  | watching k handler ha hh hw hc hf hs hr =>
    rw [← hhandlers] at hh hc
    exact .watching k handler (hactive.trans ha) hh hw hc
      (hflag.trans hf) (hscheduled.trans hs) (hrunning.trans hr)
  | attempting a hr hag hc hs =>
    rw [← hhandlers, ← hactive, ← hflag] at hag
    rw [← hhandlers] at hc
    exact .attempting a (hrunning.trans hr) hag hc (hscheduled.trans hs)
  | scheduled d hs ha hc hr =>
    rw [← hhandlers] at hc
    exact .scheduled d (hscheduled.trans hs) (hactive.trans ha) hc (hrunning.trans hr)
  | handingOver k handler hh ho hothers ha hs hr =>
    rw [← hhandlers] at hh hothers
    rw [← hflag] at ho
    exact .handingOver k handler hh ho hothers (hactive.trans ha) (hscheduled.trans hs)
      (hrunning.trans hr)

/-! ### What the parties know -/

variable {handlers : List Handler}

theorem Calm.set (h : Calm handlers) (hnot : ¬ handler.IsHandingOver) (k : ℕ) :
    Calm (handlers.set k handler) :=
  List.forall_mem_set h hnot

variable {attempt : Attempt}

theorem Duty.of_running (h : s.Duty) (hrunning : s.running = some attempt) :
    Agrees s.handlers s.active s.reconnectScheduled attempt ∧ Calm s.handlers ∧
      s.scheduled = [] := by
  cases h with
  | attempting other hother hagrees hcalm hscheduled =>
    obtain rfl := Option.mem_unique hother hrunning
    exact ⟨hagrees, hcalm, hscheduled⟩
  | watching k handler hactive hhandler hwaits hcalm hflag hscheduled hnone =>
    rw [hnone] at hrunning
    cases hrunning
  | scheduled delay hscheduled hactive hcalm hnone =>
    rw [hnone] at hrunning
    cases hrunning
  | handingOver k handler hhandler hover hothers hactive hscheduled hnone =>
    rw [hnone] at hrunning
    cases hrunning

/-- A handler that hands over has the duty. -/
theorem Duty.of_isHandingOver (h : s.Duty) (hk : s.handlers[k]? = some handler)
    (hover : handler.IsHandingOver) :
    HandsOver s.reconnectScheduled handler ∧
      (∀ j other, s.handlers[j]? = some other → other.IsHandingOver → j = k) ∧
      s.active = none ∧ s.scheduled = [] ∧ s.running = none := by
  have hbusy : ¬ Calm s.handlers := fun hcalm => hcalm handler (List.mem_of_getElem? hk) hover
  cases h with
  | handingOver j other hj hagrees hothers hactive hscheduled hrunning =>
    obtain rfl := hothers k handler hk hover
    obtain rfl := Option.mem_unique hj hk
    exact ⟨hagrees, hothers, hactive, hscheduled, hrunning⟩
  | watching _ _ _ _ _ hcalm => exact absurd hcalm hbusy
  | attempting _ _ _ hcalm => exact absurd hcalm hbusy
  | scheduled _ _ _ hcalm => exact absurd hcalm hbusy

theorem Agrees.set {active : Option ℕ} (h : Agrees handlers active flag attempt)
    (hk : handlers[k]? = some handler) (hregistered : handler ≠ .unregistered) (new : Handler) :
    Agrees (handlers.set k new) active flag attempt := by
  have hkeep (j : ℕ) (hj : handlers[j]? = some Handler.unregistered) :
      (handlers.set k new)[j]? = some Handler.unregistered := by
    have hne : k ≠ j := by
      rintro rfl
      exact hregistered (Option.mem_unique hk hj)
    rw [List.getElem?_set_ne hne, hj]
  cases attempt with
  | installing j place =>
    cases place with
    | discard => exact h
    | check | publish | resubscribe | announce | resetAttempts | resetFlag | register =>
      exact ⟨h.1, h.2.1, hkeep j h.2.2⟩
  | rescheduling place => cases place <;> exact h
  | clearFlag | checkClosed | checkActive | connecting => exact h

/-- A run that has published a connection is still installing it. -/
theorem Agrees.of_active (h : Agrees handlers (some k) flag attempt) :
    handlers[k]? = some .unregistered ∧ ∃ place, attempt = .installing k place := by
  cases attempt with
  | installing j place =>
    cases place with
    | discard => exact h.elim
    | check | publish => cases h.1
    | resubscribe | announce | resetAttempts | resetFlag | register =>
      obtain rfl := Option.some_inj.mp h.1
      exact ⟨h.2.2, _, rfl⟩
  | rescheduling place =>
    cases place with
    | claim => cases h.1
    | recheck | arm => cases h
  | clearFlag => cases h
  | checkClosed | checkActive | connecting => cases h.1

/-! ### The duty is passed on -/

/-- A registered handler that has nothing to hand over changes. -/
theorem Duty.setHandler (h : s.Duty) (hc : s.connections[k]? = some c)
    (hregistered : c.handler ≠ .unregistered) (hover : ¬ c.handler.IsHandingOver)
    (hnew : ¬ c'.handler.IsHandingOver) (hwaits : s.active = some k → c'.handler.IsWaiting) :
    (s.setConnection k c').Duty := by
  have hk := getElem?_handlers hc
  cases h with
  | watching j handler hactive hj hjwaits hcalm hflag hscheduled hrunning =>
    have hcalm' : Calm (s.setConnection k c').handlers := by
      rw [handlers_setConnection]
      exact hcalm.set hnew k
    by_cases hjk : j = k
    · subst hjk
      refine .watching j c'.handler hactive ?_ (hwaits hactive) hcalm' hflag hscheduled hrunning
      rw [handlers_setConnection, List.getElem?_set_of_eq_some hk]
    · refine .watching j handler hactive ?_ hjwaits hcalm' hflag hscheduled hrunning
      rw [handlers_setConnection, List.getElem?_set_ne (Ne.symm hjk), hj]
  | attempting attempt hrunning hagrees hcalm hscheduled =>
    refine .attempting attempt hrunning ?_ ?_ hscheduled
    · rw [handlers_setConnection]
      exact hagrees.set hk hregistered _
    · rw [handlers_setConnection]
      exact hcalm.set hnew k
  | scheduled delay hscheduled hactive hcalm hrunning =>
    refine .scheduled delay hscheduled hactive ?_ hrunning
    rw [handlers_setConnection]
    exact hcalm.set hnew k
  | handingOver j handler hj hagrees hothers hactive hscheduled hrunning =>
    have hne : k ≠ j := by
      rintro rfl
      obtain rfl := Option.mem_unique hk hj
      exact hover hagrees.isHandingOver
    refine .handingOver j handler ?_ hagrees ?_ hactive hscheduled hrunning
    · rw [handlers_setConnection, List.getElem?_set_ne hne, hj]
    · intro i other hi hiover
      rw [handlers_setConnection] at hi
      rcases List.getElem?_set_eq_some hk hi with ⟨-, rfl⟩ | hold
      · exact absurd hiover hnew
      · exact hothers i other hold hiover

/-- The handler of the active connection clears `active` and takes over. -/
theorem Duty.clear (h : s.Duty) (hc : s.connections[k]? = some c)
    (hclearing : c.handler = .clearing) (hactive : s.active = some k) :
    ({ s with active := none }.setConnection k { c with handler := .checking }).Duty := by
  have hk := getElem?_handlers hc
  cases h with
  | watching j handler _ _ _ hcalm hflag hscheduled hrunning =>
    refine .handingOver k .checking ?_ hflag ?_ rfl hscheduled hrunning
    · rw [handlers_setConnection]
      exact List.getElem?_set_of_eq_some hk _
    · intro i other hi hiover
      rw [handlers_setConnection] at hi
      rcases List.getElem?_set_eq_some hk hi with ⟨hik, -⟩ | hold
      · exact hik
      · exact absurd hiover (hcalm other (List.mem_of_getElem? hold))
  | attempting attempt _ hagrees =>
    -- a run that has published its connection has not registered the handler yet
    rw [hactive] at hagrees
    have hsame := hk.symm.trans hagrees.of_active.1
    rw [hclearing] at hsame
    cases hsame
  | scheduled _ _ hnone =>
    rw [hnone] at hactive
    cases hactive
  | handingOver _ _ _ _ _ hnone =>
    rw [hnone] at hactive
    cases hactive

/-- A handler goes on handing over. -/
theorem Duty.handOn (h : s.Duty) (hc : s.connections[k]? = some c) (hover : c.handler.IsHandingOver)
    (hnew : HandsOver flag c'.handler) :
    ({ s with reconnectScheduled := flag }.setConnection k c').Duty := by
  have hk := getElem?_handlers hc
  obtain ⟨-, hothers, hactive, hscheduled, hrunning⟩ := h.of_isHandingOver hk hover
  refine .handingOver k c'.handler ?_ hnew ?_ hactive hscheduled hrunning
  · rw [handlers_setConnection]
    exact List.getElem?_set_of_eq_some hk _
  · intro i other hi hiover
    rw [handlers_setConnection] at hi
    rcases List.getElem?_set_eq_some hk hi with ⟨hik, -⟩ | hold
    · exact hik
    · exact hothers i other hold hiover

theorem rescheduleStep_claim (hflag : s.reconnectScheduled = false) :
    rescheduleStep policy s .claim =
      ({ s with reconnectScheduled := true }, some .recheck) := by
  simp [rescheduleStep, hflag]

theorem rescheduleStep_recheck (hopen : s.closed = false) :
    rescheduleStep policy s .recheck = (s, some .arm) := by
  simp [rescheduleStep, hopen]

theorem exists_rescheduleStep_arm (hfits : policy.Fits) (hshutdown : s.isShutdown = false) :
    ∃ delay, rescheduleStep policy s .arm =
      ({ s with failedAttempts := s.failedAttempts + 1
                scheduled := s.scheduled ++ [delay] }, none) := by
  obtain ⟨delay, hdelay⟩ := hfits.exists_bounded s.failedAttempts
  exact ⟨delay, by simp [rescheduleStep, hdelay, hshutdown]⟩

theorem Duty.rescheduleHandler (hfits : policy.Fits) (hopen : s.closed = false)
    (hshutdown : s.isShutdown = false) (h : s.Duty) (hc : s.connections[k]? = some c)
    {place : Reschedule} (hplace : c.handler = .rescheduling place)
    (hstep : handlerStep policy s k c (.rescheduling place) = some t) : t.Duty := by
  have hk := getElem?_handlers hc
  have hover : c.handler.IsHandingOver := by rw [hplace]; trivial
  obtain ⟨hflag, hothers, hactive, hscheduled, hrunning⟩ := h.of_isHandingOver hk hover
  rw [hplace] at hflag
  cases place with
  | claim =>
    simp only [handlerStep, rescheduleStep_claim hflag, Option.some_inj] at hstep
    subst hstep
    exact h.handOn hc hover trivial
  | recheck =>
    simp only [handlerStep, rescheduleStep_recheck hopen, Option.some_inj] at hstep
    subst hstep
    exact h.handOn hc hover trivial
  | arm =>
    obtain ⟨delay, harm⟩ := exists_rescheduleStep_arm hfits hshutdown
    simp only [handlerStep, harm, Option.some_inj] at hstep
    subst hstep
    refine .scheduled delay ?_ hactive ?_ hrunning
    · rw [setConnection, hscheduled, List.nil_append]
    · -- the only handler that handed over has finished
      intro handler hmem hstill
      obtain ⟨j, hj⟩ := List.mem_iff_getElem?.mp hmem
      rw [handlers_setConnection] at hj
      by_cases hjk : j = k
      · subst hjk
        cases (List.getElem?_set_of_eq_some hk _).symm.trans hj
        exact hstill
      · rw [List.getElem?_set_ne (Ne.symm hjk)] at hj
        exact hjk (hothers j handler hj hstill)

theorem Duty.handlerStep (hfits : policy.Fits) (hopen : s.closed = false)
    (hshutdown : s.isShutdown = false) (h : s.Duty) (hc : s.connections[k]? = some c)
    (hstep : handlerStep policy s k c c.handler = some t) : t.Duty := by
  cases hhandler : c.handler with
  | unregistered | finished =>
    rw [hhandler] at hstep
    cases hstep
  | registered =>
    rw [hhandler, Supervisor.handlerStep] at hstep
    split at hstep
    · cases hstep
    · cases hstep
      refine h.setHandler hc ?_ ?_ id fun _ => .inr rfl
      · rw [hhandler]; exact Handler.noConfusion
      · rw [hhandler]; exact id
  | clearing =>
    rw [hhandler, Supervisor.handlerStep] at hstep
    split at hstep
    · rename_i hactive
      cases hstep
      exact h.clear hc hhandler hactive
    · rename_i hactive
      cases hstep
      refine h.setHandler hc ?_ ?_ id fun hactive' => absurd hactive' hactive
      · rw [hhandler]; exact Handler.noConfusion
      · rw [hhandler]; exact id
  | checking =>
    rw [hhandler, Supervisor.handlerStep, hopen] at hstep
    cases hstep
    have hover : c.handler.IsHandingOver := by rw [hhandler]; trivial
    obtain ⟨hflag, -⟩ := h.of_isHandingOver (getElem?_handlers hc) hover
    rw [hhandler] at hflag
    exact h.handOn hc hover hflag
  | rescheduling place =>
    rw [hhandler] at hstep
    exact h.rescheduleHandler hfits hopen hshutdown hc hhandler hstep

/-- The connection on which the run is about to subscribe the listeners again. -/
def resubscribing (s : Supervisor) : Option Connection :=
  match s.running with
  | some (.installing k .resubscribe) => s.connections[k]?
  | _ => none

/-- A server that sends no events is not met while there are listeners to subscribe again. -/
def Resubscribes (s : Supervisor) (label : SupervisorLabel) : Prop :=
  label = .attempt → ∀ c ∈ s.resubscribing, s.listeners = 0 ∨ c.supportsEvents = true

instance decidableResubscribes (s : Supervisor) (label : SupervisorLabel) :
    Decidable (s.Resubscribes label) :=
  inferInstanceAs (Decidable (_ → _))

theorem Duty.installStep (hopen : s.closed = false) (h : s.Duty) {place : Install}
    (hrunning : s.running = some (.installing k place)) (hc : s.connections[k]? = some c)
    (hguard : s.Resubscribes .attempt) : (installStep s k c place).Duty := by
  obtain ⟨hagrees, hcalm, hscheduled⟩ := h.of_running hrunning
  cases place with
  | check =>
    rw [Supervisor.installStep, hopen]
    exact .attempting _ rfl hagrees hcalm hscheduled
  | discard => exact hagrees.elim
  | publish => exact .attempting _ rfl ⟨rfl, hagrees.2⟩ hcalm hscheduled
  | resubscribe =>
    have hmet : c ∈ s.resubscribing := by rw [resubscribing, hrunning]; exact hc
    rw [Supervisor.installStep, if_pos (hguard rfl c hmet)]
    exact .attempting _ rfl hagrees hcalm hscheduled
  | announce | resetAttempts => exact .attempting _ rfl hagrees hcalm hscheduled
  | resetFlag => exact .attempting _ rfl ⟨hagrees.1, rfl, hagrees.2.2⟩ hcalm hscheduled
  | register =>
    have hhandlers : s.handlers.set k .registered =
        (s.setConnection k { c with handler := .registered }).handlers :=
      (handlers_setConnection k { c with handler := .registered }).symm
    refine .watching k .registered hagrees.1 ?_ (.inl rfl) ?_ hagrees.2.1 hscheduled rfl
    · exact hhandlers ▸ List.getElem?_set_of_eq_some (getElem?_handlers hc) _
    · exact hhandlers ▸ hcalm.set id k

theorem Duty.attemptStep (hfits : policy.Fits) (hopen : s.closed = false)
    (hshutdown : s.isShutdown = false) (h : s.Duty) (hrunning : s.running = some attempt)
    (hguard : s.Resubscribes .attempt) (hstep : attemptStep policy s attempt = some t) :
    t.Duty := by
  obtain ⟨hagrees, hcalm, hscheduled⟩ := h.of_running hrunning
  cases attempt with
  | clearFlag =>
    cases hstep
    exact .attempting _ rfl ⟨hagrees, rfl⟩ hcalm hscheduled
  | checkClosed =>
    cases hstep
    rw [hopen]
    exact .attempting _ rfl hagrees hcalm hscheduled
  | checkActive =>
    cases hstep
    rw [hagrees.1]
    exact .attempting _ rfl ⟨rfl, hagrees.2⟩ hcalm hscheduled
  | connecting => cases hstep
  | installing k place =>
    obtain ⟨c, hc, rfl⟩ := Option.map_eq_some_iff.mp hstep
    exact h.installStep hopen hrunning hc hguard
  | rescheduling place =>
    cases place with
    | claim =>
      simp only [Supervisor.attemptStep, rescheduleStep_claim hagrees.2, Option.some_inj] at hstep
      subst hstep
      exact .attempting _ rfl hagrees.1 hcalm hscheduled
    | recheck =>
      simp only [Supervisor.attemptStep, rescheduleStep_recheck hopen, Option.some_inj] at hstep
      subst hstep
      exact .attempting _ rfl hagrees hcalm hscheduled
    | arm =>
      obtain ⟨delay, harm⟩ := exists_rescheduleStep_arm hfits hshutdown
      simp only [Supervisor.attemptStep, harm, Option.some_inj] at hstep
      subst hstep
      exact .scheduled delay (by rw [hscheduled]; rfl) hagrees hcalm rfl

theorem Duty.start (h : s.Duty) {delay : ℤ} {rest : List ℤ} (hidle : s.running = none)
    (hscheduled : s.scheduled = delay :: rest) :
    { s with scheduled := rest, running := some .clearFlag : Supervisor }.Duty := by
  cases h with
  | scheduled other hother hactive hcalm =>
    obtain ⟨-, rfl⟩ := List.cons.inj (hscheduled.symm.trans hother)
    exact .attempting _ rfl hactive hcalm rfl
  | watching _ _ _ _ _ _ _ hnil =>
    rw [hnil] at hscheduled
    cases hscheduled
  | attempting attempt hrunning =>
    rw [hidle] at hrunning
    cases hrunning
  | handingOver _ _ _ _ _ _ hnil =>
    rw [hnil] at hscheduled
    cases hscheduled

theorem Duty.connected (h : s.Duty) (hrunning : s.running = some .connecting)
    (supportsEvents : Bool) :
    { s with connections := s.connections ++ [{ supportsEvents }]
             running := some (.installing s.connections.length .check) : Supervisor }.Duty := by
  obtain ⟨hagrees, hcalm, hscheduled⟩ := h.of_running hrunning
  have hhandlers : (s.connections ++ [{ supportsEvents : Connection }]).map Connection.handler =
      s.handlers ++ [.unregistered] := List.map_append
  refine .attempting _ rfl ⟨hagrees.1, hagrees.2, ?_⟩ ?_ hscheduled
  · rw [handlers, hhandlers, List.getElem?_concat_eq_some]
    exact .inr ⟨(List.length_map _).symm, rfl⟩
  · rw [handlers, hhandlers]
    exact List.forall_mem_concat hcalm id

theorem Duty.drainingStep (h : s.Duty) (hannounced : s.Announced) {i : ℕ} {place : Draining}
    (hplace : s.drainings[i]? = some place) (hstep : drainingStep s i place = some t)
    (hopen : t.closed = false) : t.Duty := by
  have hclosed : place.HasClosed → s.closed = true :=
    hannounced.drainings place (List.mem_of_getElem? hplace)
  cases place with
  | lookUp | readActive =>
    cases hstep
    exact h.of_eq rfl rfl rfl rfl rfl
  | drainClient k =>
    obtain ⟨c, hc, rfl⟩ := Option.map_eq_some_iff.mp hstep
    have hsame : (s.setConnection k { c with isDraining := true }).handlers = s.handlers :=
      handlers_setConnection_same hc rfl
    exact h.of_eq rfl rfl rfl rfl hsame
  | claim client =>
    rw [Supervisor.drainingStep] at hstep
    split at hstep <;>
    · cases hstep
      exact h.of_eq rfl rfl rfl rfl rfl
  | setClosed client =>
    cases hstep
    cases hopen
  | shutDown client =>
    cases hstep
    exact absurd ((hclosed trivial).symm.trans hopen) Bool.noConfusion
  | listening k =>
    obtain ⟨c, -, hstep⟩ := Option.bind_eq_some_iff.mp hstep
    obtain ⟨-, hstep⟩ := Option.ite_none_left_eq_some.mp hstep
    cases hstep
    exact absurd ((hclosed trivial).symm.trans hopen) Bool.noConfusion
  | returned => cases hstep

/-- The supervisor works as it should as long as it is not closed. -/
structure Supervised (s : Supervisor) : Prop where
  announced : s.Announced
  duty : s.closed = false → s.Duty

/-- The duty is passed on by every step that meets the condition. -/
theorem Supervised.step (hfits : policy.Fits) {label : SupervisorLabel}
    (hguard : s.Resubscribes label) (h : s.Supervised) (hstep : step policy s label = some t) :
    t.Supervised := by
  refine ⟨h.announced.step hstep, fun hstill => ?_⟩
  have hopen : s.closed = false := by
    refine Bool.eq_false_of_not_eq_true fun hclosed => ?_
    rw [h.announced.closed_of_step hclosed hstep] at hstill
    cases hstill
  have hshutdown : s.isShutdown = false := by
    refine Bool.eq_false_of_not_eq_true fun hshutdown => ?_
    rw [h.announced.isShutdown hshutdown] at hopen
    cases hopen
  have hduty := h.duty hopen
  cases label with
  | start =>
    simp only [Supervisor.step] at hstep
    split at hstep
    · rename_i hidle hscheduled
      cases hstep
      exact hduty.start hidle hscheduled
    · cases hstep
  | attempt =>
    obtain ⟨attempt, hrunning, hstep⟩ := Option.bind_eq_some_iff.mp hstep
    exact hduty.attemptStep hfits hopen hshutdown hrunning hguard hstep
  | connected supportsEvents =>
    obtain ⟨hrunning, hstep⟩ := Option.ite_none_right_eq_some.mp hstep
    cases hstep
    exact hduty.connected hrunning supportsEvents
  | refused =>
    obtain ⟨hrunning, hstep⟩ := Option.ite_none_right_eq_some.mp hstep
    cases hstep
    obtain ⟨hagrees, hcalm, hscheduled⟩ := hduty.of_running hrunning
    exact .attempting _ rfl hagrees hcalm hscheduled
  | terminate k =>
    obtain ⟨c, hc, rfl⟩ := Option.map_eq_some_iff.mp hstep
    exact hduty.of_eq rfl rfl rfl rfl (handlers_setConnection_same hc rfl)
  | handler k =>
    obtain ⟨c, hc, hstep⟩ := Option.bind_eq_some_iff.mp hstep
    exact hduty.handlerStep hfits hopen hshutdown hc hstep
  | subscribe | close | drain =>
    cases hstep
    exact hduty.of_eq rfl rfl rfl rfl rfl
  | unsubscribe =>
    obtain ⟨-, hstep⟩ := Option.ite_none_left_eq_some.mp hstep
    cases hstep
    exact hduty.of_eq rfl rfl rfl rfl rfl
  | closing i =>
    obtain ⟨place, hplace, hstep⟩ := Option.bind_eq_some_iff.mp hstep
    rw [h.announced.closed_of_closingStep hplace hstep] at hstill
    cases hstill
  | draining i =>
    obtain ⟨place, hplace, hstep⟩ := Option.bind_eq_some_iff.mp hstep
    exact hduty.drainingStep h.announced hplace hstep hstill

theorem supervised_init (start : Start) : (init start).Supervised := by
  refine ⟨announced_init start, fun _ => ?_⟩
  cases start with
  | immediate supportsEvents =>
    refine .attempting _ rfl ⟨rfl, rfl, rfl⟩ ?_ rfl
    intro handler hmem
    rw [List.mem_singleton.mp hmem]
    exact id
  | deferred => exact .scheduled 0 rfl rfl (List.forall_mem_nil _) rfl

/-! ### The supervisor never gets stuck -/

/-- The active connection has ended or will end, and its handler sees to it. -/
def IsWatched (s : Supervisor) (k : ℕ) : Prop :=
  ∃ c, s.connections[k]? = some c ∧ c.handler.IsWaiting

/-- The supervisor will act: there is a handler, a run of `tryReconnect` or a task for one (or a
handler that is creating it), at most one run is scheduled or running, and a connection that
has ended does not stay in `active`. -/
def NeverStuck (s : Supervisor) : Prop :=
  ((∃ k, s.active = some k ∧ s.IsWatched k) ∨ s.running ≠ none ∨ s.scheduled ≠ [] ∨
    ∃ c ∈ s.connections, c.handler.IsHandingOver) ∧
  s.scheduled.length + s.running.toList.length ≤ 1 ∧
  ∀ k c, s.active = some k → s.connections[k]? = some c → c.isOpen = false →
    s.IsWatched k ∨ ∃ place, s.running = some (.installing k place)

theorem Duty.neverStuck (h : s.Duty) : s.NeverStuck := by
  cases h with
  | watching k handler hactive hhandler hwaits _ _ hscheduled hrunning =>
    obtain ⟨c, hc, rfl⟩ := Option.map_eq_some_iff.mp (List.getElem?_map.symm.trans hhandler)
    refine ⟨.inl ⟨k, hactive, c, hc, hwaits⟩, ?_, fun j _ hj _ _ => ?_⟩
    · rw [hscheduled, hrunning]
      exact Nat.zero_le 1
    · obtain rfl := Option.mem_unique hactive hj
      exact .inl ⟨c, hc, hwaits⟩
  | attempting attempt hrunning hagrees _ hscheduled =>
    refine ⟨.inr (.inl ?_), ?_, fun j _ hj _ _ => ?_⟩
    · rw [hrunning]
      exact Option.some_ne_none attempt
    · rw [hscheduled, hrunning]
      exact le_refl 1
    · rw [hj] at hagrees
      obtain ⟨-, place, rfl⟩ := hagrees.of_active
      exact .inr ⟨place, hrunning⟩
  | scheduled delay hscheduled hactive _ hrunning =>
    refine ⟨.inr (.inr (.inl ?_)), ?_, fun j _ hj _ _ => ?_⟩
    · rw [hscheduled]
      exact List.cons_ne_nil delay []
    · rw [hscheduled, hrunning]
      exact le_refl 1
    · rw [hactive] at hj
      cases hj
  | handingOver k handler hhandler hover _ hactive hscheduled hrunning =>
    obtain ⟨c, hc, rfl⟩ := Option.map_eq_some_iff.mp (List.getElem?_map.symm.trans hhandler)
    refine ⟨.inr (.inr (.inr ⟨c, List.mem_of_getElem? hc, ?_⟩)), ?_, fun j _ hj _ _ => ?_⟩
    · exact hover.isHandingOver
    · rw [hscheduled, hrunning]
      exact Nat.zero_le 1
    · rw [hactive] at hj
      cases hj

/-- A listener subscribes, the first attempt succeeds, the connection is lost, and its handler
schedules the next attempt. -/
def reconnecting : List SupervisorLabel :=
  [.subscribe, .start, .attempt, .attempt, .attempt, .connected true] ++
    List.replicate 7 .attempt ++ [.terminate 0] ++ List.replicate 6 (.handler 0)

def reconnected : Supervisor where
  reconnectScheduled := true
  failedAttempts := 1
  firstConnection := some true
  listeners := 1
  scheduled := [100]
  connections := [{ supportsEvents := true, isOpen := false, handler := .finished }]

/-- The server of the first connection sends no events: the attempt fails halfway through
`install`, and the next one finds `active` set. -/
def withoutEvents : List SupervisorLabel :=
  [.subscribe, .start, .attempt, .attempt, .attempt, .connected false] ++
    List.replicate 6 .attempt ++ [.start, .attempt, .attempt, .attempt, .terminate 0]

def stuck : Supervisor where
  active := some 0
  failedAttempts := 1
  listeners := 1
  connections := [{ supportsEvents := false, isOpen := false }]

end Supervisor

end MoonLightBridge.Client
